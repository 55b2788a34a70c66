import Filogic.Hnat.Fields

/-! `hnat_nf_hook.c`: a neighbour update takes the bound flows to that neighbour out of the table
when its MAC address has changed. The addresses are compared as strings, and the key of an IPv6
neighbour is read like that of an IPv4 one. -/

namespace Filogic.Hnat
open Lib

/-- The loop of `strncmp` from byte `k` on. -/
def strncmpFrom (a b : Bytes) : (left k : Nat) → Int
  | 0, _ => 0
  | left + 1, k =>
    if a k ≠ b k then if a k < b k then -1 else 1
    else if a k = 0 then 0
    else strncmpFrom a b left (k + 1)

/-- `strncmp` -/
def strncmp (a b : Bytes) (n : Nat) : Int := strncmpFrom a b n 0

/-- `struct neighbour`: family, `primary_key` and `ha`. -/
structure Neighbour where
  ipv6 : Bool
  primaryKey : Bytes
  ha : Bytes

/-- `h_dest`: the two swapped words, as they are stored. -/
def hDest (entry : FoeEntry) : Bytes :=
  let hi := swab32 (entry.union.u32 48)
  let lo := swab16 (entry.union.u16 54)
  fun k => if k < 4 then byte32 hi k else if k = 4 then lo.toUInt8 else (lo >>> 8).toUInt8

/-- The state and the time stamp of `udib1`. Before NETSYS v2 a bound entry has more bits of the
time stamp than an unbound one. -/
def invalidate (netsys : Netsys) (time : UInt8) (entry : FoeEntry) : FoeEntry :=
  let timeStamp := match netsys with
    | .v1 => entry.bfib1.timeStamp / 2 ^ 8 * 2 ^ 8 + time.toNat
    | .v2 | .v3 => time.toNat
  { entry with bfib1 := { entry.bfib1 with state := .invalid, timeStamp := timeStamp } }

/-- One round of the loops of `foe_clear_entry`; `time` is the free-running timer at that moment. -/
def clearStale (netsys : Netsys) (present : Nat → Bool) (neigh : Neighbour)
    (time : Nat × Nat → UInt8) (foe : Nat → Nat → FoeEntry) (place : Nat × Nat) :
    Nat → Nat → FoeEntry :=
  let entry := foe place.1 place.2
  if present place.1 ∧ entry.bfib1.state = .bind ∧
      entry.union.u32 24 = swab32 (neigh.primaryKey.u32 0) ∧ entry.bfib1.pktType = .ipv4Hnapt ∧
      strncmp (hDest entry) neigh.ha 6 ≠ 0 then
    writeAt foe place (invalidate netsys (time place) entry)
  else foe

/-- `foe_clear_entry`, which leaves out the PPEs without a table. -/
def foeClearEntry (netsys : Netsys) (ppeNum foeEtryNum : Nat) (present : Nat → Bool)
    (neigh : Neighbour) (time : Nat × Nat → UInt8) (foe : Nat → Nat → FoeEntry) :
    Nat → Nat → FoeEntry :=
  (List.range ppeNum ×ˢ List.range foeEtryNum).foldl (clearStale netsys present neigh time) foe

/-- `nf_hnat_netevent_handler`: a neighbour update, with or without a device, or another event. -/
inductive NeteventEvent where
  | neighUpdate (neigh : Neighbour) (dev : Bool)
  | other

def nfHnatNeteventHandler (netsys : Netsys) (ppeNum foeEtryNum : Nat) (present : Nat → Bool)
    (time : Nat × Nat → UInt8) (foe : Nat → Nat → FoeEntry) : NeteventEvent → Nat → Nat → FoeEntry
  | .neighUpdate neigh true => foeClearEntry netsys ppeNum foeEtryNum present neigh time foe
  | .neighUpdate _ false | .other => foe

/-- A bound IPv4 NAPT flow to these four bytes, after translation. -/
def BoundToward (key : Bytes) (entry : FoeEntry) : Prop :=
  entry.bfib1.state = .bind ∧ entry.bfib1.pktType = .ipv4Hnapt ∧
    addressAt entry.union 24 1 = key.slice 0 4

instance (key : Bytes) (entry : FoeEntry) : Decidable (BoundToward key entry) :=
  inferInstanceAs (Decidable (_ ∧ _ ∧ _))

/-- The flow goes to the neighbour, and its MAC address is no longer the neighbour's. -/
def Stale (neigh : Neighbour) (entry : FoeEntry) : Prop :=
  neigh.ipv6 = false ∧ BoundToward neigh.primaryKey entry ∧
    macAt entry.union 48 54 ≠ neigh.ha.slice 0 6

/-- The stale flows of the tables are invalid afterwards, and all others are as before. -/
def ClearsStale (netsys : Netsys) (ppeNum foeEtryNum : Nat) (present : Nat → Bool)
    (neigh : Neighbour) (time : Nat × Nat → UInt8) (foe after : Nat → Nat → FoeEntry) : Prop :=
  ∀ ppe index,
    (ppe < ppeNum ∧ index < foeEtryNum ∧ present ppe = true ∧ Stale neigh (foe ppe index) →
      after ppe index = invalidate netsys (time (ppe, index)) (foe ppe index)) ∧
    (¬(ppe < ppeNum ∧ index < foeEtryNum ∧ present ppe = true ∧ Stale neigh (foe ppe index)) →
      after ppe index = foe ppe index)

/-- Two addresses have a zero byte in the same place and agree up to it. -/
def EndAlike (a b : List UInt8) : Prop :=
  ∃ k < 6, a[k]? = some 0 ∧ ∀ j ≤ k, a[j]? = b[j]?

/-- For an IPv4 neighbour no flow to it has a MAC address that differs behind a common zero byte.
For an IPv6 neighbour every flow to the four bytes that its key starts with has the neighbour's
MAC address, or one that agrees up to a zero byte. -/
def StringSafe (ppeNum foeEtryNum : Nat) (present : Nat → Bool) (neigh : Neighbour)
    (foe : Nat → Nat → FoeEntry) : Prop :=
  ∀ ppe < ppeNum, ∀ index < foeEtryNum, present ppe = true →
    BoundToward neigh.primaryKey (foe ppe index) →
    let old := macAt (foe ppe index).union 48 54
    let new := neigh.ha.slice 0 6
    if neigh.ipv6 then old = new ∨ EndAlike old new else old = new ∨ ¬EndAlike old new

theorem strncmpFrom_zero (a b : Bytes) (left k : Nat) :
    strncmpFrom a b left k = 0 ↔ (∀ j < left, a (k + j) = b (k + j)) ∨
      ∃ i < left, a (k + i) = 0 ∧ ∀ j ≤ i, a (k + j) = b (k + j) := by
  induction left generalizing k with
  | zero => simp [strncmpFrom]
  | succ left ih =>
    rw [strncmpFrom]
    by_cases differ : a k ≠ b k
    · have result : (if a k < b k then (-1 : Int) else 1) ≠ 0 := by split_ifs <;> decide
      rw [if_pos differ]
      apply iff_of_false result
      rintro (all | ⟨i, -, -, all⟩)
      · exact differ (all 0 (Nat.succ_pos left))
      · exact differ (all 0 (Nat.zero_le i))
    · have same : a k = b k := not_not.mp differ
      rw [if_neg differ]
      by_cases zero : a k = 0
      · rw [if_pos zero]
        apply iff_of_true rfl
        right
        exact ⟨0, Nat.succ_pos left, zero, fun j le => by rwa [Nat.le_zero.mp le]⟩
      · rw [if_neg zero, ih]
        apply or_congr
        · rw [Nat.forall_lt_succ_left']
          simp only [Nat.add_zero, same, true_and]
          exact forall_congr' fun j => by rw [Nat.add_assoc, Nat.add_comm 1 j]
        · constructor
          · rintro ⟨i, inside, last, all⟩
            refine ⟨i + 1, Nat.succ_lt_succ inside, ?_, ?_⟩
            · rwa [Nat.add_comm i 1, ← Nat.add_assoc]
            · intro j le
              cases j with
              | zero => exact same
              | succ j =>
                rw [Nat.add_comm j 1, ← Nat.add_assoc]
                exact all j (Nat.le_of_succ_le_succ le)
          · rintro ⟨i, inside, last, all⟩
            cases i with
            | zero => exact absurd last zero
            | succ i =>
              refine ⟨i, Nat.lt_of_succ_lt_succ inside, ?_, ?_⟩
              · rwa [Nat.add_assoc, Nat.add_comm 1 i]
              · intro j le
                rw [Nat.add_assoc, Nat.add_comm 1 j]
                exact all (j + 1) (Nat.succ_le_succ le)

theorem hDest_slice (entry : FoeEntry) : (hDest entry).slice 0 6 = macAt entry.union 48 54 := by
  obtain ⟨first, second, third, fourth⟩ := byte32_le32 (entry.union 51) (entry.union 50)
    (entry.union 49) (entry.union 48)
  have hi : swab32 (entry.union.u32 48) = le32 (entry.union 51) (entry.union 50)
      (entry.union 49) (entry.union 48) := swab32_le32 _ _ _ _
  have lo : swab16 (entry.union.u16 54) = le16 (entry.union 55) (entry.union 54) :=
    swab16_le16 _ _
  simp [hDest, Bytes.slice, List.range_succ, macAt, hi, lo, first, second, third, fourth,
    le16_low, le16_high]

theorem slice_getElem? (m : Bytes) (start len k : Nat) (inside : k < len) :
    (m.slice start len)[k]? = some (m (start + k)) := by
  simp [Bytes.slice, inside]

theorem strncmp_zero (a b : Bytes) :
    strncmp a b 6 = 0 ↔ a.slice 0 6 = b.slice 0 6 ∨ EndAlike (a.slice 0 6) (b.slice 0 6) := by
  have at_ (m : Bytes) (k : Nat) (inside : k < 6) : (m.slice 0 6)[k]? = some (m (0 + k)) :=
    slice_getElem? m 0 6 k inside
  rw [strncmp, strncmpFrom_zero]
  apply or_congr
  · constructor
    · intro all
      apply List.map_congr_left
      exact fun j member => all j (List.mem_range.mp member)
    · intro same j inside
      have here : (a.slice 0 6)[j]? = (b.slice 0 6)[j]? := by rw [same]
      rwa [at_ a j inside, at_ b j inside, Option.some_inj] at here
  · apply exists_congr
    intro i
    constructor
    · rintro ⟨inside, zero, all⟩
      refine ⟨inside, by rw [at_ a i inside, zero], fun j le => ?_⟩
      rw [at_ a j (by omega), at_ b j (by omega), all j le]
    · rintro ⟨inside, zero, all⟩
      rw [at_ a i inside, Option.some_inj] at zero
      refine ⟨inside, zero, fun j le => ?_⟩
      have here := all j le
      rwa [at_ a j (by omega), at_ b j (by omega), Option.some_inj] at here

theorem foeClearEntry_foe (netsys : Netsys) (ppeNum foeEtryNum : Nat) (present : Nat → Bool)
    (neigh : Neighbour) (time : Nat × Nat → UInt8) (foe : Nat → Nat → FoeEntry)
    (ppe index : Nat) :
    foeClearEntry netsys ppeNum foeEtryNum present neigh time foe ppe index =
      if (ppe < ppeNum ∧ index < foeEtryNum) ∧ present ppe = true ∧
          BoundToward neigh.primaryKey (foe ppe index) ∧
          strncmp (hDest (foe ppe index)) neigh.ha 6 ≠ 0 then
        invalidate netsys (time (ppe, index)) (foe ppe index)
      else foe ppe index := by
  have writes (foe : Nat → Nat → FoeEntry) (place : Nat × Nat) :
      clearStale netsys present neigh time foe place = writeAt foe place
        (if present place.1 = true ∧ BoundToward neigh.primaryKey (foe place.1 place.2) ∧
            strncmp (hDest (foe place.1 place.2)) neigh.ha 6 ≠ 0 then
          invalidate netsys (time place) (foe place.1 place.2)
        else foe place.1 place.2) := by
    have toward (entry : FoeEntry) : BoundToward neigh.primaryKey entry ↔
        entry.bfib1.state = .bind ∧
          entry.union.u32 24 = swab32 (neigh.primaryKey.u32 0) ∧
          entry.bfib1.pktType = .ipv4Hnapt := by
      rw [BoundToward, show (4 : Nat) = 4 * 1 from rfl, addressAt_slice]
      simp [and_comm]
    unfold clearStale
    dsimp only
    generalize hit : foe place.1 place.2 = entry
    simp only [toward, and_assoc]
    split_ifs with stale
    · rfl
    · rw [← hit]
      exact (writeAt_self foe place).symm
  have swept := sweep_tables (clearStale netsys present neigh time) id
    (fun place entry => if present place.1 = true ∧ BoundToward neigh.primaryKey entry ∧
      strncmp (hDest entry) neigh.ha 6 ≠ 0 then invalidate netsys (time place) entry else entry)
    writes ppeNum foeEtryNum foe ppe index
  refine swept.trans ?_
  by_cases inside : ppe < ppeNum ∧ index < foeEtryNum
  · simp only [inside, and_self, true_and, if_true, id]
  · rw [if_neg inside, if_neg (fun both => inside both.1)]
    rfl

theorem invalidate_ne (netsys : Netsys) (time : UInt8) (entry : FoeEntry)
    (bound : entry.bfib1.state = .bind) : invalidate netsys time entry ≠ entry := by
  intro same
  have state : FoeEntryState.invalid = entry.bfib1.state :=
    congrArg (fun entry => entry.bfib1.state) same
  rw [bound] at state
  exact absurd state (by decide)

/-- An update clears the stale flows, and those only, exactly if no comparison as strings tells
other than the bytes do. -/
theorem clears_stale_iff (netsys : Netsys) (ppeNum foeEtryNum : Nat) (present : Nat → Bool)
    (neigh : Neighbour) (time : Nat × Nat → UInt8) (foe : Nat → Nat → FoeEntry) :
    StringSafe ppeNum foeEtryNum present neigh foe ↔
      ClearsStale netsys ppeNum foeEtryNum present neigh time foe
        (nfHnatNeteventHandler netsys ppeNum foeEtryNum present time foe
          (.neighUpdate neigh true)) := by
  have result : ∀ ppe index, nfHnatNeteventHandler netsys ppeNum foeEtryNum present time foe
      (.neighUpdate neigh true) ppe index = _ :=
    foeClearEntry_foe netsys ppeNum foeEtryNum present neigh time foe
  have told (entry : FoeEntry) : strncmp (hDest entry) neigh.ha 6 = 0 ↔
      macAt entry.union 48 54 = neigh.ha.slice 0 6 ∨
        EndAlike (macAt entry.union 48 54) (neigh.ha.slice 0 6) := by
    rw [strncmp_zero, hDest_slice]
  constructor
  · intro safe ppe index
    rw [result]
    constructor
    · rintro ⟨inside, below, table, ipv4, toward, differs⟩
      have at_ := safe ppe inside index below table toward
      rw [ipv4, if_neg Bool.false_ne_true] at at_
      rw [if_pos]
      refine ⟨⟨inside, below⟩, table, toward, fun zero => ?_⟩
      rcases (told _).mp zero with same | alike
      · exact differs same
      · exact (at_.resolve_left differs) alike
    · intro notStale
      rw [if_neg]
      rintro ⟨⟨inside, below⟩, table, toward, differ⟩
      have at_ := safe ppe inside index below table toward
      have differs : macAt (foe ppe index).union 48 54 ≠ neigh.ha.slice 0 6 :=
        fun same => differ ((told _).mpr (Or.inl same))
      cases family : neigh.ipv6 with
      | true =>
        rw [family, if_pos rfl] at at_
        exact differ ((told _).mpr at_)
      | false => exact notStale ⟨inside, below, table, family, toward, differs⟩
  · intro clears ppe inside index below table toward
    obtain ⟨stale, fresh⟩ := clears ppe index
    rw [result] at stale fresh
    dsimp only
    by_cases same : macAt (foe ppe index).union 48 54 = neigh.ha.slice 0 6
    · simp [same]
    · cases family : neigh.ipv6 with
      | true =>
        rw [if_pos rfl, ← told]
        by_contra differ
        have kept := fresh (fun due => Bool.noConfusion (family.symm.trans due.2.2.2.1))
        rw [if_pos ⟨⟨inside, below⟩, table, toward, differ⟩] at kept
        exact invalidate_ne _ _ _ toward.1 kept
      | false =>
        rw [if_neg Bool.false_ne_true]
        right
        intro alike
        have cleared := stale ⟨inside, below, table, family, toward, same⟩
        rw [if_neg (fun both => both.2.2.2 ((told _).mpr (Or.inr alike)))] at cleared
        exact invalidate_ne _ _ _ toward.1 cleared.symm

/-- A bound flow to 192.168.1.2 at the MAC address 02:00:00:00:00:01. -/
def flowToHost : FoeEntry :=
  { bfib1 := { FoeEntry.zero.bfib1 with state := .bind }
    union := fun k => if k = 27 then 192 else if k = 26 then 168 else if k = 25 then 1
      else if k = 24 then 2 else if k = 51 then 2 else if k = 54 then 1 else 0 }

/-- The host with another MAC address, which agrees with the old one up to the zero byte. -/
def hostWithMac (last : UInt8) : Neighbour :=
  { ipv6 := false
    primaryKey := fun k => if k = 0 then 192 else if k = 1 then 168 else if k = 2 then 1 else 2
    ha := fun k => if k = 0 then 2 else if k = 5 then last else 0 }

/-- The flow stays bound to the old address. -/
theorem zero_byte_hides : ¬∀ (netsys : Netsys) (ppeNum foeEtryNum : Nat) (present : Nat → Bool)
    (neigh : Neighbour) (time : Nat × Nat → UInt8) (foe : Nat → Nat → FoeEntry),
    ClearsStale netsys ppeNum foeEtryNum present neigh time foe
      (nfHnatNeteventHandler netsys ppeNum foeEtryNum present time foe
        (.neighUpdate neigh true)) := by
  intro all
  have cleared := (all .v2 1 1 (fun _ => true) (hostWithMac 2) (fun _ => 0)
    (fun _ _ => flowToHost) 0 0).1
  have stale : Stale (hostWithMac 2) flowToHost := ⟨rfl, by decide, by decide⟩
  have state := congrArg (fun entry => entry.bfib1.state)
    (cleared ⟨Nat.one_pos, Nat.one_pos, rfl, stale⟩)
  revert state
  decide

end Filogic.Hnat
