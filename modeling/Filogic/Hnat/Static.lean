import Filogic.Hnat.Fields

/-! `hnat_debugfs.c`: the static entries that a user puts into the flow table. The text of a line is
taken as `sscanf` and `hnat_parse_mac` deliver it. -/

namespace Filogic.Hnat
open Lib

/-- What a static entry depends on. The number of entries is one of the feasible values that `hnat.h`
lists, 1024 to 32768. -/
structure StaticConf where
  netsys : Netsys
  ppeNum : Nat
  etryBits : Nat
  feasible : 10 ≤ etryBits ∧ etryBits ≤ 15

def StaticConf.foeEtryNum (conf : StaticConf) : Nat := 2 ^ conf.etryBits

/-- What an IPv4 line and an IPv6 line have between the first word and the addresses. -/
structure HnaptFields where
  sip : UInt32
  dip : UInt32
  sport : UInt16
  dport : UInt16
  infoBlk2 : UInt32
  newSip : UInt32
  newDip : UInt32
  newSport : UInt16
  newDport : UInt16
  deriving DecidableEq, Repr

structure RouteFields where
  sip : Fin 4 → UInt32
  dip : Fin 4 → UInt32
  sport : UInt16
  dport : UInt16
  infoBlk2 : UInt32

/-- The end of a line: the addresses, and with NETSYS v3 three indices. -/
structure StaticTail where
  dmac : Bytes
  smac : Bytes
  tportId : UInt32
  topsEntry : UInt32
  cdrtId : UInt32

/-- A line: whether it was copied, its length, its hash and first word, and what follows where it is
read as IPv4 and as IPv6; a part is missing where a conversion fails. -/
structure StaticLine where
  copied : Bool
  count : Nat
  head : Option (Int × InfoBlk1)
  hnapt : Option (HnaptFields × StaticTail)
  route : Option (RouteFields × StaticTail)

/-- A word and a half-word stored in a buffer. -/
def put32 (k : Nat) (x : UInt32) (m : Bytes) : Bytes := fun j =>
  if k ≤ j ∧ j < k + 4 then byte32 x (j - k) else m j

def put16 (k : Nat) (x : UInt16) (m : Bytes) : Bytes := fun j =>
  if j = k then x.toUInt8 else if j = k + 1 then (x >>> 8).toUInt8 else m j

/-- The addresses, and the word of `cdrt_id`, `tops_entry` and `tport_id` behind them. -/
def putTail (netsys : Netsys) (s : FoeStruct) (tail : StaticTail) (m : Bytes) : Bytes :=
  let m := put32 s.dmacHi (swab32 (tail.dmac.u32 0)) m
  let m := put16 s.dmacLo (swab16 (tail.dmac.u16 4)) m
  let m := put32 s.smacHi (swab32 (tail.smac.u32 0)) m
  let m := put16 s.smacLo (swab16 (tail.smac.u16 4)) m
  if netsys = .v3 then
    put32 (s.dmacHi + 28) (tail.cdrtId ||| tail.topsEntry <<< 8 ||| tail.tportId <<< 16) m
  else m

def hnaptEntry (netsys : Netsys) (infoBlk1 : InfoBlk1) (f : HnaptFields) (tail : StaticTail) :
    FoeEntry where
  bfib1 := infoBlk1
  union :=
    let m := put32 4 f.sip fun _ => 0
    let m := put32 8 f.dip m
    let m := put16 12 f.dport m
    let m := put16 14 f.sport m
    let m := put32 16 f.infoBlk2 m
    let m := put32 20 f.newSip m
    let m := put32 24 f.newDip m
    let m := put16 28 f.newDport m
    let m := put16 30 f.newSport m
    putTail netsys .ipv4Hnapt tail m

def routeEntry (netsys : Netsys) (infoBlk1 : InfoBlk1) (f : RouteFields) (tail : StaticTail) :
    FoeEntry where
  bfib1 := infoBlk1
  union :=
    let m := put32 4 (f.sip 0) fun _ => 0
    let m := put32 8 (f.sip 1) m
    let m := put32 12 (f.sip 2) m
    let m := put32 16 (f.sip 3) m
    let m := put32 20 (f.dip 0) m
    let m := put32 24 (f.dip 1) m
    let m := put32 28 (f.dip 2) m
    let m := put32 32 (f.dip 3) m
    let m := put16 36 f.dport m
    let m := put16 38 f.sport m
    let m := put32 56 f.infoBlk2 m
    putTail netsys .ipv6FiveTRoute tail m

/-- The three words that `hnat_get_ppe_hash` mixes. -/
def hashWords (entry : FoeEntry) : UInt32 × UInt32 × UInt32 :=
  let m := entry.union
  match entry.bfib1.pktType with
  | .ipv4Hnapt | .ipv4Hnat | .ipv4Dslite =>
    ((m.u16 14).toUInt32 <<< 16 ||| (m.u16 12).toUInt32, m.u32 8, m.u32 4)
  | .ipv6ThreeTRoute | .ipv6FiveTRoute | .ipv6SixRd =>
    (m.u32 16 ^^^ m.u32 32 ^^^ ((m.u16 38).toUInt32 <<< 16 ||| (m.u16 36).toUInt32),
      m.u32 12 ^^^ m.u32 28 ^^^ m.u32 20, m.u32 8 ^^^ m.u32 24 ^^^ m.u32 4)
  | _ => (0, 0, 0)

/-- `hnat_get_ppe_hash` -/
def hnatGetPpeHash (conf : StaticConf) (entry : FoeEntry) : UInt32 :=
  let (hv1, hv2, hv3) := hashWords entry
  let hash := (hv1 &&& hv2) ||| (~~~hv1 &&& hv3)
  let hash := hash >>> 24 ||| (hash &&& 0xffffff) <<< 8
  let hash := hash ^^^ (hv1 ^^^ hv2 ^^^ hv3)
  let hash := hash ^^^ hash >>> 16
  hash <<< 2 &&& UInt32.ofNat (conf.foeEtryNum - 1)

/-- The checks of the hash and, with NETSYS v3, of the widths of the indices. -/
def staticFits (conf : StaticConf) (hash : Int) (tail : StaticTail) : Bool :=
  hash < conf.foeEtryNum ∧ -1 ≤ hash ∧
    (conf.netsys = .v3 → tail.tportId &&& 0xf = tail.tportId ∧ tail.topsEntry &&& 0x3f = tail.topsEntry ∧
      tail.cdrtId &&& 0xff = tail.cdrtId)

/-- `hnat_static_entry_write` up to the hash: the hash that the line gives and the entry, unless the line
is refused. -/
def staticRequest (conf : StaticConf) (line : StaticLine) : Option (Int × FoeEntry) :=
  if ¬line.copied then none
  else match line.head with
    | none => none
    | some (hash, infoBlk1) =>
      match infoBlk1.pktType with
      | .ipv4Hnapt =>
        match line.hnapt with
        | none => none
        | some (f, tail) =>
          if staticFits conf hash tail then some (hash, hnaptEntry conf.netsys infoBlk1 f tail) else none
      | .ipv6FiveTRoute =>
        match line.route with
        | none => none
        | some (f, tail) =>
          if staticFits conf hash tail then some (hash, routeEntry conf.netsys infoBlk1 f tail) else none
      | _ => none

/-- The PPE by the ingress port: `NR_GMAC1_PORT`, `NR_GMAC2_PORT` and `NR_GMAC3_PORT`. -/
def staticPpe (conf : StaticConf) (sp : Nat) : Nat :=
  if conf.netsys = .v3 ∧ conf.ppeNum = 3 then
    if sp = 1 then 0 else if sp = 2 then 1 else if sp = 15 then 2 else 0
  else 0

/-- The loop that looks for a slot: the slots that are taken are passed, `left` of them at most. -/
def probe (taken : Nat → Bool) : (left slot : Nat) → Nat
  | 0, slot => slot
  | left + 1, slot => if taken slot then probe taken left (slot + 1) else slot

/-- What a write leaves: its code, the tables with the memory behind them, and the slot that was
written. -/
structure StaticWrite where
  ret : Int
  foe : Nat → Nat → FoeEntry
  wrote : Option (Nat × Nat)

def efault : Int := 14

/-- The slot that the search starts from. -/
def startSlot (conf : StaticConf) (hash : Int) (entry : FoeEntry) : Nat :=
  if hash = -1 then (hnatGetPpeHash conf entry).toNat else hash.toNat

/-- `hnat_static_entry_write` -/
def hnatStaticEntryWrite (conf : StaticConf) (line : StaticLine) (foe : Nat → Nat → FoeEntry) :
    StaticWrite :=
  match staticRequest conf line with
  | none => { ret := -efault, foe := foe, wrote := none }
  | some (hash, entry) =>
    let ppe := staticPpe conf entry.bfib1.sp
    let slot := probe (fun slot => (foe ppe slot).bfib1.state = .bind) 4 (startSlot conf hash entry)
    { ret := line.count, foe := writeAt foe (ppe, slot) entry, wrote := some (ppe, slot) }

/-- The four slots that the hardware searches for a hash. -/
def InBucket (hash slot : Nat) : Prop := slot / 4 = hash / 4

/-- A slot is written only in the bucket of the entry, below the end of the table and where no bound
entry is; a line that fails leaves the tables, and one whose bucket is full fails. -/
structure StaticRight (conf : StaticConf) (line : StaticLine) (foe : Nat → Nat → FoeEntry)
    (out : StaticWrite) : Prop where
  placed : ∀ hash entry, staticRequest conf line = some (hash, entry) → ∀ place, out.wrote = some place →
    place.2 < conf.foeEtryNum ∧ InBucket (hnatGetPpeHash conf entry).toNat place.2 ∧
      (foe place.1 place.2).bfib1.state ≠ .bind ∧ out.foe = writeAt foe place entry
  refused : out.ret < 0 → out.foe = foe
  full : ∀ hash entry, staticRequest conf line = some (hash, entry) →
    (∀ slot, InBucket (hnatGetPpeHash conf entry).toNat slot →
      (foe (staticPpe conf entry.bfib1.sp) slot).bfib1.state = .bind) → out.ret < 0

/-- The first slot from the start on that is not bound is one of the next five, and in the bucket. -/
def FreeInBucket (conf : StaticConf) (hash : Int) (entry : FoeEntry) (foe : Nat → Nat → FoeEntry) : Prop :=
  let taken (slot : Nat) : Prop := (foe (staticPpe conf entry.bfib1.sp) slot).bfib1.state = .bind
  let start := startSlot conf hash entry
  ∃ i ≤ 4, (∀ j < i, taken (start + j)) ∧ ¬taken (start + i) ∧
    InBucket (hnatGetPpeHash conf entry).toNat (start + i)

section Hash

variable (conf : StaticConf) (entry : FoeEntry)

theorem foeEtryNum_bounds : conf.foeEtryNum % 4 = 0 ∧ 0 < conf.foeEtryNum ∧ conf.foeEtryNum ≤ 2 ^ 15 := by
  obtain ⟨low, high⟩ := conf.feasible
  have split : conf.foeEtryNum = 4 * 2 ^ (conf.etryBits - 2) := by
    rw [StaticConf.foeEtryNum, show (4 : Nat) = 2 ^ 2 from rfl, ← Nat.pow_add]
    congr 1
    omega
  refine ⟨?_, Nat.two_pow_pos _, Nat.pow_le_pow_right (by decide) high⟩
  rw [split]
  exact Nat.mul_mod_right 4 _

theorem hash_below : (hnatGetPpeHash conf entry).toNat < conf.foeEtryNum := by
  obtain ⟨-, pos, top⟩ := foeEtryNum_bounds conf
  have mask : (UInt32.ofNat (conf.foeEtryNum - 1)).toNat = conf.foeEtryNum - 1 :=
    Nat.mod_eq_of_lt (by omega)
  have below : (hnatGetPpeHash conf entry).toNat ≤ (UInt32.ofNat (conf.foeEtryNum - 1)).toNat := by
    unfold hnatGetPpeHash
    rw [UInt32.toNat_and]
    exact Nat.and_le_right
  omega

/-- The bucket of a hash is inside the table. -/
theorem bucket_inside (slot : Nat) (inside : InBucket (hnatGetPpeHash conf entry).toNat slot) :
    slot < conf.foeEtryNum := by
  obtain ⟨four, -, -⟩ := foeEtryNum_bounds conf
  have below := hash_below conf entry
  have same : slot / 4 = (hnatGetPpeHash conf entry).toNat / 4 := inside
  omega

end Hash

section Probe

theorem probe_cases (taken : Nat → Bool) (left slot : Nat) :
    ∃ i ≤ left, probe taken left slot = slot + i ∧ (∀ j < i, taken (slot + j) = true) ∧
      (i = left ∨ taken (slot + i) = false) := by
  induction left generalizing slot with
  | zero => exact ⟨0, le_rfl, rfl, fun j none => absurd none (Nat.not_lt_zero j), .inl rfl⟩
  | succ left ih =>
    rw [probe]
    cases here : taken slot with
    | false =>
      exact ⟨0, Nat.zero_le _, rfl, fun j none => absurd none (Nat.not_lt_zero j), .inr here⟩
    | true =>
      rw [if_pos rfl]
      obtain ⟨i, within, stop, before, last⟩ := ih (slot + 1)
      refine ⟨i + 1, by omega, by omega, ?_, ?_⟩
      · intro j early
        cases j with
        | zero => exact here
        | succ j =>
          rw [show slot + (j + 1) = slot + 1 + j by omega]
          exact before j (by omega)
      · rcases last with all | free
        · exact .inl (by omega)
        · right
          rw [show slot + (i + 1) = slot + 1 + i by omega]
          exact free

/-- A probe ends at a slot with a property that the free slots have, exactly if the first free one is near
enough and has it. -/
theorem probe_free_iff (taken : Nat → Bool) (left slot : Nat) (good : Nat → Prop) :
    (taken (probe taken left slot) = false ∧ good (probe taken left slot)) ↔
      ∃ i ≤ left, (∀ j < i, taken (slot + j) = true) ∧ taken (slot + i) = false ∧ good (slot + i) := by
  obtain ⟨i, within, stop, before, last⟩ := probe_cases taken left slot
  rw [stop]
  constructor
  · rintro ⟨free, fits⟩
    exact ⟨i, within, before, free, fits⟩
  · rintro ⟨i', within', before', free, fits⟩
    have same : i = i' := by
      rcases Nat.lt_trichotomy i i' with early | same | late
      · have bound := before' i early
        rcases last with all | none
        · omega
        · rw [none] at bound
          cases bound
      · exact same
      · rw [before i' late] at free
        cases free
    rw [same]
    exact ⟨free, fits⟩

end Probe

section Static

/-- The write of a static entry is right exactly if the line is refused, or the first free slot from its
hash on is in the bucket of the entry. -/
theorem static_right_iff (conf : StaticConf) (line : StaticLine) (foe : Nat → Nat → FoeEntry) :
    StaticRight conf line foe (hnatStaticEntryWrite conf line foe) ↔
      ∀ hash entry, staticRequest conf line = some (hash, entry) → FreeInBucket conf hash entry foe := by
  unfold hnatStaticEntryWrite
  cases request : staticRequest conf line with
  | none =>
    apply iff_of_true
    · constructor
      · intro hash entry some_
        rw [request] at some_
        cases some_
      · exact fun _ => rfl
      · exact fun _ _ _ _ => show -efault < 0 by decide
    · intro hash entry some_
      cases some_
  | some accepted =>
    obtain ⟨hash, entry⟩ := accepted
    let taken (slot : Nat) : Bool := (foe (staticPpe conf entry.bfib1.sp) slot).bfib1.state = .bind
    have free := probe_free_iff taken 4 (startSlot conf hash entry)
      (InBucket (hnatGetPpeHash conf entry).toNat)
    simp only [taken, decide_eq_false_iff_not, decide_eq_true_eq] at free
    dsimp only
    constructor
    · intro right hash' entry' same
      obtain ⟨rfl, rfl⟩ := Prod.mk.inj (Option.some.inj same)
      obtain ⟨-, inside, unbound, -⟩ := right.placed _ _ request _ rfl
      exact free.mp ⟨unbound, inside⟩
    · intro free_
      obtain ⟨unbound, inside⟩ := free.mpr (free_ hash entry rfl)
      constructor
      · intro hash' entry' same place wrote
        rw [request] at same
        obtain ⟨rfl, rfl⟩ := Prod.mk.inj (Option.some.inj same)
        rw [← Option.some.inj wrote]
        exact ⟨bucket_inside conf entry _ inside, inside, unbound, rfl⟩
      · exact fun negative => absurd negative (by simp)
      · intro hash' entry' same full
        rw [request] at same
        obtain ⟨rfl, rfl⟩ := Prod.mk.inj (Option.some.inj same)
        exact absurd (full _ inside) unbound

/-- A line for the flow whose words are all zero, which leaves its hash to the driver. -/
def zeroLine : StaticLine where
  copied := true
  count := 100
  head := some (-1, FoeEntry.zero.bfib1)
  hnapt := some (⟨0, 0, 0, 0, 0, 0, 0, 0, 0⟩, ⟨fun _ => 0, fun _ => 0, 0, 0, 0⟩)
  route := none

def boundEntry : FoeEntry :=
  { FoeEntry.zero with bfib1 := { FoeEntry.zero.bfib1 with state := .bind } }

/-- All slots are bound: the entry overwrites the one behind its bucket. -/
theorem full_bucket_written : ¬∀ (conf : StaticConf) (line : StaticLine) (foe : Nat → Nat → FoeEntry),
    StaticRight conf line foe (hnatStaticEntryWrite conf line foe) := by
  intro all
  have right := all ⟨.v1, 1, 10, by decide⟩ zeroLine fun _ _ => boundEntry
  have request : staticRequest ⟨.v1, 1, 10, by decide⟩ zeroLine =
      some (-1, hnaptEntry .v1 FoeEntry.zero.bfib1 ⟨0, 0, 0, 0, 0, 0, 0, 0, 0⟩
        ⟨fun _ => 0, fun _ => 0, 0, 0, 0⟩) := rfl
  have failed := right.full _ _ request fun _ _ => rfl
  rw [hnatStaticEntryWrite, request] at failed
  exact absurd failed (by simp [zeroLine])

end Static

end Filogic.Hnat
