import Filogic.Hnat.Mcast

/-! The multicast table against the joins that are outstanding. A scan is exact as long as no
entry at or behind the first unused one carries the key it looks for; then an update counts
right unless a counter is at its end or the group has members on both sides. -/

namespace Filogic.Hnat
open Lib

/-- VLAN and group MAC. -/
structure GroupKey where
  vid : UInt16
  macHi : UInt32
  macLo : UInt16
  deriving DecidableEq, Repr

def McastGroup.key (group : McastGroup) : GroupKey := ⟨group.vid, group.macHi, group.macLo⟩

def MdbEvent.key (event : MdbEvent) : GroupKey :=
  ⟨event.vid, (getMacFromMdbEntry event.addr).1, (getMacFromMdbEntry event.addr).2⟩

/-- Outstanding joins of each group, from external and from internal ports. -/
structure Joins where
  external : GroupKey → Nat
  internal : GroupKey → Nat

def Joins.none : Joins := ⟨fun _ => 0, fun _ => 0⟩

/-- A leave takes back one join, if there is one. -/
def Joins.record (names : PortNames) (joins : Joins) (event : MdbEvent) : Joins :=
  match event.dev with
  | .none => joins
  | some dev =>
    let count (n : Nat) : Nat := match event.type with
      | .newmdb => n + 1
      | .delmdb => n - 1
    let external := Function.update joins.external event.key (count (joins.external event.key))
    let internal := Function.update joins.internal event.key (count (joins.internal event.key))
    if names.external dev then { joins with external := external }
    else { joins with internal := internal }

/-- What the table is for: one valid entry per group with members, counting them and forwarding
to the sides they are on. -/
structure Tracks (t : McastTable) (joins : Joins) : Prop where
  unique : ∀ i < t.maxEntry, ∀ j < t.maxEntry, (t.mtbl i).valid = true → (t.mtbl j).valid = true →
    (t.mtbl i).key = (t.mtbl j).key → i = j
  counted : ∀ i < t.maxEntry, (t.mtbl i).valid = true →
    (t.mtbl i).eif.toNat = joins.external (t.mtbl i).key ∧
    (t.mtbl i).oif.toNat = joins.internal (t.mtbl i).key
  ports : ∀ i < t.maxEntry, (t.mtbl i).valid = true →
    ((t.mtbl i).mcPort &&& mcastToPdma ≠ 0 ↔ 0 < joins.internal (t.mtbl i).key) ∧
    ((t.mtbl i).mcPort &&& mcastToGdma1 ≠ 0 ↔ 0 < joins.external (t.mtbl i).key)
  alive : ∀ key, (0 < joins.external key ∨ 0 < joins.internal key) ↔
    ∃ i < t.maxEntry, (t.mtbl i).valid = true ∧ (t.mtbl i).key = key

/-- The table and the ledger side by side. -/
structure Membership where
  table : McastTable
  joins : Joins

def Membership.step (names : PortNames) (m : Membership) (event : MdbEvent) : Membership :=
  ⟨hnatMcastTableUpdate names m.table event, m.joins.record names event⟩

def Membership.start (maxEntry ppeNum : Nat) (ppeRegs : Nat → Nat → UInt32)
    (feRegs : Nat → UInt32) : Membership :=
  ⟨mcastEnable maxEntry ppeNum ppeRegs feRegs, .none⟩

/-- The first unused entry at or after `i`, or the end. -/
def firstUnusedFrom (t : McastTable) : (left i : Nat) → Nat
  | 0, i => i
  | left + 1, i => if (t.mtbl i).valid then firstUnusedFrom t left (i + 1) else i

def firstUnused (t : McastTable) : Nat := firstUnusedFrom t t.maxEntry 0

/-- The comparison of the scan. -/
def Matches (t : McastTable) (i : Nat) (vid : UInt16) (dstMac : UInt32) : Prop :=
  (t.mtbl i).vid = vid ∧ (t.mtbl i).macHi = dstMac

instance (t : McastTable) (i : Nat) (vid : UInt16) (dstMac : UInt32) :
    Decidable (Matches t i vid dstMac) := inferInstanceAs (Decidable (_ ∧ _))

/-- No entry at or behind the first unused one carries the event's key, and no valid entry
carries it with the other address prefix. -/
def Findable (t : McastTable) (event : MdbEvent) : Prop :=
  (∀ i < t.maxEntry, firstUnused t ≤ i → ¬ Matches t i event.vid event.key.macHi) ∧
  ∀ i < t.maxEntry, (t.mtbl i).valid = true → Matches t i event.vid event.key.macHi →
    (t.mtbl i).macLo = event.key.macLo

/-- A join finds room: an entry of its group or an unused one; its counter is not at the end, and
the group has no member on the other side. -/
def Joinable (t : McastTable) (event : MdbEvent) (external : Bool) : Prop :=
  ((∃ i < t.maxEntry, (t.mtbl i).valid = true ∧ (t.mtbl i).key = event.key) ∨
    firstUnused t < t.maxEntry) ∧
  ∀ i < t.maxEntry, (t.mtbl i).valid = true → (t.mtbl i).key = event.key →
    if external then (t.mtbl i).eif ≠ 255 ∧ (t.mtbl i).oif = 0
    else (t.mtbl i).oif ≠ 255 ∧ (t.mtbl i).eif = 0

/-- A leave of a group in the table has a join of its side to take back. -/
def Leavable (t : McastTable) (event : MdbEvent) (external : Bool) : Prop :=
  ∀ i < t.maxEntry, (t.mtbl i).valid = true → (t.mtbl i).key = event.key →
    if external then (t.mtbl i).eif ≠ 0 else (t.mtbl i).oif ≠ 0

/-- The events the table handles right. -/
def Regular (names : PortNames) (t : McastTable) (event : MdbEvent) : Prop :=
  match event.dev with
  | .none => True
  | some dev => Findable t event ∧
    match event.type with
    | .newmdb => Joinable t event (names.external dev)
    | .delmdb => Leavable t event (names.external dev)

instance (t : McastTable) (event : MdbEvent) : Decidable (Findable t event) :=
  inferInstanceAs (Decidable (_ ∧ _))

instance (t : McastTable) (event : MdbEvent) (external : Bool) :
    Decidable (Joinable t event external) := inferInstanceAs (Decidable (_ ∧ _))

instance (t : McastTable) (event : MdbEvent) (external : Bool) :
    Decidable (Leavable t event external) :=
  inferInstanceAs (Decidable (∀ i < t.maxEntry, _ → _ → _))

instance (names : PortNames) (t : McastTable) (event : MdbEvent) :
    Decidable (Regular names t event) := by
  unfold Regular
  cases event.dev <;> cases event.type <;> infer_instance

theorem firstUnusedFrom_spec (t : McastTable) (left i : Nat) :
    i ≤ firstUnusedFrom t left i ∧ firstUnusedFrom t left i ≤ i + left ∧
    (∀ j, i ≤ j → j < firstUnusedFrom t left i → (t.mtbl j).valid = true) ∧
    (firstUnusedFrom t left i < i + left →
      (t.mtbl (firstUnusedFrom t left i)).valid = false) := by
  induction left generalizing i with
  | zero =>
    rw [firstUnusedFrom]
    exact ⟨le_rfl, le_rfl, fun j low high => by omega, fun high => by omega⟩
  | succ left ih =>
    obtain ⟨low, high, before, hole⟩ := ih (i + 1)
    rw [firstUnusedFrom]
    split_ifs with valid
    · refine ⟨by omega, by omega, ?_, fun short => hole (by omega)⟩
      intro j from_ below
      by_cases first : j = i
      · rw [first]
        exact valid
      · exact before j (by omega) below
    · rw [Bool.not_eq_true] at valid
      exact ⟨le_rfl, by omega, fun j from_ below => by omega, fun _ => valid⟩

theorem firstUnused_le (t : McastTable) : firstUnused t ≤ t.maxEntry := by
  have spec := (firstUnusedFrom_spec t t.maxEntry 0).2.1
  rwa [Nat.zero_add] at spec

theorem valid_before (t : McastTable) (i : Nat) (before : i < firstUnused t) :
    (t.mtbl i).valid = true :=
  (firstUnusedFrom_spec t t.maxEntry 0).2.2.1 i (Nat.zero_le _) before

theorem unused_at (t : McastTable) (room : firstUnused t < t.maxEntry) :
    (t.mtbl (firstUnused t)).valid = false :=
  (firstUnusedFrom_spec t t.maxEntry 0).2.2.2 (by rwa [Nat.zero_add])

/-- Behind an unused entry the scan returns it, unless the key turns up. -/
theorem scan_after_hole (t : McastTable) (vid : UInt16) (dstMac : UInt32) (left i p hole : Nat)
    (absent : ∀ j, p ≤ j → j < p + left → ¬ Matches t j vid dstMac) :
    mcastEntryScan t vid dstMac left i p (some hole) = some hole := by
  induction left generalizing i p with
  | zero => rfl
  | succ left ih =>
    have here : ¬ ((t.mtbl p).vid = vid ∧ (t.mtbl p).macHi = dstMac) :=
      absent p le_rfl (by omega)
    have seen : ¬ (some hole = none ∧ (t.mtbl p).valid = false) := fun both => nomatch both.1
    rw [mcastEntryScan, if_neg seen, if_neg here]
    exact ih (i + 1) (p + 1) (fun j low high => absent j (by omega) (by omega))

theorem scan_spec (t : McastTable) (vid : UInt16) (dstMac : UInt32)
    (clear : ∀ j < t.maxEntry, firstUnused t ≤ j → ¬ Matches t j vid dstMac) (left i : Nat)
    (count : i + left = t.maxEntry) (reached : i ≤ firstUnused t)
    (before : ∀ j < i, ¬ Matches t j vid dstMac) :
    (∃ j < firstUnused t, Matches t j vid dstMac ∧
      mcastEntryScan t vid dstMac left i i none = some j) ∨
    ((∀ j < t.maxEntry, ¬ Matches t j vid dstMac) ∧
      mcastEntryScan t vid dstMac left i i none =
        if firstUnused t < t.maxEntry then some (firstUnused t) else none) := by
  induction left generalizing i with
  | zero =>
    have full : firstUnused t = t.maxEntry := by
      have := firstUnused_le t
      omega
    right
    refine ⟨fun j inside => before j (by omega), ?_⟩
    rw [mcastEntryScan, if_neg (by omega)]
  | succ left ih =>
    by_cases hole : i = firstUnused t
    · have room : firstUnused t < t.maxEntry := by omega
      have unused := unused_at t room
      right
      constructor
      · intro j inside
        by_cases early : j < i
        · exact before j early
        · exact clear j inside (by omega)
      · rw [mcastEntryScan, hole, if_pos ⟨rfl, unused⟩, if_pos room]
        apply scan_after_hole
        exact fun j low high => clear j (by omega) low
    · have valid := valid_before t i (by omega)
      have used : ¬ ((none : Option Nat) = none ∧ (t.mtbl i).valid = false) := by
        rw [valid]
        exact fun both => nomatch both.2
      rw [mcastEntryScan, if_neg used]
      by_cases here : Matches t i vid dstMac
      · left
        exact ⟨i, by omega, here, if_pos here⟩
      · have other : ¬ ((t.mtbl i).vid = vid ∧ (t.mtbl i).macHi = dstMac) := here
        rw [if_neg other]
        apply ih (i + 1) (by omega) (by omega)
        intro j below
        by_cases same : j = i
        · rw [same]
          exact here
        · exact before j (by omega)

/-- Where the key is findable, the scan returns its entry, or the first unused one. -/
theorem mcastEntryGet_spec (t : McastTable) (event : MdbEvent) (findable : Findable t event) :
    (∃ i < t.maxEntry, (t.mtbl i).valid = true ∧ (t.mtbl i).key = event.key ∧
      mcastEntryGet t event.vid event.key.macHi = some i) ∨
    ((∀ i < t.maxEntry, (t.mtbl i).valid = true → (t.mtbl i).key ≠ event.key) ∧
      mcastEntryGet t event.vid event.key.macHi =
        if firstUnused t < t.maxEntry then some (firstUnused t) else none) := by
  have upper := firstUnused_le t
  rcases scan_spec t event.vid event.key.macHi findable.1 t.maxEntry 0 (Nat.zero_add _)
    (Nat.zero_le _) (fun j below => absurd below (Nat.not_lt_zero j)) with
    ⟨i, early, found, scan⟩ | ⟨absent, scan⟩
  · left
    have valid := valid_before t i early
    refine ⟨i, by omega, valid, ?_, scan⟩
    have prefix_ := findable.2 i (by omega) valid found
    change GroupKey.mk _ _ _ = _
    rw [found.1, found.2, prefix_]
    rfl
  · right
    refine ⟨fun i inside valid same => absent i inside ⟨?_, ?_⟩, scan⟩
    · exact congrArg GroupKey.vid same
    · exact congrArg GroupKey.macHi same

/-- The invariant: besides `Tracks`, no group has members on both sides and an unused entry
counts nobody. -/
structure Settled (t : McastTable) (joins : Joins) : Prop extends Tracks t joins where
  oneSided : ∀ i < t.maxEntry, (t.mtbl i).valid = true →
    (t.mtbl i).eif = 0 ∨ (t.mtbl i).oif = 0
  blank : ∀ i < t.maxEntry, (t.mtbl i).valid = false → (t.mtbl i).eif = 0 ∧ (t.mtbl i).oif = 0

/-- What an entry must be for its group. -/
structure Entitled (group : McastGroup) (key : GroupKey) (joins : Joins) : Prop where
  used : group.valid = true → group.key = key ∧ group.eif.toNat = joins.external key ∧
    group.oif.toNat = joins.internal key ∧ (group.eif = 0 ∨ group.oif = 0) ∧
    (0 < joins.external key ∨ 0 < joins.internal key) ∧
    (group.mcPort &&& mcastToPdma ≠ 0 ↔ 0 < joins.internal key) ∧
    (group.mcPort &&& mcastToGdma1 ≠ 0 ↔ 0 < joins.external key)
  unused : group.valid = false → group.eif = 0 ∧ group.oif = 0 ∧ joins.external key = 0 ∧
    joins.internal key = 0

/-- Replacing the entry of one group, or an unused entry where the group has none. -/
theorem Settled.replace {t t' : McastTable} {joins joins' : Joins} (settled : Settled t joins)
    (index : Nat) (inside : index < t.maxEntry) (group : McastGroup) (key : GroupKey)
    (table : t'.mtbl = Function.update t.mtbl index group) (size : t'.maxEntry = t.maxEntry)
    (own : (t.mtbl index).valid = true → (t.mtbl index).key = key)
    (others : ∀ i < t.maxEntry, i ≠ index → (t.mtbl i).valid = true → (t.mtbl i).key ≠ key)
    (elsewhere : ∀ key' ≠ key, joins'.external key' = joins.external key' ∧
      joins'.internal key' = joins.internal key')
    (entitled : Entitled group key joins') : Settled t' joins' := by
  have at_ : t'.mtbl index = group := by rw [table, Function.update_self]
  have off (i : Nat) (other : i ≠ index) : t'.mtbl i = t.mtbl i := by
    rw [table, Function.update_of_ne other]
  refine ⟨⟨?_, ?_, ?_, ?_⟩, ?_, ?_⟩
  · intro i hi j hj validI validJ same
    rw [size] at hi hj
    by_cases onI : i = index
    · by_cases onJ : j = index
      · rw [onI, onJ]
      · rw [onI, at_] at validI same
        rw [off j onJ] at validJ same
        exact absurd (same.symm.trans (entitled.used validI).1) (others j hj onJ validJ)
    · rw [off i onI] at validI same
      by_cases onJ : j = index
      · rw [onJ, at_] at validJ same
        exact absurd (same.trans (entitled.used validJ).1) (others i hi onI validI)
      · rw [off j onJ] at validJ same
        exact settled.unique i hi j hj validI validJ same
  · intro i hi valid
    rw [size] at hi
    by_cases on : i = index
    · rw [on, at_] at valid ⊢
      obtain ⟨same, eif, oif, -⟩ := entitled.used valid
      rw [same]
      exact ⟨eif, oif⟩
    · rw [off i on] at valid ⊢
      obtain ⟨ext, int⟩ := elsewhere _ (others i hi on valid)
      rw [ext, int]
      exact settled.counted i hi valid
  · intro i hi valid
    rw [size] at hi
    by_cases on : i = index
    · rw [on, at_] at valid ⊢
      obtain ⟨same, -, -, -, -, ports⟩ := entitled.used valid
      rw [same]
      exact ports
    · rw [off i on] at valid ⊢
      obtain ⟨ext, int⟩ := elsewhere _ (others i hi on valid)
      rw [ext, int]
      exact settled.ports i hi valid
  · intro key'
    rw [size]
    by_cases same : key' = key
    · rw [same]
      cases valid : group.valid with
      | true =>
        obtain ⟨is, -, -, -, some, -⟩ := entitled.used valid
        exact ⟨fun _ => ⟨index, inside, by rw [at_]; exact ⟨valid, is⟩⟩, fun _ => some⟩
      | false =>
        obtain ⟨-, -, ext, int⟩ := entitled.unused valid
        constructor
        · intro some
          omega
        · rintro ⟨i, hi, validI, is⟩
          by_cases on : i = index
          · rw [on, at_, valid] at validI
            exact absurd validI Bool.false_ne_true
          · rw [off i on] at validI is
            exact absurd is (others i hi on validI)
    · obtain ⟨ext, int⟩ := elsewhere key' same
      rw [ext, int, settled.alive key']
      constructor
      · rintro ⟨i, hi, valid, is⟩
        have on : i ≠ index := by
          rintro rfl
          exact same (is.symm.trans (own valid))
        exact ⟨i, hi, by rw [off i on]; exact ⟨valid, is⟩⟩
      · rintro ⟨i, hi, valid, is⟩
        by_cases on : i = index
        · rw [on, at_] at valid is
          exact absurd (is.symm.trans (entitled.used valid).1) same
        · rw [off i on] at valid is
          exact ⟨i, hi, valid, is⟩
  · intro i hi valid
    rw [size] at hi
    by_cases on : i = index
    · rw [on, at_] at valid ⊢
      exact (entitled.used valid).2.2.2.1
    · rw [off i on] at valid ⊢
      exact settled.oneSided i hi valid
  · intro i hi valid
    rw [size] at hi
    by_cases on : i = index
    · rw [on, at_] at valid ⊢
      exact ⟨(entitled.unused valid).1, (entitled.unused valid).2.1⟩
    · rw [off i on] at valid ⊢
      exact settled.blank i hi valid

theorem setAllPpe_table (t : McastTable) (group : McastGroup) (index : Nat) :
    (setAllPpe t group index).mtbl = t.mtbl ∧
    (setAllPpe t group index).maxEntry = t.maxEntry := by
  have one (t : McastTable) (i : Nat) : (setHnatMtbl t group index i).mtbl = t.mtbl ∧
      (setHnatMtbl t group index i).maxEntry = t.maxEntry := by
    unfold setHnatMtbl
    split_ifs <;> exact ⟨rfl, rfl⟩
  unfold setAllPpe
  generalize List.range t.ppeNum = ppes
  induction ppes generalizing t with
  | nil => exact ⟨rfl, rfl⟩
  | cons i rest ih =>
    obtain ⟨table, size⟩ := ih (setHnatMtbl t group index i)
    exact ⟨table.trans (one t i).1, size.trans (one t i).2⟩

theorem forwardGroup_empty (group : McastGroup) (oif : group.oif = 0) (eif : group.eif = 0) :
    forwardGroup group = .zero := by
  dsimp only [forwardGroup]
  rw [if_pos ⟨oif, eif⟩]

theorem forwardGroup_external (group : McastGroup) (oif : group.oif = 0) (eif : group.eif ≠ 0) :
    forwardGroup group = { group with mcPort := mcastToGdma1 } := by
  dsimp only [forwardGroup]
  rw [if_neg (fun both => eif both.2), if_neg (fun both => both.1 oif), if_neg (not_not.mpr oif)]

theorem forwardGroup_internal (group : McastGroup) (oif : group.oif ≠ 0) (eif : group.eif = 0) :
    forwardGroup group = { group with mcPort := mcastToPdma } := by
  dsimp only [forwardGroup]
  rw [if_neg (fun both => oif both.1), if_neg (fun both => both.2 eif), if_pos oif]

/-- A group with members on one side at most is forwarded to that side or cleared. -/
theorem forwardGroup_entitled (group : McastGroup) (key : GroupKey) (joins : Joins)
    (valid : group.valid = true) (same : group.key = key)
    (external : group.eif.toNat = joins.external key)
    (internal : group.oif.toNat = joins.internal key)
    (oneSided : group.eif = 0 ∨ group.oif = 0) :
    Entitled (forwardGroup group) key joins := by
  have eifPos : group.eif ≠ 0 ↔ 0 < joins.external key := by
    rw [← external, Nat.pos_iff_ne_zero, ne_eq, ne_eq, ← UInt8.toNat_inj]
    rfl
  have oifPos : group.oif ≠ 0 ↔ 0 < joins.internal key := by
    rw [← internal, Nat.pos_iff_ne_zero, ne_eq, ne_eq, ← UInt8.toNat_inj]
    rfl
  have pdma : mcastToPdma &&& mcastToPdma ≠ 0 ∧ ¬ mcastToPdma &&& mcastToGdma1 ≠ 0 := by decide
  have gdma : mcastToGdma1 &&& mcastToGdma1 ≠ 0 ∧ ¬ mcastToGdma1 &&& mcastToPdma ≠ 0 := by decide
  by_cases onIf : group.oif = 0
  · have nobody : ¬ 0 < joins.internal key := by
      rw [← oifPos]
      exact not_not.mpr onIf
    by_cases exIf : group.eif = 0
    · have nobody' : ¬ 0 < joins.external key := by
        rw [← eifPos]
        exact not_not.mpr exIf
      rw [forwardGroup_empty group onIf exIf]
      exact ⟨fun used => absurd used Bool.false_ne_true, fun _ => ⟨rfl, rfl, by omega, by omega⟩⟩
    · rw [forwardGroup_external group onIf exIf]
      exact ⟨fun _ => ⟨same, external, internal, Or.inr onIf, Or.inl (eifPos.mp exIf),
          iff_of_false gdma.2 nobody, iff_of_true gdma.1 (eifPos.mp exIf)⟩,
        fun unused => absurd (unused.symm.trans valid) Bool.false_ne_true⟩
  · have exIf : group.eif = 0 := oneSided.resolve_right onIf
    have nobody : ¬ 0 < joins.external key := by
      rw [← eifPos]
      exact not_not.mpr exIf
    rw [forwardGroup_internal group onIf exIf]
    exact ⟨fun _ => ⟨same, external, internal, Or.inl exIf, Or.inr (oifPos.mp onIf),
        iff_of_true pdma.1 (oifPos.mp onIf), iff_of_false pdma.2 nobody⟩,
      fun unused => absurd (unused.symm.trans valid) Bool.false_ne_true⟩

theorem up_toNat (n : UInt8) (room : n ≠ 255) : (n + 1).toNat = n.toNat + 1 := by
  have low := n.toNat_lt
  have short : n.toNat ≠ 255 := fun full => room (UInt8.toNat_inj.mp full)
  have one : (1 : UInt8).toNat = 1 := rfl
  rw [UInt8.toNat_add, one]
  exact Nat.mod_eq_of_lt (by omega)

theorem down_toNat (n : UInt8) (some : n ≠ 0) : (n - 1).toNat = n.toNat - 1 := by
  have pos : 1 ≤ n.toNat := by
    rw [Nat.one_le_iff_ne_zero]
    exact fun zero => some (UInt8.toNat_inj.mp zero)
  exact UInt8.toNat_sub_of_le _ _ (UInt8.le_iff_toNat_le.mpr pos)

/-- One event on the entry the scan chose for it. -/
theorem Settled.update {names : PortNames} {t : McastTable} {joins : Joins}
    (settled : Settled t joins) (event : MdbEvent) (dev : String) (found : event.dev = some dev)
    (index : Nat) (inside : index < t.maxEntry)
    (got : mcastEntryGet t event.vid event.key.macHi = some index)
    (own : (t.mtbl index).valid = true → (t.mtbl index).key = event.key)
    (others : ∀ i < t.maxEntry, i ≠ index → (t.mtbl i).valid = true →
      (t.mtbl i).key ≠ event.key)
    (entitled : Entitled
      (let group := countMember event.type (names.external dev) event.vid
          { t.mtbl index with macHi := event.key.macHi, macLo := event.key.macLo }
        if group.valid then forwardGroup group else group)
      event.key (joins.record names event)) :
    Settled (hnatMcastTableUpdate names t event) (joins.record names event) := by
  have elsewhere : ∀ key' ≠ event.key,
      (joins.record names event).external key' = joins.external key' ∧
      (joins.record names event).internal key' = joins.internal key' := by
    intro key' other
    simp only [Joins.record, found]
    split_ifs
    · exact ⟨Function.update_of_ne other _ _, rfl⟩
    · exact ⟨rfl, Function.update_of_ne other _ _⟩
  have mac : (getMacFromMdbEntry event.addr).1 = event.key.macHi := rfl
  have low : (getMacFromMdbEntry event.addr).2 = event.key.macLo := rfl
  simp only [hnatMcastTableUpdate, found, mac, low, got]
  split_ifs with valid
  · obtain ⟨table, size⟩ := setAllPpe_table
      { t with mtbl := Function.update t.mtbl index (forwardGroup (countMember event.type
          (names.external dev) event.vid
          { t.mtbl index with macHi := event.key.macHi, macLo := event.key.macLo })) }
      (forwardGroup (countMember event.type (names.external dev) event.vid
        { t.mtbl index with macHi := event.key.macHi, macLo := event.key.macLo })) index
    simp only [valid, if_true] at entitled
    exact settled.replace index inside _ event.key table size own others elsewhere entitled
  · simp only [valid] at entitled
    exact settled.replace index inside _ event.key rfl rfl own others elsewhere entitled

/-- The entry a join leaves: its counter one up, the other side empty. -/
theorem joined_entitled (names : PortNames) (joins : Joins) (event : MdbEvent) (dev : String)
    (found : event.dev = some dev) (join : event.type = .newmdb) (entry : McastGroup)
    (external : entry.eif.toNat = joins.external event.key)
    (internal : entry.oif.toNat = joins.internal event.key)
    (room : if names.external dev then entry.eif ≠ 255 ∧ entry.oif = 0
      else entry.oif ≠ 255 ∧ entry.eif = 0) :
    Entitled
      (let group := countMember event.type (names.external dev) event.vid
          { entry with macHi := event.key.macHi, macLo := event.key.macLo }
        if group.valid then forwardGroup group else group)
      event.key (joins.record names event) := by
  cases side : names.external dev with
  | true =>
    rw [side, if_pos rfl] at room
    simp only [join, countMember, if_true]
    apply forwardGroup_entitled
    · rfl
    · rfl
    · simp only [Joins.record, found, join, side, if_true, Function.update_self]
      rw [up_toNat _ room.1, external]
    · simp only [Joins.record, found, join, side, if_true]
      exact internal
    · exact Or.inr room.2
  | false =>
    rw [side, if_neg Bool.false_ne_true] at room
    simp only [join, countMember, Bool.false_eq_true, if_false, if_true]
    apply forwardGroup_entitled
    · rfl
    · rfl
    · simp only [Joins.record, found, join, side, Bool.false_eq_true, if_false]
      exact external
    · simp only [Joins.record, found, join, side, Bool.false_eq_true, if_false,
        Function.update_self]
      rw [up_toNat _ room.1, internal]
    · exact Or.inl room.2

/-- The entry a leave leaves. -/
theorem left_entitled (names : PortNames) (joins : Joins) (event : MdbEvent) (dev : String)
    (found : event.dev = some dev) (leave : event.type = .delmdb) (entry : McastGroup)
    (valid : entry.valid = true) (same : entry.key = event.key)
    (external : entry.eif.toNat = joins.external event.key)
    (internal : entry.oif.toNat = joins.internal event.key)
    (oneSided : entry.eif = 0 ∨ entry.oif = 0)
    (member : if names.external dev then entry.eif ≠ 0 else entry.oif ≠ 0) :
    Entitled
      (let group := countMember event.type (names.external dev) event.vid
          { entry with macHi := event.key.macHi, macLo := event.key.macLo }
        if group.valid then forwardGroup group else group)
      event.key (joins.record names event) := by
  have vid : entry.vid = event.key.vid := congrArg GroupKey.vid same
  cases side : names.external dev with
  | true =>
    rw [side, if_pos rfl] at member
    simp only [leave, countMember, valid, if_true]
    apply forwardGroup_entitled
    · rfl
    · exact congrArg (GroupKey.mk · event.key.macHi event.key.macLo) vid
    · simp only [Joins.record, found, leave, side, if_true, Function.update_self]
      rw [down_toNat _ member, external]
    · simp only [Joins.record, found, leave, side, if_true]
      exact internal
    · exact Or.inr (oneSided.resolve_left member)
  | false =>
    rw [side, if_neg Bool.false_ne_true] at member
    simp only [leave, countMember, valid, Bool.false_eq_true, if_false, if_true]
    apply forwardGroup_entitled
    · rfl
    · exact congrArg (GroupKey.mk · event.key.macHi event.key.macLo) vid
    · simp only [Joins.record, found, leave, side, Bool.false_eq_true, if_false]
      exact external
    · simp only [Joins.record, found, leave, side, Bool.false_eq_true, if_false,
        Function.update_self]
      rw [down_toNat _ member, internal]
    · exact Or.inl (oneSided.resolve_right member)

theorem Settled.absent {t : McastTable} {joins : Joins} (settled : Settled t joins)
    (key : GroupKey)
    (absent : ∀ i < t.maxEntry, (t.mtbl i).valid = true → (t.mtbl i).key ≠ key) :
    joins.external key = 0 ∧ joins.internal key = 0 := by
  have nobody : ¬ (0 < joins.external key ∨ 0 < joins.internal key) := by
    rw [settled.alive key]
    rintro ⟨i, inside, valid, same⟩
    exact absent i inside valid same
  omega

/-- A leave of a group that nobody joined changes no count. -/
theorem Joins.record_absent (names : PortNames) (joins : Joins) (event : MdbEvent)
    (leave : event.type = .delmdb) (external : joins.external event.key = 0)
    (internal : joins.internal event.key = 0) : joins.record names event = joins := by
  have ext : Function.update joins.external event.key (joins.external event.key - 1) =
      joins.external := by
    rw [external]
    exact (congrArg _ external.symm).trans (Function.update_eq_self _ _)
  have int : Function.update joins.internal event.key (joins.internal event.key - 1) =
      joins.internal := by
    rw [internal]
    exact (congrArg _ internal.symm).trans (Function.update_eq_self _ _)
  unfold Joins.record
  cases event.dev with
  | none => rfl
  | some dev =>
    simp only [leave, ext, int]
    split_ifs <;> rfl

theorem Settled.step {names : PortNames} {t : McastTable} {joins : Joins}
    (settled : Settled t joins) (event : MdbEvent) (regular : Regular names t event) :
    Settled (hnatMcastTableUpdate names t event) (joins.record names event) := by
  cases found : event.dev with
  | none =>
    simp only [hnatMcastTableUpdate, Joins.record, found]
    exact settled
  | some dev =>
    simp only [Regular, found] at regular
    obtain ⟨findable, counts⟩ := regular
    rcases mcastEntryGet_spec t event findable with
      ⟨i, inside, valid, same, got⟩ | ⟨absent, got⟩
    · -- The group has an entry: count there.
      obtain ⟨external, internal⟩ := settled.counted i inside valid
      rw [same] at external internal
      have alone : ∀ j < t.maxEntry, j ≠ i → (t.mtbl j).valid = true →
          (t.mtbl j).key ≠ event.key := fun j hj other validJ sameJ =>
        other (settled.unique j hj i inside validJ valid (sameJ.trans same.symm))
      cases kind : event.type with
      | newmdb =>
        rw [kind] at counts
        exact settled.update event dev found i inside got (fun _ => same) alone
          (joined_entitled names joins event dev found kind _ external internal
            (counts.2 i inside valid same))
      | delmdb =>
        rw [kind] at counts
        exact settled.update event dev found i inside got (fun _ => same) alone
          (left_entitled names joins event dev found kind _ valid same external internal
            (settled.oneSided i inside valid) (counts i inside valid same))
    · obtain ⟨noExternal, noInternal⟩ := settled.absent event.key absent
      have others : ∀ j < t.maxEntry, j ≠ firstUnused t → (t.mtbl j).valid = true →
          (t.mtbl j).key ≠ event.key := fun j hj _ validJ => absent j hj validJ
      by_cases room : firstUnused t < t.maxEntry
      · -- No entry: the first unused one is taken, or only gets a MAC address.
        rw [if_pos room] at got
        have unused := unused_at t room
        obtain ⟨eif, oif⟩ := settled.blank _ room unused
        have own : (t.mtbl (firstUnused t)).valid = true →
            (t.mtbl (firstUnused t)).key = event.key := fun valid =>
          absurd (unused.symm.trans valid) Bool.false_ne_true
        cases kind : event.type with
        | newmdb =>
          refine settled.update event dev found _ room got own others
            (joined_entitled names joins event dev found kind _ ?_ ?_ ?_)
          · rw [eif, noExternal]
            rfl
          · rw [oif, noInternal]
            rfl
          · split_ifs
            · exact ⟨eif ▸ by decide, oif⟩
            · exact ⟨oif ▸ by decide, eif⟩
        | delmdb =>
          refine settled.update event dev found _ room got own others ?_
          simp only [kind, countMember, unused, Bool.false_eq_true, if_false]
          rw [joins.record_absent names event kind noExternal noInternal]
          exact ⟨fun used => absurd used Bool.false_ne_true,
            fun _ => ⟨eif, oif, noExternal, noInternal⟩⟩
      · -- The table is full: only a leave gets here.
        rw [if_neg room] at got
        have still : hnatMcastTableUpdate names t event = t := by
          have mac : (getMacFromMdbEntry event.addr).1 = event.key.macHi := rfl
          simp only [hnatMcastTableUpdate, found, mac, got]
        cases kind : event.type with
        | newmdb =>
          rw [kind] at counts
          rcases counts.1 with ⟨i, inside, valid, same⟩ | free
          · exact absurd same (absent i inside valid)
          · exact absurd free room
        | delmdb =>
          rw [still, joins.record_absent names event kind noExternal noInternal]
          exact settled

theorem Settled.start (maxEntry ppeNum : Nat) (ppeRegs : Nat → Nat → UInt32)
    (feRegs : Nat → UInt32) : Settled (mcastEnable maxEntry ppeNum ppeRegs feRegs) .none := by
  have unused (i : Nat) : ((mcastEnable maxEntry ppeNum ppeRegs feRegs).mtbl i).valid ≠ true :=
    Bool.false_ne_true
  refine ⟨⟨?_, ?_, ?_, ?_⟩, ?_, fun _ _ _ => ⟨rfl, rfl⟩⟩
  · exact fun i _ _ _ valid => absurd valid (unused i)
  · exact fun i _ valid => absurd valid (unused i)
  · exact fun i _ valid => absurd valid (unused i)
  · intro key
    constructor
    · rintro (some | some) <;> exact absurd some (Nat.lt_irrefl 0)
    · rintro ⟨i, -, valid, -⟩
      exact absurd valid (unused i)
  · exact fun i _ valid => absurd valid (unused i)

/-- In a run of regular events the table tracks the outstanding joins throughout. -/
theorem mcast_table_tracks_joins (names : PortNames) (maxEntry ppeNum : Nat)
    (ppeRegs : Nat → Nat → UInt32) (feRegs : Nat → UInt32) (events : List MdbEvent)
    (regular : Along (Membership.step names) (fun m event => Regular names m.table event)
      (Membership.start maxEntry ppeNum ppeRegs feRegs) events) (seen : Nat) :
    Tracks
      (run (Membership.step names) (Membership.start maxEntry ppeNum ppeRegs feRegs)
        (events.take seen)).table
      (run (Membership.step names) (Membership.start maxEntry ppeNum ppeRegs feRegs)
        (events.take seen)).joins := by
  rw [← List.take_append_drop seen events, along_append] at regular
  exact (run_invariant (Membership.step names) (fun m event => Regular names m.table event)
    (fun m => Settled m.table m.joins) (fun m event settled guard => settled.step event guard)
    _ _ (Settled.start maxEntry ppeNum ppeRegs feRegs) regular.1).toTracks

def samplePorts : PortNames := { lan := "lan", wan := "wan" }

/-- Two groups come and go in turn, on the external and on the internal side. -/
def sampleTurns : List MdbEvent :=
  [⟨.newmdb, some "lan0", 1, .ip4 0x010002e0⟩, ⟨.newmdb, some "wlan0", 1, .ip6 7⟩,
    ⟨.newmdb, some "lan1", 1, .ip4 0x010002e0⟩, ⟨.delmdb, some "wlan0", 1, .ip6 7⟩,
    ⟨.delmdb, some "lan0", 1, .ip4 0x010002e0⟩]

/-- After the five events the first group has one external member left. -/
theorem mcast_table_tracks_joins_sample :
    Tracks
      (run (Membership.step samplePorts) (Membership.start 16 1 (fun _ _ => 0) fun _ => 0)
        (sampleTurns.take 5)).table
      (run (Membership.step samplePorts) (Membership.start 16 1 (fun _ _ => 0) fun _ => 0)
        (sampleTurns.take 5)).joins :=
  mcast_table_tracks_joins samplePorts 16 1 (fun _ _ => 0) (fun _ => 0) sampleTurns
    (by decide +kernel) 5

/-- Two groups join, the first leaves, and a second port joins the other one. -/
def sampleHole : List MdbEvent :=
  [⟨.newmdb, some "lan0", 1, .ip4 0x010002e0⟩, ⟨.newmdb, some "lan0", 1, .ip4 0x020002e0⟩,
    ⟨.delmdb, some "lan0", 1, .ip4 0x010002e0⟩, ⟨.newmdb, some "lan1", 1, .ip4 0x020002e0⟩]

/-- Behind the hole the scan is one entry off: the group is entered a second time. -/
theorem mcast_table_enters_group_twice :
    ¬ ∀ (names : PortNames) (maxEntry ppeNum : Nat) (ppeRegs : Nat → Nat → UInt32)
      (feRegs : Nat → UInt32) (events : List MdbEvent),
      Tracks
        (run (Membership.step names) (Membership.start maxEntry ppeNum ppeRegs feRegs) events).table
        (run (Membership.step names) (Membership.start maxEntry ppeNum ppeRegs feRegs)
          events).joins := by
  intro always
  have tracks := always samplePorts 16 1 (fun _ _ => 0) (fun _ => 0) sampleHole
  have twice := tracks.unique 1 (by decide +kernel) 2 (by decide +kernel) (by decide +kernel)
    (by decide +kernel) (by decide +kernel)
  exact absurd twice (by decide)

end Filogic.Hnat
