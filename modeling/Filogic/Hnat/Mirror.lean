import Filogic.Hnat.Mcast

/-! The multicast registers against the table they are written from. An update reaches both
registers of its entry in the bank of each PPE; in the bank at the frame engine base it reaches
the high one only, and a leave that finds an unused entry reaches none. -/

namespace Filogic.Hnat
open Lib

/-- What a pair of registers tells the PPE: the bit fields of `struct ppe_mcast_h`, and the MAC
bytes of `struct ppe_mcast_l`. -/
structure HwGroup where
  valid : Bool
  mcPxEn : Nat
  mcMpreSel : Nat
  addr : UInt32
  deriving DecidableEq, Repr

def HwGroup.decode (registers : UInt32 × UInt32) : HwGroup :=
  { valid := registers.1.toNat.testBit 14
    mcPxEn := registers.1.toNat / 2 ^ 16 % 16
    mcMpreSel := registers.1.toNat / 2 ^ 20 % 4
    addr := registers.2 }

/-- What the PPE shall be told of an entry. -/
def McastGroup.hw (group : McastGroup) : HwGroup :=
  { valid := group.valid
    mcPxEn := group.mcPort.toNat
    mcMpreSel := if group.macLo = 0x3333 then 1 else 0
    addr := group.macHi }

/-- The high and the low register of an index, as the PPE has them. -/
def McastTable.registers (t : McastTable) (ppeId index : Nat) : UInt32 × UInt32 :=
  if index < 0x10 then
    (t.ppeRegs ppeId (ppeMcastH0 + index * 8), t.ppeRegs ppeId (ppeMcastL0 + index * 8))
  else
    (t.feRegs (ppeMcastH10 + (index - 0x10) * 8), t.feRegs (ppeMcastL10 + (index - 0x10) * 8))

/-- The registers of every PPE and every index say what the table has there. -/
def Mirrors (t : McastTable) : Prop :=
  ∀ ppeId < t.ppeNum, ∀ index < t.maxEntry,
    HwGroup.decode (t.registers ppeId index) = (t.mtbl index).hw

/-- The registers of every PPE and every index are those of an unused entry. -/
def RegistersBlank (t : McastTable) : Prop :=
  ∀ ppeId < t.ppeNum, ∀ index < t.maxEntry,
    HwGroup.decode (t.registers ppeId index) = ⟨false, 0, 0, 0⟩

/-- The side that the event counts has this many members now, and the other side this many. -/
def sides (external : Bool) (group : McastGroup) : UInt8 × UInt8 :=
  if external then (group.eif, group.oif) else (group.oif, group.eif)

/-- The count that the event takes to zero. -/
def lastCount : MdbType → UInt8
  | .newmdb => 255
  | .delmdb => 1

/-- The event leaves the group without members. -/
def Empties (type : MdbType) (external : Bool) (group : McastGroup) : Prop :=
  sides external group = (lastCount type, 0)

/-- Members on the internal side are left, so that the group goes to the CPU. -/
def reachesCpu (type : MdbType) (external : Bool) (group : McastGroup) : Bool :=
  if external then group.oif ≠ 0 else group.oif ≠ lastCount type

/-- The high register of a group that has members. -/
def memberWord (type : MdbType) (external : Bool) (macLo : UInt16) (group : McastGroup) : UInt32 :=
  0x4000 ||| (if reachesCpu type external group then 0x10000 else 0x20000) |||
    (if macLo = 0x3333 then 0x100000 else 0)

/-- The update of an entry that reaches its registers. A leave that finds an unused entry must
find the address of its group there. Any other update must be of an entry in the bank of each
PPE, or empty the group, or be of a group whose MAC bytes are the bits of the high register. -/
def ReachesAt (type : MdbType) (external : Bool) (mac : UInt32 × UInt16) (group : McastGroup)
    (index : Nat) : Prop :=
  if type = .delmdb ∧ group.valid = false then
    group.macHi = mac.1 ∧ (group.macLo = 0x3333 ↔ mac.2 = 0x3333)
  else
    index < 0x10 ∨ Empties type external group ∨ mac.1 = memberWord type external mac.2 group

/-- A notification that changes the registers as it changes the table. -/
def Reaches (names : PortNames) (t : McastTable) (event : MdbEvent) : Prop :=
  match event.dev with
  | none => True
  | some dev =>
    match mcastEntryGet t event.vid (getMacFromMdbEntry event.addr).1 with
    | none => True
    | some index => ReachesAt event.type (names.external dev) (getMacFromMdbEntry event.addr)
        (t.mtbl index) index

instance (type : MdbType) (external : Bool) (group : McastGroup) :
    Decidable (Empties type external group) := inferInstanceAs (Decidable (_ = _))

instance (type : MdbType) (external : Bool) (mac : UInt32 × UInt16) (group : McastGroup)
    (index : Nat) : Decidable (ReachesAt type external mac group index) := by
  unfold ReachesAt
  infer_instance

theorem reaches_iff_forall (names : PortNames) (t : McastTable) (event : MdbEvent) :
    Reaches names t event ↔ ∀ dev ∈ event.dev,
      ∀ index ∈ mcastEntryGet t event.vid (getMacFromMdbEntry event.addr).1,
        ReachesAt event.type (names.external dev) (getMacFromMdbEntry event.addr) (t.mtbl index)
          index := by
  unfold Reaches
  cases event.dev with
  | none => simp
  | some dev =>
    cases mcastEntryGet t event.vid (getMacFromMdbEntry event.addr).1 with
    | none => simp
    | some index => simp

instance (names : PortNames) (t : McastTable) (event : MdbEvent) :
    Decidable (Reaches names t event) := decidable_of_iff' _ (reaches_iff_forall names t event)

/-- What an update leaves in the registers of an entry. -/
def writtenPair (group : McastGroup) (index : Nat) : UInt32 × UInt32 :=
  (mcastH group, if index < 0x10 then group.macHi else mcastH group)

/-- Writing the pair at one index of a bank, the high word four bytes behind the low one. -/
theorem update_pair (bank : Nat → UInt32) (high low i index : Nat) (gap : high = low + 4)
    (h l : UInt32) :
    let after := Function.update (Function.update bank (high + index * 8) h) (low + index * 8) l
    (after (high + i * 8), after (low + i * 8)) =
      if i = index then (h, l) else (bank (high + i * 8), bank (low + i * 8)) := by
  subst gap
  dsimp only
  have apart : low + 4 + i * 8 ≠ low + index * 8 := by omega
  have apart' : low + i * 8 ≠ low + 4 + index * 8 := by omega
  rw [Function.update_of_ne apart]
  by_cases same : i = index
  · subst same
    rw [if_pos rfl, Function.update_self, Function.update_self]
  · have high : low + 4 + i * 8 ≠ low + 4 + index * 8 := by omega
    have low' : low + i * 8 ≠ low + index * 8 := by omega
    rw [if_neg same, Function.update_of_ne high, Function.update_of_ne low',
      Function.update_of_ne apart']

theorem registers_setHnatMtbl (t : McastTable) (group : McastGroup) (index ppeId ppe i : Nat) :
    (setHnatMtbl t group index ppeId).registers ppe i =
      if i = index ∧ (index < 0x10 → ppe = ppeId) then writtenPair group index
      else t.registers ppe i := by
  unfold setHnatMtbl McastTable.registers writtenPair
  by_cases lower : index < 0x10
  · simp only [lower, if_true, true_implies]
    by_cases own : i < 0x10
    · simp only [own, if_true]
      by_cases ppes : ppe = ppeId
      · subst ppes
        simp only [Function.update_self, and_true]
        exact update_pair _ _ _ i index rfl _ _
      · simp [ppes]
    · have other : i ≠ index := by omega
      simp [own, other]
  · simp only [lower, if_false, false_implies, and_true]
    by_cases own : i < 0x10
    · have other : i ≠ index := by omega
      simp [own, other]
    · simp only [own, if_false]
      have place : i - 0x10 = index - 0x10 ↔ i = index := by omega
      have pair := update_pair t.feRegs ppeMcastH10 ppeMcastL10 (i - 0x10) (index - 0x10) rfl
        (mcastH group) (mcastH group)
      simpa only [place] using pair

theorem setHnatMtbl_table (t : McastTable) (group : McastGroup) (index ppeId : Nat) :
    (setHnatMtbl t group index ppeId).mtbl = t.mtbl ∧
      (setHnatMtbl t group index ppeId).maxEntry = t.maxEntry ∧
      (setHnatMtbl t group index ppeId).ppeNum = t.ppeNum := by
  unfold setHnatMtbl
  split_ifs <;> exact ⟨rfl, rfl, rfl⟩

/-- The loop over the PPEs, after `n` of them. -/
theorem setPpes_spec (t : McastTable) (group : McastGroup) (index n : Nat) :
    let after := (List.range n).foldl (fun t i => setHnatMtbl t group index i) t
    (after.mtbl = t.mtbl ∧ after.maxEntry = t.maxEntry ∧ after.ppeNum = t.ppeNum) ∧
      ∀ ppe i, after.registers ppe i =
        if i = index ∧ 0 < n ∧ (index < 0x10 → ppe < n) then writtenPair group index
        else t.registers ppe i := by
  induction n with
  | zero => exact ⟨⟨rfl, rfl, rfl⟩, fun ppe i => by simp⟩
  | succ n ih =>
    dsimp only at ih ⊢
    rw [List.range_succ, List.foldl_append]
    obtain ⟨⟨table, size, ppes⟩, earlier⟩ := ih
    generalize (List.range n).foldl (fun t i => setHnatMtbl t group index i) t = before at *
    obtain ⟨table', size', ppes'⟩ := setHnatMtbl_table before group index n
    refine ⟨⟨table'.trans table, size'.trans size, ppes'.trans ppes⟩, fun ppe i => ?_⟩
    change (setHnatMtbl before group index n).registers ppe i = _
    rw [registers_setHnatMtbl, earlier]
    by_cases same : i = index
    · by_cases lower : index < 0x10
      · by_cases last : ppe = n
        · simp [same, lower, last]
        · have iff : ppe < n + 1 ↔ 0 < n ∧ ppe < n := by omega
          simp [same, lower, last, iff]
      · simp [same, lower]
    · simp [same]

theorem setAllPpe_registers (t : McastTable) (group : McastGroup) (index ppe i : Nat)
    (inside : ppe < t.ppeNum) :
    (setAllPpe t group index).registers ppe i =
      if i = index then writtenPair group index else t.registers ppe i := by
  have positive : 0 < t.ppeNum := by omega
  have spec := (setPpes_spec t group index t.ppeNum).2 ppe i
  rw [setAllPpe, spec]
  simp [inside, positive]

/-- The high register says what the entry has, whose port needs the four bits. -/
theorem decode_mcastH (group : McastGroup) (port : group.mcPort.toNat < 16) :
    HwGroup.decode (mcastH group, group.macHi) = group.hw := by
  have small (p : Fin 16) (valid sel : Bool) :
      let word : UInt32 := (if valid then (0x4000 : UInt32) else 0) |||
        ((UInt32.ofNat p.val % 16) <<< 16) ||| (if sel then 0x100000 else 0)
      word.toNat.testBit 14 = valid ∧ word.toNat / 2 ^ 16 % 16 = p.val ∧
        word.toNat / 2 ^ 20 % 4 = if sel then 1 else 0 := by
    revert p valid sel
    decide
  have ported : group.mcPort.toUInt32 = UInt32.ofNat group.mcPort.toNat := by
    apply UInt32.toNat_inj.mp
    rw [UInt32.toNat_ofNat_of_lt' (by unfold UInt32.size; omega), UInt8.toNat_toUInt32]
  have word : mcastH group = (if group.valid then (0x4000 : UInt32) else 0) |||
      ((UInt32.ofNat group.mcPort.toNat % 16) <<< 16) |||
      (if decide (group.macLo = 0x3333) then 0x100000 else 0) := by
    rw [mcastH, ported]
    simp
  obtain ⟨valid, mcPxEn, sel⟩ := small ⟨group.mcPort.toNat, port⟩ group.valid
    (decide (group.macLo = 0x3333))
  rw [HwGroup.decode, McastGroup.hw, HwGroup.mk.injEq, word]
  exact ⟨valid, mcPxEn, by rw [sel]; simp, rfl⟩


theorem scan_below (t : McastTable) (vid : UInt16) (dstMac : UInt32) (bound left i p : Nat)
    (index : Option Nat) (fits : i + left ≤ bound) (seen : ∀ j, index = some j → j < bound)
    (k : Nat) (found : mcastEntryScan t vid dstMac left i p index = some k) : k < bound := by
  induction left generalizing i p index with
  | zero => exact seen k found
  | succ left ih =>
    rw [mcastEntryScan] at found
    split_ifs at found with hole match_
    · apply ih (i + 1) p (some i) (by omega) _ found
      intro j here
      have := Option.some.inj here
      omega
    · have := Option.some.inj found
      omega
    · exact ih (i + 1) (p + 1) index (by omega) seen found

theorem mcastEntryGet_lt (t : McastTable) (vid : UInt16) (dstMac : UInt32) (k : Nat)
    (found : mcastEntryGet t vid dstMac = some k) : k < t.maxEntry :=
  scan_below t vid dstMac t.maxEntry t.maxEntry 0 0 none (by omega)
    (fun j here => nomatch here) k found

/-- The counters after the event are zero exactly where it empties the group. -/
theorem countMember_zero (type : MdbType) (external : Bool) (vid : UInt16) (group : McastGroup)
    (counts : ¬(type = .delmdb ∧ group.valid = false)) :
    let after := countMember type external vid group
    (after.oif = 0 ∧ after.eif = 0) ↔ Empties type external group := by
  have joined (n : UInt8) : n + 1 = 0 ↔ n = 255 := add_eq_zero_iff_eq_neg
  have left_ (n : UInt8) : n - 1 = 0 ↔ n = 1 := sub_eq_zero
  unfold Empties sides lastCount
  cases type with
  | newmdb => cases external <;> simp [countMember, joined, and_comm]
  | delmdb =>
    have valid : group.valid = true := by simpa using counts
    cases external <;> simp [countMember, valid, left_, and_comm]

theorem countMember_oif (type : MdbType) (external : Bool) (vid : UInt16) (group : McastGroup)
    (counts : ¬(type = .delmdb ∧ group.valid = false)) :
    (countMember type external vid group).oif ≠ 0 ↔ reachesCpu type external group = true := by
  have joined (n : UInt8) : n + 1 = 0 ↔ n = 255 := add_eq_zero_iff_eq_neg
  have left_ (n : UInt8) : n - 1 = 0 ↔ n = 1 := sub_eq_zero
  unfold reachesCpu lastCount
  cases type with
  | newmdb => cases external <;> simp [countMember, joined]
  | delmdb =>
    have valid : group.valid = true := by simpa using counts
    cases external <;> simp [countMember, valid, left_]

theorem countMember_frame (type : MdbType) (external : Bool) (vid : UInt16) (group : McastGroup) :
    let after := countMember type external vid group
    after.macHi = group.macHi ∧ after.macLo = group.macLo ∧
      after.valid = !(type = .delmdb ∧ group.valid = false : Bool) := by
  cases type <;> cases external <;> cases valid : group.valid <;> simp [countMember, valid]

theorem forwardGroup_port (group : McastGroup) : (forwardGroup group).mcPort.toNat < 16 := by
  unfold forwardGroup mcastToPdma mcastToGdma1
  dsimp only
  split_ifs <;> simp [McastGroup.zero]

/-- The low word of a group that was counted is its high word where the group is emptied, or its
MAC bytes are such. -/
theorem forwarded_word (type : MdbType) (external : Bool) (vid : UInt16) (group : McastGroup)
    (counts : ¬(type = .delmdb ∧ group.valid = false)) :
    let after := forwardGroup (countMember type external vid group)
    mcastH after = after.macHi ↔
      Empties type external group ∨ group.macHi = memberWord type external group.macLo group := by
  have zero := countMember_zero type external vid group counts
  have oif := countMember_oif type external vid group counts
  obtain ⟨macHi, macLo, valid⟩ := countMember_frame type external vid group
  rw [show (type = .delmdb ∧ group.valid = false : Bool) = false by simpa using counts] at valid
  generalize countMember type external vid group = after at *
  dsimp only at zero ⊢
  by_cases empties : Empties type external group
  · have cleared : forwardGroup after = .zero := by
      rw [forwardGroup, if_pos (zero.mpr empties)]
    rw [cleared]
    simp only [empties, true_or, iff_true]
    rfl
  · have kept := fun none_ => empties (zero.mp none_)
    have word : mcastH (forwardGroup after) = memberWord type external group.macLo group := by
      rw [forwardGroup, if_neg kept, mcastH, memberWord, ← macLo]
      by_cases cpu : after.oif = 0
      · have sent : reachesCpu type external group = false := by
          rw [← Bool.not_eq_true, ← oif]
          exact fun some_ => some_ cpu
        simp [valid, cpu, sent, mcastToGdma1]
        rfl
      · have sent : reachesCpu type external group = true := oif.mp cpu
        by_cases both : after.eif = 0
        · simp [valid, cpu, sent, both, mcastToPdma]
          rfl
        · simp [valid, cpu, sent, both, mcastToPdma]
          rfl
    have own : (forwardGroup after).macHi = group.macHi := by
      rw [forwardGroup, if_neg kept]
      exact macHi
    rw [word, own]
    simp only [empties, false_or]
    exact eq_comm

theorem decode_written (group : McastGroup) (index : Nat) (port : group.mcPort.toNat < 16) :
    HwGroup.decode (writtenPair group index) = group.hw ↔
      index < 0x10 ∨ mcastH group = group.macHi := by
  have high := decode_mcastH group port
  unfold HwGroup.decode McastGroup.hw at high ⊢
  simp only [HwGroup.mk.injEq] at high
  simp only [writtenPair, HwGroup.mk.injEq, high.1, high.2.1, high.2.2.1, true_and]
  by_cases lower : index < 0x10 <;> simp [lower]

/-- A table that differs in one entry, and in the registers of that entry alike at every PPE. -/
theorem mirrors_replace {t : McastTable} (mirrors : Mirrors t) (t' : McastTable)
    (ppes : 0 < t.ppeNum) (index : Nat) (inside : index < t.maxEntry) (group : McastGroup)
    (pair : UInt32 × UInt32) (table : t'.mtbl = Function.update t.mtbl index group)
    (size : t'.maxEntry = t.maxEntry)
    (ppeNum : t'.ppeNum = t.ppeNum)
    (own : ∀ ppe < t.ppeNum,
      HwGroup.decode (t'.registers ppe index) = HwGroup.decode pair)
    (others : ∀ ppe < t.ppeNum, ∀ i ≠ index, t'.registers ppe i = t.registers ppe i) :
    Mirrors t' ↔ HwGroup.decode pair = group.hw := by
  constructor
  · intro after
    have here := after 0 (ppeNum ▸ ppes) index (size ▸ inside)
    rwa [own 0 ppes, table, Function.update_self] at here
  · intro same ppe hPpe i hi
    rw [ppeNum] at hPpe
    rw [size] at hi
    by_cases at_ : i = index
    · subst at_
      rw [own ppe hPpe, table, Function.update_self]
      exact same
    · rw [others ppe hPpe i at_, table, Function.update_of_ne at_]
      exact mirrors ppe hPpe i hi

theorem update_frame (names : PortNames) (t : McastTable) (event : MdbEvent) :
    (hnatMcastTableUpdate names t event).maxEntry = t.maxEntry ∧
      (hnatMcastTableUpdate names t event).ppeNum = t.ppeNum := by
  unfold hnatMcastTableUpdate
  cases event.dev with
  | none => exact ⟨rfl, rfl⟩
  | some dev =>
    dsimp only
    cases mcastEntryGet t event.vid (getMacFromMdbEntry event.addr).1 with
    | none => exact ⟨rfl, rfl⟩
    | some index =>
      dsimp only
      split_ifs
      · exact (setPpes_spec _ _ index t.ppeNum).1.2
      · exact ⟨rfl, rfl⟩

/-- One notification: from a table that the registers mirror. -/
theorem update_mirrors_iff (names : PortNames) (t : McastTable) (event : MdbEvent)
    (ppes : 0 < t.ppeNum) (mirrors : Mirrors t) :
    Reaches names t event ↔ Mirrors (hnatMcastTableUpdate names t event) := by
  unfold Reaches hnatMcastTableUpdate
  cases event.dev with
  | none => exact iff_of_true trivial mirrors
  | some dev =>
    dsimp only
    cases found : mcastEntryGet t event.vid (getMacFromMdbEntry event.addr).1 with
    | none => exact iff_of_true trivial mirrors
    | some index =>
      have inside := mcastEntryGet_lt t event.vid _ index found
      dsimp only
      generalize getMacFromMdbEntry event.addr = mac
      generalize eq : ({ t.mtbl index with macHi := mac.1, macLo := mac.2 } : McastGroup) = group
      have valid : group.valid = (t.mtbl index).valid := by rw [← eq]
      obtain ⟨macHi, macLo, counted⟩ :=
        countMember_frame event.type (names.external dev) event.vid group
      unfold ReachesAt
      by_cases ignored : event.type = .delmdb ∧ (t.mtbl index).valid = false
      · -- only the address in the table changes
        have kept : countMember event.type (names.external dev) event.vid group = group := by
          simp [countMember, ignored.1, valid, ignored.2]
        have replaced : Mirrors { t with mtbl := Function.update t.mtbl index group } ↔
            HwGroup.decode (t.registers 0 index) = group.hw := by
          apply mirrors_replace mirrors { t with mtbl := Function.update t.mtbl index group } ppes
            index inside group _ rfl rfl rfl
          · intro ppe hPpe
            exact (mirrors ppe hPpe index inside).trans (mirrors 0 ppes index inside).symm
          · exact fun _ _ _ _ => rfl
        rw [if_pos ignored, kept, valid, ignored.2, if_neg Bool.false_ne_true, replaced,
          mirrors 0 ppes index inside, ← eq, McastGroup.hw, McastGroup.hw, HwGroup.mk.injEq]
        by_cases old : (t.mtbl index).macLo = 0x3333 <;> by_cases new : mac.2 = 0x3333 <;>
          simp [old, new]
      · have counts : ¬(event.type = .delmdb ∧ group.valid = false) := by rwa [valid]
        have member : (countMember event.type (names.external dev) event.vid group).valid =
            true := by
          rw [counted, decide_eq_false counts]
          rfl
        have word := forwarded_word event.type (names.external dev) event.vid group counts
        have port := forwardGroup_port
          (countMember event.type (names.external dev) event.vid group)
        dsimp only at word
        rw [if_neg ignored, if_pos member]
        generalize forwardGroup
          (countMember event.type (names.external dev) event.vid group) = written at *
        generalize stored :
          ({ t with mtbl := Function.update t.mtbl index written } : McastTable) = t'
        have same : t'.ppeNum = t.ppeNum := by rw [← stored]
        obtain ⟨table, size, ppeNum⟩ := (setPpes_spec t' written index t'.ppeNum).1
        have replaced : Mirrors (setAllPpe t' written index) ↔
            HwGroup.decode (writtenPair written index) = written.hw := by
          apply mirrors_replace mirrors (setAllPpe t' written index) ppes index inside written _
            (table.trans (by rw [← stored])) (size.trans (by rw [← stored])) (ppeNum.trans same)
          · intro ppe hPpe
            rw [setAllPpe_registers _ _ _ _ _ (same ▸ hPpe), if_pos rfl]
          · intro ppe hPpe i other
            rw [setAllPpe_registers _ _ _ _ _ (same ▸ hPpe), if_neg other, ← stored]
            rfl
        rw [replaced, decode_written written index port, word, ← eq]
        rfl

/-- The registers mirror the table from its start on and after every notification exactly if they
start blank and every notification reaches them. -/
theorem registers_mirror_iff (names : PortNames) (maxEntry ppeNum : Nat) (ppes : 0 < ppeNum)
    (ppeRegs : Nat → Nat → UInt32) (feRegs : Nat → UInt32) (events : List MdbEvent) :
    (RegistersBlank (mcastEnable maxEntry ppeNum ppeRegs feRegs) ∧
      Along (hnatMcastTableUpdate names) (Reaches names)
        (mcastEnable maxEntry ppeNum ppeRegs feRegs) events) ↔
      ∀ early late, events = early ++ late →
        Mirrors (run (hnatMcastTableUpdate names)
          (mcastEnable maxEntry ppeNum ppeRegs feRegs) early) := by
  generalize started : mcastEnable maxEntry ppeNum ppeRegs feRegs = t
  have blank : RegistersBlank t ↔ Mirrors t := by
    rw [← started]
    rfl
  have some_ : 0 < t.ppeNum := by
    rw [← started]
    exact ppes
  have exact_ (t : McastTable) (event : MdbEvent) (holds : 0 < t.ppeNum ∧ Mirrors t) :
      Reaches names t event ↔ 0 < (hnatMcastTableUpdate names t event).ppeNum ∧
        Mirrors (hnatMcastTableUpdate names t event) := by
    rw [(update_frame names t event).2, update_mirrors_iff names t event holds.1 holds.2]
    exact (and_iff_right holds.1).symm
  constructor
  · rintro ⟨start, along⟩ early late split
    exact ((along_iff_prefixes _ _ _ exact_ t events ⟨some_, blank.mp start⟩).mp along
      early late split).2
  · intro all
    have start : Mirrors t := all [] events rfl
    apply And.intro (blank.mpr start)
    apply (along_iff_prefixes _ _ _ exact_ t events ⟨some_, start⟩).mpr
    intro early late split
    apply And.intro _ (all early late split)
    exact run_preserves _ (fun t => 0 < t.ppeNum)
      (fun t event positive => (update_frame names t event).2.symm ▸ positive) t early some_

/-- Seventeen groups joined from a wireless port: the last one comes to the second bank. -/
def seventeenJoins : List MdbEvent :=
  (List.range 17).map fun n =>
    { type := .newmdb, dev := some "ra0", vid := 0
      addr := .ip4 (UInt32.ofNat (n * 0x10000 + 0x1e0)) }

theorem registers_mirror_sixteenJoins :
    Mirrors (run (hnatMcastTableUpdate (PortNames.mk "lan" "eth1"))
      (mcastEnable 64 1 (fun _ _ => 0) (fun _ => 0)) (seventeenJoins.take 16)) :=
  (registers_mirror_iff (PortNames.mk "lan" "eth1") 64 1 Nat.one_pos (fun _ _ => 0) (fun _ => 0)
    (seventeenJoins.take 16)).mp ⟨by unfold RegistersBlank; decide +kernel, by decide +kernel⟩
    (seventeenJoins.take 16) [] (List.append_nil _).symm

/-- The low register of the seventeenth group is its high register. -/
theorem second_bank_low : ¬∀ events : List MdbEvent,
    Mirrors (run (hnatMcastTableUpdate (PortNames.mk "lan" "eth1"))
      (mcastEnable 64 1 (fun _ _ => 0) (fun _ => 0)) events) := by
  intro all
  have wrong := all seventeenJoins 0 (by decide +kernel) 16 (by decide +kernel)
  revert wrong
  decide +kernel

end Filogic.Hnat
