import Filogic.Dsa.Registers

/-! Words of the AN8855 VLAN table: the entry that an addition or a deletion of a port stages for
one that was read. -/

namespace Filogic.Dsa

/-- `VLAN_VALID` -/
def vlanValid : BitVec 32 := 1#32 <<< 0

/-- `IVL_MAC` -/
def ivlMac : BitVec 32 := 1#32 <<< 5

/-- `VTAG_EN` -/
def vtagEn : BitVec 32 := 1#32 <<< 10

/-- `PORT_EG_CTRL_SHIFT` -/
def portEgCtrlShift : Nat := 12

/-- `PORT_MEM_SHFT` -/
def portMemShft : Nat := 26

/-- `PORT_MEM` -/
def portMem (members : BitVec 32) : BitVec 32 := (members &&& 0x7f#32) <<< portMemShft

/-- `ETAG_CTRL_P` -/
def etagCtrlP (port : PortNum) (mode : BitVec 32) : BitVec 32 := (mode &&& 3#32) <<< (port.val * 2)

/-- `ETAG_CTRL_P_MASK` -/
def etagCtrlPMask (port : PortNum) : BitVec 32 := etagCtrlP port 3#32

/-- `ETAG_CTRL_MASK` -/
def etagCtrlMask : BitVec 32 := 0x3fff#32

def egressUntag : BitVec 32 := 0#32
def egressTag : BitVec 32 := 2#32
def egressStack : BitVec 32 := 3#32

/-- `old_members`, a `u8`. -/
def oldMembers (vard0 : BitVec 32) : BitVec 8 := ((vard0 >>> portMemShft) &&& 0x7f#32).setWidth 8

/-- `new_members` of `an8855_hw_vlan_add`. -/
def membersWith (old : BitVec 8) (port : PortNum) : BitVec 8 :=
  (old.setWidth 32 ||| bit port ||| bit cpuPort).setWidth 8

/-- `new_members` of `an8855_hw_vlan_del`. -/
def membersWithout (old : BitVec 8) (port : PortNum) : BitVec 8 :=
  (old.setWidth 32 &&& ~~~(bit port)).setWidth 8

/-- The egress mode of a port in an entry. -/
def etag (word : BitVec 32) (port : PortNum) : BitVec 2 :=
  word.extractLsb' (portEgCtrlShift + port.val * 2) 2

/-- Whether an entry lists a port. -/
def lists (word : BitVec 32) (port : PortNum) : Bool := word.getLsbD (portMemShft + port.val)

/-- A port's egress mode is set by a read-modify-write of its own two bits. -/
def setEtag (word : BitVec 32) (port : PortNum) (mode : BitVec 32) : BitVec 32 :=
  rmw word (etagCtrlPMask port <<< portEgCtrlShift) (etagCtrlP port mode <<< portEgCtrlShift)

/-- The `VAWD0` that `an8855_hw_vlan_add` leaves for what it reads from `VARD0`. -/
def addWord (vard0 : BitVec 32) (old : BitVec 8) (port : PortNum) (untagged : Bool) : BitVec 32 :=
  let val := vard0 &&& (etagCtrlMask <<< portEgCtrlShift)
  let val := val ||| (ivlMac ||| vtagEn ||| portMem ((membersWith old port).setWidth 32) ||| vlanValid)
  let val := setEtag val port (if untagged then egressUntag else egressTag)
  setEtag val cpuPort egressStack

/-- The `VAWD0` of a deletion that leaves members. -/
def keepWord (members : BitVec 8) : BitVec 32 :=
  ivlMac ||| vtagEn ||| portMem (members.setWidth 32) ||| vlanValid

theorem lowBits_getLsbD (n i : Nat) (fits : n ≤ 32) :
    (BitVec.ofNat 32 (2 ^ n - 1)).getLsbD i = decide (i < n) := by
  rw [BitVec.getLsbD_ofNat, Nat.testBit_two_pow_sub_one]
  grind

theorem mask3_getLsbD (i : Nat) : (3#32).getLsbD i = decide (i < 2) :=
  lowBits_getLsbD 2 i (by decide)

theorem mask7f_getLsbD (i : Nat) : (0x7f#32).getLsbD i = decide (i < 7) :=
  lowBits_getLsbD 7 i (by decide)

theorem etagCtrlMask_getLsbD (i : Nat) : etagCtrlMask.getLsbD i = decide (i < 14) :=
  lowBits_getLsbD 14 i (by decide)

@[simp] theorem portMem_getLsbD (members : BitVec 32) (i : Nat) :
    (portMem members).getLsbD i =
      (decide (26 ≤ i) && decide (i < 32) && members.getLsbD (i - 26)) := by
  simp only [portMem, portMemShft, BitVec.getLsbD_shiftLeft, BitVec.getLsbD_and, mask7f_getLsbD]
  grind

@[simp] theorem oldMembers_getLsbD (word : BitVec 32) (i : Nat) :
    (oldMembers word).getLsbD i = (decide (i < 6) && word.getLsbD (26 + i)) := by
  simp only [oldMembers, portMemShft, BitVec.getLsbD_setWidth, BitVec.getLsbD_and,
    BitVec.getLsbD_ushiftRight, mask7f_getLsbD]
  by_cases inside : i < 6
  · simp [inside, show i < 8 by omega, show i < 7 by omega]
  · simp [inside, BitVec.getLsbD_of_ge word (26 + i) (by omega)]

@[simp] theorem membersWith_getLsbD (old : BitVec 8) (port q : PortNum) :
    (membersWith old port).getLsbD q.val =
      (old.getLsbD q.val || decide (q = port) || decide (q = cpuPort)) := by
  have bound := q.isLt
  simp [membersWith, Fin.ext_iff]
  grind

@[simp] theorem membersWithout_getLsbD (old : BitVec 8) (port q : PortNum) :
    (membersWithout old port).getLsbD q.val = (old.getLsbD q.val && decide (q ≠ port)) := by
  have bound := q.isLt
  simp [membersWithout, Fin.ext_iff]
  grind

theorem etagCtrlP_getLsbD (port : PortNum) (mode : BitVec 32) (i : Nat) :
    (etagCtrlP port mode <<< portEgCtrlShift).getLsbD i =
      (decide (12 + port.val * 2 ≤ i) && decide (i < 14 + port.val * 2) &&
        mode.getLsbD (i - (12 + port.val * 2))) := by
  have bound := port.isLt
  simp only [etagCtrlP, portEgCtrlShift, BitVec.getLsbD_shiftLeft, BitVec.getLsbD_and,
    mask3_getLsbD, Nat.sub_sub]
  by_cases inside : 12 + port.val * 2 ≤ i ∧ i < 14 + port.val * 2
  · simp [inside]
    grind
  · grind

theorem setEtag_getLsbD (word : BitVec 32) (port : PortNum) (mode : BitVec 32) (i : Nat) :
    (setEtag word port mode).getLsbD i =
      if 12 + port.val * 2 ≤ i ∧ i < 14 + port.val * 2 then mode.getLsbD (i - (12 + port.val * 2))
      else word.getLsbD i := by
  rw [setEtag, etagCtrlPMask, rmw_getLsbD, etagCtrlP_getLsbD, etagCtrlP_getLsbD, mask3_getLsbD]
  by_cases inside : 12 + port.val * 2 ≤ i ∧ i < 14 + port.val * 2
  · simp only [if_pos inside]
    grind
  · simp only [if_neg inside]
    grind

theorem etag_getLsbD (word : BitVec 32) (port : PortNum) (i : Nat) :
    (etag word port).getLsbD i = (decide (i < 2) && word.getLsbD (12 + port.val * 2 + i)) := by
  rw [etag, portEgCtrlShift, BitVec.getLsbD_extractLsb']

/-- One port's mode is set, and every other port keeps its own. -/
theorem etag_setEtag (word : BitVec 32) (port q : PortNum) (mode : BitVec 32) :
    etag (setEtag word port mode) q = if q = port then mode.setWidth 2 else etag word q := by
  apply BitVec.eq_of_getLsbD_eq
  intro i inside
  rw [etag_getLsbD, setEtag_getLsbD]
  by_cases here : q = port
  · subst here
    simp [inside]
    grind
  · have apart : q.val ≠ port.val := fun same => here (Fin.ext same)
    have outside : ¬(12 + port.val * 2 ≤ 12 + q.val * 2 + i ∧
        12 + q.val * 2 + i < 14 + port.val * 2) := by omega
    rw [if_neg outside, if_neg here, etag_getLsbD]

/-- The modes lie between the flags and the members of the entry. -/
theorem setEtag_outside (word : BitVec 32) (port : PortNum) (mode : BitVec 32) (i : Nat)
    (outside : i < 12 ∨ 26 ≤ i) : (setEtag word port mode).getLsbD i = word.getLsbD i := by
  have bound := port.isLt
  rw [setEtag_getLsbD, if_neg (by omega)]

section Staged

variable (vard0 : BitVec 32) (old : BitVec 8) (port : PortNum) (untagged : Bool)

theorem constants_getLsbD (i : Nat) :
    (ivlMac ||| vtagEn).getLsbD i = (decide (i = 5) || decide (i = 10)) := by
  simp only [ivlMac, vtagEn, BitVec.getLsbD_or, BitVec.getLsbD_shiftLeft, BitVec.getLsbD_one]
  grind

theorem vlanValid_getLsbD (i : Nat) : vlanValid.getLsbD i = decide (i = 0) := by
  simp only [vlanValid, BitVec.getLsbD_shiftLeft, BitVec.getLsbD_one]
  grind

theorem entry_getLsbD (members : BitVec 32) (i : Nat) :
    (ivlMac ||| vtagEn ||| portMem members ||| vlanValid).getLsbD i =
      (decide (i = 5) || decide (i = 10) ||
        decide (26 ≤ i) && decide (i < 32) && members.getLsbD (i - 26) || decide (i = 0)) := by
  rw [BitVec.getLsbD_or, BitVec.getLsbD_or, constants_getLsbD, portMem_getLsbD,
    vlanValid_getLsbD]

/-- The modes are kept from what was read, below the flags and members of the new entry. -/
theorem base_getLsbD (members : BitVec 32) (i : Nat) :
    (vard0 &&& (etagCtrlMask <<< portEgCtrlShift) |||
      (ivlMac ||| vtagEn ||| portMem members ||| vlanValid)).getLsbD i =
      (vard0.getLsbD i && decide (12 ≤ i) && decide (i < 26) || (decide (i = 5) ||
        decide (i = 10) || decide (26 ≤ i) && decide (i < 32) && members.getLsbD (i - 26) ||
          decide (i = 0))) := by
  rw [BitVec.getLsbD_or, entry_getLsbD, BitVec.getLsbD_and, BitVec.getLsbD_shiftLeft,
    etagCtrlMask_getLsbD, portEgCtrlShift]
  grind

theorem addWord_valid : (addWord vard0 old port untagged).getLsbD 0 = true := by
  simp only [addWord]
  rw [setEtag_outside _ _ _ 0 (by decide), setEtag_outside _ _ _ 0 (by decide), base_getLsbD]
  simp

theorem addWord_lists (q : PortNum) :
    lists (addWord vard0 old port untagged) q =
      (old.getLsbD q.val || decide (q = port) || decide (q = cpuPort)) := by
  have bound := q.isLt
  have high : 26 + q.val < 12 ∨ 26 ≤ 26 + q.val := by omega
  simp only [addWord, lists, portMemShft]
  rw [setEtag_outside _ _ _ _ high, setEtag_outside _ _ _ _ high, base_getLsbD,
    Nat.add_sub_cancel_left, BitVec.getLsbD_setWidth, membersWith_getLsbD]
  grind

/-- The mode that the flags of an addition ask for. -/
def egressMode (untagged : Bool) : BitVec 2 := if untagged then 0 else 2

theorem addWord_etag (q : PortNum) :
    etag (addWord vard0 old port untagged) q =
      if q = cpuPort then 3#2 else if q = port then egressMode untagged else etag vard0 q := by
  simp only [addWord]
  rw [etag_setEtag, etag_setEtag]
  by_cases isCpu : q = cpuPort
  · simp only [if_pos isCpu]
    decide
  · by_cases here : q = port
    · simp only [if_neg isCpu, if_pos here]
      cases untagged <;> decide
    · simp only [if_neg isCpu, if_neg here]
      apply BitVec.eq_of_getLsbD_eq
      intro i inside
      have bound := q.isLt
      rw [etag_getLsbD, etag_getLsbD, base_getLsbD]
      grind

/-- A deletion that leaves members gives every port the mode `0`, also the CPU port. -/
theorem keepWord_etag (members : BitVec 8) (q : PortNum) : etag (keepWord members) q = 0#2 := by
  have bound := q.isLt
  apply BitVec.eq_of_getLsbD_eq
  intro i inside
  rw [etag_getLsbD, keepWord, entry_getLsbD]
  grind

end Staged

end Filogic.Dsa
