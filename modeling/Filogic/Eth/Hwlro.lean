import Filogic.Lib.Matched
import Filogic.Lib.Runs

/-! The destination addresses of hardware LRO: each interface keeps its rules by location, and
all interfaces share the address registers of the engine. -/

namespace Filogic.Eth
open Lib

def hwLroDipNum : Nat := 4
def maxLroIpCnt : Nat := 2

/-- `MTK_RING_MYIP_VLD` -/
def ringMyipVld : BitVec 32 := 0x200

inductive Errno where
  | einval | eexist | ebusy | enoent
  deriving DecidableEq, Repr

/-- The two registers of each LRO ring; the rules of each interface with their count, and whether
LRO is among its features. -/
structure Hwlro (devs : Nat) where
  lroRxDip : Fin hwLroDipNum → BitVec 32
  lroRxCtrl : Fin hwLroDipNum → BitVec 32
  hwlroIp : Fin devs × Fin maxLroIpCnt → BitVec 32
  hwlroIpCnt : Fin devs → Nat
  lro : Fin devs → Bool

/-- `struct ethtool_rx_flow_spec`, where `tcpV4` says that the flow type is `TCP_V4_FLOW` -/
structure FlowSpec where
  tcpV4 : Bool
  ip4dst : BitVec 32
  location : Nat
  deriving DecidableEq, Repr

/-- The bytes of a word in the opposite order. -/
def htonl (w : BitVec 32) : BitVec 32 :=
  w.extractLsb' 0 8 ++ w.extractLsb' 8 8 ++ w.extractLsb' 16 8 ++ w.extractLsb' 24 8

section Code

variable {devs : Nat}

/-- `mtk_hwlro_val_ipaddr` -/
def hwlroValIpaddr (idx : Fin hwLroDipNum) (ip : BitVec 32) (s : Hwlro devs) : Hwlro devs :=
  let regVal := s.lroRxCtrl idx
  let s := { s with lroRxCtrl := Function.update s.lroRxCtrl idx (regVal &&& ~~~ringMyipVld) }
  let s := { s with lroRxDip := Function.update s.lroRxDip idx ip }
  { s with lroRxCtrl := Function.update s.lroRxCtrl idx (regVal ||| ringMyipVld) }

/-- `mtk_hwlro_inval_ipaddr` -/
def hwlroInvalIpaddr (idx : Fin hwLroDipNum) (s : Hwlro devs) : Hwlro devs :=
  let regVal := s.lroRxCtrl idx
  let s := { s with lroRxCtrl := Function.update s.lroRxCtrl idx (regVal &&& ~~~ringMyipVld) }
  { s with lroRxDip := Function.update s.lroRxDip idx 0 }

/-- `mtk_hwlro_get_ip_cnt` -/
def hwlroGetIpCnt (dev : Fin devs) (s : Hwlro devs) : Nat :=
  (List.finRange maxLroIpCnt).countP (fun i => s.hwlroIp (dev, i) ≠ 0)

/-- The loops that search the registers for a value. -/
def dipIdx (value : BitVec 32) (s : Hwlro devs) : Option (Fin hwLroDipNum) :=
  (List.finRange hwLroDipNum).find? (fun i => s.lroRxDip i = value)

/-- `mtk_hwlro_add_ipaddr_idx` -/
def hwlroAddIpaddrIdx (ip4dst : BitVec 32) (s : Hwlro devs) : Except Errno (Fin hwLroDipNum) :=
  match dipIdx ip4dst s with
  | some _ => .error .eexist
  | none =>
    match dipIdx 0 s with
    | some i => .ok i
    | none => .error .ebusy

/-- `mtk_hwlro_get_ipaddr_idx` -/
def hwlroGetIpaddrIdx (ip4dst : BitVec 32) (s : Hwlro devs) : Except Errno (Fin hwLroDipNum) :=
  match dipIdx ip4dst s with
  | some i => .ok i
  | none => .error .enoent

/-- `mac->hwlro_ip[location] = ip` and the count after it -/
def setHwlroIp (dev : Fin devs) (location : Fin maxLroIpCnt) (ip : BitVec 32) (s : Hwlro devs) :
    Hwlro devs :=
  let s := { s with hwlroIp := Function.update s.hwlroIp (dev, location) ip }
  { s with hwlroIpCnt := Function.update s.hwlroIpCnt dev (hwlroGetIpCnt dev s) }

/-- `mtk_hwlro_add_ipaddr` -/
def hwlroAddIpaddr (dev : Fin devs) (fsp : FlowSpec) (s : Hwlro devs) :
    Except Errno (Hwlro devs) := do
  if h : fsp.tcpV4 ∧ fsp.ip4dst ≠ 0 ∧ fsp.location < maxLroIpCnt then
    let ip4dst := htonl fsp.ip4dst
    let hwlroIdx ← hwlroAddIpaddrIdx ip4dst s
    return hwlroValIpaddr hwlroIdx ip4dst (setHwlroIp dev ⟨fsp.location, h.2.2⟩ ip4dst s)
  else throw .einval

/-- `mtk_hwlro_del_ipaddr` -/
def hwlroDelIpaddr (dev : Fin devs) (fsp : FlowSpec) (s : Hwlro devs) :
    Except Errno (Hwlro devs) := do
  if h : fsp.location < maxLroIpCnt then
    let hwlroIdx ← hwlroGetIpaddrIdx (s.hwlroIp (dev, ⟨fsp.location, h⟩)) s
    return hwlroInvalIpaddr hwlroIdx (setHwlroIp dev ⟨fsp.location, h⟩ 0 s)
  else throw .einval

/-- The body of the loop of `mtk_hwlro_netdev_enable` -/
def enableEntry (dev : Fin devs) (s : Hwlro devs) (i : Fin maxLroIpCnt) : Hwlro devs :=
  if s.hwlroIp (dev, i) = 0 then s
  else
    match hwlroGetIpaddrIdx (s.hwlroIp (dev, i)) s with
    | .error _ => s
    | .ok hwlroIdx => hwlroValIpaddr hwlroIdx (s.hwlroIp (dev, i)) s

/-- `mtk_hwlro_netdev_enable` -/
def hwlroNetdevEnable (dev : Fin devs) (s : Hwlro devs) : Hwlro devs :=
  (List.finRange maxLroIpCnt).foldl (enableEntry dev) s

/-- The body of the loop of `mtk_hwlro_netdev_disable` -/
def disableEntry (dev : Fin devs) (s : Hwlro devs) (i : Fin maxLroIpCnt) : Hwlro devs :=
  if s.hwlroIp (dev, i) = 0 then s
  else
    match hwlroGetIpaddrIdx (s.hwlroIp (dev, i)) s with
    | .error _ => s
    | .ok hwlroIdx =>
      hwlroInvalIpaddr hwlroIdx { s with hwlroIp := Function.update s.hwlroIp (dev, i) 0 }

/-- `mtk_hwlro_netdev_disable` -/
def hwlroNetdevDisable (dev : Fin devs) (s : Hwlro devs) : Hwlro devs :=
  let s := (List.finRange maxLroIpCnt).foldl (disableEntry dev) s
  { s with hwlroIpCnt := Function.update s.hwlroIpCnt dev 0 }

/-- `mtk_fix_features`, of which only LRO matters here -/
def fixFeatures (dev : Fin devs) (features : Bool) (s : Hwlro devs) : Bool :=
  features || hwlroGetIpCnt dev s != 0

/-- `mtk_set_features`, after which the network core takes the features over -/
def setFeatures (dev : Fin devs) (features : Bool) (s : Hwlro devs) : Hwlro devs :=
  let lro := s.lro dev
  let s := if !features && lro then hwlroNetdevDisable dev s
    else if features && !lro then hwlroNetdevEnable dev s
    else s
  { s with lro := Function.update s.lro dev features }

/-- The network core asks the driver to fix the features that are wanted, and may still drop
LRO where another feature excludes it. -/
inductive LroEvent (devs : Nat) where
  | insert (dev : Fin devs) (fsp : FlowSpec)
  | delete (dev : Fin devs) (fsp : FlowSpec)
  | features (dev : Fin devs) (wanted excluded : Bool)

def lroStep (s : Hwlro devs) : LroEvent devs → Hwlro devs
  | .insert dev fsp =>
    match hwlroAddIpaddr dev fsp s with
    | .ok s' => s'
    | .error _ => s
  | .delete dev fsp =>
    match hwlroDelIpaddr dev fsp s with
    | .ok s' => s'
    | .error _ => s
  | .features dev wanted excluded =>
    setFeatures dev (fixFeatures dev wanted s && !excluded) s

/-- No address is programmed, whatever else the control registers and features say. -/
def noRules (ctrl : Fin hwLroDipNum → BitVec 32) (lro : Fin devs → Bool) : Hwlro devs :=
  { lroRxDip := fun _ => 0, lroRxCtrl := fun idx => ctrl idx &&& ~~~ringMyipVld
    hwlroIp := fun _ => 0, hwlroIpCnt := fun _ => 0, lro := lro }

/-- A register is validated. -/
def Valid (ctrl : BitVec 32) : Prop := ctrl &&& ringMyipVld ≠ 0

/-- The registers hold the entries of all interfaces. -/
structure Programmed (s : Hwlro devs) : Prop where
  matched : Matched s.lroRxDip s.hwlroIp
  valid : ∀ idx, Valid (s.lroRxCtrl idx) ↔ s.lroRxDip idx ≠ 0

structure LroAgreement (s : Hwlro devs) : Prop extends Programmed s where
  count : ∀ dev, s.hwlroIpCnt dev =
    (Finset.univ.filter (fun location => s.hwlroIp (dev, location) ≠ 0)).card

/-- A rule that is taken, since it is well formed, its address is new and a register is free,
comes to an empty location. -/
def ToEmptyLocation (s : Hwlro devs) : LroEvent devs → Prop
  | .insert dev fsp =>
    fsp.tcpV4 → fsp.ip4dst ≠ 0 → (∀ idx, s.lroRxDip idx ≠ htonl fsp.ip4dst) →
      (∃ idx, s.lroRxDip idx = 0) → ∀ location : Fin maxLroIpCnt, fsp.location = location →
        s.hwlroIp (dev, location) = 0
  | _ => True

end Code

theorem htonl_ne_zero (w : BitVec 32) (other : w ≠ 0) : htonl w ≠ 0 := by
  intro zero
  apply other
  apply BitVec.eq_of_getLsbD_eq
  intro i below
  -- the bit of the answer that bit `i` of the word goes to
  have bit := congrArg (fun v : BitVec 32 => v.getLsbD ((3 - i / 8) * 8 + i % 8)) zero
  simp only [htonl, BitVec.getLsbD_append, BitVec.getLsbD_extractLsb'] at bit
  interval_cases i <;> simpa using bit

theorem valid_or (ctrl : BitVec 32) : Valid (ctrl ||| ringMyipVld) := by
  intro zero
  have bit := congrArg (·.getLsbD 9) zero
  simp [ringMyipVld] at bit

theorem not_valid_and (ctrl : BitVec 32) : ¬Valid (ctrl &&& ~~~ringMyipVld) := by
  simp [Valid, ringMyipVld, BitVec.and_assoc]

section Steps

variable {devs : Nat}

theorem dipIdx_some (value : BitVec 32) (s : Hwlro devs) (idx : Fin hwLroDipNum)
    (found : dipIdx value s = some idx) : s.lroRxDip idx = value := by
  simpa using List.find?_some found

theorem dipIdx_none (value : BitVec 32) (s : Hwlro devs) (missing : dipIdx value s = none)
    (idx : Fin hwLroDipNum) : s.lroRxDip idx ≠ value := by
  simpa using List.find?_eq_none.mp missing idx (List.mem_finRange idx)

theorem hwlroGetIpCnt_eq (dev : Fin devs) (s : Hwlro devs) : hwlroGetIpCnt dev s =
    (Finset.univ.filter (fun location => s.hwlroIp (dev, location) ≠ 0)).card := by
  rw [hwlroGetIpCnt, List.countP_eq_length_filter]
  rfl

theorem hwlroValIpaddr_eq (idx : Fin hwLroDipNum) (ip : BitVec 32) (s : Hwlro devs) :
    hwlroValIpaddr idx ip s = { s with
      lroRxDip := Function.update s.lroRxDip idx ip
      lroRxCtrl := Function.update s.lroRxCtrl idx (s.lroRxCtrl idx ||| ringMyipVld) } := by
  simp only [hwlroValIpaddr, Function.update_idem]

/-- What an insertion that is taken was given, and what it does. -/
theorem hwlroAddIpaddr_cases (dev : Fin devs) (fsp : FlowSpec) (s s' : Hwlro devs)
    (taken : hwlroAddIpaddr dev fsp s = .ok s') :
    fsp.tcpV4 = true ∧ fsp.ip4dst ≠ 0 ∧ (∀ idx, s.lroRxDip idx ≠ htonl fsp.ip4dst) ∧
      ∃ (location : Fin maxLroIpCnt) (idx : Fin hwLroDipNum), fsp.location = location ∧
        s.lroRxDip idx = 0 ∧
        s' = hwlroValIpaddr idx (htonl fsp.ip4dst)
          (setHwlroIp dev location (htonl fsp.ip4dst) s) := by
  unfold hwlroAddIpaddr at taken
  split_ifs at taken with wellFormed
  simp only [hwlroAddIpaddrIdx] at taken
  cases known : dipIdx (htonl fsp.ip4dst) s with
  | some idx => rw [known] at taken; cases taken
  | none =>
    cases free : dipIdx 0 s with
    | none => rw [known, free] at taken; cases taken
    | some idx =>
      rw [known, free] at taken
      cases taken
      exact ⟨wellFormed.1, wellFormed.2.1, dipIdx_none _ s known,
        ⟨fsp.location, wellFormed.2.2⟩, idx, rfl, dipIdx_some 0 s idx free, rfl⟩

theorem hwlroAddIpaddr_ok (dev : Fin devs) (fsp : FlowSpec) (s : Hwlro devs)
    (location : Fin maxLroIpCnt) (there : fsp.location = location) (tcp : fsp.tcpV4 = true)
    (other : fsp.ip4dst ≠ 0) (fresh : ∀ idx, s.lroRxDip idx ≠ htonl fsp.ip4dst)
    (free : ∃ idx, s.lroRxDip idx = 0) : ∃ s', hwlroAddIpaddr dev fsp s = .ok s' := by
  unfold hwlroAddIpaddr
  rw [dif_pos ⟨tcp, other, by rw [there]; exact location.isLt⟩]
  cases known : dipIdx (htonl fsp.ip4dst) s with
  | some idx => exact absurd (dipIdx_some _ s idx known) (fresh idx)
  | none =>
    cases found : dipIdx 0 s with
    | none =>
      obtain ⟨idx, zero⟩ := free
      exact absurd zero (dipIdx_none 0 s found idx)
    | some idx =>
      simp only [hwlroAddIpaddrIdx, known, found]
      exact ⟨_, rfl⟩

theorem hwlroDelIpaddr_cases (dev : Fin devs) (fsp : FlowSpec) (s s' : Hwlro devs)
    (taken : hwlroDelIpaddr dev fsp s = .ok s') :
    ∃ (location : Fin maxLroIpCnt) (idx : Fin hwLroDipNum),
      s.lroRxDip idx = s.hwlroIp (dev, location) ∧
        s' = hwlroInvalIpaddr idx (setHwlroIp dev location 0 s) := by
  unfold hwlroDelIpaddr at taken
  split_ifs at taken with inRange
  simp only [hwlroGetIpaddrIdx] at taken
  cases found : dipIdx (s.hwlroIp (dev, ⟨fsp.location, inRange⟩)) s with
  | none => rw [found] at taken; cases taken
  | some idx =>
    rw [found] at taken
    cases taken
    exact ⟨⟨fsp.location, inRange⟩, idx, dipIdx_some _ s idx found, rfl⟩

/-- A register and an entry of one value are changed together, to an address that no register
has and the register validated, or to zero and the register invalidated. -/
theorem Programmed.change (s : Hwlro devs) (programmed : Programmed s) (idx : Fin hwLroDipNum)
    (entry : Fin devs × Fin maxLroIpCnt) (same : s.lroRxDip idx = s.hwlroIp entry)
    (ip ctrl : BitVec 32) (fresh : ip ≠ 0 → ∀ idx, s.lroRxDip idx ≠ ip)
    (valid : Valid ctrl ↔ ip ≠ 0) (cnt : Fin devs → Nat) :
    Programmed { s with
      lroRxDip := Function.update s.lroRxDip idx ip
      lroRxCtrl := Function.update s.lroRxCtrl idx ctrl
      hwlroIp := Function.update s.hwlroIp entry ip
      hwlroIpCnt := cnt } where
  matched := programmed.matched.update idx entry same ip fresh
  valid := by
    intro j
    dsimp only
    by_cases here : j = idx
    · subst here
      simpa only [Function.update_self] using valid
    · simpa only [Function.update_of_ne here] using programmed.valid j

theorem inval_programmed (s : Hwlro devs) (programmed : Programmed s) (idx : Fin hwLroDipNum)
    (entry : Fin devs × Fin maxLroIpCnt) (same : s.lroRxDip idx = s.hwlroIp entry)
    (cnt : Fin devs → Nat) :
    Programmed (hwlroInvalIpaddr idx
      { s with hwlroIp := Function.update s.hwlroIp entry 0, hwlroIpCnt := cnt }) := by
  apply programmed.change s idx entry same 0 (s.lroRxCtrl idx &&& ~~~ringMyipVld) _ _ cnt
  · exact fun other => absurd rfl other
  · simp [not_valid_and]

theorem setHwlroIp_count (dev : Fin devs) (location : Fin maxLroIpCnt) (ip : BitVec 32)
    (s : Hwlro devs) (agreement : LroAgreement s) (other : Fin devs) :
    (setHwlroIp dev location ip s).hwlroIpCnt other =
      (Finset.univ.filter
        (fun place => (setHwlroIp dev location ip s).hwlroIp (other, place) ≠ 0)).card := by
  by_cases here : other = dev
  · subst here
    rw [← hwlroGetIpCnt_eq]
    simp only [setHwlroIp, Function.update_self]
    rfl
  · have elsewhere : ∀ place : Fin maxLroIpCnt, (other, place) ≠ (dev, location) := by
      intro place pair
      exact here (congrArg Prod.fst pair)
    simp only [setHwlroIp, Function.update_of_ne here, Function.update_of_ne (elsewhere _)]
    exact agreement.count other

theorem insert_agreement (dev : Fin devs) (fsp : FlowSpec) (s s' : Hwlro devs)
    (agreement : LroAgreement s) (empty : ToEmptyLocation s (.insert dev fsp))
    (taken : hwlroAddIpaddr dev fsp s = .ok s') : LroAgreement s' := by
  obtain ⟨tcp, other, fresh, location, idx, there, free, rfl⟩ :=
    hwlroAddIpaddr_cases dev fsp s s' taken
  have unused : s.hwlroIp (dev, location) = 0 :=
    empty tcp other fresh ⟨idx, free⟩ location there
  rw [hwlroValIpaddr_eq]
  constructor
  · apply agreement.change s idx (dev, location) (by rw [free, unused]) (htonl fsp.ip4dst)
      (s.lroRxCtrl idx ||| ringMyipVld)
    · exact fun _ => fresh
    · exact iff_of_true (valid_or _) (htonl_ne_zero fsp.ip4dst other)
  · exact setHwlroIp_count dev location _ s agreement

theorem delete_agreement (dev : Fin devs) (fsp : FlowSpec) (s s' : Hwlro devs)
    (agreement : LroAgreement s) (taken : hwlroDelIpaddr dev fsp s = .ok s') :
    LroAgreement s' := by
  obtain ⟨location, idx, same, rfl⟩ := hwlroDelIpaddr_cases dev fsp s s' taken
  constructor
  · exact inval_programmed s agreement.toProgrammed idx (dev, location) same _
  · exact setHwlroIp_count dev location 0 s agreement

/-- Each entry of the interface is found, and written to its register once more. -/
theorem enableEntry_agreement (dev : Fin devs) (s : Hwlro devs) (agreement : LroAgreement s)
    (i : Fin maxLroIpCnt) : LroAgreement (enableEntry dev s i) := by
  unfold enableEntry hwlroGetIpaddrIdx
  split_ifs with unused
  · exact agreement
  · cases found : dipIdx (s.hwlroIp (dev, i)) s with
    | none => exact agreement
    | some idx =>
      have value := dipIdx_some _ s idx found
      have same : Function.update s.lroRxDip idx (s.hwlroIp (dev, i)) = s.lroRxDip := by
        rw [← value, Function.update_eq_self]
      dsimp only
      rw [hwlroValIpaddr_eq, same]
      constructor
      · constructor
        · exact agreement.matched
        · intro j
          dsimp only
          by_cases here : j = idx
          · subst here
            rw [Function.update_self]
            exact iff_of_true (valid_or _) (by rwa [value])
          · rw [Function.update_of_ne here]
            exact agreement.valid j
      · exact agreement.count

theorem enable_agreement (dev : Fin devs) (s : Hwlro devs) (agreement : LroAgreement s) :
    LroAgreement (hwlroNetdevEnable dev s) :=
  run_preserves (enableEntry dev) LroAgreement
    (fun s i agreement => enableEntry_agreement dev s agreement i) s _ agreement

/-- What `mtk_hwlro_netdev_disable` does to the entries; the counts are still those from before
it. -/
structure Disabling (dev : Fin devs) (s s' : Hwlro devs) : Prop extends Programmed s' where
  others : ∀ other location, other ≠ dev →
    s'.hwlroIp (other, location) = s.hwlroIp (other, location)
  cleared : ∀ location, s.hwlroIp (dev, location) = 0 → s'.hwlroIp (dev, location) = 0
  cnt : s'.hwlroIpCnt = s.hwlroIpCnt

theorem disableEntry_disabling (dev : Fin devs) (s : Hwlro devs) (programmed : Programmed s)
    (i : Fin maxLroIpCnt) :
    Disabling dev s (disableEntry dev s i) ∧ (disableEntry dev s i).hwlroIp (dev, i) = 0 := by
  unfold disableEntry hwlroGetIpaddrIdx
  split_ifs with unused
  · exact ⟨⟨programmed, fun _ _ _ => rfl, fun _ zero => zero, rfl⟩, unused⟩
  · cases found : dipIdx (s.hwlroIp (dev, i)) s with
    | none =>
      obtain ⟨idx, value⟩ := programmed.matched.symm.other_side (dev, i) unused
      exact absurd value (dipIdx_none _ s found idx)
    | some idx =>
      have value := dipIdx_some _ s idx found
      refine ⟨⟨inval_programmed s programmed idx (dev, i) value _, ?_, ?_, rfl⟩, ?_⟩
      · intro other location different
        have elsewhere : (other, location) ≠ (dev, i) :=
          fun pair => different (congrArg Prod.fst pair)
        exact Function.update_of_ne elsewhere ..
      · intro location zero
        change Function.update s.hwlroIp (dev, i) 0 (dev, location) = 0
        by_cases here : (dev, location) = (dev, i)
        · rw [here, Function.update_self]
        · rw [Function.update_of_ne here, zero]
      · exact Function.update_self ..

theorem disabling_foldl (dev : Fin devs) (s : Hwlro devs) (programmed : Programmed s)
    (locations : List (Fin maxLroIpCnt)) :
    Disabling dev s (locations.foldl (disableEntry dev) s) ∧
      ∀ i ∈ locations, (locations.foldl (disableEntry dev) s).hwlroIp (dev, i) = 0 := by
  induction locations generalizing s with
  | nil => exact ⟨⟨programmed, fun _ _ _ => rfl, fun _ zero => zero, rfl⟩, by simp⟩
  | cons first rest ih =>
    have step := disableEntry_disabling dev s programmed first
    have later := ih (disableEntry dev s first) step.1.toProgrammed
    rw [List.foldl_cons]
    constructor
    · constructor
      · exact later.1.toProgrammed
      · intro other location different
        rw [later.1.others other location different, step.1.others other location different]
      · exact fun location zero => later.1.cleared location (step.1.cleared location zero)
      · rw [later.1.cnt, step.1.cnt]
    · intro i member
      cases member with
      | head => exact later.1.cleared first step.2
      | tail _ member => exact later.2 i member

theorem disable_agreement (dev : Fin devs) (s : Hwlro devs) (agreement : LroAgreement s) :
    LroAgreement (hwlroNetdevDisable dev s) := by
  have loop := disabling_foldl dev s agreement.toProgrammed (List.finRange maxLroIpCnt)
  constructor
  · exact ⟨loop.1.matched, loop.1.valid⟩
  · intro other
    simp only [hwlroNetdevDisable]
    by_cases here : other = dev
    · subst here
      rw [Function.update_self]
      apply (Finset.card_eq_zero.mpr (Finset.filter_eq_empty_iff.mpr _)).symm
      intro location _
      exact not_not.mpr (loop.2 location (List.mem_finRange location))
    · rw [Function.update_of_ne here, loop.1.cnt, agreement.count other]
      simp only [loop.1.others other _ here]

theorem setFeatures_agreement (dev : Fin devs) (features : Bool) (s : Hwlro devs)
    (agreement : LroAgreement s) : LroAgreement (setFeatures dev features s) := by
  have toggled : ∀ s' : Hwlro devs, LroAgreement s' →
      LroAgreement { s' with lro := Function.update s'.lro dev features } :=
    fun _ agreement => ⟨⟨agreement.matched, agreement.valid⟩, agreement.count⟩
  apply toggled
  split_ifs
  · exact disable_agreement dev s agreement
  · exact enable_agreement dev s agreement
  · exact agreement

theorem noRules_agreement (ctrl : Fin hwLroDipNum → BitVec 32) (lro : Fin devs → Bool) :
    LroAgreement (noRules ctrl lro) where
  matched := Matched.empty
  valid idx := iff_of_false (not_valid_and (ctrl idx)) (not_not.mpr rfl)
  count dev := by simp [noRules]

theorem lroStep_agreement (s : Hwlro devs) (event : LroEvent devs) (agreement : LroAgreement s)
    (empty : ToEmptyLocation s event) : LroAgreement (lroStep s event) := by
  cases event with
  | insert dev fsp =>
    simp only [lroStep]
    split
    next s' taken => exact insert_agreement dev fsp s s' agreement empty taken
    next => exact agreement
  | delete dev fsp =>
    simp only [lroStep]
    split
    next s' taken => exact delete_agreement dev fsp s s' agreement taken
    next => exact agreement
  | features dev wanted excluded => exact setFeatures_agreement dev _ s agreement

/-- The address of an occupied location stays in its register when another one is inserted
there. -/
theorem occupied_disagrees (dev : Fin devs) (fsp : FlowSpec) (s s' : Hwlro devs)
    (agreement : LroAgreement s) (taken : hwlroAddIpaddr dev fsp s = .ok s')
    (location : Fin maxLroIpCnt) (there : fsp.location = location)
    (occupied : s.hwlroIp (dev, location) ≠ 0) : ¬Matched s'.lroRxDip s'.hwlroIp := by
  obtain ⟨-, -, fresh, location', idx, there', free, rfl⟩ :=
    hwlroAddIpaddr_cases dev fsp s s' taken
  obtain rfl : location' = location := Fin.ext (by omega)
  obtain ⟨old, value⟩ := agreement.matched.symm.other_side (dev, location') occupied
  intro matched
  rw [hwlroValIpaddr_eq] at matched
  have kept : Function.update s.lroRxDip idx (htonl fsp.ip4dst) old = s.hwlroIp (dev, location') := by
    rw [Function.update_of_ne, value]
    rintro rfl
    exact occupied (by rw [← value, free])
  obtain ⟨entry, same⟩ := matched.other_side old (ne_of_eq_of_ne kept occupied)
  change Function.update s.hwlroIp (dev, location') (htonl fsp.ip4dst) entry =
    Function.update s.lroRxDip idx (htonl fsp.ip4dst) old at same
  rw [kept] at same
  by_cases here : entry = (dev, location')
  · subst here
    rw [Function.update_self] at same
    exact fresh old (by rw [value, same])
  · rw [Function.update_of_ne here] at same
    exact here (agreement.matched.right (by rwa [Set.mem_ofPred_eq, same]) occupied same)

theorem lroStep_agreement_iff (s : Hwlro devs) (event : LroEvent devs)
    (agreement : LroAgreement s) :
    LroAgreement (lroStep s event) ↔ ToEmptyLocation s event := by
  constructor
  · intro after
    cases event with
    | insert dev fsp =>
      intro tcp other fresh free location there
      by_contra occupied
      obtain ⟨s', taken⟩ := hwlroAddIpaddr_ok dev fsp s location there tcp other fresh free
      apply occupied_disagrees dev fsp s s' agreement taken location there occupied
      simpa only [lroStep, taken] using after.matched
    | delete dev fsp => trivial
    | features dev wanted excluded => trivial
  · exact lroStep_agreement s event agreement

end Steps

/-- The registers and the rules agree after every event exactly if each insertion that is taken
comes to an empty location. -/
theorem lro_agreement_iff (devs : Nat) (ctrl : Fin hwLroDipNum → BitVec 32)
    (lro : Fin devs → Bool) (events : List (LroEvent devs)) :
    Along lroStep (fun s event => LroAgreement (lroStep s event)) (noRules ctrl lro) events ↔
      Along lroStep ToEmptyLocation (noRules ctrl lro) events := by
  apply along_congr lroStep _ _ LroAgreement
  · exact fun s event agreement => lroStep_agreement_iff s event agreement
  · exact fun s event _ after => after
  · exact noRules_agreement ctrl lro

/-- The rule of location 0 is replaced: the old address stays in its register. -/
theorem replaced_rule_disagrees :
    ¬∀ (devs : Nat) (ctrl : Fin hwLroDipNum → BitVec 32) (lro : Fin devs → Bool)
      (events : List (LroEvent devs)), Along lroStep
        (fun s event => LroAgreement (lroStep s event)) (noRules ctrl lro) events := by
  intro agrees
  have both := agrees 1 (fun _ => 0) (fun _ => true)
    [.insert 0 ⟨true, 0x0a000001, 0⟩, .insert 0 ⟨true, 0x0a000002, 0⟩]
  obtain ⟨entry, same⟩ := both.2.1.matched.other_side ⟨0, by decide⟩ (by decide)
  revert entry
  decide

end Filogic.Eth
