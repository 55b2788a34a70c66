import Filogic.Mt753x.Asked

/-! What the registers and the VLAN table hold right after an apply. -/

namespace Filogic.Mt753x
open Lib

section Words

variable (member etags : BitVec 8)

theorem memberMask_getLsbD (i : Nat) :
    portMemM.getLsbD i = (decide (16 ≤ i) && decide (i < 24)) := by
  have same : portMemM = BitVec.ofNat 32 (2 ^ 8 - 1) <<< 16 := by decide
  rw [same, BitVec.getLsbD_shiftLeft, BitVec.getLsbD_ofNat, Nat.testBit_two_pow_sub_one]
  grind

theorem memberWord_getLsbD (some : member ≠ 0) (i : Nat) :
    (memberWord member).getLsbD i = (decide (i = 30) || decide (i = 28) || decide (i = 0) ||
      decide (16 ≤ i) && decide (i < 24) && member.getLsbD (i - 16)) := by
  rw [memberWord, if_pos some]
  simp only [ivlMac, vtagEn, ventryValid, portMemS, BitVec.getLsbD_or, BitVec.getLsbD_and,
    BitVec.getLsbD_shiftLeft, BitVec.getLsbD_one, BitVec.getLsbD_setWidth, memberMask_getLsbD]
  grind

/-- The members that `mt753x_get_vlan_ports` finds in the word. -/
theorem memberWord_members (q : PortNum) :
    ((memberWord member &&& portMemM) >>> portMemS).getLsbD q.val = member.getLsbD q.val := by
  have bound := q.isLt
  rw [portMemS, BitVec.getLsbD_ushiftRight, BitVec.getLsbD_and, memberMask_getLsbD]
  by_cases some : member ≠ 0
  · rw [memberWord_getLsbD member some]
    grind
  · have none : member = 0 := not_not.mp some
    subst none
    simp [memberWord]

theorem etagCtrlTag_getLsbD (i : Nat) : etagCtrlTag.getLsbD i = decide (i = 1) := by
  have same : etagCtrlTag = 1#32 <<< 1 := by decide
  rw [same, BitVec.getLsbD_shiftLeft, BitVec.getLsbD_one]
  grind

theorem tagBit_getLsbD (port : PortNum) (i : Nat) :
    (etagCtrlTag <<< portEtagS port).getLsbD i = decide (i = port.val * 2 + 1) := by
  have bound := port.isLt
  rw [portEtagS, BitVec.getLsbD_shiftLeft, etagCtrlTag_getLsbD]
  grind

theorem etagLoop_getLsbD (l : List PortNum) (val : BitVec 32) (i : Nat) :
    (l.foldl (fun val port =>
      if etags.getLsbD port.val then val ||| (etagCtrlTag <<< portEtagS port)
      else val ||| (etagCtrlUntag <<< portEtagS port)) val).getLsbD i = true ↔
      val.getLsbD i = true ∨ ∃ port ∈ l, etags.getLsbD port.val = true ∧ i = port.val * 2 + 1 := by
  induction l generalizing val with
  | nil => simp
  | cons port rest ih =>
    rw [List.foldl_cons, ih]
    by_cases tagged : etags.getLsbD port.val = true
    · rw [if_pos tagged, BitVec.getLsbD_or, tagBit_getLsbD]
      simp [tagged, or_assoc]
    · simp [tagged, etagCtrlUntag]

theorem etagWord_getLsbD (i : Nat) :
    (etagWord etags).getLsbD i = true ↔
      ∃ port : PortNum, etags.getLsbD port.val = true ∧ i = port.val * 2 + 1 := by
  rw [etagWord, etagLoop_getLsbD]
  simp [ports]

theorem mask3_getLsbD (i : Nat) : (3#32).getLsbD i = decide (i < 2) := by
  have same : 3#32 = BitVec.ofNat 32 (2 ^ 2 - 1) := by decide
  rw [same, BitVec.getLsbD_ofNat, Nat.testBit_two_pow_sub_one]
  grind

/-- The tag mode that `mt753x_get_vlan_ports` finds in the word. -/
theorem etagWord_mode (q : PortNum) :
    (etagWord etags >>> portEtagS q) &&& 3#32 =
      if etags.getLsbD q.val then etagCtrlTag else etagCtrlUntag := by
  have high : (etagWord etags).getLsbD (q.val * 2 + 1) = etags.getLsbD q.val := by
    rw [Bool.eq_iff_iff, etagWord_getLsbD]
    constructor
    · intro ⟨port, tagged, same⟩
      obtain rfl : port = q := Fin.ext (by omega)
      exact tagged
    · intro tagged
      exact ⟨q, tagged, rfl⟩
  have low : (etagWord etags).getLsbD (q.val * 2) = false := by
    apply Bool.eq_false_of_not_eq_true
    rw [etagWord_getLsbD]
    intro ⟨port, _, same⟩
    omega
  apply BitVec.eq_of_getLsbD_eq
  intro i inside
  rw [BitVec.getLsbD_and, BitVec.getLsbD_ushiftRight, mask3_getLsbD, portEtagS]
  match i with
  | 0 => cases etags.getLsbD q.val <;> simp [low, etagCtrlTag, etagCtrlUntag]
  | 1 =>
    rw [high]
    cases etags.getLsbD q.val <;> simp [etagCtrlTag_getLsbD, etagCtrlUntag]
  | i + 2 => cases etags.getLsbD q.val <;> simp [etagCtrlTag_getLsbD, etagCtrlUntag]

end Words

section Table

variable (s : Gsw)

theorem writeVlanEntry_table (vid : Nat) (member etags : BitVec 8) :
    (writeVlanEntry vid member etags s).table =
      Function.update s.table (vid % 4096) (memberWord member, etagWord etags) := rfl

/-- The first loop clears the entries below its bound, and no other. -/
theorem clear_loop (n v : Nat) (fits : n ≤ 4096) :
    ((List.range n).foldl (fun s i => writeVlanEntry i 0 0 s) s).table v =
      if v < n then (memberWord 0, etagWord 0) else s.table v := by
  induction n with
  | zero => simp
  | succ n ih =>
    have same : n % 4096 = n := Nat.mod_eq_of_lt (by omega)
    rw [List.range_succ, List.foldl_append, List.foldl_cons, List.foldl_nil,
      writeVlanEntry_table, same]
    by_cases here : v = n
    · subst here
      simp
    · rw [Function.update_of_ne here, ih (by omega)]
      grind

theorem vlanEntries_program (n : Nat) :
    ((List.range n).foldl programVlan s).vlanEntries = s.vlanEntries :=
  (sameConfig_foldl _ sameConfig_programVlan _ s).2.1

theorem program_succ (n v : Nat) :
    ((List.range (n + 1)).foldl programVlan s).table v =
      if (s.vlanEntries n).member ≠ 0 ∧ v = (s.vlanEntries n).vid % 4096 then
        (memberWord (s.vlanEntries n).member, etagWord (s.vlanEntries n).etags)
      else ((List.range n).foldl programVlan s).table v := by
  rw [List.range_succ, List.foldl_append, List.foldl_cons, List.foldl_nil]
  have entries := vlanEntries_program s n
  generalize (List.range n).foldl programVlan s = t at entries ⊢
  simp only [programVlan, entries]
  by_cases has : (s.vlanEntries n).member ≠ 0
  · rw [if_pos has, writeVlanEntry_table]
    by_cases here : v = (s.vlanEntries n).vid % 4096
    · rw [if_pos ⟨has, here⟩, here, Function.update_self]
    · rw [if_neg (fun both => here both.2), Function.update_of_ne here]
  · rw [if_neg has, if_neg (fun both => has both.1)]

/-- The second loop leaves the entries alone that no VLAN with members is at. -/
theorem program_other (n v : Nat)
    (none : ∀ i < n, (s.vlanEntries i).member ≠ 0 → (s.vlanEntries i).vid % 4096 ≠ v) :
    ((List.range n).foldl programVlan s).table v = s.table v := by
  induction n with
  | zero => rfl
  | succ n ih =>
    rw [program_succ, if_neg (fun both => none n (by omega) both.1 both.2.symm)]
    exact ih (fun i below => none i (by omega))

/-- A VLAN with a VID of its own keeps what was written for it. -/
theorem program_own (n i : Nat) (below : i < n) (has : (s.vlanEntries i).member ≠ 0)
    (own : ∀ j < n, j ≠ i → (s.vlanEntries j).member ≠ 0 →
      (s.vlanEntries j).vid % 4096 ≠ (s.vlanEntries i).vid % 4096) :
    ((List.range n).foldl programVlan s).table ((s.vlanEntries i).vid % 4096) =
      (memberWord (s.vlanEntries i).member, etagWord (s.vlanEntries i).etags) := by
  induction n with
  | zero => omega
  | succ n ih =>
    rw [program_succ]
    by_cases last : i = n
    · subst last
      rw [if_pos ⟨has, rfl⟩]
    · rw [if_neg (fun both => own n (by omega) (Ne.symm last) both.1 both.2.symm)]
      exact ih (by omega) (fun j inside => own j (by omega))

end Table

section Apply

variable {s : Gsw} (configured : Configured s)

theorem applyPvids_table (t : Gsw) : (applyPvids t).table = t.table := rfl

theorem applyVlanConfig_table :
    (applyVlanConfig s).table =
      ((List.range numVlans).foldl programVlan (clearTable (applyModes s))).table := by
  rw [applyVlanConfig, applyPvids_table, programTable]

theorem cleared_entries : (clearTable (applyModes s)).vlanEntries = s.vlanEntries :=
  (sameConfig_trans (sameConfig_applyModes s) (sameConfig_clearTable _)).2.1

include configured in
theorem vid_mod (i : Nat) : (s.vlanEntries i).vid % 4096 = (s.vlanEntries i).vid := by
  apply Nat.mod_eq_of_lt
  have bound := (configured i).1
  unfold maxVid at bound
  omega

include configured in
/-- The entry of a VLAN with a VID of its own. -/
theorem applied_own {i : Nat} (below : i < numVlans) (has : (s.vlanEntries i).member ≠ 0)
    (own : ∀ j < numVlans, j ≠ i → (s.vlanEntries j).member ≠ 0 →
      (s.vlanEntries j).vid ≠ (s.vlanEntries i).vid) :
    (applyVlanConfig s).table (s.vlanEntries i).vid =
      (memberWord (s.vlanEntries i).member, etagWord (s.vlanEntries i).etags) := by
  have entries := @cleared_entries s
  have written := program_own (clearTable (applyModes s)) numVlans i below
    (by rwa [entries]) (by
      intro j inside other members
      rw [entries] at members ⊢
      rw [vid_mod configured, vid_mod configured]
      exact own j inside other members)
  rw [entries, vid_mod configured] at written
  rw [applyVlanConfig_table]
  exact written

include configured in
/-- The entry of a VID below the bound of the clearing loop that no VLAN with members has. -/
theorem applied_none {v : Nat} (below : v < numVlans)
    (none : ∀ i < numVlans, (s.vlanEntries i).member ≠ 0 → (s.vlanEntries i).vid ≠ v) :
    (applyVlanConfig s).table v = (memberWord 0, etagWord 0) := by
  have entries := @cleared_entries s
  have kept := program_other (clearTable (applyModes s)) numVlans v (by
    intro i inside members
    rw [entries] at members ⊢
    rw [vid_mod configured]
    exact none i inside members)
  rw [applyVlanConfig_table]
  apply kept.trans
  have fits : numVlans ≤ 4096 := by
    unfold numVlans
    omega
  rw [clearTable, clear_loop (applyModes s) numVlans v fits, if_pos below]

theorem pvid_le (i : PortNum) (configured : Configured s) : pvidOf s i ≤ maxVid := by
  simp only [pvidOf]
  split_ifs
  · exact (configured _).1
  · exact Nat.zero_le _

theorem vidMask_getLsbD (i : Nat) : grpPortVidM.getLsbD i = decide (i < 12) := by
  have same : grpPortVidM = BitVec.ofNat 32 (2 ^ 12 - 1) := by decide
  rw [same, BitVec.getLsbD_ofNat, Nat.testBit_two_pow_sub_one]
  grind

include configured in
/-- The VID field of a port's PVID register. -/
theorem applied_pvid (i : PortNum) :
    ((applyVlanConfig s).ppbv1 i &&& grpPortVidM).toNat = pvidOf s i := by
  have same := sameConfig_trans (sameConfig_trans (sameConfig_applyModes s)
    (sameConfig_clearTable _)) (sameConfig_programTable _)
  rw [applyVlanConfig]
  generalize programTable (clearTable (applyModes s)) = t at same ⊢
  have pvid : pvidOf t i = pvidOf s i := by
    simp only [pvidOf, same.2.1, same.2.2]
  have bound := pvid_le i configured
  unfold maxVid at bound
  have word : (applyPvids t).ppbv1 i &&& grpPortVidM = BitVec.ofNat 32 (pvidOf s i) := by
    apply BitVec.eq_of_getLsbD_eq
    intro j inside
    simp only [applyPvids, BitVec.getLsbD_and, BitVec.getLsbD_or, BitVec.getLsbD_not,
      vidMask_getLsbD, pvid]
    by_cases low : j < 12
    · simp [low]
    · have high : (pvidOf s i).testBit j = false := by
        apply Nat.testBit_lt_two_pow
        exact lt_of_lt_of_le (by omega : pvidOf s i < 2 ^ 12) (Nat.pow_le_pow_right (by decide) (by omega))
      simp [low, high, BitVec.getLsbD_ofNat]
  rw [word, BitVec.toNat_ofNat]
  omega

end Apply

/-- Some port has been asked into the VLAN. -/
def HasPorts (ports : PortNum → Option Bool) : Prop := ∃ q, (ports q).isSome = true

instance decidableHasPorts (ports : PortNum → Option Bool) : Decidable (HasPorts ports) :=
  inferInstanceAs (Decidable (∃ q : PortNum, (ports q).isSome = true))

/-- An entry holds exactly these ports, each with its egress tag mode. -/
structure EntryHolds (entry : BitVec 32 × BitVec 32) (ports : PortNum → Option Bool) : Prop where
  valid : entry.1.getLsbD 0 = true
  members : ∀ q : PortNum,
    ((entry.1 &&& portMemM) >>> portMemS).getLsbD q.val = (ports q).isSome
  tags : ∀ q tagged, ports q = some tagged →
    (entry.2 >>> portEtagS q) &&& 3#32 = if tagged then etagCtrlTag else etagCtrlUntag

/-- The ports as `mt753x_get_vlan_ports` lists them. -/
def portList (asked : PortNum → Option Bool) : List SwitchPort :=
  ports.filterMap fun q => (asked q).map fun tagged => ⟨q.val, tagged⟩

section Masks

variable {member etags : BitVec 8}

theorem portsOf_isSome (q : PortNum) :
    (portsOf member etags q).isSome = member.getLsbD q.val := by
  unfold portsOf
  cases member.getLsbD q.val <;> rfl

theorem hasPorts_iff (high : member.getLsbD 7 = false) :
    HasPorts (portsOf member etags) ↔ member ≠ 0 := by
  unfold HasPorts
  simp only [portsOf_isSome]
  constructor
  · intro ⟨q, set⟩ zero
    rw [zero] at set
    simp at set
  · intro some
    by_contra none
    apply some
    apply BitVec.eq_of_getLsbD_eq
    intro i inside
    change _ = (0#8).getLsbD i
    rw [BitVec.getLsbD_zero]
    by_cases last : i = 7
    · exact last ▸ high
    · apply Bool.eq_false_of_not_eq_true
      intro set
      exact none ⟨⟨i, by omega⟩, set⟩

theorem entryHolds_words (some : member ≠ 0) :
    EntryHolds (memberWord member, etagWord etags) (portsOf member etags) where
  valid := by
    rw [memberWord_getLsbD member some]
    simp
  members := by
    intro q
    rw [memberWord_members, portsOf_isSome]
  tags := by
    intro q tagged isMember
    unfold portsOf at isMember
    split_ifs at isMember
    rw [etagWord_mode, Option.some.inj isMember]

/-- Reading the two words gives the ports that they were written for. -/
theorem getVlanPorts_words {s : Gsw} {vlan : Nat} (below : vlan < numVlans)
    (entry : s.table vlan = (memberWord member, etagWord etags)) :
    (getVlanPorts vlan s).map (·.1) = some (portList (portsOf member etags)) := by
  have same : vlan % 4096 = vlan := by
    unfold numVlans at below
    omega
  simp only [getVlanPorts, vlanCtrlRead, same, entry]
  rw [if_neg (by omega)]
  simp only [Option.map_some, portList, Option.some.injEq]
  apply List.filterMap_congr
  intro q _
  rw [memberWord_members, etagWord_mode]
  unfold portsOf
  cases member.getLsbD q.val <;> cases etags.getLsbD q.val <;> simp [etagCtrlTag, etagCtrlUntag]

end Masks

/-- A VLAN with ports whose VID no other such VLAN has. -/
def Own (a : Asked) (i : Nat) : Prop :=
  HasPorts (a.ports i) ∧ ∀ j < numVlans, j ≠ i → HasPorts (a.ports j) → a.vid j ≠ a.vid i

/-- The table, the PVID registers and what is read back of them, against what has been asked. -/
structure AppliedRight (a : Asked) (s : Gsw) : Prop where
  entries : ∀ i < numVlans, Own a i → EntryHolds (s.table (a.vid i)) (a.ports i)
  none : ∀ v < numVlans, (∀ i < numVlans, HasPorts (a.ports i) → a.vid i ≠ v) →
    (s.table v).1.getLsbD 0 = false
  pvids : ∀ port, (s.ppbv1 port &&& grpPortVidM).toNat =
    if a.pvid port < numVlans ∧ HasPorts (a.ports (a.pvid port)) then a.vid (a.pvid port) else 0
  readPorts : ∀ i < numVlans, a.vid i = i →
    (∀ j < numVlans, j ≠ i → HasPorts (a.ports j) → a.vid j ≠ i) →
    (getVlanPorts i s).map (·.1) = some (portList (a.ports i))
  readPvid : ∀ port : PortNum, a.pvid port < numVlans → HasPorts (a.ports (a.pvid port)) →
    a.vid (a.pvid port) = a.pvid port → getPortPvid port.val s = some (a.pvid port)

theorem hasPorts_asked {s : Gsw} (configured : Configured s) (i : Nat) :
    HasPorts ((asked s).ports i) ↔ (s.vlanEntries i).member ≠ 0 :=
  hasPorts_iff (configured i).2

theorem applied_pvid_asked {s : Gsw} (configured : Configured s) (port : PortNum) :
    ((applyVlanConfig s).ppbv1 port &&& grpPortVidM).toNat =
      if (asked s).pvid port < numVlans ∧ HasPorts ((asked s).ports ((asked s).pvid port)) then
        (asked s).vid ((asked s).pvid port)
      else 0 := by
  rw [applied_pvid configured port]
  simp only [hasPorts_asked configured]
  rfl

theorem appliedRight_apply {s : Gsw} (configured : Configured s) :
    AppliedRight (asked s) (applyVlanConfig s) := by
  have has := hasPorts_asked configured
  have pvids := applied_pvid_asked configured
  constructor
  · intro i below own
    have members := (has i).mp own.1
    have entry := applied_own configured below members
      (fun j inside other some => own.2 j inside other ((has j).mpr some))
    have vid : (asked s).vid i = (s.vlanEntries i).vid := rfl
    rw [vid, entry]
    exact entryHolds_words members
  · intro v below none
    rw [applied_none configured below (fun i inside some => none i inside ((has i).mpr some))]
    decide
  · exact pvids
  · intro i below number others
    by_cases members : (s.vlanEntries i).member ≠ 0
    · have entry := applied_own configured below members (by
        intro j inside other some
        exact fun same => others j inside other ((has j).mpr some) (same.trans number))
      change (s.vlanEntries i).vid = i at number
      rw [number] at entry
      exact getVlanPorts_words below entry
    · have entry := applied_none configured below (by
        intro j inside some same
        by_cases here : j = i
        · exact members (here ▸ some)
        · exact others j inside here ((has j).mpr some) same)
      have zero : (s.vlanEntries i).member = 0 := not_not.mp members
      have same : portsOf 0 0 = (asked s).ports i := by
        funext q
        simp [asked, portsOf, zero]
      rw [getVlanPorts_words below entry, same]
  · intro port below members number
    have field := pvids port
    rw [if_pos ⟨below, members⟩, number] at field
    simp only [getPortPvid, port.isLt, dite_true, field]

/-- A switch as the driver has probed it: the VIDs and masks of its first configuration, from the
device tree, are in range. -/
structure Probed where
  gsw : Gsw
  configured : Configured gsw

theorem run_apply (probed : Probed) (ops : List Op)
    (enabled : (run Asked.step (asked probed.gsw) ops).enabled = true) :
    ∃ s, Configured s ∧ asked s = run Asked.step (asked probed.gsw) ops ∧
      run step probed.gsw (ops ++ [.apply]) = applyVlanConfig s := by
  have configured := run_preserves step Configured configured_step probed.gsw ops probed.configured
  rw [← asked_run] at enabled
  refine ⟨_, configured, asked_run probed.gsw ops, ?_⟩
  rw [run_append]
  generalize run step probed.gsw ops = s at enabled
  change s.globalVlanEnable = true at enabled
  change applyConfig s = applyVlanConfig s
  rw [applyConfig, if_pos enabled]

/-- Right after an apply with VLANs enabled, at the end of any run. -/
theorem applied_right (probed : Probed) (ops : List Op)
    (enabled : (run Asked.step (asked probed.gsw) ops).enabled = true) :
    AppliedRight (run Asked.step (asked probed.gsw) ops)
      (run step probed.gsw (ops ++ [.apply])) := by
  obtain ⟨s, configured, same, applied⟩ := run_apply probed ops enabled
  rw [← same, applied]
  exact appliedRight_apply configured

theorem six_lt_ports : 6 < 7 := by decide

/-- All is zero. -/
def zeroRegisters : Gsw :=
  ⟨false, fun _ => ⟨0, 0, 0⟩, fun _ => 0, ⟨6, six_lt_ports⟩, fun _ => false, 0, 0, fun _ => (0, 0),
    fun _ => 0, fun _ => 0, fun _ => 0⟩

theorem zeroRegisters_configured : Configured zeroRegisters :=
  fun _ => ⟨Nat.zero_le _, BitVec.getLsbD_zero⟩

/-- The driver's first state without a port map. -/
def zeroGsw : Probed := ⟨zeroRegisters, zeroRegisters_configured⟩

/-- VLAN 5 is moved to VID 100 and gets a tagged and an untagged port. -/
def remapped : List Op :=
  [.reset, .setVid 5 100, .setPorts 5 [⟨0, false⟩, ⟨6, true⟩], .setPvid 0 5, .enableVlan 1]

theorem applied_right_remapped :
    AppliedRight (run Asked.step (asked zeroGsw.gsw) remapped)
      (run step zeroGsw.gsw (remapped ++ [.apply])) :=
  applied_right zeroGsw remapped rfl

/-- A port gets the PVID of a VLAN that has no members. -/
def emptyPvid : List Op := [.reset, .setPvid 0 5, .enableVlan 1]

theorem pvid_not_named :
    ¬∀ (probed : Probed) (ops : List Op),
      (run Asked.step (asked probed.gsw) ops).enabled = true → ∀ port : PortNum,
        let a := run Asked.step (asked probed.gsw) ops
        a.pvid port < numVlans →
        ((run step probed.gsw (ops ++ [.apply])).ppbv1 port &&& grpPortVidM).toNat =
          a.vid (a.pvid port) := by
  intro always
  obtain ⟨s, configured, same, applied⟩ := run_apply zeroGsw emptyPvid rfl
  have named := always zeroGsw emptyPvid rfl 0
  dsimp only at named
  rw [applied, applied_pvid_asked configured, same] at named
  exact absurd (named (by decide)) (by decide)

end Filogic.Mt753x
