import Filogic.Mt753x.Switch
import Filogic.Lib.Runs

/-! What has been asked of the switch: the abstract configuration, which every operation changes as
its caller means it, and which the fields of the driver hold. -/

namespace Filogic.Mt753x
open Lib

/-- For each VLAN its VID and its ports with their tags, and for each port the VLAN of its PVID. -/
@[ext] structure Asked where
  enabled : Bool
  vid : Nat → Nat
  ports : Nat → PortNum → Option Bool
  pvid : PortNum → Nat

/-- The ports of a list, tagged when any of their occurrences is. -/
def listed (list : List SwitchPort) (q : PortNum) : Option Bool :=
  if list.any (fun p => p.id = q.val) then some (list.any (fun p => p.id = q.val && p.tagged))
  else none

def Asked.step (a : Asked) : Op → Asked
  | .setVid vlan value =>
      if vlan < numVlans ∧ value % 65536 ≤ maxVid then
        { a with vid := Function.update a.vid vlan (value % 65536) }
      else a
  | .setPorts vlan list =>
      if vlan < numVlans ∧ list.length ≤ 7 ∧ ∀ p ∈ list, p.id < 7 then
        { a with ports := Function.update a.ports vlan (listed list) }
      else a
  | .setPvid port pvid =>
      if bound : port < 7 then
        if 0 ≤ pvid ∧ pvid ≤ maxVid then
          { a with pvid := Function.update a.pvid ⟨port, bound⟩ pvid.toNat }
        else a
      else a
  | .reset =>
      { a with
        vid := fun i => if i < numVlans then i else a.vid i
        ports := fun i => if i < numVlans then fun _ => none else a.ports i
        pvid := fun _ => 0 }
  | .enableVlan value => { a with enabled := value ≠ 0 }
  | .getPorts _ => a
  | .apply => a

/-- The ports that the masks of a VLAN stand for. -/
def portsOf (member etags : BitVec 8) (q : PortNum) : Option Bool :=
  if member.getLsbD q.val then some (etags.getLsbD q.val) else none

/-- What the driver's fields hold. -/
def asked (s : Gsw) : Asked where
  enabled := s.globalVlanEnable
  vid := fun i => (s.vlanEntries i).vid
  ports := fun i => portsOf (s.vlanEntries i).member (s.vlanEntries i).etags
  pvid := s.portEntries

theorem bit8_getLsbD (i j : Nat) (bound : i < 8) : (bit8 i).getLsbD j = decide (j = i) := by
  simp only [bit8, BitVec.getLsbD_shiftLeft, BitVec.getLsbD_one]
  grind

/-- The masks that the loop collects from masks it has already. -/
theorem collect_list (list : List SwitchPort) (masks : BitVec 8 × BitVec 8)
    (bounds : ∀ p ∈ list, p.id < 7) :
    ∃ after, list.foldlM collectPort masks = some after ∧ ∀ j,
      after.1.getLsbD j = (masks.1.getLsbD j || list.any (fun p => p.id = j)) ∧
      after.2.getLsbD j = (masks.2.getLsbD j || list.any (fun p => p.id = j && p.tagged)) := by
  induction list generalizing masks with
  | nil => exact ⟨masks, rfl, fun j => by simp⟩
  | cons p rest ih =>
    have bound := bounds p List.mem_cons_self
    have first : collectPort masks p =
        some (masks.1 ||| bit8 p.id, if p.tagged then masks.2 ||| bit8 p.id else masks.2) := by
      simp [collectPort, bound]
    obtain ⟨after, done, bits⟩ := ih
      (masks.1 ||| bit8 p.id, if p.tagged then masks.2 ||| bit8 p.id else masks.2)
      (fun q member => bounds q (List.mem_cons_of_mem p member))
    apply Exists.intro after
    apply And.intro
    · rw [List.foldlM_cons, first]
      exact done
    · intro j
      have mask := bit8_getLsbD p.id j (by omega)
      obtain ⟨member, tags⟩ := bits j
      rw [member, tags]
      cases tagged : p.tagged <;> simp [mask, tagged, Bool.or_assoc, eq_comm]

/-- A port that does not exist fails the whole list. -/
theorem collect_none (list : List SwitchPort) (masks : BitVec 8 × BitVec 8)
    (outside : ¬∀ p ∈ list, p.id < 7) : list.foldlM collectPort masks = none := by
  induction list generalizing masks with
  | nil => exact absurd (fun p member => absurd member List.not_mem_nil) outside
  | cons p rest ih =>
    rw [List.foldlM_cons]
    by_cases bound : p.id < 7
    · have later : ¬∀ q ∈ rest, q.id < 7 := by
        intro all
        apply outside
        intro q member
        rcases List.mem_cons.mp member with rfl | tail
        · exact bound
        · exact all q tail
      have first : collectPort masks p =
          some (masks.1 ||| bit8 p.id, if p.tagged then masks.2 ||| bit8 p.id else masks.2) := by
        simp [collectPort, bound]
      rw [first]
      exact ih _ later
    · have first : collectPort masks p = none := by simp [collectPort, bound]
      rw [first]
      rfl

theorem asked_setVid (s : Gsw) (vlan value : Nat) :
    asked (step s (.setVid vlan value)) = (asked s).step (.setVid vlan value) := by
  simp only [step, setVid, Asked.step]
  by_cases inside : vlan < numVlans
  · by_cases fits : value % 65536 ≤ maxVid
    · rw [if_neg (by omega), if_neg (by omega), if_pos ⟨inside, fits⟩]
      ext i
      · rfl
      · by_cases here : i = vlan <;> simp [asked, Gsw.setEntry, here]
      · by_cases here : i = vlan
        · subst here
          simp [asked, Gsw.setEntry]
        · simp [asked, Gsw.setEntry, here]
      · rfl
    · rw [if_neg (by omega), if_pos (by omega), if_neg (by omega)]
      rfl
  · rw [if_pos (by omega), if_neg (by omega)]
    rfl

theorem asked_setPorts (s : Gsw) (vlan : Nat) (list : List SwitchPort) :
    asked (step s (.setPorts vlan list)) = (asked s).step (.setPorts vlan list) := by
  simp only [step, setVlanPorts, Asked.step]
  by_cases inside : vlan < numVlans ∧ list.length ≤ 7
  · rw [if_neg (by omega)]
    by_cases bounds : ∀ p ∈ list, p.id < 7
    · obtain ⟨after, done, bits⟩ := collect_list list (0, 0) bounds
      rw [done, if_pos ⟨inside.1, inside.2, bounds⟩]
      have collected : portsOf after.1 after.2 = listed list := by
        funext q
        obtain ⟨member, tags⟩ := bits q.val
        simp [portsOf, listed, member, tags]
      ext i
      · rfl
      · by_cases here : i = vlan <;> simp [asked, Gsw.setEntry, here]
      · by_cases here : i = vlan
        · subst here
          simp [asked, Gsw.setEntry, collected]
        · simp [asked, Gsw.setEntry, here]
      · rfl
    · rw [collect_none list (0, 0) bounds, if_neg (fun all => bounds all.2.2)]
      rfl
  · rw [if_pos (by omega), if_neg (fun all => inside ⟨all.1, all.2.1⟩)]
    rfl

theorem asked_setPvid (s : Gsw) (port : Nat) (pvid : Int) :
    asked (step s (.setPvid port pvid)) = (asked s).step (.setPvid port pvid) := by
  simp only [step, setPortPvid, Asked.step]
  by_cases bound : port < 7
  · rw [dif_pos bound, dif_pos bound]
    by_cases inside : 0 ≤ pvid ∧ pvid ≤ maxVid
    · rw [if_neg (by omega), if_pos inside]
      rfl
    · rw [if_pos (by omega), if_neg inside]
      rfl
  · rw [dif_neg bound, dif_neg bound]
    rfl

theorem asked_reset (s : Gsw) : asked (step s .reset) = (asked s).step .reset := by
  ext i
  · rfl
  · simp only [step, resetSwitch, asked, Asked.step]
    split_ifs <;> simp_all
  · simp only [step, resetSwitch, asked, Asked.step]
    split_ifs <;> simp_all [portsOf]
  · rfl

/-- The registers change and the configuration does not. -/
def SameConfig (s s' : Gsw) : Prop :=
  s'.globalVlanEnable = s.globalVlanEnable ∧ s'.vlanEntries = s.vlanEntries ∧
    s'.portEntries = s.portEntries

theorem sameConfig_refl (s : Gsw) : SameConfig s s := ⟨rfl, rfl, rfl⟩

theorem sameConfig_trans {s s' s'' : Gsw} (first : SameConfig s s') (second : SameConfig s' s'') :
    SameConfig s s'' :=
  ⟨second.1.trans first.1, second.2.1.trans first.2.1, second.2.2.trans first.2.2⟩

theorem asked_congr {s s' : Gsw} (same : SameConfig s s') : asked s' = asked s := by
  obtain ⟨enable, entries, pvids⟩ := same
  simp only [asked, enable, entries, pvids]

theorem sameConfig_foldl (f : Gsw → Nat → Gsw) (each : ∀ s i, SameConfig s (f s i))
    (l : List Nat) (s : Gsw) : SameConfig s (l.foldl f s) := by
  induction l generalizing s with
  | nil => exact sameConfig_refl s
  | cons i rest ih => exact sameConfig_trans (each s i) (ih (f s i))

theorem sameConfig_writeVlanEntry (vid : Nat) (member etags : BitVec 8) (s : Gsw) :
    SameConfig s (writeVlanEntry vid member etags s) :=
  ⟨rfl, rfl, rfl⟩

theorem sameConfig_programVlan (s : Gsw) (i : Nat) : SameConfig s (programVlan s i) := by
  simp only [programVlan]
  split_ifs
  · exact sameConfig_writeVlanEntry _ _ _ s
  · exact sameConfig_refl s

theorem sameConfig_applyModes (s : Gsw) : SameConfig s (applyModes s) := ⟨rfl, rfl, rfl⟩

theorem sameConfig_clearTable (s : Gsw) : SameConfig s (clearTable s) :=
  sameConfig_foldl _ (fun s i => sameConfig_writeVlanEntry i 0 0 s) _ s

theorem sameConfig_programTable (s : Gsw) : SameConfig s (programTable s) :=
  sameConfig_foldl _ sameConfig_programVlan _ s

theorem sameConfig_applyPvids (s : Gsw) : SameConfig s (applyPvids s) := ⟨rfl, rfl, rfl⟩

theorem sameConfig_applyVlanConfig (s : Gsw) : SameConfig s (applyVlanConfig s) := by
  unfold applyVlanConfig
  have modes := sameConfig_applyModes s
  have cleared := sameConfig_trans modes (sameConfig_clearTable _)
  have programmed := sameConfig_trans cleared (sameConfig_programTable _)
  exact sameConfig_trans programmed (sameConfig_applyPvids _)

theorem asked_apply (s : Gsw) : asked (step s .apply) = asked s := by
  simp only [step, applyConfig]
  split_ifs
  · exact asked_congr (sameConfig_applyVlanConfig s)
  · rfl

theorem asked_getPorts (s : Gsw) (vlan : Nat) : asked (step s (.getPorts vlan)) = asked s := by
  simp only [step, getVlanPorts]
  split_ifs <;> rfl

/-- The driver's fields follow every operation. -/
theorem asked_step (s : Gsw) (op : Op) : asked (step s op) = (asked s).step op := by
  cases op with
  | setVid vlan value => exact asked_setVid s vlan value
  | setPorts vlan list => exact asked_setPorts s vlan list
  | setPvid port pvid => exact asked_setPvid s port pvid
  | reset => exact asked_reset s
  | enableVlan value => rfl
  | getPorts vlan => exact asked_getPorts s vlan
  | apply => exact asked_apply s

theorem asked_run (s : Gsw) (ops : List Op) :
    asked (run step s ops) = run Asked.step (asked s) ops := by
  induction ops generalizing s with
  | nil => rfl
  | cons op rest ih =>
    change asked (run step (step s op) rest) = run Asked.step ((asked s).step op) rest
    rw [ih, asked_step]

/-- VIDs are of 12 bits, and the masks of seven ports. -/
def Configured (s : Gsw) : Prop :=
  ∀ i, (s.vlanEntries i).vid ≤ maxVid ∧ (s.vlanEntries i).member.getLsbD 7 = false

theorem configured_congr {s s' : Gsw} (same : SameConfig s s') (before : Configured s) :
    Configured s' := by
  intro i
  rw [same.2.1]
  exact before i

theorem configured_setEntry {s : Gsw} (before : Configured s) (vlan : Nat) (entry : VlanEntry)
    (vid : entry.vid ≤ maxVid) (member : entry.member.getLsbD 7 = false) :
    Configured (s.setEntry vlan entry) := by
  intro i
  by_cases here : i = vlan
  · subst here
    simpa [Gsw.setEntry] using ⟨vid, member⟩
  · simpa [Gsw.setEntry, here] using before i

theorem configured_step (s : Gsw) (op : Op) (before : Configured s) : Configured (step s op) := by
  cases op with
  | setVid vlan value =>
    simp only [step, setVid]
    split_ifs with outside above
    · exact before
    · exact before
    · exact configured_setEntry before vlan _ (by dsimp only; omega) (before vlan).2
  | setPorts vlan list =>
    simp only [step, setVlanPorts]
    split_ifs
    · exact before
    · by_cases bounds : ∀ p ∈ list, p.id < 7
      · obtain ⟨after, done, bits⟩ := collect_list list (0, 0) bounds
        rw [done]
        apply configured_setEntry before vlan
          { s.vlanEntries vlan with member := after.1, etags := after.2 } (before vlan).1
        have none : ¬∃ p ∈ list, p.id = 7 := by
          intro ⟨p, member, seven⟩
          have bound := bounds p member
          omega
        rw [(bits 7).1]
        simpa using none
      · rw [collect_none list (0, 0) bounds]
        exact before
  | setPvid port pvid =>
    simp only [step, setPortPvid]
    split_ifs <;> exact before
  | reset =>
    intro i
    simp only [step, resetSwitch]
    split_ifs with inside
    · apply And.intro
      · dsimp only
        unfold numVlans at inside
        unfold maxVid
        omega
      · simp
    · exact before i
  | enableVlan value => exact before
  | getPorts vlan =>
    simp only [step, getVlanPorts]
    split_ifs <;> exact before
  | apply =>
    simp only [step, applyConfig]
    split_ifs
    · exact configured_congr (sameConfig_applyVlanConfig s) before
    · exact before

end Filogic.Mt753x
