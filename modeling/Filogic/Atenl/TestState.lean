import Filogic.Atenl.Commands
import Filogic.Lib.Sweep

/-! The cached test states are those that the kernel acknowledged, along every run whose states all go to
the phy of their band and are acknowledged. -/

namespace Filogic.Atenl
open Lib

/-- The cached state of each band that the chip has is the last one acknowledged for its phy. -/
def Agrees (s : Sys) : Prop :=
  ∀ band, (s.an.anb band).valid = true →
    (s.an.anb band).curState = s.acked (s.an.anb band).phyIdx

/-- Every state went to the phy of the band it was meant for. -/
def Directed (s : Sys) : Prop :=
  ∀ sent ∈ s.sent, (s.an.anb sent.band).valid = true ∧ sent.phy = (s.an.anb sent.band).phyIdx

section Guard

/-- A message may carry `state` for `band`: the attribute is left out, or the phy is that of the band
and the kernel acknowledges it. -/
def Fits (s : Sys) (phy : BitVec 8) (band : BandNum) (state : TestmodeState) (acks : Bool) : Prop :=
  (s.an.anb band).curState = state ∨
    ((s.an.anb band).valid = true ∧ phy = (s.an.anb band).phyIdx ∧ acks = true)

def Answer.sends (a : Answer) : Bool := a.connects && a.room

/-- The message of a command that goes to the phy of the current band fits. -/
def ProcessFits (s : Sys) (band : BitVec 8) (state : TestmodeState) (a : Answer) : Prop :=
  a.sends = true → ∀ cur target, bandNum s.an.curBand = some cur → bandNum band = some target →
    Fits s (s.an.anb cur).phyIdx target state a.acks

/-- The two messages of `atenl_hqa_adapter` to a band fit. -/
def AdapterFits (s : Sys) (opens : Bool) (answers : Nat → Answer) (i : BandNum) : Prop :=
  let turnsOff := (s.an.anb i).valid && !opens && (answers i.val).sends
  (turnsOff = true → Fits s (s.an.anb i).phyIdx i .off (answers i.val).acks) ∧
    ((answers (3 + i.val)).sends = true →
      (turnsOff = false ∧ (s.an.anb i).curState = .idle) ∨
        ((s.an.anb i).valid = true ∧ (answers (3 + i.val)).acks = true))

/-- What a command needs for the cache to stay right. -/
def Meets (s : Sys) (cmd : Cmd) (answers : Nat → Answer) : Prop :=
  match cmd with
  | .adapter opens => ∀ i, AdapterFits s opens answers i
  | .setRfMode _ => True
  | .setChannel _ => True
  | .tx stops v =>
      (stops = true ∨ (sgiFound s.an v = true ∧ (answers 0).roomInside = true)) →
        ProcessFits s ((v 2).setWidth 8) (if stops then .idle else .txFrames) (answers 0)
  | .rx stops v =>
      ProcessFits s ((v 2).setWidth 8) (if stops then .idle else .rxFrames) (answers 0)
  | .continuousTx v =>
      (∀ band, bandNum ((v 0).setWidth 8) = some band → v 1 = 0 ∨ (s.an.anb band).rfMode = 1) →
        ProcessFits s ((v 0).setWidth 8) (if v 1 = 0 then .idle else .txCont) (answers 0)
  | .setRu v =>
      0 < (v 1).toNat → (v 1).toNat ≤ 8 → ProcessFits s s.an.curBand .idle (answers 0)
  | .ibfSetVal v =>
      (v 1 = 2 → (answers 0).sends = true → (ibfBand v).toNat < 3) ∧
        (v 1 = 6 → ProcessFits s s.an.curBand .rxFrames (answers 0)) ∧
        (v 1 = 10 → (answers 0).roomInside = true → ProcessFits s s.an.curBand .txFrames (answers 0))
  | .other => True

def MeetsStep (s : Option Sys) (event : Event) : Prop := ∀ s', s = some s' → Meets s' event.1 event.2

end Guard

section Invariant

/-- The phys of two bands of the chip differ. -/
def Apart (an : An) : Prop :=
  ∀ b c, (an.anb b).valid = true → (an.anb c).valid = true → (an.anb b).phyIdx = (an.anb c).phyIdx →
    b = c

structure Kept (s : Sys) : Prop where
  agrees : Agrees s
  directed : Directed s
  apart : Apart s.an
  current : s.an.curBand.toNat < 3

variable {s : Sys}

@[simp] theorem setState_same (an : An) (band : BandNum) (state : TestmodeState) :
    (an.setState band state).anb band = { an.anb band with curState := state } := by
  simp [An.setState]

theorem setState_other (an : An) {band other : BandNum} (state : TestmodeState)
    (apart : other ≠ band) : (an.setState band state).anb other = an.anb other := by
  simp [An.setState, apart]

/-- A message leaves what it is about but for the cached state. -/
theorem setState_band (an : An) (band other : BandNum) (state : TestmodeState) :
    ((an.setState band state).anb other).valid = (an.anb other).valid ∧
      ((an.setState band state).anb other).phyIdx = (an.anb other).phyIdx := by
  by_cases same : other = band
  · subst same
    simp
  · rw [setState_other an state same]
    exact ⟨rfl, rfl⟩

theorem setState_cached {an : An} {band : BandNum} {state : TestmodeState}
    (cached : (an.anb band).curState = state) : an.setState band state = an := by
  subst cached
  simp [An.setState]

/-- After a message with a state, the state is cached. -/
theorem stateRequest_an (s : Sys) (phy : BitVec 8) (band : BandNum) (state : TestmodeState)
    (acks : Bool) : (stateRequest s phy band state acks).an = s.an.setState band state := by
  by_cases cached : (s.an.anb band).curState = state
  · simp [stateRequest, setAttrState, cached, genlRequest, setState_cached]
  · simp [stateRequest, setAttrState, cached, genlRequest]

/-- A message that fits keeps the cache right. -/
theorem stateRequest_kept {phy : BitVec 8} {band : BandNum} {state : TestmodeState} {acks : Bool}
    (kept : Kept s) (fits : Fits s phy band state acks) :
    Kept (stateRequest s phy band state acks) := by
  by_cases cached : (s.an.anb band).curState = state
  · have same : stateRequest s phy band state acks = s := by
      simp [stateRequest, setAttrState, cached, genlRequest]
    rw [same]
    exact kept
  · obtain ⟨valid, rfl, rfl⟩ := fits.resolve_left cached
    have an := stateRequest_an s (s.an.anb band).phyIdx band state true
    have shape := setState_band s.an band
    have acked : (stateRequest s (s.an.anb band).phyIdx band state true).acked =
        Function.update s.acked (s.an.anb band).phyIdx state := by
      simp [stateRequest, setAttrState, cached, genlRequest]
    have sent : (stateRequest s (s.an.anb band).phyIdx band state true).sent =
        s.sent ++ [⟨band, (s.an.anb band).phyIdx, state⟩] := by
      simp [stateRequest, setAttrState, cached, genlRequest]
    refine ⟨?_, ?_, ?_, ?_⟩
    · intro other known
      rw [an, acked]
      rw [an, (shape other state).1] at known
      by_cases same : other = band
      · subst same
        simp
      · have different : (s.an.anb other).phyIdx ≠ (s.an.anb band).phyIdx := fun equal =>
          same (kept.apart other band known valid equal)
        rw [setState_other s.an state same, Function.update_of_ne different]
        exact kept.agrees other known
    · intro one member
      rw [an, (shape one.band state).1, (shape one.band state).2]
      rw [sent] at member
      obtain old | new := List.mem_append.mp member
      · exact kept.directed one old
      · obtain rfl := List.mem_singleton.mp new
        exact ⟨valid, rfl⟩
    · intro b c first second equal
      rw [an] at first second equal
      rw [(shape b state).1] at first
      rw [(shape c state).1] at second
      rw [(shape b state).2, (shape c state).2] at equal
      exact kept.apart b c first second equal
    · rw [an]
      exact kept.current

/-- What `atenl_nl_set_state` makes of its band. -/
def stated (state : TestmodeState) (a : Answer) (band : Band) : Band :=
  if a.sends then { band with curState := state } else band

theorem nlSetState_anb (s : Sys) (band : BandNum) (state : TestmodeState) (a : Answer) :
    (nlSetState s band state a).an.anb =
      Function.update s.an.anb band (stated state a (s.an.anb band)) := by
  unfold nlSetState stated Answer.sends
  cases connects : a.connects with
  | false => simp
  | true =>
    cases room : a.room with
    | false => simp
    | true =>
      simp only [Bool.not_true, Bool.false_eq_true, if_false, Bool.and_self, if_true,
        stateRequest_an]
      rfl

theorem nlSetState_kept {band : BandNum} {state : TestmodeState} {a : Answer} (kept : Kept s)
    (fits : a.sends = true → Fits s (s.an.anb band).phyIdx band state a.acks) :
    Kept (nlSetState s band state a) := by
  unfold nlSetState
  cases connects : a.connects with
  | false => exact kept
  | true =>
    cases room : a.room with
    | false => exact kept
    | true => exact stateRequest_kept kept (fits (by simp [Answer.sends, connects, room]))

end Invariant

section Adapter

variable {s : Sys} (opens : Bool) (answers : Nat → Answer)

/-- What the first loop of `atenl_hqa_adapter` makes of a band. -/
def turnedOff (i : BandNum) (band : Band) : Band :=
  if band.valid && !opens then stated .off (answers i.val) band else band

theorem adapterOff_anb (s : Sys) (i : BandNum) : (adapterOff opens answers s i).an.anb =
    Function.update s.an.anb i (turnedOff opens answers i (s.an.anb i)) := by
  unfold adapterOff turnedOff
  cases valid : (s.an.anb i).valid with
  | false => simp
  | true =>
    cases opens with
    | true => simp
    | false =>
      exact nlSetState_anb s i .off (answers i.val)

theorem turnedOff_valid (i : BandNum) (band : Band) :
    (turnedOff opens answers i band).valid = band.valid := by
  unfold turnedOff stated
  split_ifs <;> rfl

theorem turnedOff_not {i : BandNum} {band : Band}
    (not : (band.valid && !opens && (answers i.val).sends) = false) :
    turnedOff opens answers i band = band := by
  unfold turnedOff stated
  cases off : band.valid && !opens with
  | false => simp
  | true =>
    rw [off, Bool.true_and] at not
    simp [not]

theorem adapterIdle_anb (s : Sys) (i : BandNum) : (adapterIdle answers s i).an.anb =
    Function.update s.an.anb i (stated .idle (answers (3 + i.val)) (s.an.anb i)) :=
  nlSetState_anb s i .idle (answers (3 + i.val))

variable {opens answers}

/-- Where the messages of both loops fit, the cache stays right. -/
theorem hqaAdapter_kept (kept : Kept s) (fits : ∀ i, AdapterFits s opens answers i) :
    Kept (hqaAdapter s opens answers) := by
  have complete : ∀ i : BandNum, i ∈ List.finRange 3 := List.mem_finRange
  obtain ⟨first, cells⟩ := foldl_sweep_guarded (adapterOff opens answers) (fun s => s.an.anb) Kept
    (fun i band => (band.valid && !opens && (answers i.val).sends) = true →
      band.curState = .off ∨ (band.valid = true ∧ (answers i.val).acks = true))
    (turnedOff opens answers)
    (by
      intro s i kept guard
      unfold adapterOff
      cases valid : (s.an.anb i).valid with
      | false => exact kept
      | true =>
        cases opens with
        | true => exact kept
        | false =>
          apply nlSetState_kept kept
          intro sends
          obtain cached | ⟨known, acks⟩ := guard (by simp [valid, sends])
          · exact .inl cached
          · exact .inr ⟨known, rfl, acks⟩)
    (fun s i _ => adapterOff_anb opens answers s i) (List.finRange 3) (List.nodup_finRange 3) s kept
    (by
      intro i _ off
      obtain cached | ⟨known, _, acks⟩ := (fits i).1 off
      · exact .inl cached
      · exact .inr ⟨known, acks⟩)
  refine (foldl_sweep_guarded (adapterIdle answers) (fun s => s.an.anb) Kept
    (fun i band => (answers (3 + i.val)).sends = true →
      band.curState = .idle ∨ (band.valid = true ∧ (answers (3 + i.val)).acks = true))
    (fun i => stated .idle (answers (3 + i.val))) ?_ (fun s i _ => adapterIdle_anb answers s i)
    (List.finRange 3) (List.nodup_finRange 3) _ first ?_).1
  · intro s i kept guard
    apply nlSetState_kept kept
    intro sends
    obtain cached | ⟨known, acks⟩ := guard sends
    · exact .inl cached
    · exact .inr ⟨known, rfl, acks⟩
  · intro i _ sends
    rw [cells i, if_pos (complete i)]
    obtain ⟨not, cached⟩ | ⟨known, acks⟩ := (fits i).2 sends
    · rw [turnedOff_not opens answers not]
      exact .inl cached
    · rw [turnedOff_valid]
      exact .inr ⟨known, acks⟩

end Adapter

section Runs

variable {s : Sys}

theorem bandNum_low {band : BitVec 8} (low : band.toNat < 3) :
    bandNum band = some ⟨band.toNat, low⟩ :=
  dif_pos low

/-- A command through `atenl_nl_process` keeps the cache right when its message does. -/
theorem nlProcess_kept {a : Answer} {ops : BandNum → Option Sys} (kept : Kept s)
    (each : ∀ cur, bandNum s.an.curBand = some cur → a.connects = true →
      ∃ s', ops cur = some s' ∧ Kept s') :
    ∃ s', nlProcess s a ops = some s' ∧ Kept s' := by
  unfold nlProcess
  cases connects : a.connects with
  | false => exact ⟨s, rfl, kept⟩
  | true =>
    have found := bandNum_low kept.current
    obtain ⟨s', gives, kept'⟩ := each _ found connects
    exact ⟨s', by simpa [found] using gives, kept'⟩

/-- Its message fits when that is asked of the command. -/
theorem process_fits {band : BitVec 8} {state : TestmodeState} {a : Answer} {cur target : BandNum}
    (fits : ProcessFits s band state a) (connects : a.connects = true) (room : a.room = true)
    (current : bandNum s.an.curBand = some cur) (found : bandNum band = some target) :
    Fits s (s.an.anb cur).phyIdx target state a.acks :=
  fits (by simp [Answer.sends, connects, room]) cur target current found

theorem nlTx_kept {stops : Bool} {v : Words} {a : Answer} {cur : BandNum} (kept : Kept s)
    (meets : (stops = true ∨ (sgiFound s.an v = true ∧ a.roomInside = true)) →
      ProcessFits s ((v 2).setWidth 8) (if stops then .idle else .txFrames) a)
    (connects : a.connects = true) (current : bandNum s.an.curBand = some cur) :
    Kept (nlTx s stops v (s.an.anb cur).phyIdx a) := by
  unfold nlTx
  cases found : bandNum ((v 2).setWidth 8) with
  | none => exact kept
  | some band =>
    cases room : a.room with
    | false => exact kept
    | true =>
      cases stops with
      | true => exact stateRequest_kept kept (process_fits (meets (.inl rfl)) connects room current found)
      | false =>
        cases sgi : sgiFound s.an v with
        | false => exact kept
        | true =>
          cases inside : a.roomInside with
          | false => exact kept
          | true =>
            exact stateRequest_kept kept
              (process_fits (meets (.inr ⟨sgi, inside⟩)) connects room current found)

theorem nlRx_kept {stops : Bool} {v : Words} {a : Answer} {cur : BandNum} (kept : Kept s)
    (meets : ProcessFits s ((v 2).setWidth 8) (if stops then .idle else .rxFrames) a)
    (connects : a.connects = true) (current : bandNum s.an.curBand = some cur) :
    Kept (nlRx s stops v (s.an.anb cur).phyIdx a) := by
  unfold nlRx
  cases found : bandNum ((v 2).setWidth 8) with
  | none => exact kept
  | some band =>
    cases room : a.room with
    | false => exact kept
    | true =>
      have fits := process_fits meets connects room current found
      cases stops with
      | true => exact stateRequest_kept kept fits
      | false => exact stateRequest_kept kept fits

theorem nlContinuousTx_kept {v : Words} {a : Answer} {cur : BandNum} (kept : Kept s)
    (meets : (∀ band, bandNum ((v 0).setWidth 8) = some band →
        v 1 = 0 ∨ (s.an.anb band).rfMode = 1) →
      ProcessFits s ((v 0).setWidth 8) (if v 1 = 0 then .idle else .txCont) a)
    (connects : a.connects = true) (current : bandNum s.an.curBand = some cur) :
    Kept (nlContinuousTx s v (s.an.anb cur).phyIdx a) := by
  unfold nlContinuousTx
  cases room : a.room with
  | false => exact kept
  | true =>
    cases found : bandNum ((v 0).setWidth 8) with
    | none => exact kept
    | some band =>
      change Kept (if v 1 = 0 then _ else if (s.an.anb band).rfMode ≠ 1 then s else _)
      by_cases disable : v 1 = 0
      · have fits := process_fits (meets fun _ _ => .inl disable) connects room current found
        rw [if_pos disable] at fits
        rw [if_pos disable]
        exact stateRequest_kept kept fits
      · by_cases test : (s.an.anb band).rfMode = 1
        · have fits := process_fits (meets (fun other same => by
            rw [found] at same
            exact .inr (Option.some.inj same ▸ test))) connects room current found
          rw [if_neg disable] at fits
          rw [if_neg disable, if_neg (not_not.mpr test)]
          exact stateRequest_kept kept fits
        · rw [if_neg disable, if_pos test]
          exact kept

/-- The messages of `atenl_nl_set_ru` after the first one have no state. -/
theorem ruLoop_later (cur : BandNum) (answers : Nat → Answer) (s : Sys) (i n : Nat) (late : i ≠ 0) :
    ruLoop cur answers s i n = s := by
  induction n generalizing i with
  | zero => rfl
  | succ n ih =>
    rw [ruLoop]
    simp only [late, if_false, ih (i + 1) (Nat.succ_ne_zero i)]
    split_ifs <;> rfl

theorem nlSetRu_kept {v : Words} {answers : Nat → Answer} (kept : Kept s)
    (meets : 0 < (v 1).toNat → (v 1).toNat ≤ 8 → ProcessFits s s.an.curBand .idle (answers 0)) :
    ∃ s', nlSetRu s v answers = some s' ∧ Kept s' := by
  unfold nlSetRu
  by_cases many : (v 1).toNat > 8
  · exact ⟨s, by simp [many], kept⟩
  · by_cases none : (v 1).toNat = 0 ∨ (answers 0).connects = false
    · exact ⟨s, by simp [many, none], kept⟩
    · obtain ⟨some, connects⟩ := not_or.mp none
      have connects := Bool.eq_true_of_not_eq_false connects
      have found := bandNum_low kept.current
      refine ⟨ruLoop ⟨s.an.curBand.toNat, kept.current⟩ answers s 0 (v 1).toNat, by
        simp only [many, if_false, some, decide_false, connects, Bool.not_true, Bool.or_self,
          Bool.false_eq_true, found, Option.map_some], ?_⟩
      obtain ⟨n, count⟩ := Nat.exists_eq_succ_of_ne_zero some
      rw [count, ruLoop, connects]
      cases room : (answers 0).room with
      | false => exact kept
      | true =>
        simp only [Bool.not_true, Bool.false_eq_true, if_false, if_true,
          ruLoop_later _ answers _ (0 + 1) n (by decide)]
        exact stateRequest_kept kept
          (process_fits (meets (by omega) (by omega)) connects room found found)

theorem nlIbfSetVal_kept {v : Words} {a : Answer} {cur : BandNum} (kept : Kept s)
    (meets : (v 1 = 2 → a.sends = true → (ibfBand v).toNat < 3) ∧
      (v 1 = 6 → ProcessFits s s.an.curBand .rxFrames a) ∧
      (v 1 = 10 → a.roomInside = true → ProcessFits s s.an.curBand .txFrames a))
    (connects : a.connects = true) (current : bandNum s.an.curBand = some cur) :
    ∃ s', nlIbfSetVal s v cur a = some s' ∧ Kept s' := by
  obtain ⟨channel, rxStart, txPkt⟩ := meets
  have word : ∀ n : Nat, (v 1).toNat = n → v 1 = BitVec.ofNat 32 n := by
    rintro _ rfl
    simp
  unfold nlIbfSetVal
  cases room : a.room with
  | false => exact ⟨s, rfl, kept⟩
  | true =>
    simp only [Bool.not_true, Bool.false_eq_true, if_false]
    split
    · rename_i action
      have low := channel (word 2 action) (by simp [Answer.sends, connects, room])
      rw [bandNum_low low]
      exact ⟨_, rfl, ⟨kept.agrees, kept.directed, kept.apart, low⟩⟩
    · rename_i action
      exact ⟨_, rfl, stateRequest_kept kept
        (process_fits (rxStart (word 6 action)) connects room current current)⟩
    · rename_i action
      cases inside : a.roomInside with
      | false => exact ⟨s, rfl, kept⟩
      | true =>
        exact ⟨_, rfl, stateRequest_kept kept
          (process_fits (txPkt (word 10 action) inside) connects room current current)⟩
    · exact ⟨s, rfl, kept⟩

theorem hqaSetChannel_kept {v : Words} (kept : Kept s) : Kept (hqaSetChannel s v) := by
  unfold hqaSetChannel
  dsimp only
  split_ifs with high select
  · exact kept
  · exact kept
  · exact ⟨kept.agrees, kept.directed, kept.apart, Nat.lt_of_not_le high⟩

theorem setRfMode_band (an : An) (band other : BandNum) (mode : BitVec 32) :
    ((an.setRfMode band mode).anb other).valid = (an.anb other).valid ∧
      ((an.setRfMode band mode).anb other).phyIdx = (an.anb other).phyIdx ∧
      ((an.setRfMode band mode).anb other).curState = (an.anb other).curState := by
  by_cases same : other = band
  · subst same
    simp [An.setRfMode]
  · simp [An.setRfMode, same]

theorem hqaSetRfMode_kept {v : Words} (kept : Kept s) : Kept (hqaSetRfMode s v) := by
  have valid : ∀ b, ((hqaSetRfMode s v).an.anb b).valid = (s.an.anb b).valid := fun b =>
    (setRfMode_band _ 1 b (v 0)).1.trans (setRfMode_band _ 0 b (v 0)).1
  have phy : ∀ b, ((hqaSetRfMode s v).an.anb b).phyIdx = (s.an.anb b).phyIdx := fun b =>
    (setRfMode_band _ 1 b (v 0)).2.1.trans (setRfMode_band _ 0 b (v 0)).2.1
  have cached : ∀ b, ((hqaSetRfMode s v).an.anb b).curState = (s.an.anb b).curState := fun b =>
    (setRfMode_band _ 1 b (v 0)).2.2.trans (setRfMode_band _ 0 b (v 0)).2.2
  refine ⟨?_, ?_, ?_, kept.current⟩
  · intro b known
    rw [valid] at known
    rw [cached, phy]
    exact kept.agrees b known
  · intro one member
    rw [valid, phy]
    exact kept.directed one member
  · intro b c first second same
    rw [valid] at first second
    rw [phy, phy] at same
    exact kept.apart b c first second same

/-- A command that meets its condition keeps the cache right. -/
theorem handle_kept {cmd : Cmd} {answers : Nat → Answer} (kept : Kept s)
    (meets : Meets s cmd answers) : ∃ s', handle s cmd answers = some s' ∧ Kept s' := by
  cases cmd with
  | adapter opens => exact ⟨_, rfl, hqaAdapter_kept kept meets⟩
  | setRfMode v => exact ⟨_, rfl, hqaSetRfMode_kept kept⟩
  | setChannel v => exact ⟨_, rfl, hqaSetChannel_kept kept⟩
  | tx stops v =>
    exact nlProcess_kept kept fun cur current connects =>
      ⟨_, rfl, nlTx_kept kept meets connects current⟩
  | rx stops v =>
    exact nlProcess_kept kept fun cur current connects =>
      ⟨_, rfl, nlRx_kept kept meets connects current⟩
  | continuousTx v =>
    exact nlProcess_kept kept fun cur current connects =>
      ⟨_, rfl, nlContinuousTx_kept kept meets connects current⟩
  | setRu v => exact nlSetRu_kept kept meets
  | ibfSetVal v =>
    exact nlProcess_kept kept fun cur current connects =>
      nlIbfSetVal_kept kept meets connects current
  | other => exact nlProcess_kept kept fun _ _ _ => ⟨s, rfl, kept⟩

theorem init_kept (phyIdx : BitVec 8) (valid : BandNum → Bool) (chipId : BitVec 16) :
    Kept (init phyIdx valid chipId) := by
  refine ⟨fun _ _ => rfl, fun one member => absurd member List.not_mem_nil, ?_, (by decide : 0 < 3)⟩
  intro b c first second same
  have phy : ∀ i : BandNum, valid i = true →
      ((init phyIdx valid chipId).an.anb i).phyIdx = phyIdx + BitVec.ofNat 8 i.val := by
    intro i known
    simp [init, known]
  rw [phy b first, phy c second] at same
  have low := congrArg BitVec.toNat (add_left_cancel same)
  simp only [BitVec.toNat_ofNat] at low
  have bound := b.isLt
  have bound' := c.isLt
  exact Fin.ext (by omega)

end Runs

section Main

variable (phyIdx : BitVec 8) (valid : BandNum → Bool) (chipId : BitVec 16)

/-- The run of `atenl` over some commands; `none` once it has gone outside of `an->anb`. -/
def reached (events : List Event) : Option Sys := run step (some (init phyIdx valid chipId)) events

/-- In every state of a run, the cache is what the kernel acknowledged, and every state went to the phy
of its band. -/
def AlwaysAgrees (events : List Event) : Prop :=
  ∀ early late, events = early ++ late →
    ∃ s, reached phyIdx valid chipId early = some s ∧ Agrees s ∧ Directed s

/-- Along every run whose commands meet their conditions the cache agrees with the kernel. -/
theorem agrees_along (events : List Event)
    (meets : Along step MeetsStep (some (init phyIdx valid chipId)) events) :
    AlwaysAgrees phyIdx valid chipId events := by
  rintro early late rfl
  have before := ((along_append step MeetsStep _ early late).mp meets).1
  obtain ⟨s, gives, kept⟩ := run_invariant step MeetsStep (fun s => ∃ s', s = some s' ∧ Kept s')
    (by
      rintro _ event ⟨s, rfl, kept⟩ meets
      exact handle_kept kept (meets s rfl))
    _ early ⟨_, rfl, init_kept phyIdx valid chipId⟩ before
  exact ⟨s, gives, kept.agrees, kept.directed⟩

/-- The answers of a kernel that does all it is asked. -/
def obeyed : Nat → Answer := fun _ => ⟨true, true, true, true⟩

/-- The words of a request that names the second band. -/
def secondBand : Words := fun i => if i = 2 then 1 else 0

/-- The second band is chosen, and starts to receive. -/
theorem agrees_second_band :
    AlwaysAgrees 0 (fun _ => true) 0x7990 [(.setChannel secondBand, obeyed),
      (.rx false secondBand, obeyed)] := by
  apply agrees_along
  refine ⟨fun _ _ => trivial, ?_, trivial⟩
  intro s same
  obtain rfl := Option.some.inj same
  intro _ cur target current found
  have band : bandNum 1 = some 1 := by decide
  obtain rfl : 1 = cur := Option.some.inj (band.symm.trans current)
  obtain rfl : 1 = target := Option.some.inj (band.symm.trans found)
  exact .inr ⟨rfl, rfl, rfl⟩

/-- A state that the kernel refuses stays cached. -/
theorem refused_state_cached : ¬∀ phyIdx valid chipId events,
    AlwaysAgrees phyIdx valid chipId events := by
  intro all
  obtain ⟨s, gives, agrees, _⟩ := all 0 (fun _ => true) 0x7990
    [(.rx false (fun _ => 0), fun _ => ⟨true, true, true, false⟩)] [_] [] rfl
  obtain rfl := Option.some.inj gives
  exact absurd (agrees 0 rfl) (by decide)

end Main

end Filogic.Atenl
