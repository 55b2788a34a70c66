import Filogic.Lib.Runs

/-! `mtk_eth_netdevice_event` and the waiting part of `mtk_pending_work`: the reset worker tells
the Wi-Fi chips of a reset and waits until they have answered, on a counter that all chips
share. -/

namespace Filogic.Eth
open Lib

/-- `mtk_reset_flag` -/
inductive ResetFlag where
  | none | startReset | stopTraffic
  deriving DecidableEq, Repr

/-- Where the reset worker stands: it waits for the answers to its first message, or to the
second one that follows a failure. -/
inductive Phase where
  | idle | first | second
  deriving DecidableEq, Repr

/-- `done` is the count inside `wait_ser_done`. -/
structure Ser where
  wifiNum : Int
  restCnt : Int
  stopFail : Bool
  resetFlag : ResetFlag
  done : Nat
  phase : Phase
  deriving DecidableEq, Repr

/-- The events of the notifier chain that a Wi-Fi driver sends; the first two have one branch. -/
inductive NetdevEvent where
  | wifiResetDone | stopTrafficDone | chipOnline | chipOffline | stopTrafficDoneFail
  | startResetInit
  deriving DecidableEq, Repr

/-- `mtk_eth_netdevice_event`, and whether it completes `wait_ser_done`; `unlocked` tells that
`reset_lock` is 0 and `force` is 1. -/
def mtkEthNetdeviceEvent (unlocked : Bool) (s : Ser) : NetdevEvent → Ser × Bool
  | .wifiResetDone | .stopTrafficDone =>
    let restCnt := s.restCnt - 1
    if restCnt = 0 then ({ s with done := s.done + 1, restCnt := s.wifiNum }, true)
    else ({ s with restCnt := restCnt }, false)
  | .chipOnline => ({ s with wifiNum := s.wifiNum + 1, restCnt := s.wifiNum + 1 }, false)
  | .chipOffline => ({ s with wifiNum := s.wifiNum - 1, restCnt := s.wifiNum - 1 }, false)
  | .stopTrafficDoneFail =>
    ({ s with stopFail := true, resetFlag := .startReset, done := s.done + 1,
              restCnt := s.wifiNum }, true)
  | .startResetInit => (if unlocked then { s with resetFlag := .startReset } else s, false)

/-- The first `wait_for_completion_timeout` of `mtk_pending_work` returns, with what it found. -/
def firstWait (netsysV3 : Bool) (completed : Bool) (s : Ser) : Ser :=
  if completed ∧ netsysV3 ∧ s.stopFail then { s with phase := .second }
  else { s with phase := .idle }

/-- The second one. -/
def secondWait (s : Ser) : Ser := { s with stopFail := false, phase := .idle }

/-- The reset rounds: the chips that are online, those that were so when the round started and
still are, and those that answered in it. A round starts with each message of the worker. -/
structure Rounds where
  ser : Ser
  online : Finset Nat
  round : Nat
  awaited : Finset Nat
  reported : Finset Nat
  failed : Bool
  completions : Nat

def Rounds.begin (s : Rounds) (ser : Ser) : Rounds :=
  { s with
    ser := ser, round := s.round + 1, awaited := s.online, reported := ∅, failed := false
    completions := 0 }

/-- What can happen: a chip comes, goes, answers the message of a round (with a reset or a
stopped traffic) or fails; the worker sends its message, is woken, or waits in vain. -/
inductive RoundEvent where
  | online (c : Nat) | offline (c : Nat)
  | done (c : Nat) (round : Nat) (stopped : Bool) | fail (c : Nat)
  | startResetInit (unlocked : Bool)
  | work | wake | timeout

def Rounds.notify (s : Rounds) (unlocked : Bool) (event : NetdevEvent) : Rounds :=
  let called := mtkEthNetdeviceEvent unlocked s.ser event
  { s with
    ser := called.1, completions := if called.2 then s.completions + 1 else s.completions }

def roundStep (netsysV3 : Bool) (s : Rounds) : RoundEvent → Rounds
  | .online c => { s.notify true .chipOnline with online := insert c s.online }
  | .offline c =>
    { s.notify true .chipOffline with
      online := s.online.erase c
      awaited := if s.ser.phase = .idle then s.awaited else s.awaited.erase c }
  | .done c round stopped =>
    { s.notify true (if stopped then .stopTrafficDone else .wifiResetDone) with
      reported := if s.ser.phase ≠ .idle ∧ round = s.round then insert c s.reported
        else s.reported }
  | .fail _ =>
    { s.notify true .stopTrafficDoneFail with
      failed := if s.ser.phase = .idle then s.failed else true }
  | .startResetInit unlocked => s.notify unlocked .startResetInit
  | .work => if s.ser.phase = .idle then s.begin { s.ser with phase := .first } else s
  | .wake =>
    if s.ser.done = 0 then s
    else
      let ser := { s.ser with done := s.ser.done - 1 }
      match s.ser.phase with
      | .idle => s
      | .first =>
        let ser := firstWait netsysV3 true ser
        if ser.phase = .second then s.begin ser else { s with ser := ser }
      | .second => { s with ser := secondWait ser }
  | .timeout =>
    if s.ser.done = 0 then
      match s.ser.phase with
      | .idle => s
      | .first => { s with ser := firstWait netsysV3 false s.ser }
      | .second => { s with ser := secondWait s.ser }
    else s

def booted : Rounds :=
  { ser := { wifiNum := 0, restCnt := 0, stopFail := false, resetFlag := .startReset, done := 0
             phase := .idle }
    online := ∅, round := 0, awaited := ∅, reported := ∅, failed := false, completions := 0 }

/-- The worker waits in a round that nothing has completed. -/
def Rounds.isOpen (s : Rounds) : Prop := s.ser.phase ≠ .idle ∧ s.completions = 0

/-- A round is completed once all chips that it waits for have answered or one has failed, and
not before; until then the counter is the number of answers missing in this round; and a
completion that the worker finds is one of its own round. -/
structure Sound (s : Rounds) : Prop where
  nonneg : 0 ≤ s.ser.restCnt
  once : 0 < s.round →
    s.completions = if s.failed ∨ s.awaited ⊆ s.reported then 1 else 0
  pending : s.isOpen → s.ser.restCnt = (s.awaited \ s.reported).card
  own : s.ser.done ≤ s.completions

/-- No chip comes while a round is open, and none goes after another has answered or as the last
one; each answer is the first of its chip to the open round, and a failure comes to an open
round; a round starts with a chip online, and is given up only before the first answer. -/
def Timely (netsysV3 : Bool) (s : Rounds) : RoundEvent → Prop
  | .online c => c ∉ s.online ∧ ¬s.isOpen
  | .offline c => c ∈ s.online ∧ (s.isOpen → s.reported = ∅ ∧ (s.awaited.erase c).Nonempty)
  | .done c round _ => s.isOpen ∧ round = s.round ∧ c ∈ s.awaited ∧ c ∉ s.reported
  | .fail _ => s.isOpen
  | .startResetInit _ => True
  | .work => s.ser.phase = .idle → s.online.Nonempty
  | .wake => s.ser.phase = .first → netsysV3 → s.ser.stopFail → s.online.Nonempty
  | .timeout => s.isOpen → s.reported = ∅

/-- The state of a round, by whether it is open, answered, or over. -/
inductive Stage (s : Rounds) : Prop where
  | waiting (phase : s.ser.phase ≠ .idle) (completions : s.completions = 0) (done : s.ser.done = 0)
      (failed : s.failed = false) (awaited : s.awaited = s.online)
      (restCnt : s.ser.restCnt = (s.awaited \ s.reported).card)
      (missing : ¬s.awaited ⊆ s.reported) : Stage s
  | answered (phase : s.ser.phase ≠ .idle) (completions : s.completions = 1)
      (done : s.ser.done = 1) (restCnt : s.ser.restCnt = s.ser.wifiNum)
      (answers : s.failed = true ∨ s.awaited ⊆ s.reported) : Stage s
  | ended (phase : s.ser.phase = .idle) (done : s.ser.done = 0)
      (restCnt : s.ser.restCnt = s.ser.wifiNum)
      (once : 0 < s.round →
        s.completions = if s.failed ∨ s.awaited ⊆ s.reported then 1 else 0) : Stage s

structure Orderly (s : Rounds) : Prop where
  wifiNum : s.ser.wifiNum = s.online.card
  stage : Stage s

theorem Orderly.sound {s : Rounds} (orderly : Orderly s) : Sound s := by
  obtain ⟨wifiNum, stage⟩ := orderly
  cases stage with
  | waiting phase completions done failed awaited restCnt missing =>
    refine ⟨by omega, ?_, fun _ => restCnt, by omega⟩
    intro _
    simp [completions, failed, missing]
  | answered phase completions done restCnt answers =>
    refine ⟨by omega, ?_, ?_, by omega⟩
    · intro _
      rw [completions, if_pos answers]
    · intro isOpen
      rw [isOpen.2] at completions
      cases completions
  | ended phase done restCnt once =>
    refine ⟨by omega, once, ?_, by omega⟩
    intro isOpen
    exact absurd phase isOpen.1

section Steps

variable {netsysV3 : Bool} {s : Rounds}

/-- A round that starts waits for at least one chip. -/
theorem begin_orderly (ser : Ser) (phase : ser.phase ≠ .idle) (done : ser.done = 0)
    (wifiNum : ser.wifiNum = s.online.card) (restCnt : ser.restCnt = ser.wifiNum)
    (nonempty : s.online.Nonempty) : Orderly (s.begin ser) := by
  refine ⟨wifiNum, Stage.waiting phase rfl done rfl rfl ?_ ?_⟩
  · simp only [Rounds.begin, Finset.sdiff_empty]
    rw [restCnt, wifiNum]
  · simpa [Rounds.begin, Finset.subset_empty] using nonempty.ne_empty

theorem online_orderly (orderly : Orderly s) (c : Nat)
    (timely : Timely netsysV3 s (.online c)) : Orderly (roundStep netsysV3 s (.online c)) := by
  obtain ⟨wifiNum, stage⟩ := orderly
  obtain ⟨fresh, closed⟩ := timely
  have grown : s.ser.wifiNum + 1 = (insert c s.online).card := by
    rw [Finset.card_insert_of_notMem fresh, wifiNum]
    push_cast
    rfl
  refine ⟨grown, ?_⟩
  cases stage with
  | waiting phase completions => exact absurd ⟨phase, completions⟩ closed
  | answered phase completions done restCnt answers =>
    exact Stage.answered phase completions done rfl answers
  | ended phase done restCnt once => exact Stage.ended phase done rfl once

theorem offline_orderly (orderly : Orderly s) (c : Nat)
    (timely : Timely netsysV3 s (.offline c)) : Orderly (roundStep netsysV3 s (.offline c)) := by
  obtain ⟨wifiNum, stage⟩ := orderly
  obtain ⟨present, early⟩ := timely
  have shrunk : s.ser.wifiNum - 1 = (s.online.erase c).card := by
    rw [Finset.card_erase_of_mem present, wifiNum]
    have positive := Finset.card_pos.mpr ⟨c, present⟩
    omega
  refine ⟨shrunk, ?_⟩
  cases stage with
  | waiting phase completions done failed awaited restCnt missing =>
    obtain ⟨unanswered, left⟩ := early ⟨phase, completions⟩
    have kept : (roundStep netsysV3 s (.offline c)).awaited = s.online.erase c := by
      simp only [roundStep, if_neg phase, awaited]
    refine Stage.waiting phase completions done failed kept ?_ ?_
    · rw [kept]
      change s.ser.wifiNum - 1 = (s.online.erase c \ s.reported).card
      rw [shrunk, unanswered, Finset.sdiff_empty]
    · rw [kept, ← awaited]
      change ¬s.awaited.erase c ⊆ s.reported
      rw [unanswered, Finset.subset_empty]
      exact left.ne_empty
  | answered phase completions done restCnt answers =>
    refine Stage.answered phase completions done rfl ?_
    rcases answers with failed | all
    · exact Or.inl failed
    · right
      change (if s.ser.phase = .idle then s.awaited else s.awaited.erase c) ⊆ s.reported
      rw [if_neg phase]
      exact (Finset.erase_subset c s.awaited).trans all
  | ended phase done restCnt once =>
    refine Stage.ended phase done rfl ?_
    intro begun
    change s.completions = if s.failed = true ∨
      (if s.ser.phase = .idle then s.awaited else s.awaited.erase c) ⊆ s.reported then 1 else 0
    rw [if_pos phase]
    exact once begun

/-- The answer of a chip: the last one missing completes the round. -/
theorem done_orderly (orderly : Orderly s) (c round : Nat) (stopped : Bool)
    (timely : Timely netsysV3 s (.done c round stopped)) :
    Orderly (roundStep netsysV3 s (.done c round stopped)) := by
  obtain ⟨wifiNum, stage⟩ := orderly
  obtain ⟨isOpen, rfl, awaits, first⟩ := timely
  cases stage with
  | answered phase completions => exact absurd (completions.symm.trans isOpen.2) one_ne_zero
  | ended phase => exact absurd phase isOpen.1
  | waiting phase completions done failed awaited restCnt missing =>
    have counted : s.awaited \ s.reported = insert c (s.awaited \ insert c s.reported) := by
      ext d
      simp only [Finset.mem_sdiff, Finset.mem_insert]
      by_cases same : d = c
      · subst same
        simp [awaits, first]
      · simp [same]
    have one_less : (s.ser.restCnt : Int) - 1 = (s.awaited \ insert c s.reported).card := by
      rw [restCnt, counted, Finset.card_insert_of_notMem (by simp)]
      push_cast
      ring
    have event : ∀ unlocked, mtkEthNetdeviceEvent unlocked s.ser
        (if stopped then .stopTrafficDone else .wifiResetDone) =
          if s.ser.restCnt - 1 = 0 then
            ({ s.ser with done := s.ser.done + 1, restCnt := s.ser.wifiNum }, true)
          else ({ s.ser with restCnt := s.ser.restCnt - 1 }, false) := by
      intro unlocked
      cases stopped <;> rfl
    have moved : roundStep netsysV3 s (.done c s.round stopped) =
        { s.notify true (if stopped then .stopTrafficDone else .wifiResetDone) with
          reported := insert c s.reported } := by
      have counts : s.ser.phase ≠ .idle ∧ s.round = s.round := ⟨phase, rfl⟩
      unfold roundStep
      dsimp only
      rw [if_pos counts]
    rw [moved]
    simp only [Rounds.notify, event]
    by_cases last : s.ser.restCnt - 1 = 0
    · have all : s.awaited ⊆ insert c s.reported := by
        rw [last] at one_less
        rw [← Finset.sdiff_eq_empty_iff_subset, ← Finset.card_eq_zero]
        omega
      simp only [if_pos last]
      refine ⟨wifiNum, Stage.answered phase ?_ ?_ rfl (Or.inr all)⟩
      · simp [completions]
      · simp [done]
    · have some_left : ¬s.awaited ⊆ insert c s.reported := by
        intro all
        rw [Finset.sdiff_eq_empty_iff_subset.mpr all] at one_less
        exact last one_less
      simp only [if_neg last]
      exact ⟨wifiNum, Stage.waiting phase completions done failed awaited one_less some_left⟩

theorem fail_orderly (orderly : Orderly s) (c : Nat) (isOpen : Timely netsysV3 s (.fail c)) :
    Orderly (roundStep netsysV3 s (.fail c)) := by
  obtain ⟨wifiNum, stage⟩ := orderly
  cases stage with
  | answered phase completions => exact absurd (completions.symm.trans isOpen.2) one_ne_zero
  | ended phase => exact absurd phase isOpen.1
  | waiting phase completions done =>
    refine ⟨wifiNum, Stage.answered phase ?_ ?_ rfl (Or.inl ?_)⟩
    · change s.completions + 1 = 1
      rw [completions]
    · change s.ser.done + 1 = 1
      rw [done]
    · change (if s.ser.phase = .idle then s.failed else true) = true
      rw [if_neg phase]

theorem startResetInit_orderly (orderly : Orderly s) (unlocked : Bool) :
    Orderly (roundStep netsysV3 s (.startResetInit unlocked)) := by
  obtain ⟨wifiNum, stage⟩ := orderly
  cases unlocked with
  | false =>
    refine ⟨wifiNum, ?_⟩
    cases stage with
    | waiting phase completions done failed awaited restCnt missing =>
      exact Stage.waiting phase completions done failed awaited restCnt missing
    | answered phase completions done restCnt answers =>
      exact Stage.answered phase completions done restCnt answers
    | ended phase done restCnt once => exact Stage.ended phase done restCnt once
  | true =>
    refine ⟨wifiNum, ?_⟩
    cases stage with
    | waiting phase completions done failed awaited restCnt missing =>
      exact Stage.waiting phase completions done failed awaited restCnt missing
    | answered phase completions done restCnt answers =>
      exact Stage.answered phase completions done restCnt answers
    | ended phase done restCnt once => exact Stage.ended phase done restCnt once

theorem work_orderly (orderly : Orderly s) (timely : Timely netsysV3 s .work) :
    Orderly (roundStep netsysV3 s .work) := by
  simp only [roundStep]
  split_ifs with idle
  · obtain ⟨wifiNum, stage⟩ := orderly
    cases stage with
    | waiting phase => exact absurd idle phase
    | answered phase => exact absurd idle phase
    | ended phase done restCnt once =>
      exact begin_orderly _ (by simp) done wifiNum restCnt (timely idle)
  · exact orderly

theorem firstWait_again (ser : Ser) (again : netsysV3 = true ∧ ser.stopFail = true) :
    firstWait netsysV3 true ser = { ser with phase := .second } := by
  simp [firstWait, again]

theorem firstWait_enough (completed : Bool) (ser : Ser)
    (enough : ¬(completed = true ∧ netsysV3 = true ∧ ser.stopFail = true)) :
    firstWait netsysV3 completed ser = { ser with phase := .idle } := by
  simp only [firstWait, if_neg enough]

theorem wake_orderly (orderly : Orderly s) (timely : Timely netsysV3 s .wake) :
    Orderly (roundStep netsysV3 s .wake) := by
  unfold roundStep
  dsimp only
  by_cases none : s.ser.done = 0
  · rw [if_pos none]
    exact orderly
  · rw [if_neg none]
    obtain ⟨wifiNum, stage⟩ := orderly
    cases stage with
    | waiting phase completions done => exact absurd done none
    | ended phase done => exact absurd done none
    | answered phase completions done restCnt answers =>
      have rest : s.ser.done - 1 = 0 := by omega
      have once : 0 < s.round →
          s.completions = if s.failed ∨ s.awaited ⊆ s.reported then 1 else 0 := by
        intro _
        rw [completions, if_pos answers]
      cases stands : s.ser.phase with
      | idle => exact absurd stands phase
      | second => exact ⟨wifiNum, Stage.ended rfl rest restCnt once⟩
      | first =>
        dsimp only
        generalize woken : { s.ser with done := s.ser.done - 1, phase := .first } = ser
        by_cases again : netsysV3 = true ∧ ser.stopFail = true
        · rw [firstWait_again ser again, if_pos rfl]
          subst woken
          exact begin_orderly _ (by simp) rest wifiNum restCnt
            (timely stands again.1 again.2)
        · rw [firstWait_enough true ser fun all => again all.2, if_neg (by simp)]
          subst woken
          exact ⟨wifiNum, Stage.ended rfl rest restCnt once⟩

theorem timeout_orderly (orderly : Orderly s) (timely : Timely netsysV3 s .timeout) :
    Orderly (roundStep netsysV3 s .timeout) := by
  simp only [roundStep]
  split_ifs with none
  · obtain ⟨wifiNum, stage⟩ := orderly
    cases stage with
    | answered phase completions done => omega
    | ended phase done restCnt once =>
      rw [phase]
      exact ⟨wifiNum, Stage.ended phase done restCnt once⟩
    | waiting phase completions done failed awaited restCnt missing =>
      have unanswered := timely ⟨phase, completions⟩
      have whole : s.ser.restCnt = s.ser.wifiNum := by
        rw [restCnt, unanswered, Finset.sdiff_empty, awaited, wifiNum]
      have once : 0 < s.round →
          s.completions = if s.failed ∨ s.awaited ⊆ s.reported then 1 else 0 := by
        intro _
        simp [completions, failed, missing]
      cases stands : s.ser.phase with
      | idle => exact absurd stands phase
      | first =>
        dsimp only
        rw [firstWait_enough _ _ (by simp)]
        exact ⟨wifiNum, Stage.ended rfl none whole once⟩
      | second => exact ⟨wifiNum, Stage.ended rfl none whole once⟩
  · exact orderly

/-- One step. -/
theorem roundStep_orderly (orderly : Orderly s) (event : RoundEvent)
    (timely : Timely netsysV3 s event) : Orderly (roundStep netsysV3 s event) := by
  cases event with
  | online c => exact online_orderly orderly c timely
  | offline c => exact offline_orderly orderly c timely
  | done c round stopped => exact done_orderly orderly c round stopped timely
  | fail c => exact fail_orderly orderly c timely
  | startResetInit unlocked => exact startResetInit_orderly orderly unlocked
  | work => exact work_orderly orderly timely
  | wake => exact wake_orderly orderly timely
  | timeout => exact timeout_orderly orderly timely

end Steps

theorem booted_orderly : Orderly booted :=
  ⟨rfl, Stage.ended rfl rfl rfl (fun begun => absurd begun (lt_irrefl 0))⟩

/-- In a run of timely events every round is sound. -/
theorem handshake_sound (netsysV3 : Bool) (events : List RoundEvent)
    (timely : Along (roundStep netsysV3) (Timely netsysV3) booted events) :
    Sound (run (roundStep netsysV3) booted events) := by
  have orderly := run_invariant (roundStep netsysV3) (Timely netsysV3) Orderly
    (fun _ event orderly timely => roundStep_orderly orderly event timely) booted events
    booted_orderly timely
  exact orderly.sound

/-- Two chips stop their traffic, where one fails, and are then reset. -/
def failedStop : List RoundEvent :=
  [.online 1, .online 2, .work, .done 1 1 true, .fail 2, .wake, .done 2 2 false,
    .done 1 2 false, .wake]

theorem handshake_sound_failedStop :
    Along (roundStep true) (Timely true) booted failedStop ∧
      Sound (run (roundStep true) booted failedStop) := by
  have timely : Along (roundStep true) (Timely true) booted failedStop := by
    simp only [failedStop, Along, Timely, Rounds.isOpen]
    decide
  exact ⟨timely, handshake_sound true failedStop timely⟩

/-- A chip answers and the other one goes: the counter starts again from the chips that are
left, and the round is never completed. -/
theorem offline_rearms : ¬∀ netsysV3 events, Sound (run (roundStep netsysV3) booted events) := by
  intro sound
  have once := (sound true [.online 1, .online 2, .work, .done 1 1 false, .offline 2]).once
  revert once
  decide

end Filogic.Eth
