import Filogic.Lib.Runs

/-! `mt753x_common.c`: the links of the PHYs as the interrupt worker keeps track of them, while they
change at any time. -/

namespace Filogic.Mt753x.LinkChange
open Lib

/-- A PHY below `MT753X_NUM_PHYS`. -/
abbrev Phy := Fin 5

/-- Where `mt753x_irq_enable` or `mt753x_irq_worker` stands; the loops are before a PHY or, at 5, at
their end. -/
inductive Stage where
  | recording (i : Nat)
  | waiting
  | scheduled
  | checking (sts : Phy → Bool) (i : Nat)
  | enabling

/-- The links as they are, `SYS_INT_STS`, and `phy_link_sts`. -/
structure Gsw where
  link : Phy → Bool
  intSts : Phy → Bool
  phyLinkSts : Phy → Bool
  stage : Stage

/-- What happens: a link goes up or down, the interrupt comes, or the code takes its next step. -/
inductive Event where
  | change (phy : Phy)
  | irq
  | work

/-- A link that changes sets its status bit. -/
def change (s : Gsw) (phy : Phy) : Gsw :=
  { s with
    link := Function.update s.link phy (!s.link phy)
    intSts := Function.update s.intSts phy true }

/-- `mt753x_irq_handler`; the interrupt stays disabled until the worker has finished. -/
def irqHandler (s : Gsw) : Gsw :=
  match s.stage with
  | .waiting => if ∃ phy, s.intSts phy = true then { s with stage := .scheduled } else s
  | _ => s

/-- One PHY in the loop of `mt753x_irq_worker` -/
def checkPhy (sts : Phy → Bool) (phy : Phy) (s : Gsw) : Gsw :=
  if sts phy then
    let laststs := s.phyLinkSts phy
    let physts := s.link phy
    if physts ^^ laststs then
      { s with phyLinkSts := Function.update s.phyLinkSts phy (!s.phyLinkSts phy) }
    else s
  else s

/-- One PHY in the loop of `mt753x_irq_enable` -/
def recordPhy (phy : Phy) (s : Gsw) : Gsw :=
  if s.link phy then { s with phyLinkSts := Function.update s.phyLinkSts phy true } else s

/-- The next step of `mt753x_irq_enable` or `mt753x_irq_worker` -/
def work (s : Gsw) : Gsw :=
  match s.stage with
  | .recording i =>
      if below : i < 5 then { recordPhy ⟨i, below⟩ s with stage := .recording (i + 1) }
      else { s with stage := .waiting }
  | .waiting => s
  | .scheduled => { s with stage := .checking s.intSts 0 }
  | .checking sts i =>
      if below : i < 5 then { checkPhy sts ⟨i, below⟩ s with stage := .checking sts (i + 1) }
      else
        -- A bit that is written as 1 is cleared.
        { s with intSts := fun phy => s.intSts phy && !sts phy, stage := .enabling }
  | .enabling => { s with stage := .waiting }

def step (s : Gsw) : Event → Gsw
  | .change phy => change s phy
  | .irq => irqHandler s
  | .work => work s

/-- Before `mt753x_irq_enable` -/
structure Fresh (s : Gsw) : Prop where
  stage : s.stage = .recording 0
  unknown : ∀ phy, s.phyLinkSts phy = false

/-- The worker has finished, and no status bit is pending. -/
def AtRest (s : Gsw) : Prop := s.stage = .waiting ∧ ∀ phy, s.intSts phy = false

def Known (s : Gsw) : Prop := ∀ phy, s.phyLinkSts phy = s.link phy

/-- The worker has looked at the PHY, and is going to acknowledge its status bit. -/
def LookedAt (s : Gsw) (phy : Phy) : Prop :=
  match s.stage with
  | .checking sts i => sts phy = true ∧ phy.val < i
  | _ => False

/-- No link changes between the look at it and the acknowledgement. -/
def Seen (s : Gsw) : Event → Prop
  | .change phy => ¬ LookedAt s phy
  | _ => True

/-- The PHY has not been recorded yet. -/
def Unrecorded (s : Gsw) (phy : Phy) : Prop :=
  match s.stage with
  | .recording i => i ≤ phy.val
  | _ => False

/-- A link is known, or will be looked at; before it is recorded it counts as down. -/
structure Tracked (s : Gsw) : Prop where
  known : ∀ phy, s.phyLinkSts phy = s.link phy ∨ (s.intSts phy = true ∧ ¬ LookedAt s phy) ∨
    Unrecorded s phy
  unrecorded : ∀ phy, Unrecorded s phy → s.phyLinkSts phy = false

theorem Fresh.tracked {s : Gsw} (fresh : Fresh s) : Tracked s := by
  constructor
  · intro phy
    right
    right
    rw [Unrecorded, fresh.stage]
    exact phy.val.zero_le
  · exact fun phy _ => fresh.unknown phy

theorem Tracked.change {s : Gsw} (tracked : Tracked s) (phy : Phy) (seen : ¬ LookedAt s phy) :
    Tracked (change s phy) := by
  constructor
  · intro other
    by_cases here : other = phy
    · subst here
      right
      left
      exact ⟨Function.update_self .., seen⟩
    · have same := tracked.known other
      simp only [LinkChange.change, Function.update_of_ne here]
      exact same
  · exact tracked.unrecorded

theorem Tracked.irqHandler {s : Gsw} (tracked : Tracked s) : Tracked (irqHandler s) := by
  unfold LinkChange.irqHandler
  cases stage : s.stage with
  | waiting =>
    dsimp only
    split_ifs
    · constructor
      · intro phy
        have here := tracked.known phy
        simp only [LookedAt, Unrecorded, stage] at here ⊢
        exact here
      · exact fun phy none_left => none_left.elim
    · exact tracked
  | recording => exact tracked
  | scheduled => exact tracked
  | checking => exact tracked
  | enabling => exact tracked

/-- After a look the link is known. -/
theorem checkPhy_known (sts : Phy → Bool) (phy : Phy) (s : Gsw) (other : Phy) :
    (checkPhy sts phy s).phyLinkSts other =
      if sts phy = true ∧ other = phy then s.link phy else s.phyLinkSts other := by
  unfold checkPhy
  by_cases set : sts phy = true
  · by_cases here : other = phy
    · subst here
      rw [if_pos set, if_pos (⟨set, rfl⟩ : sts other = true ∧ other = other)]
      cases link : s.link other <;> cases last : s.phyLinkSts other <;> simp [last]
    · rw [if_pos set, if_neg fun both : sts phy = true ∧ other = phy => here both.2]
      by_cases differ : (s.link phy ^^ s.phyLinkSts phy) = true
      · rw [if_pos differ]
        exact Function.update_of_ne here ..
      · rw [if_neg differ]
  · rw [if_neg set, if_neg fun both : sts phy = true ∧ other = phy => set both.1]

theorem recordPhy_known (phy : Phy) (s : Gsw) (other : Phy) :
    (recordPhy phy s).phyLinkSts other =
      if other = phy then s.phyLinkSts phy || s.link phy else s.phyLinkSts other := by
  unfold recordPhy
  by_cases here : other = phy
  · subst here
    rw [if_pos rfl]
    cases up : s.link other <;> simp
  · rw [if_neg here]
    split_ifs
    · exact Function.update_of_ne here ..
    · rfl

theorem recordPhy_frame (phy : Phy) (s : Gsw) :
    (recordPhy phy s).link = s.link ∧ (recordPhy phy s).intSts = s.intSts := by
  unfold recordPhy
  split_ifs <;> exact ⟨rfl, rfl⟩

theorem checkPhy_frame (sts : Phy → Bool) (phy : Phy) (s : Gsw) :
    (checkPhy sts phy s).link = s.link ∧ (checkPhy sts phy s).intSts = s.intSts := by
  unfold checkPhy
  dsimp only
  split_ifs <;> exact ⟨rfl, rfl⟩

/-- What `work` does in each stage keeps the links tracked. -/
theorem Tracked.work {s : Gsw} (tracked : Tracked s) : Tracked (work s) := by
  obtain ⟨known, unrecorded⟩ := tracked
  unfold LinkChange.work
  cases stage : s.stage with
  | waiting => exact ⟨known, unrecorded⟩
  | enabling =>
    constructor
    · intro phy
      have here := known phy
      simp only [LookedAt, Unrecorded, stage] at here ⊢
      exact here
    · exact fun phy none_left => none_left.elim
  | scheduled =>
    constructor
    · intro phy
      have here := known phy
      simp only [LookedAt, Unrecorded, stage] at here ⊢
      rcases here with same | pending | none_left
      · exact .inl same
      · exact .inr (.inl ⟨pending.1, fun looked => absurd looked.2 (by omega)⟩)
      · exact none_left.elim
    · exact fun phy none_left => none_left.elim
  | recording i =>
    dsimp only
    split_ifs with below
    · have frame := recordPhy_frame ⟨i, below⟩ s
      constructor
      · intro phy
        have here := known phy
        have before := unrecorded phy
        have look := recordPhy_known ⟨i, below⟩ s phy
        simp only [LookedAt, Unrecorded, stage, frame] at here before ⊢
        rw [look]
        by_cases now : phy = ⟨i, below⟩
        · subst now
          left
          rw [if_pos rfl, before le_rfl, Bool.false_or]
        · rw [if_neg now]
          rcases here with same | pending | later
          · exact .inl same
          · exact .inr (.inl pending)
          · have other : phy.val ≠ i := fun same => now (Fin.ext same)
            exact .inr (.inr (by omega))
      · intro phy left_over
        have before := unrecorded phy
        simp only [Unrecorded, stage] at before left_over
        have look := recordPhy_known ⟨i, below⟩ s phy
        have other : phy ≠ ⟨i, below⟩ := by
          rintro rfl
          exact absurd left_over (by simp)
        rw [if_neg other] at look
        exact look.trans (before (by omega))
    · constructor
      · intro phy
        have here := known phy
        have bound := phy.isLt
        simp only [LookedAt, Unrecorded, stage] at here ⊢
        rcases here with same | pending | later
        · exact .inl same
        · exact .inr (.inl pending)
        · omega
      · exact fun phy none_left => none_left.elim
  | checking sts i =>
    dsimp only
    split_ifs with below
    · have frame := checkPhy_frame sts ⟨i, below⟩ s
      constructor
      · intro phy
        have here := known phy
        have look := checkPhy_known sts ⟨i, below⟩ s phy
        simp only [LookedAt, Unrecorded, stage, frame] at here ⊢
        rw [look]
        by_cases now : sts ⟨i, below⟩ = true ∧ phy = ⟨i, below⟩
        · left
          rw [if_pos now, now.2]
        · rw [if_neg now]
          rcases here with same | pending | none_left
          · exact .inl same
          · right
            left
            refine ⟨pending.1, ?_⟩
            rintro ⟨set, early⟩
            have last : phy.val = i := by
              by_contra other
              exact pending.2 ⟨set, by omega⟩
            obtain rfl : phy = ⟨i, below⟩ := Fin.ext last
            exact now ⟨set, rfl⟩
          · exact none_left.elim
      · exact fun phy none_left => none_left.elim
    · constructor
      · intro phy
        have here := known phy
        have bound := phy.isLt
        simp only [LookedAt, Unrecorded, stage] at here ⊢
        rcases here with same | ⟨pending, unseen⟩ | none_left
        · exact .inl same
        · right
          left
          refine ⟨?_, id⟩
          have unset : sts phy ≠ true := fun set => unseen ⟨set, by omega⟩
          simp [pending, unset]
        · exact none_left.elim
      · exact fun phy none_left => none_left.elim

/-- As long as no link changes between the look at it and its acknowledgement, a worker at rest knows
all links. -/
theorem links_known (s : Gsw) (fresh : Fresh s) (events : List Event)
    (seen : Along step Seen s events) (rest : AtRest (run step s events)) :
    Known (run step s events) := by
  have tracked : Tracked (run step s events) := by
    apply run_invariant step Seen Tracked _ s events fresh.tracked seen
    intro s event tracked here
    cases event with
    | change phy => exact tracked.change phy here
    | irq => exact tracked.irqHandler
    | work => exact tracked.work
  intro phy
  rcases tracked.known phy with same | pending | unrecorded
  · exact same
  · rw [rest.2 phy] at pending
    cases pending.1
  · simp only [Unrecorded, rest.1] at unrecorded

/-- All links are down at first. -/
def down : Gsw := ⟨fun _ => false, fun _ => false, fun _ => false, .recording 0⟩

theorem down_fresh : Fresh down := ⟨rfl, fun _ => rfl⟩

/-- `mt753x_irq_enable`, and a run of the worker after the link of PHY 0 came up. -/
def goesUp : List Event :=
  List.replicate 6 .work ++ [.change 0, .irq] ++ List.replicate 8 .work

theorem links_known_up : Known (run step down goesUp) :=
  links_known down down_fresh goesUp
    ⟨trivial, trivial, trivial, trivial, trivial, trivial, fun looked => looked, trivial, trivial,
      trivial, trivial, trivial, trivial, trivial, trivial, trivial, trivial⟩
    ⟨rfl, by decide⟩

/-- The link goes down again after the worker has looked at it. -/
def goesDown : List Event :=
  List.replicate 6 .work ++ [.change 0, .irq, .work, .work, .change 0] ++ List.replicate 6 .work

theorem change_acknowledged : AtRest (run step down goesDown) ∧ ¬ Known (run step down goesDown) := by
  refine ⟨⟨rfl, by decide⟩, ?_⟩
  intro known
  have up := known 0
  revert up
  decide

end Filogic.Mt753x.LinkChange
