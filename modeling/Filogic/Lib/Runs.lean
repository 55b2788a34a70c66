import Mathlib

/-! Runs of a deterministic step function, and invariants that hold along every run whose steps
all meet a guard. -/

namespace Filogic.Lib

universe u v

variable {σ : Type u} {ε : Type v}

def run (step : σ → ε → σ) (s : σ) (events : List ε) : σ := events.foldl step s

/-- Every event of the run meets the guard in the state it comes to. -/
def Along (step : σ → ε → σ) (guard : σ → ε → Prop) : σ → List ε → Prop
  | _, [] => True
  | s, event :: rest => guard s event ∧ Along step guard (step s event) rest

instance decidableAlong (step : σ → ε → σ) (guard : σ → ε → Prop)
    [∀ s event, Decidable (guard s event)] : ∀ s events, Decidable (Along step guard s events)
  | _, [] => isTrue trivial
  | s, event :: rest =>
      have := decidableAlong step guard (step s event) rest
      inferInstanceAs (Decidable (guard s event ∧ Along step guard (step s event) rest))

theorem run_append (step : σ → ε → σ) (s : σ) (early late : List ε) :
    run step s (early ++ late) = run step (run step s early) late :=
  List.foldl_append

theorem along_append (step : σ → ε → σ) (guard : σ → ε → Prop) (s : σ) (early late : List ε) :
    Along step guard s (early ++ late) ↔
      Along step guard s early ∧ Along step guard (run step s early) late := by
  induction early generalizing s with
  | nil => exact ⟨fun rest => ⟨trivial, rest⟩, fun both => both.2⟩
  | cons event rest ih =>
    change guard s event ∧ Along step guard (step s event) (rest ++ late) ↔
      (guard s event ∧ Along step guard (step s event) rest) ∧ _
    rw [ih, and_assoc]
    rfl

theorem along_and (step : σ → ε → σ) (guard guard' : σ → ε → Prop) (s : σ) (events : List ε) :
    Along step (fun s event => guard s event ∧ guard' s event) s events ↔
      Along step guard s events ∧ Along step guard' s events := by
  induction events generalizing s with
  | nil => exact ⟨fun _ => ⟨trivial, trivial⟩, fun _ => trivial⟩
  | cons event rest ih =>
    change _ ∧ Along _ _ _ rest ↔ (_ ∧ Along _ _ _ rest) ∧ _ ∧ Along _ _ _ rest
    rw [ih, and_and_and_comm]

/-- Along a run whose states all keep a property that a step outside of the guard breaks, every
step meets the guard. -/
theorem along_of_prefixes (step : σ → ε → σ) (guard : σ → ε → Prop) (holds : σ → Prop) (s : σ)
    (events : List ε)
    (breaks : ∀ early event late, events = early ++ event :: late →
      ¬guard (run step s early) event → ¬holds (step (run step s early) event))
    (all : ∀ early late, events = early ++ late → holds (run step s early)) :
    Along step guard s events := by
  induction events using List.reverseRecOn with
  | nil => trivial
  | append_singleton events event ih =>
    have before : Along step guard s events := by
      apply ih
      · rintro early next late rfl
        exact breaks early next (late ++ [event]) (by simp)
      · rintro early late rfl
        exact all early (late ++ [event]) (by simp)
    rw [along_append]
    refine ⟨before, ?_, trivial⟩
    by_contra outside
    apply breaks events event [] rfl outside
    have last := all (events ++ [event]) [] (by simp)
    rwa [run_append] at last

/-- A guarded step keeps the invariant, so a guarded run does. -/
theorem run_invariant (step : σ → ε → σ) (guard : σ → ε → Prop) (inv : σ → Prop)
    (preserved : ∀ s event, inv s → guard s event → inv (step s event)) (s : σ)
    (events : List ε) (start : inv s) (guarded : Along step guard s events) :
    inv (run step s events) := by
  induction events generalizing s with
  | nil => exact start
  | cons event rest ih => exact ih _ (preserved s event start guarded.1) guarded.2

/-- The same without a guard. -/
theorem run_preserves (step : σ → ε → σ) (inv : σ → Prop)
    (preserved : ∀ s event, inv s → inv (step s event)) (s : σ) (events : List ε)
    (start : inv s) : inv (run step s events) := by
  induction events generalizing s with
  | nil => exact start
  | cons event rest ih => exact ih _ (preserved s event start)

/-- When the guard is exactly what keeps the property for a step, it holds along exactly the runs
whose states all have the property. -/
theorem along_iff_prefixes (step : σ → ε → σ) (guard : σ → ε → Prop) (holds : σ → Prop)
    (exact : ∀ s event, holds s → (guard s event ↔ holds (step s event))) (s : σ)
    (events : List ε) (start : holds s) :
    Along step guard s events ↔
      ∀ early late, events = early ++ late → holds (run step s early) := by
  induction events generalizing s with
  | nil =>
    constructor
    · intro _ early late split
      obtain ⟨rfl, _⟩ := List.append_eq_nil_iff.mp split.symm
      exact start
    · exact fun _ => trivial
  | cons event rest ih =>
    constructor
    · intro ⟨first, later⟩ early late split
      cases early with
      | nil => exact start
      | cons head tail =>
        obtain ⟨rfl, same⟩ := List.cons.inj split
        exact (ih _ ((exact s event start).mp first)).mp later tail late same
    · intro all
      have next : holds (step s event) := all [event] rest rfl
      apply And.intro ((exact s event start).mpr next)
      apply (ih _ next).mpr
      intro early late same
      exact all (event :: early) late (congrArg (event :: ·) same)

/-- Two guards that agree at every state a run comes to hold along the same runs. -/
theorem along_congr (step : σ → ε → σ) (guard guard' : σ → ε → Prop)
    (holds : σ → Prop)
    (same : ∀ s event, holds s → (guard s event ↔ guard' s event))
    (kept : ∀ s event, holds s → guard s event → holds (step s event)) (s : σ)
    (events : List ε) (start : holds s) :
    Along step guard s events ↔ Along step guard' s events := by
  induction events generalizing s with
  | nil => exact Iff.rfl
  | cons event rest ih =>
    constructor
    · rintro ⟨first, later⟩
      exact ⟨(same s event start).mp first, (ih _ (kept s event start first)).mp later⟩
    · rintro ⟨first, later⟩
      have first := (same s event start).mpr first
      exact ⟨first, (ih _ (kept s event start first)).mpr later⟩

/-- A loop over an index that may fail keeps the invariant as long as it does not. -/
theorem foldlM_range_invariant (f : σ → Nat → Option σ) (inv : Nat → σ → Prop) (s : σ)
    (start : inv 0 s) (n : Nat)
    (preserved : ∀ i < n, ∀ s s', inv i s → f s i = some s' → inv (i + 1) s') (s' : σ)
    (done : (List.range n).foldlM f s = some s') : inv n s' := by
  induction n generalizing s' with
  | zero =>
    obtain rfl := Option.some.inj done
    exact start
  | succ n ih =>
    rw [List.range_succ, List.foldlM_append] at done
    obtain ⟨before, earlier, last⟩ := Option.bind_eq_some_iff.mp done
    obtain ⟨after, step, same⟩ := Option.bind_eq_some_iff.mp last
    obtain rfl := Option.some.inj same
    exact preserved n (Nat.lt_succ_self n) before after
      (ih (fun i below => preserved i (by omega)) before earlier) step

end Filogic.Lib
