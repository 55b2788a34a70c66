import Mathlib

/-! Loops that end by themselves: the rounds of a loop, and the measure that each round but the last
takes down. -/

namespace Filogic.Lib

universe u v

/-- How a round ends: the loop is over with a result, or goes on from another state. -/
inductive Round (σ : Type u) (α : Type v) where
  | over_ (result : α)
  | on (next : σ)

/-- The loop ends with the result, from the state on. -/
inductive Ends {σ : Type u} {α : Type v} (round : σ → Round σ α → Prop) : σ → α → Prop where
  | last {s : σ} {result : α} (over_ : round s (.over_ result)) : Ends round s result
  | next {s s' : σ} {result : α} (on : round s (.on s')) (rest : Ends round s' result) :
      Ends round s result

namespace Ends

variable {σ : Type u} {α : Type v} {round : σ → Round σ α → Prop}

/-- The states of an invariant, where each of them has a round and each retry goes down, all come to an
end. -/
theorem of_measure (inv : σ → Prop) (measure : σ → Nat)
    (total : ∀ s, inv s → ∃ out, round s out)
    (kept : ∀ s s', inv s → round s (.on s') → inv s' ∧ measure s' < measure s) (s : σ) (start : inv s) :
    ∃ result, Ends round s result := by
  induction size : measure s using Nat.strong_induction_on generalizing s with
  | _ n ih =>
    obtain ⟨out, here⟩ := total s start
    cases out with
    | over_ result => exact ⟨result, last here⟩
    | on s' =>
      obtain ⟨holds, less⟩ := kept s s' start here
      obtain ⟨result, rest⟩ := ih _ (size ▸ less) s' holds rfl
      exact ⟨result, next here rest⟩

/-- What each round keeps holds at the end. -/
theorem invariant {inv : σ → Prop} {post : α → Prop}
    (step : ∀ s s', inv s → round s (.on s') → inv s')
    (stop : ∀ s result, inv s → round s (.over_ result) → post result)
    {s : σ} {result : α} (ends : Ends round s result) (start : inv s) : post result := by
  induction ends with
  | last here => exact stop _ _ start here
  | next here rest ih => exact ih (step _ _ start here)

end Ends

end Filogic.Lib
