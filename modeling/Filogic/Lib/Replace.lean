import Mathlib

/-! Loops over an array that change the first member of a kind and stop there. -/

namespace Filogic.Lib

universe u

variable {α : Type u}

/-- The first member that meets `p` is replaced; none if there is no such member. -/
def replaceFirst (p : α → Bool) (f : α → α) : List α → Option (List α)
  | [] => none
  | a :: rest => if p a then some (f a :: rest) else (replaceFirst p f rest).map (a :: ·)

/-- Only the replaced member counts differently. -/
theorem replaceFirst_countP (p : α → Bool) (f : α → α) (members after : List α)
    (replaced : replaceFirst p f members = some after) (q : α → Bool) :
    ∃ a, p a = true ∧
      after.countP q + (if q a then 1 else 0) = members.countP q + (if q (f a) then 1 else 0) := by
  induction members generalizing after with
  | nil => cases replaced
  | cons first rest ih =>
    simp only [replaceFirst] at replaced
    split_ifs at replaced with meets
    · obtain rfl := Option.some.inj replaced
      refine ⟨first, meets, ?_⟩
      simp only [List.countP_cons]
      omega
    · obtain ⟨tail, found, rfl⟩ := Option.map_eq_some_iff.mp replaced
      obtain ⟨a, met, counts⟩ := ih tail found
      refine ⟨a, met, ?_⟩
      simp only [List.countP_cons]
      omega

theorem replaceFirst_length (p : α → Bool) (f : α → α) (members after : List α)
    (replaced : replaceFirst p f members = some after) : after.length = members.length := by
  induction members generalizing after with
  | nil => cases replaced
  | cons first rest ih =>
    simp only [replaceFirst] at replaced
    split_ifs at replaced with meets
    · obtain rfl := Option.some.inj replaced
      rfl
    · obtain ⟨tail, found, rfl⟩ := Option.map_eq_some_iff.mp replaced
      simp [ih tail found]

end Filogic.Lib
