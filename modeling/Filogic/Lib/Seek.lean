import Mathlib

/-! Scans of a buffer that must stop inside it, and stores into it. -/

namespace Filogic.Lib

universe u

variable {α : Type u}

/-- The first place from `i` on where the scan stops, with what is there; none when it runs out of the
buffer. -/
def seek (stop : α → Bool) : List α → Nat → Option (Nat × α)
  | [], _ => none
  | a :: rest, i => if stop a then some (i, a) else seek stop rest (i + 1)

theorem seek_stops (stop : α → Bool) (before after : List α) (a : α) (i : Nat)
    (passed : ∀ b ∈ before, stop b = false) (stops : stop a = true) :
    seek stop (before ++ a :: after) i = some (i + before.length, a) := by
  induction before generalizing i with
  | nil => simp [seek, stops]
  | cons b before ih =>
    have first : stop b = false := passed b (by simp)
    rw [List.cons_append, seek, if_neg (by simp [first]),
      ih (i + 1) fun c member => passed c (by simp [member])]
    simp only [List.length_cons, Option.some.injEq, Prod.mk.injEq, and_true]
    omega

/-- A scan from a place in the buffer -/
theorem seek_drop (stop : α → Bool) (done before after : List α) (a : α)
    (passed : ∀ b ∈ before, stop b = false) (stops : stop a = true) :
    seek stop ((done ++ (before ++ a :: after)).drop done.length) done.length =
      some (done.length + before.length, a) := by
  rw [List.drop_left]
  exact seek_stops stop before after a done.length passed stops

/-- A store into the buffer; none behind its end. -/
def put (buf : List α) (i : Nat) (a : α) : Option (List α) :=
  if i < buf.length then some (buf.set i a) else none

theorem put_at (before after : List α) (a b : α) :
    put (before ++ a :: after) before.length b = some (before ++ b :: after) := by
  unfold put
  rw [if_pos (by simp), List.set_append_right _ _ (le_refl _), Nat.sub_self, List.set_cons_zero]

end Filogic.Lib
