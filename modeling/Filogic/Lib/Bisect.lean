import Mathlib

/-! Binary search in a list that is sorted by a key. -/

namespace Filogic.Lib

section Bisect

variable {α : Type*} (key : α → Nat) (xs : List α) (id : Nat)

/-- Search from `low` up to `top`, which is not included; no more than `fuel` halvings. -/
def bisect : Nat → Nat → Nat → Option α
  | 0, _, _ => none
  | fuel + 1, low, top =>
      if low < top then
        match xs[low + (top - 1 - low) / 2]? with
        | none => none
        | some x =>
            if key x = id then some x
            else if id < key x then bisect fuel low (low + (top - 1 - low) / 2)
            else bisect fuel (low + (top - 1 - low) / 2 + 1) top
      else none

variable {key xs id}

/-- What is found is an element with the key. -/
theorem bisect_sound {fuel low top : Nat} {x : α} (found : bisect key xs id fuel low top = some x) :
    x ∈ xs ∧ key x = id := by
  induction fuel generalizing low top with
  | zero => simp [bisect] at found
  | succ fuel ih =>
    rw [bisect] at found
    split at found
    · split at found
      · simp at found
      · rename_i y at_mid
        split_ifs at found with same below
        · cases found
          exact ⟨List.mem_of_getElem? at_mid, same⟩
        · exact ih found
        · exact ih found
    · simp at found

/-- The keys of a sorted list order its indices. -/
theorem index_lt_of_key_lt (sorted : xs.Pairwise (key · < key ·)) {i j : Nat} {x y : α}
    (at_i : xs[i]? = some x) (at_j : xs[j]? = some y) (below : key x < key y) : i < j := by
  obtain ⟨bound_i, rfl⟩ := List.getElem?_eq_some_iff.mp at_i
  obtain ⟨bound_j, rfl⟩ := List.getElem?_eq_some_iff.mp at_j
  rw [List.pairwise_iff_getElem] at sorted
  by_contra upper
  rcases Nat.lt_or_eq_of_le (Nat.not_lt.mp upper) with less | same
  · have other := sorted j i bound_j bound_i less
    omega
  · subst same
    omega

theorem eq_of_key_eq (sorted : xs.Pairwise (key · < key ·)) {i j : Nat} {x y : α}
    (at_i : xs[i]? = some x) (at_j : xs[j]? = some y) (same : key x = key y) : x = y := by
  obtain ⟨bound_i, rfl⟩ := List.getElem?_eq_some_iff.mp at_i
  obtain ⟨bound_j, rfl⟩ := List.getElem?_eq_some_iff.mp at_j
  rw [List.pairwise_iff_getElem] at sorted
  rcases Nat.lt_trichotomy i j with less | rfl | less
  · have order := sorted i j bound_i bound_j less
    omega
  · rfl
  · have order := sorted j i bound_j bound_i less
    omega

/-- The search keeps between its bounds the index that it looks for. -/
theorem bisect_complete (sorted : xs.Pairwise (key · < key ·)) {fuel low top i : Nat} {x : α}
    (enough : top - low ≤ fuel) (inside : top ≤ xs.length) (lower : low ≤ i) (upper : i < top)
    (at_i : xs[i]? = some x) (is_id : key x = id) : bisect key xs id fuel low top = some x := by
  induction fuel generalizing low top with
  | zero => omega
  | succ fuel ih =>
    have mid_inside : low + (top - 1 - low) / 2 < xs.length := by omega
    have at_mid := List.getElem?_eq_getElem mid_inside
    rw [bisect, if_pos (by omega), at_mid]
    dsimp only
    split_ifs with same below
    · rw [eq_of_key_eq sorted at_i at_mid (is_id.trans same.symm)]
    · have order := index_lt_of_key_lt sorted at_i at_mid (is_id ▸ below)
      exact ih (by omega) (by omega) lower order
    · have above : key xs[low + (top - 1 - low) / 2] < key x := by omega
      have order := index_lt_of_key_lt sorted at_mid at_i above
      exact ih (by omega) inside order upper

/-- In a sorted list the search finds what a search from the front does. -/
theorem bisect_eq_find (sorted : xs.Pairwise (key · < key ·)) :
    bisect key xs id xs.length 0 xs.length = xs.find? (fun x => key x = id) := by
  cases front : xs.find? (fun x => key x = id) with
  | none =>
    rw [List.find?_eq_none] at front
    rw [Option.eq_none_iff_forall_ne_some]
    intro x found
    obtain ⟨member, is_id⟩ := bisect_sound found
    exact front x member (by simpa using is_id)
  | some x =>
    have is_id : key x = id := by simpa using List.find?_some front
    obtain ⟨i, bound, rfl⟩ := List.getElem_of_mem (List.mem_of_find?_eq_some front)
    exact bisect_complete sorted (Nat.le_refl _) (Nat.le_refl _) (Nat.zero_le i) bound
      (List.getElem?_eq_getElem bound) is_id

end Bisect

end Filogic.Lib
