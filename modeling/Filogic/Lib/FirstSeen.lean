import Mathlib

/-! The keys of a list in the order in which they are first seen, and their numbers in that order. -/

namespace Filogic.Lib

universe u

variable {κ : Type u} [DecidableEq κ]

def firstSeen (l : List κ) : List κ :=
  l.foldl (fun seen k => if k ∈ seen then seen else seen ++ [k]) []

/-- The number of a key, from 1 on -/
def number (l : List κ) (k : κ) : Nat := (firstSeen l).idxOf k + 1

theorem number_ne_zero (l : List κ) (k : κ) : number l k ≠ 0 := Nat.succ_ne_zero _

@[simp] theorem firstSeen_nil : firstSeen ([] : List κ) = [] := rfl

theorem firstSeen_concat (l : List κ) (k : κ) :
    firstSeen (l ++ [k]) = if k ∈ firstSeen l then firstSeen l else firstSeen l ++ [k] := by
  unfold firstSeen
  rw [List.foldl_append]
  rfl

@[simp] theorem mem_firstSeen (l : List κ) (k : κ) : k ∈ firstSeen l ↔ k ∈ l := by
  induction l using List.reverseRecOn with
  | nil => simp
  | append_singleton l a ih =>
    rw [firstSeen_concat]
    split_ifs with seen
    · rw [List.mem_append, List.mem_singleton, ih]
      constructor
      · exact .inl
      · rintro (member | rfl)
        · exact member
        · exact ih.mp seen
    · simp [ih]

theorem firstSeen_nodup (l : List κ) : (firstSeen l).Nodup := by
  induction l using List.reverseRecOn with
  | nil => simp
  | append_singleton l a ih =>
    rw [firstSeen_concat]
    split_ifs with seen
    · exact ih
    · rw [List.nodup_append]
      refine ⟨ih, List.nodup_singleton a, ?_⟩
      rintro b member c single rfl
      exact seen (List.mem_singleton.mp single ▸ member)

theorem length_firstSeen (l : List κ) : (firstSeen l).length = l.dedup.length := by
  rw [← List.toFinset_card_of_nodup (firstSeen_nodup l), ← List.toFinset_card_of_nodup l.nodup_dedup]
  congr 1
  ext k
  simp

theorem firstSeen_seen (l : List κ) (k : κ) (seen : k ∈ l) : firstSeen (l ++ [k]) = firstSeen l := by
  rw [firstSeen_concat, if_pos (by simpa using seen)]

theorem firstSeen_new (l : List κ) (k : κ) (new : k ∉ l) :
    firstSeen (l ++ [k]) = firstSeen l ++ [k] := by
  rw [firstSeen_concat, if_neg (by simpa using new)]

/-- The numbers given do not change. -/
theorem number_concat (l : List κ) (a k : κ) (seen : k ∈ l) : number (l ++ [a]) k = number l k := by
  unfold number
  rw [firstSeen_concat]
  split_ifs
  · rfl
  · rw [List.idxOf_append_of_mem (by simpa using seen)]

theorem number_new (l : List κ) (k : κ) (new : k ∉ l) :
    number (l ++ [k]) k = (firstSeen l).length + 1 := by
  unfold number
  rw [firstSeen_new l k new, List.idxOf_append_of_notMem (by simpa using new)]
  simp

theorem number_inj (l : List κ) (k k' : κ) (seen : k ∈ l) : number l k = number l k' ↔ k = k' := by
  unfold number
  rw [Nat.add_right_cancel_iff]
  exact List.idxOf_inj (by simpa using seen)

theorem number_le (l : List κ) (k : κ) (seen : k ∈ l) : number l k ≤ (firstSeen l).length :=
  List.idxOf_lt_length_of_mem (by simpa using seen)

/-- Every number up to that of the keys is given. -/
theorem exists_number (l : List κ) (n : Nat) (positive : 0 < n) (le : n ≤ (firstSeen l).length) :
    ∃ k ∈ l, number l k = n := by
  have inside : n - 1 < (firstSeen l).length := by omega
  refine ⟨(firstSeen l)[n - 1], (mem_firstSeen l _).mp (List.getElem_mem inside), ?_⟩
  unfold number
  rw [List.Nodup.idxOf_getElem (firstSeen_nodup l)]
  omega

end Filogic.Lib
