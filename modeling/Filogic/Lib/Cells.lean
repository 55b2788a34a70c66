import Mathlib

/-! How many cells of an array have a property, when one of them changes. -/

namespace Filogic.Lib

variable {α : Type*} (p : α → Prop) [DecidablePred p] (f : Nat → α)

/-- Only the old and the new value of the cell count differently. -/
theorem card_update (n idx : Nat) (below : idx < n) (b : α) :
    ((Finset.range n).filter (fun i => p (Function.update f idx b i))).card +
        (if p (f idx) then 1 else 0) =
      ((Finset.range n).filter (fun i => p (f i))).card + (if p b then 1 else 0) := by
  have member := Finset.mem_range.mpr below
  have rest : ∀ i ∈ (Finset.range n).erase idx,
      (if p (Function.update f idx b i) then 1 else 0) = if p (f i) then 1 else 0 := by
    intro i other
    rw [Function.update_of_ne (Finset.ne_of_mem_erase other)]
  simp only [Finset.card_filter]
  rw [← Finset.add_sum_erase _ _ member,
    ← Finset.add_sum_erase _ (fun i => if p (f i) then 1 else 0) member,
    Finset.sum_congr rfl rest, Function.update_self]
  omega

/-- The array grows by a cell. -/
theorem card_update_last (k : Nat) (b : α) :
    ((Finset.range (k + 1)).filter (fun i => p (Function.update f k b i))).card =
      ((Finset.range k).filter (fun i => p (f i))).card + (if p b then 1 else 0) := by
  have earlier : ∀ i ∈ Finset.range k,
      (if p (Function.update f k b i) then 1 else 0) = if p (f i) then 1 else 0 := by
    intro i member
    rw [Function.update_of_ne (Finset.mem_range.mp member).ne]
  simp only [Finset.card_filter]
  rw [Finset.sum_range_succ, Finset.sum_congr rfl earlier, Function.update_self]

/-- A cell that is filled adds its value to those of the array. -/
theorem filterMap_update_perm {β : Type*} (f : Nat → Option β) (n idx : Nat) (below : idx < n)
    (empty : f idx = none) (b : β) :
    ((List.range n).filterMap (Function.update f idx (some b))).Perm
      (b :: (List.range n).filterMap f) := by
  have member : idx ∈ List.range n := List.mem_range.mpr below
  have split := List.perm_cons_erase member
  have rest : ∀ i ∈ (List.range n).erase idx, Function.update f idx (some b) i = f i := by
    intro i mem
    exact Function.update_of_ne (List.nodup_range.mem_erase_iff.mp mem).1 _ _
  have filled := split.filterMap (Function.update f idx (some b))
  have before := split.filterMap f
  rw [List.filterMap_cons_some (Function.update_self ..), List.filterMap_congr rest] at filled
  rw [List.filterMap_cons_none empty] at before
  exact filled.trans (before.symm.cons b)

end Filogic.Lib
