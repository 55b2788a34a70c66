import Mathlib

/-! Loops that visit every index once and change, at each, only the cell of that index. -/

namespace Filogic.Lib

variable {ι σ α : Type*} [DecidableEq ι]

/-- The frame of the loop holds through it where every cell it comes to allows that, and each of them
is rewritten once. -/
theorem foldl_sweep_guarded (step : σ → ι → σ) (cells : σ → ι → α) (frame : σ → Prop)
    (guard : ι → α → Prop) (f : ι → α → α)
    (keeps : ∀ s i, frame s → guard i (cells s i) → frame (step s i))
    (writes : ∀ s i, frame s → cells (step s i) = Function.update (cells s) i (f i (cells s i)))
    (l : List ι) (nodup : l.Nodup) (s : σ) (start : frame s)
    (allowed : ∀ i ∈ l, guard i (cells s i)) :
    frame (l.foldl step s) ∧
      ∀ j, cells (l.foldl step s) j = if j ∈ l then f j (cells s j) else cells s j := by
  induction l generalizing s with
  | nil => exact ⟨start, fun j => by simp⟩
  | cons i rest ih =>
    obtain ⟨fresh, distinct⟩ := List.nodup_cons.mp nodup
    have untouched : ∀ j, j ≠ i → cells (step s i) j = cells s j := by
      intro j other
      rw [writes s i start, Function.update_of_ne other]
    have allowed' : ∀ j ∈ rest, guard j (cells (step s i) j) := by
      intro j member
      rw [untouched j (fun same => fresh (same ▸ member))]
      exact allowed j (List.mem_cons_of_mem i member)
    obtain ⟨framed, later⟩ := ih distinct (step s i)
      (keeps s i start (allowed i List.mem_cons_self)) allowed'
    apply And.intro framed
    intro j
    rw [List.foldl_cons, later j]
    by_cases here : j = i
    · subst here
      simp [fresh, writes s j start]
    · simp [here, untouched j here]

/-- A loop over all indices rewrites every cell. -/
theorem foldl_sweep_all [Fintype ι] (step : σ → ι → σ) (cells : σ → ι → α) (frame : σ → Prop)
    (f : ι → α → α) (keeps : ∀ s i, frame s → frame (step s i))
    (writes : ∀ s i, frame s → cells (step s i) = Function.update (cells s) i (f i (cells s i)))
    (l : List ι) (nodup : l.Nodup) (complete : ∀ i, i ∈ l) (s : σ) (start : frame s) :
    frame (l.foldl step s) ∧ ∀ j, cells (l.foldl step s) j = f j (cells s j) := by
  obtain ⟨framed, each⟩ := foldl_sweep_guarded step cells frame (fun _ _ => True) f
    (fun s i framed _ => keeps s i framed) writes l nodup s start (fun _ _ => trivial)
  apply And.intro framed
  intro j
  rw [each j, if_pos (complete j)]

end Filogic.Lib
