import Mathlib

/-! Two tables that hold the same values, each value once in either of them, where zero stands
for an empty slot. -/

namespace Filogic.Lib

universe u v w

variable {ι : Type u} {κ : Type v} {α : Type w} [Zero α]

structure Matched (f : ι → α) (g : κ → α) : Prop where
  same : Set.range f \ {0} = Set.range g \ {0}
  left : Set.InjOn f {i | f i ≠ 0}
  right : Set.InjOn g {k | g k ≠ 0}

namespace Matched

variable {f : ι → α} {g : κ → α}

theorem empty : Matched (fun _ : ι => (0 : α)) (fun _ : κ => (0 : α)) where
  same := by
    ext a
    simp only [Set.mem_sdiff, Set.mem_range, Set.mem_singleton_iff]
    constructor
    · rintro ⟨⟨_, zero⟩, other⟩
      exact absurd zero.symm other
    · rintro ⟨⟨_, zero⟩, other⟩
      exact absurd zero.symm other
  left := fun _ other => absurd rfl other
  right := fun _ other => absurd rfl other

theorem symm (matched : Matched f g) : Matched g f := ⟨matched.same.symm, matched.right, matched.left⟩

theorem other_side (matched : Matched f g) (i : ι) (used : f i ≠ 0) : ∃ k, g k = f i := by
  have member : f i ∈ Set.range g \ {0} := matched.same ▸ ⟨⟨i, rfl⟩, used⟩
  exact member.1

variable [DecidableEq ι]

theorem injOn_update (matched : Matched f g) (i : ι) (a : α) (fresh : a ≠ 0 → ∀ j, f j ≠ a) :
    Set.InjOn (Function.update f i a) {j | Function.update f i a j ≠ 0} := by
  intro j used l used' equal
  simp only [Set.mem_ofPred_eq] at used used'
  by_cases here : j = i
  · by_cases there : l = i
    · rw [here, there]
    · subst here
      rw [Function.update_self] at used equal
      rw [Function.update_of_ne there] at equal
      exact absurd equal.symm (fresh used l)
  · by_cases there : l = i
    · subst there
      rw [Function.update_self] at used' equal
      rw [Function.update_of_ne here] at equal
      exact absurd equal (fresh used' j)
    · rw [Function.update_of_ne here] at used equal
      rw [Function.update_of_ne there] at used' equal
      exact matched.left used used' equal

variable [DecidableEq κ]

/-- Both sides change a slot of the same value to a value that is new. -/
theorem range_update (matched : Matched f g) (i : ι) (k : κ) (slot : f i = g k) (a b : α)
    (other : b ≠ 0) (member : b ∈ Set.range (Function.update f i a)) :
    b ∈ Set.range (Function.update g k a) := by
  obtain ⟨j, rfl⟩ := member
  by_cases here : j = i
  · subst here
    exact ⟨k, by simp only [Function.update_self]⟩
  · rw [Function.update_of_ne here] at other ⊢
    obtain ⟨l, value⟩ := matched.other_side j other
    refine ⟨l, ?_⟩
    rw [Function.update_of_ne, value]
    rintro rfl
    -- the slot on the left that has this value is the one that changes
    exact here (matched.left other (by rwa [Set.mem_ofPred_eq, slot, value]) (by rw [slot, value]))

theorem update (matched : Matched f g) (i : ι) (k : κ) (slot : f i = g k) (a : α)
    (fresh : a ≠ 0 → ∀ j, f j ≠ a) :
    Matched (Function.update f i a) (Function.update g k a) where
  same := by
    ext b
    constructor
    · rintro ⟨member, other⟩
      exact ⟨matched.range_update i k slot a b other member, other⟩
    · rintro ⟨member, other⟩
      exact ⟨matched.symm.range_update k i slot.symm a b other member, other⟩
  left := matched.injOn_update i a fresh
  right := by
    apply matched.symm.injOn_update k a
    intro used l value
    obtain ⟨j, same⟩ := matched.symm.other_side l (by rwa [value])
    exact fresh used j (by rw [same, value])

end Matched

end Filogic.Lib
