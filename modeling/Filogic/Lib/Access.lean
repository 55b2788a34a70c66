import Filogic.Lib.CString

/-! Accesses to a buffer: runs of bytes from an offset on, rows of records, and a string up to its
terminator. -/

namespace Filogic.Lib

structure Access where
  start : Nat
  len : Nat
  deriving DecidableEq, Repr

def Access.Within (size : Nat) (a : Access) : Prop := a.start + a.len ≤ size

instance (size : Nat) (a : Access) : Decidable (a.Within size) :=
  inferInstanceAs (Decidable (a.start + a.len ≤ size))

/-- Records of one size, one behind the other -/
def row (start size count : Nat) : List Access :=
  (List.range count).map fun i => ⟨start + size * i, size⟩

theorem row_within (start size count limit : Nat) :
    (∀ a ∈ row start size count, a.Within limit) ↔ count = 0 ∨ start + size * count ≤ limit := by
  unfold row
  constructor
  · intro all
    cases count with
    | zero => exact .inl rfl
    | succ count =>
      have last := all ⟨start + size * count, size⟩
        (List.mem_map.mpr ⟨count, List.mem_range.mpr (Nat.lt_succ_self count), rfl⟩)
      change start + size * count + size ≤ limit at last
      exact .inr (by rw [Nat.mul_succ]; omega)
  · intro fits a member
    obtain ⟨i, below, rfl⟩ := List.mem_map.mp member
    have less := List.mem_range.mp below
    have scaled : size * (i + 1) ≤ size * count := Nat.mul_le_mul_left size less
    rw [Nat.mul_succ] at scaled
    unfold Access.Within
    dsimp only
    omega

variable {α : Type*} [DecidableEq α] (nul : α)

/-- What `%s` reads of the memory from an offset on, the terminator with it -/
def stringAt (memory : List α) (start : Nat) : Access :=
  ⟨start, (cstring nul (memory.drop start)).length + 1⟩

theorem cstring_length_lt_iff (l : List α) (n : Nat) (inside : n ≤ l.length) :
    (cstring nul l).length < n ↔ nul ∈ l.take n := by
  unfold cstring
  induction l generalizing n with
  | nil => simpa using inside
  | cons a rest ih =>
    cases n with
    | zero => simp
    | succ n =>
      rw [List.take_succ_cons, List.mem_cons]
      by_cases here : a = nul
      · simp [here]
      · rw [List.takeWhile_cons_of_pos (by simpa using here), List.length_cons,
          Nat.add_lt_add_iff_right, ih n (by simpa using inside)]
        simp [Ne.symm here]

/-- A string is read inside the limit when it ends there. -/
theorem stringAt_within (memory : List α) (start limit : Nat) (from_ : start ≤ limit)
    (inside : limit ≤ memory.length) :
    (stringAt nul memory start).Within limit ↔ nul ∈ (memory.take limit).drop start := by
  rw [List.drop_take, ← cstring_length_lt_iff nul _ _ (by rw [List.length_drop]; omega)]
  unfold Access.Within stringAt
  dsimp only
  omega

end Filogic.Lib
