import Mathlib

/-! Words with fields: one field set and all other bits left, and the read-modify-write that does it. -/

namespace Filogic.Lib

variable {w : Nat}

/-- A word with one of its fields set and all other bits as they were. -/
def setField (old : BitVec w) (offset width x : Nat) : BitVec w :=
  BitVec.ofFnLE fun i : Fin w =>
    if offset ≤ i.val ∧ i.val < offset + width then x.testBit (i.val - offset) else old.getLsbD i.val

/-- Mask the field out, then put the number in. -/
theorem rmw_eq_setField (old : BitVec w) (offset width x : Nat) (small : x < 2 ^ width) :
    (old &&& ~~~(BitVec.ofNat w (2 ^ width - 1) <<< offset)) ||| (BitVec.ofNat w x <<< offset) =
      setField old offset width x := by
  apply BitVec.eq_of_getLsbD_eq
  intro i inside
  have beyond : width ≤ i - offset → x.testBit (i - offset) = false := fun out =>
    Nat.testBit_lt_two_pow (lt_of_lt_of_le small (Nat.pow_le_pow_right (by decide) out))
  simp only [setField, BitVec.getLsbD_or, BitVec.getLsbD_and, BitVec.getLsbD_not,
    BitVec.getLsbD_shiftLeft, BitVec.getLsbD_ofNat, Nat.testBit_two_pow_sub_one]
  simp only [BitVec.getLsbD_ofFnLE, dif_pos inside]
  by_cases low : offset ≤ i
  · by_cases high : i - offset < width
    · rw [if_pos ⟨low, by omega⟩]
      simp [inside, high, show ¬i < offset by omega, show i - offset < w by omega]
    · rw [if_neg (by omega), beyond (by omega)]
      simp [inside, high]
  · rw [if_neg (by omega)]
    simp [inside, show i < offset by omega]

/-- Two of them on the same word are one. -/
theorem rmw_rmw (old a c b d : BitVec w) :
    (((old &&& ~~~a) ||| c) &&& ~~~b) ||| d = (old &&& ~~~(a ||| b)) ||| ((c &&& ~~~b) ||| d) := by
  ext i
  simp
  grind

end Filogic.Lib
