import Mathlib

/-! Sums of 16-bit words with the carries added back, and their complements. -/

namespace Filogic.Lib

/-- The carries out of the lower 16 bits, added to them. -/
def carryOnce (n : Nat) : Nat := n / 2 ^ 16 + n % 2 ^ 16

/-- Added until there are none. -/
def carryFold (n : Nat) : Nat := if n < 2 ^ 16 then n else carryFold (carryOnce n)
termination_by n
decreasing_by
  unfold carryOnce
  omega

theorem carryOnce_modEq (n : Nat) : carryOnce n ≡ n [MOD 65535] := by
  unfold carryOnce Nat.ModEq
  omega

theorem carryOnce_eq_zero (n : Nat) : carryOnce n = 0 ↔ n = 0 := by
  unfold carryOnce
  omega

theorem carryFold_modEq (n : Nat) : carryFold n ≡ n [MOD 65535] := by
  fun_induction carryFold n with
  | case1 n small => rfl
  | case2 n large ih => exact ih.trans (carryOnce_modEq n)

theorem carryFold_le (n : Nat) : carryFold n ≤ 65535 := by
  fun_induction carryFold n with
  | case1 n small => exact Nat.lt_succ_iff.mp small
  | case2 n large ih => exact ih

theorem carryFold_eq_zero (n : Nat) : carryFold n = 0 ↔ n = 0 := by
  fun_induction carryFold n with
  | case1 n small => rfl
  | case2 n large ih => rw [ih, carryOnce_eq_zero]

/-- Two sums that leave the same remainder fold to the same word, if both or neither are zero. -/
theorem carryFold_congr {a b : Nat} (same : a ≡ b [MOD 65535]) (zero : a = 0 ↔ b = 0) : carryFold a = carryFold b := by
  have congruent : carryFold a ≡ carryFold b [MOD 65535] :=
    (carryFold_modEq a).trans (same.trans (carryFold_modEq b).symm)
  have zeros : carryFold a = 0 ↔ carryFold b = 0 := by rw [carryFold_eq_zero, carryFold_eq_zero, zero]
  have left := carryFold_le a
  have right := carryFold_le b
  unfold Nat.ModEq at congruent
  omega

/-- All bits are set in the sum of words that is a multiple of that, but not zero. -/
theorem carryFold_eq_ones (n : Nat) : carryFold n = 65535 ↔ n ≠ 0 ∧ n % 65535 = 0 := by
  have congruent := carryFold_modEq n
  have zero := carryFold_eq_zero n
  have bound := carryFold_le n
  unfold Nat.ModEq at congruent
  omega

theorem carryFold_small {n : Nat} (small : n < 2 ^ 16) : carryFold n = n := by
  rw [carryFold, if_pos small]

theorem carryFold_carryOnce (n : Nat) : carryFold (carryOnce n) = carryFold n :=
  carryFold_congr (carryOnce_modEq n) (carryOnce_eq_zero n)

end Filogic.Lib
