import Mathlib

/-! Numbers given by a coefficient of bounded size and a power of a base, and the largest of them
that a number allows. -/

namespace Filogic.Lib

def Scaled (base cap : Nat) : Set Nat := {v | ∃ m ≤ cap, ∃ e, v = m * base ^ e}

/-- The largest of them up to `r` -/
def BestScaled (base cap r v : Nat) : Prop := IsGreatest {x | x ∈ Scaled base cap ∧ x ≤ r} v

variable {base cap r e v : Nat}

theorem bestScaled_self (small : r ≤ cap) : BestScaled base cap r r :=
  ⟨⟨⟨r, small, 0, by simp⟩, le_refl r⟩, fun _ member => member.2⟩

/-- What is dropped from `r` at an exponent costs nothing at the exponents from there on. -/
theorem scaled_le_truncated (positive : 0 < base) (m later : Nat) (le : e ≤ later)
    (below : m * base ^ later ≤ r) : m * base ^ later ≤ r / base ^ e * base ^ e := by
  obtain ⟨d, rfl⟩ := Nat.exists_eq_add_of_le le
  have split : m * base ^ (e + d) = m * base ^ d * base ^ e := by ring
  rw [split] at below ⊢
  exact Nat.mul_le_mul_right _ ((Nat.le_div_iff_mul_le (Nat.pow_pos positive)).mpr below)

/-- Cut at the least exponent at which the coefficient fits, a number is the best below `r` exactly
if the cut coefficient is worth the largest one at the exponent before. -/
theorem bestScaled_truncated_iff (positive : 0 < base) (fits : r / base ^ (e + 1) ≤ cap)
    (least : cap < r / base ^ e) :
    BestScaled base cap r (r / base ^ (e + 1) * base ^ (e + 1)) ↔
      cap ≤ r / base ^ (e + 1) * base := by
  have power : 0 < base ^ e := Nat.pow_pos positive
  have worth : r / base ^ (e + 1) * base ^ (e + 1) = r / base ^ (e + 1) * base * base ^ e := by
    ring
  have largest : cap * base ^ e ≤ r := (Nat.le_div_iff_mul_le power).mp least.le
  constructor
  · intro best
    have le := best.2 ⟨⟨cap, le_refl cap, e, rfl⟩, largest⟩
    rw [worth] at le
    exact Nat.le_of_mul_le_mul_right le power
  · intro enough
    refine ⟨⟨⟨_, fits, e + 1, rfl⟩, Nat.div_mul_le_self _ _⟩, ?_⟩
    rintro _ ⟨⟨m, small, later, rfl⟩, below⟩
    rcases Nat.lt_or_ge e later with after | before
    · exact scaled_le_truncated positive m later after below
    · calc m * base ^ later ≤ cap * base ^ e :=
            Nat.mul_le_mul small (Nat.pow_le_pow_right positive before)
        _ ≤ r / base ^ (e + 1) * base * base ^ e := Nat.mul_le_mul_right _ enough
        _ = _ := worth.symm

/-- The best number for a smaller one is no larger. -/
theorem BestScaled.le (best : BestScaled base cap r v) (member : e ∈ Scaled base cap)
    (below : e ≤ r) : e ≤ v := best.2 ⟨member, below⟩

end Filogic.Lib
