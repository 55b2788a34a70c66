import Filogic.Snand.MtdOps

/-! The free bytes of the sectors, as the AUTO mode lays them out: all FDM bytes but the first of
each sector. -/

namespace Filogic.Snand
open Lib

variable (g : Geometry)

/-- Where free byte `j` is among the FDM bytes. -/
def freePlace (j : Nat) : Nat :=
  j / (g.soc.fdmSize - 1) * g.soc.fdmSize + (1 + j % (g.soc.fdmSize - 1))

/-- A copy into one sector's FDM bytes, seen by sector and column. -/
theorem memcpy_sector (m oob : Bytes) (step ptr n p : Nat) (short : n ≤ g.soc.fdmSize - 1) :
    m.memcpy (step * g.soc.fdmSize + 1) oob ptr n p =
      if p / g.soc.fdmSize = step ∧ p % g.soc.fdmSize ≠ 0 ∧ p % g.soc.fdmSize ≤ n then
        oob (ptr + (p % g.soc.fdmSize - 1)) else m p := by
  have pos := g.fdmSize_pos
  have split := Nat.div_add_mod' p g.soc.fdmSize
  have column := Nat.mod_lt p pos
  generalize p / g.soc.fdmSize = q at split ⊢
  generalize p % g.soc.fdmSize = r at split column ⊢
  by_cases own : q = step
  · subst own
    by_cases inside : r ≠ 0 ∧ r ≤ n
    · rw [if_pos ⟨rfl, inside⟩, Bytes.memcpy_inside _ _ _ _ _ _ (by omega) (by omega)]
      congr 1
      omega
    · rw [if_neg (by tauto), Bytes.memcpy_outside _ _ _ _ _ _ (by omega)]
  · rw [if_neg (by tauto), Bytes.memcpy_outside]
    obtain less | more := Nat.lt_or_gt_of_ne own
    · have := Nat.mul_le_mul_right g.soc.fdmSize (Nat.succ_le_of_lt less)
      rw [Nat.succ_mul] at this
      omega
    · have := Nat.mul_le_mul_right g.soc.fdmSize (Nat.succ_le_of_lt more)
      rw [Nat.succ_mul] at this
      omega

theorem fillOobFrom_apply (oob : Bytes) (total steps step : Nat) (oobraw : Bytes) (p : Nat) :
    (fillOobFrom g oob steps step (total - step * (g.soc.fdmSize - 1))
      (min total (step * (g.soc.fdmSize - 1))) oobraw).1 p =
      if step ≤ p / g.soc.fdmSize ∧ p / g.soc.fdmSize < step + steps ∧ p % g.soc.fdmSize ≠ 0 ∧
          p / g.soc.fdmSize * (g.soc.fdmSize - 1) + (p % g.soc.fdmSize - 1) < total then
        oob (p / g.soc.fdmSize * (g.soc.fdmSize - 1) + (p % g.soc.fdmSize - 1))
      else oobraw p := by
  have column := Nat.mod_lt p g.fdmSize_pos
  induction steps generalizing step oobraw with
  | zero => rw [fillOobFrom, if_neg (by omega)]
  | succ steps ih =>
    have next : (step + 1) * (g.soc.fdmSize - 1) =
        step * (g.soc.fdmSize - 1) + (g.soc.fdmSize - 1) := Nat.succ_mul _ _
    rw [fillOobFrom]
    by_cases none : total - step * (g.soc.fdmSize - 1) = 0
    · rw [if_pos none, if_neg]
      rintro ⟨later, -, -, inside⟩
      have := Nat.mul_le_mul_right (g.soc.fdmSize - 1) later
      omega
    · have rest : total - step * (g.soc.fdmSize - 1) -
          min (g.soc.fdmSize - 1) (total - step * (g.soc.fdmSize - 1)) =
          total - (step + 1) * (g.soc.fdmSize - 1) := by omega
      have done : min total (step * (g.soc.fdmSize - 1)) +
          min (g.soc.fdmSize - 1) (total - step * (g.soc.fdmSize - 1)) =
          min total ((step + 1) * (g.soc.fdmSize - 1)) := by omega
      dsimp only
      rw [if_neg none, rest, done, ih, memcpy_sector g _ _ _ _ _ _ (Nat.min_le_left _ _)]
      generalize p % g.soc.fdmSize = r at column ⊢
      generalize p / g.soc.fdmSize = q at ⊢
      by_cases here : q = step
      · subst here
        generalize q * (g.soc.fdmSize - 1) = before at none rest done next ⊢
        rw [if_neg (by omega)]
        have start : min total before + (r - 1) = before + (r - 1) := by omega
        exact if_congr (by omega) (congrArg oob start) rfl
      · have other : ¬(q = step ∧ r ≠ 0 ∧
            r ≤ min (g.soc.fdmSize - 1) (total - step * (g.soc.fdmSize - 1))) := by tauto
        rw [if_neg other]
        generalize q * (g.soc.fdmSize - 1) = before
        exact if_congr (by omega) rfl rfl

theorem fillOob_apply (oobraw oob : Bytes) (ooblen p : Nat) :
    (fillOob g oobraw oob ooblen).1 p =
      if p / g.soc.fdmSize < g.eccSteps ∧ p % g.soc.fdmSize ≠ 0 ∧
          p / g.soc.fdmSize * (g.soc.fdmSize - 1) + (p % g.soc.fdmSize - 1) < ooblen then
        oob (p / g.soc.fdmSize * (g.soc.fdmSize - 1) + (p % g.soc.fdmSize - 1))
      else oobraw p := by
  have all := fillOobFrom_apply g oob ooblen g.eccSteps 0 oobraw p
  simpa [fillOob] using all

theorem transferOobFrom_apply (oobraw : Bytes) (total steps step : Nat) (oob : Bytes) (j : Nat)
    (free : 0 < g.soc.fdmSize - 1) :
    (transferOobFrom g oobraw steps step (total - step * (g.soc.fdmSize - 1))
      (min total (step * (g.soc.fdmSize - 1))) oob).1 j =
      if step * (g.soc.fdmSize - 1) ≤ j ∧ j < (step + steps) * (g.soc.fdmSize - 1) ∧ j < total then
        oobraw (freePlace g j)
      else oob j := by
  induction steps generalizing step oob with
  | zero => rw [transferOobFrom, Nat.add_zero, if_neg (by omega)]
  | succ steps ih =>
    have next : (step + 1) * (g.soc.fdmSize - 1) =
        step * (g.soc.fdmSize - 1) + (g.soc.fdmSize - 1) := Nat.succ_mul _ _
    have far : (step + (steps + 1)) * (g.soc.fdmSize - 1) =
        (step + 1 + steps) * (g.soc.fdmSize - 1) := by congr 1; omega
    have within := Nat.mul_le_mul_right (g.soc.fdmSize - 1) (show step + 1 ≤ step + 1 + steps by omega)
    rw [transferOobFrom]
    by_cases none : total - step * (g.soc.fdmSize - 1) = 0
    · rw [if_pos none, if_neg (by omega)]
    · have rest : total - step * (g.soc.fdmSize - 1) -
          min (g.soc.fdmSize - 1) (total - step * (g.soc.fdmSize - 1)) =
          total - (step + 1) * (g.soc.fdmSize - 1) := by omega
      have done : min total (step * (g.soc.fdmSize - 1)) +
          min (g.soc.fdmSize - 1) (total - step * (g.soc.fdmSize - 1)) =
          min total ((step + 1) * (g.soc.fdmSize - 1)) := by omega
      dsimp only
      rw [if_neg none, rest, done, ih, far]
      by_cases here : step * (g.soc.fdmSize - 1) ≤ j ∧ j < (step + 1) * (g.soc.fdmSize - 1) ∧ j < total
      · obtain ⟨low, high, inside⟩ := here
        have sector : j / (g.soc.fdmSize - 1) = step :=
          Nat.div_eq_of_lt_le (by omega) high
        have split := Nat.div_add_mod' j (g.soc.fdmSize - 1)
        rw [sector] at split
        rw [if_neg (by omega), if_pos (by omega), Bytes.memcpy_inside _ _ _ _ _ _ (by omega) (by omega),
          freePlace, sector]
        congr 1
        omega
      · rw [Bytes.memcpy_outside _ _ _ _ _ _ (by omega)]
        exact if_congr (by omega) rfl rfl

/-- What the AUTO mode takes out of FDM bytes. -/
theorem transferOob_apply (oobraw oob : Bytes) (j : Nat)
    (inside : j < g.eccSteps * (g.soc.fdmSize - 1)) :
    (transferOob g oob (g.eccSteps * (g.soc.fdmSize - 1)) oobraw).1 j = oobraw (freePlace g j) := by
  have free := Nat.pos_of_lt_mul_left inside
  have all := transferOobFrom_apply g oobraw (g.eccSteps * (g.soc.fdmSize - 1)) g.eccSteps 0 oob j free
  simp only [Nat.zero_mul, Nat.sub_zero, Nat.min_zero, Nat.zero_add] at all
  rw [transferOob, all, if_pos (by omega)]

theorem freePlace_lt (j : Nat) (inside : j < g.eccSteps * (g.soc.fdmSize - 1)) :
    freePlace g j < g.eccSteps * g.soc.fdmSize := by
  have free := Nat.pos_of_lt_mul_left inside
  have sector : j / (g.soc.fdmSize - 1) < g.eccSteps := (Nat.div_lt_iff_lt_mul free).mpr inside
  have column := Nat.mod_lt j free
  have := Nat.mul_le_mul_right g.soc.fdmSize (Nat.succ_le_of_lt sector)
  rw [Nat.succ_mul] at this
  unfold freePlace
  omega

/-- What it puts there. -/
theorem fillOob_free (oobraw oob : Bytes) (ooblen j : Nat)
    (inside : j < g.eccSteps * (g.soc.fdmSize - 1)) :
    (fillOob g oobraw oob ooblen).1 (freePlace g j) =
      if j < ooblen then oob j else oobraw (freePlace g j) := by
  have free := Nat.pos_of_lt_mul_left inside
  have column := Nat.mod_lt j free
  have sector : j / (g.soc.fdmSize - 1) < g.eccSteps := (Nat.div_lt_iff_lt_mul free).mpr inside
  have sectorOf : freePlace g j / g.soc.fdmSize = j / (g.soc.fdmSize - 1) := by
    rw [freePlace, Nat.add_comm, Nat.add_mul_div_right _ _ g.fdmSize_pos,
      Nat.div_eq_of_lt (by omega), Nat.zero_add]
  have columnOf : freePlace g j % g.soc.fdmSize = 1 + j % (g.soc.fdmSize - 1) := by
    rw [freePlace, Nat.mul_add_mod_self_right, Nat.mod_eq_of_lt (by omega)]
  have split := Nat.div_add_mod' j (g.soc.fdmSize - 1)
  rw [fillOob_apply, sectorOf, columnOf, Nat.add_sub_cancel_left, split]
  exact if_congr (by omega) rfl rfl

end Filogic.Snand
