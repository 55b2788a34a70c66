import Mathlib

/-! `soc_temp_lvts.c`: the temperature of a raw reading, and the raw reading at which the hardware
reboots for a temperature. -/

namespace Filogic.Thermal

/-- `struct formula_coeff` -/
structure FormulaCoeff where
  a : BitVec 32
  b : BitVec 32
  goldenTemp : BitVec 32
  deriving DecidableEq, Repr

def goldenTempMax : Nat := 62

section Code

/-- The golden temperature that the calibration keeps of the one in the fuses. -/
def calibrated (default_ goldenTemp : BitVec 32) : BitVec 32 :=
  if goldenTemp = 0 ∨ goldenTemp.toNat > goldenTempMax then default_ else goldenTemp

variable (co : FormulaCoeff)

/-- `co->golden_temp * 500 + co->b`, in unsigned arithmetic -/
def reference : BitVec 32 := co.goldenTemp * 500 + co.b

/-- `co->a * ((unsigned long long)msr_raw)` -/
def rawProduct (msrRaw : BitVec 32) : BitVec 64 :=
  co.a.signExtend 64 * (msrRaw &&& 0xffff).setWidth 64

/-- `temp` after the shift -/
def rawTemp (msrRaw : BitVec 32) : BitVec 32 := (rawProduct co msrRaw >>> 14).setWidth 32

/-- `lvts_raw_to_temp` -/
def lvtsRawToTemp (msrRaw : BitVec 32) : BitVec 32 := rawTemp co msrRaw + reference co

/-- `(long long)(co->golden_temp * 500 + co->b - temp) << 14` -/
def tempDividend (temp : BitVec 32) : BitVec 64 := (reference co - temp).setWidth 64 <<< 14

/-- `-1 * co->a` -/
def tempDivisor : BitVec 32 := -1 * co.a

/-- The quotient before it is stored. -/
def tempQuotient (temp : BitVec 32) : BitVec 64 :=
  (tempDividend co temp).sdiv ((tempDivisor co).signExtend 64)

/-- `lvts_temp_to_raw` -/
def lvtsTempToRaw (temp : BitVec 32) : BitVec 32 := (tempQuotient co temp).setWidth 32

end Code

section Exact

variable (co : FormulaCoeff)

/-- The golden temperatures that the calibration accepts. -/
def AcceptedGolden : Prop := co.goldenTemp ≠ 0 ∧ co.goldenTemp.toNat ≤ goldenTempMax

def referenceValue : Int := co.goldenTemp.toNat * 500 + co.b.toInt

/-- The temperature without any bound on the size of a number -/
def exactTemp (raw : Nat) : Int := co.a.toInt * raw / 2 ^ 14 + referenceValue co

/-- The raw value without any bound on the size of a number -/
def exactRaw (temp : Int) : Int := (referenceValue co - temp) * 2 ^ 14 / -co.a.toInt

def InInt (x : Int) : Prop := -2 ^ 31 ≤ x ∧ x < 2 ^ 31

/-- No intermediate value of the conversion of a temperature leaves its type. -/
structure TempExact (temp : BitVec 32) : Prop where
  difference : ((reference co - temp).toNat : Int) = referenceValue co - temp.toInt
  dividend : (tempDividend co temp).toInt = (referenceValue co - temp.toInt) * 2 ^ 14
  divisor : (tempDivisor co).toInt = -co.a.toInt
  quotient : (tempQuotient co temp).toInt = exactRaw co temp.toInt
  result : ((lvtsTempToRaw co temp).toNat : Int) = exactRaw co temp.toInt

/-- Nor does one of the conversion of a raw value, of which the product is taken without a sign. -/
structure RawExact (raw : Nat) : Prop where
  product : (rawProduct co (BitVec.ofNat 32 raw)).toNat = (co.a.toInt * raw) % 2 ^ 64
  shifted : InInt (co.a.toInt * raw / 2 ^ 14) →
    (rawTemp co (BitVec.ofNat 32 raw)).toInt = co.a.toInt * raw / 2 ^ 14
  result : (lvtsRawToTemp co (BitVec.ofNat 32 raw)).toInt = exactTemp co raw

/-- The threshold of a temperature fits. -/
structure ThresholdFits (temp : BitVec 32) : Prop where
  slope : co.a ≠ BitVec.intMin 32
  difference : referenceValue co - temp.toInt < 2 ^ 32
  quotient : exactRaw co temp.toInt < 2 ^ 32

end Exact

section Raw

variable (co : FormulaCoeff)

theorem rawProduct_eq (raw : Nat) (width : raw < 2 ^ 16) :
    rawProduct co (BitVec.ofNat 32 raw) = BitVec.ofInt 64 (co.a.toInt * raw) := by
  have masked : (BitVec.ofNat 32 raw &&& 0xffff).setWidth 64 = BitVec.ofInt 64 raw := by
    apply BitVec.eq_of_toNat_eq
    have low : (BitVec.ofNat 32 raw &&& 0xffff).toNat = raw := by
      rw [BitVec.toNat_and, BitVec.toNat_ofNat, Nat.mod_eq_of_lt (show raw < 2 ^ 32 by omega),
        show (0xffff : BitVec 32).toNat = 2 ^ 16 - 1 from rfl, Nat.and_two_pow_sub_one_eq_mod,
        Nat.mod_eq_of_lt width]
    rw [BitVec.toNat_setWidth, low, BitVec.ofInt_natCast, BitVec.toNat_ofNat]
  rw [rawProduct, masked, BitVec.signExtend, ← BitVec.ofInt_mul]

/-- The shift is a division that rounds down, whatever the product lost at the top. -/
theorem shifted_eq (x : Int) :
    ((BitVec.ofInt 64 x) >>> 14).setWidth 32 = BitVec.ofInt 32 (x / 2 ^ 14) := by
  apply BitVec.eq_of_toNat_eq
  rw [BitVec.toNat_setWidth, BitVec.toNat_ushiftRight, BitVec.toNat_ofInt, BitVec.toNat_ofInt,
    Nat.shiftRight_eq_div_pow]
  omega

theorem toInt_ofInt_of_inInt (x : Int) (fits : InInt x) : (BitVec.ofInt 32 x).toInt = x := by
  obtain ⟨low, high⟩ := fits
  exact BitVec.toInt_ofInt_eq_self (by decide) low high

theorem reference_eq (golden : AcceptedGolden co) :
    reference co = BitVec.ofInt 32 (referenceValue co) := by
  have small := golden.2
  unfold goldenTempMax at small
  rw [reference, referenceValue, BitVec.ofInt_add, BitVec.ofInt_toInt, BitVec.ofInt_mul,
    BitVec.ofInt_natCast, BitVec.ofNat_toNat, BitVec.setWidth_eq]
  rfl

theorem rawExact (golden : AcceptedGolden co) (raw : Nat) (width : raw < 2 ^ 16)
    (fits : InInt (exactTemp co raw)) : RawExact co raw := by
  have product := rawProduct_eq co raw width
  have shifted : rawTemp co (BitVec.ofNat 32 raw) =
      BitVec.ofInt 32 (co.a.toInt * raw / 2 ^ 14) := by
    rw [rawTemp, product, shifted_eq]
  refine ⟨?_, ?_, ?_⟩
  · rw [product, BitVec.toNat_ofInt]
    omega
  · intro inside
    rw [shifted, toInt_ofInt_of_inInt _ inside]
  · rw [lvtsRawToTemp, shifted, reference_eq co golden, ← BitVec.ofInt_add]
    exact toInt_ofInt_of_inInt _ fits

end Raw

section Temp

variable (co : FormulaCoeff) (temp : BitVec 32)

theorem difference_eq (golden : AcceptedGolden co) (below : temp.toInt ≤ referenceValue co)
    (fits : referenceValue co - temp.toInt < 2 ^ 32) :
    ((reference co - temp).toNat : Int) = referenceValue co - temp.toInt := by
  have same : reference co - temp = BitVec.ofInt 32 (referenceValue co - temp.toInt) := by
    rw [reference_eq co golden, Int.sub_eq_add_neg, BitVec.ofInt_add, BitVec.ofInt_neg,
      BitVec.ofInt_toInt, BitVec.sub_eq_add_neg]
  rw [same, BitVec.toNat_ofInt]
  omega

/-- No intermediate value overflows: the difference has 32 bits, and 14 more for the dividend. -/
theorem tempExact (golden : AcceptedGolden co) (slope : co.a.toInt < 0)
    (below : temp.toInt ≤ referenceValue co) (fits : ThresholdFits co temp) :
    TempExact co temp := by
  have difference := difference_eq co temp golden below fits.difference
  have small := (reference co - temp).isLt
  have dividend : (tempDividend co temp).toInt = (referenceValue co - temp.toInt) * 2 ^ 14 := by
    have value : (tempDividend co temp).toNat = (reference co - temp).toNat * 2 ^ 14 := by
      rw [tempDividend, BitVec.toNat_shiftLeft, BitVec.toNat_setWidth, Nat.shiftLeft_eq]
      omega
    rw [BitVec.toInt_eq_toNat_of_lt (by omega), value]
    omega
  have divisor : (tempDivisor co).toInt = -co.a.toInt := by
    rw [tempDivisor, show (-1 : BitVec 32) * co.a = -co.a by grind,
      BitVec.toInt_neg_of_ne_intMin fits.slope]
  have quotient : (tempQuotient co temp).toInt = exactRaw co temp.toInt := by
    have wide : ((tempDivisor co).signExtend 64).toInt = -co.a.toInt := by
      rw [BitVec.toInt_signExtend_of_le (by decide), divisor]
    have positive : (tempDivisor co).signExtend 64 ≠ -1#64 := by
      intro same
      rw [same] at wide
      have minus : (-1#64).toInt = -1 := by decide
      omega
    rw [tempQuotient, BitVec.toInt_sdiv_of_ne_or_ne _ _ (.inr positive), dividend, wide,
      Int.tdiv_eq_ediv_of_nonneg (by omega), exactRaw]
  have nonneg : 0 ≤ exactRaw co temp.toInt := by
    unfold exactRaw
    exact Int.ediv_nonneg (by omega) (by omega)
  refine ⟨difference, dividend, divisor, quotient, ?_⟩
  have below' := fits.quotient
  rw [lvtsTempToRaw, BitVec.toNat_setWidth]
  rw [BitVec.toInt_eq_toNat_cond] at quotient
  split at quotient <;> omega

end Temp

/-- A reading is at most the threshold exactly if its temperature is at least the one asked for. -/
theorem exactRaw_ge_iff (co : FormulaCoeff) (slope : co.a.toInt < 0) (raw : Nat) (temp : Int) :
    (raw : Int) ≤ exactRaw co temp ↔ temp ≤ exactTemp co raw := by
  unfold exactRaw exactTemp
  have positive : 0 < -co.a.toInt := by omega
  have shift : (0 : Int) < 2 ^ 14 := by decide
  calc (raw : Int) ≤ (referenceValue co - temp) * 2 ^ 14 / -co.a.toInt
      ↔ raw * -co.a.toInt ≤ (referenceValue co - temp) * 2 ^ 14 := Int.le_ediv_iff_mul_le positive
    _ ↔ (temp - referenceValue co) * 2 ^ 14 ≤ co.a.toInt * raw := by
        constructor
        · intro le
          linarith
        · intro le
          linarith
    _ ↔ temp - referenceValue co ≤ co.a.toInt * raw / 2 ^ 14 := (Int.le_ediv_iff_mul_le shift).symm
    _ ↔ temp ≤ co.a.toInt * raw / 2 ^ 14 + referenceValue co := by omega

/-- Colder readings have larger raw values. -/
theorem exactTemp_antitone (co : FormulaCoeff) (slope : co.a.toInt < 0) (raw raw' : Nat)
    (le : raw ≤ raw') : exactTemp co raw' ≤ exactTemp co raw := by
  unfold exactTemp
  have product : co.a.toInt * raw' ≤ co.a.toInt * raw :=
    Int.mul_le_mul_of_nonpos_left slope.le (by exact_mod_cast le)
  have quotient := Int.ediv_le_ediv (show (0 : Int) < 2 ^ 14 by decide) product
  omega

/-- What the two conversions agree on, for the raw values whose temperature fits. -/
structure Agreed (co : FormulaCoeff) (temp : BitVec 32) : Prop where
  threshold : TempExact co temp
  reading : ∀ raw < 2 ^ 16, InInt (exactTemp co raw) → RawExact co raw
  reboots : ∀ raw < 2 ^ 16, InInt (exactTemp co raw) →
    (raw ≤ (lvtsTempToRaw co temp).toNat ↔
      temp.toInt ≤ (lvtsRawToTemp co (BitVec.ofNat 32 raw)).toInt)
  antitone : ∀ raw raw', raw ≤ raw' → raw' < 2 ^ 16 → InInt (exactTemp co raw) →
    InInt (exactTemp co raw') → (lvtsRawToTemp co (BitVec.ofNat 32 raw')).toInt ≤
      (lvtsRawToTemp co (BitVec.ofNat 32 raw)).toInt

/-- The reboot threshold agrees with the temperature, as far as both of them fit. -/
theorem threshold_agreed (co : FormulaCoeff) (slope : co.a.toInt < 0) (golden : AcceptedGolden co)
    (temp : BitVec 32) (below : temp.toInt ≤ referenceValue co) (fits : ThresholdFits co temp) :
    Agreed co temp := by
  have threshold := tempExact co temp golden slope below fits
  have reading (raw : Nat) (width : raw < 2 ^ 16) (inside : InInt (exactTemp co raw)) :
      RawExact co raw := rawExact co golden raw width inside
  refine ⟨threshold, reading, ?_, ?_⟩
  · intro raw width inside
    rw [(reading raw width inside).result, ← exactRaw_ge_iff co slope, ← threshold.result]
    exact Int.ofNat_le.symm
  · intro raw raw' le width inside inside'
    rw [(reading raw (by omega) inside).result, (reading raw' width inside').result]
    exact exactTemp_antitone co slope raw raw' le

/-- The coefficients of the chips, with the golden temperature for a sample without calibration -/
def chips : List FormulaCoeff :=
  [⟨BitVec.ofInt 32 (-250460), 250460, 50⟩, ⟨BitVec.ofInt 32 (-204650), 204650, 60⟩]

/-- `hw_reboot_trip_point` of every controller -/
def hwRebootTripPoint : BitVec 32 := 117000

/-- With the coefficients of a chip every reading fits, and so does the threshold. -/
theorem chips_fit (co : FormulaCoeff) (chip : co ∈ chips) (goldenTemp : BitVec 32)
    (accepted : AcceptedGolden { co with goldenTemp := goldenTemp }) :
    ThresholdFits { co with goldenTemp := goldenTemp } hwRebootTripPoint ∧
      ∀ raw < 2 ^ 16, InInt (exactTemp { co with goldenTemp := goldenTemp } raw) := by
  have small : goldenTemp.toNat ≤ 62 := accepted.2
  have trip : hwRebootTripPoint.toInt = 117000 := by decide
  have values : co.a ≠ BitVec.intMin 32 ∧ (co.a.toInt = -250460 ∧ co.b.toInt = 250460 ∨
      co.a.toInt = -204650 ∧ co.b.toInt = 204650) := by
    clear accepted
    revert co
    decide
  obtain ⟨slope, ⟨a, b⟩ | ⟨a, b⟩⟩ := values
  all_goals
    refine ⟨⟨slope, ?_, ?_⟩, fun raw width => ?_⟩
    · simp only [referenceValue, b, trip]
      omega
    · simp only [exactRaw, referenceValue, a, b, trip, neg_neg]
      omega
    · simp only [InInt, exactTemp, referenceValue, a, b]
      omega

theorem threshold_agreed_chip :
    Agreed ⟨BitVec.ofInt 32 (-250460), 250460, 50⟩ hwRebootTripPoint :=
  threshold_agreed ⟨BitVec.ofInt 32 (-250460), 250460, 50⟩ (by decide) ⟨by decide, by decide⟩
    hwRebootTripPoint (by decide)
    (chips_fit ⟨BitVec.ofInt 32 (-250460), 250460, 50⟩ (by simp [chips]) 50
      ⟨by decide, by decide⟩).1

/-- With a slope of -1 the threshold of 0 degrees for a reference of 262144 has 33 bits, and what is
left of them is 0. -/
theorem steep_threshold_disagrees :
    ¬∀ (co : FormulaCoeff) (_ : co.a.toInt < 0) (_ : AcceptedGolden co) (temp : BitVec 32)
      (_ : temp.toInt ≤ referenceValue co) (raw : Nat) (_ : raw < 2 ^ 16),
      (raw ≤ (lvtsTempToRaw co temp).toNat ↔
        temp.toInt ≤ (lvtsRawToTemp co (BitVec.ofNat 32 raw)).toInt) := by
  intro all
  have agreed := all ⟨BitVec.ofInt 32 (-1), 237144, 50⟩ (by decide) ⟨by decide, by decide⟩ 0
    (by decide) 1 (by decide)
  have threshold : lvtsTempToRaw ⟨BitVec.ofInt 32 (-1), 237144, 50⟩ 0 = 0 := by decide
  have warm : (0 : BitVec 32).toInt ≤
      (lvtsRawToTemp ⟨BitVec.ofInt 32 (-1), 237144, 50⟩ (BitVec.ofNat 32 1)).toInt := by decide
  rw [threshold] at agreed
  exact absurd (agreed.mpr warm) (by decide)

end Filogic.Thermal
