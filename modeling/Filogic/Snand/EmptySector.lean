import Filogic.Snand.Agreement

/-! The software repair of an erased sector, bit by bit: what `mtk_ecc_fixup_empty_sector` counts, and
what it sets. -/

namespace Filogic.Snand
open Lib

/-- A bit of a buffer, by its byte and its place there. -/
def bitAt (m : Bytes) (bit : Nat × Nat) : Bool := (m bit.1).toNat.testBit bit.2

/-- The first `n` bits from a byte on, the low ones of a byte first. -/
def bitsFrom (start n : Nat) : List (Nat × Nat) :=
  (List.range n).map fun j => (start + j / 8, j % 8)

def zeroBits (m : Bytes) (bits : List (Nat × Nat)) : Nat := bits.countP fun bit => !bitAt m bit

section Bits

theorem mem_bitsFrom {start n k i : Nat} (inByte : i < 8) :
    (k, i) ∈ bitsFrom start n ↔ start ≤ k ∧ 8 * (k - start) + i < n := by
  simp only [bitsFrom, List.mem_map, List.mem_range, Prod.mk.injEq]
  constructor
  · rintro ⟨j, inside, rfl, rfl⟩
    omega
  · intro inside
    exact ⟨8 * (k - start) + i, by omega, by omega, by omega⟩

theorem bitsFrom_byte {start n : Nat} {bit : Nat × Nat} (member : bit ∈ bitsFrom start n) :
    start ≤ bit.1 ∧ 8 * (bit.1 - start) < n ∧ bit.2 < 8 := by
  obtain ⟨j, inside, rfl⟩ := List.mem_map.mp member
  rw [List.mem_range] at inside
  dsimp only
  omega

theorem bitsFrom_nodup (start n : Nat) : (bitsFrom start n).Nodup := by
  refine List.Nodup.map ?_ List.nodup_range
  intro a b same
  simp only [Prod.mk.injEq] at same
  omega

theorem bitsFrom_add (start a b : Nat) :
    bitsFrom start (8 * a + b) = bitsFrom start (8 * a) ++ bitsFrom (start + a) b := by
  rw [bitsFrom, List.range_add, List.map_append, List.map_map]
  congr 1
  apply List.map_congr_left
  intro j _
  simp only [Function.comp_apply, Prod.mk.injEq]
  omega

variable (m : Bytes)

theorem zeroBits_append (bits bits' : List (Nat × Nat)) :
    zeroBits m (bits ++ bits') = zeroBits m bits + zeroBits m bits' := List.countP_append

/-- The zero bits in the low part of a byte. -/
theorem zeroBits_byte (start n : Nat) (short : n ≤ 8) :
    zeroBits m (bitsFrom start n) = (List.range n).countP fun i => !(m start).toNat.testBit i := by
  rw [zeroBits, bitsFrom, List.countP_map]
  apply List.countP_congr
  intro i inside
  rw [List.mem_range] at inside
  rw [Function.comp_apply, bitAt, Nat.div_eq_of_lt (by omega), Nat.mod_eq_of_lt (by omega), Nat.add_zero]

/-- The zero bits of bytes. -/
def zerosOf (buf : List UInt8) : Nat := (buf.map fun b => 8 - hweight8 b).sum

theorem zerosOf_append (a b : List UInt8) : zerosOf (a ++ b) = zerosOf a + zerosOf b := by
  rw [zerosOf, List.map_append, List.sum_append, zerosOf, zerosOf]

theorem zeros_byte (b : UInt8) :
    8 - hweight8 b = (List.range 8).countP fun i => !b.toNat.testBit i := by
  have all := List.length_eq_countP_add_countP (l := List.range 8) (fun i => b.toNat.testBit i)
  rw [List.length_range] at all
  simp only [hweight8, Bool.not_eq_true, Bool.decide_eq_false] at all ⊢
  omega

theorem hweight8_le (b : UInt8) : hweight8 b ≤ 8 := by
  have bound := List.countP_le_length (p := fun i => b.toNat.testBit i) (l := List.range 8)
  rwa [List.length_range] at bound

/-- Bytes of a buffer, counted by the byte and by the bit. -/
theorem zerosOf_slice (start n : Nat) :
    zerosOf (m.slice start n) = zeroBits m (bitsFrom start (8 * n)) := by
  induction n with
  | zero => rfl
  | succ n ih =>
    have last : m.slice start (n + 1) = m.slice start n ++ [m (start + n)] := by
      rw [Bytes.slice, List.range_succ, List.map_append, Bytes.slice, List.map_singleton]
    rw [last, zerosOf_append, ih, Nat.mul_succ, bitsFrom_add, zeroBits_append,
      zeroBits_byte m _ 8 le_rfl, ← zeros_byte, zerosOf, List.map_singleton, List.sum_singleton]

end Bits

section Counting

variable (strength : Nat)

/-- The outcome of a count that goes on as long as the strength allows. -/
def within (total : Nat) : Option Nat := if total ≤ strength then some total else none

theorem checkBytes_within (buf : List UInt8) (bitflips : Nat) (low : bitflips ≤ strength) :
    checkBytes strength buf bitflips = within strength (bitflips + zerosOf buf) := by
  induction buf generalizing bitflips with
  | nil => rw [checkBytes, zerosOf, List.map_nil, List.sum_nil, Nat.add_zero, within, if_pos low]
  | cons b rest ih =>
    have total : zerosOf (b :: rest) = 8 - hweight8 b + zerosOf rest := by
      rw [zerosOf, List.map_cons, List.sum_cons, zerosOf]
    dsimp only [checkBytes]
    by_cases many : bitflips + (8 - hweight8 b) > strength
    · rw [if_pos many, within, if_neg (by omega)]
    · rw [if_neg many, ih _ (by omega), total, Nat.add_assoc]

/-- The weight of a word, taken at once, counts the zero bits of its bytes. -/
theorem zerosOf_word (d : List UInt8) (word : d.length = 4) :
    (if d = [0xff, 0xff, 0xff, 0xff] then 0 else 32 - hweight32 d) = zerosOf d := by
  obtain ⟨a, b, c, e, rfl⟩ := List.length_eq_four.mp word
  by_cases full : [a, b, c, e] = [0xff, 0xff, 0xff, 0xff]
  · rw [if_pos full, full]
    decide
  · have := hweight8_le a
    have := hweight8_le b
    have := hweight8_le c
    have := hweight8_le e
    rw [if_neg full]
    simp only [hweight32, zerosOf, List.map_cons, List.map_nil, List.sum_cons, List.sum_nil]
    omega

theorem checkWords_within (words : Nat) (buf : List UInt8) (bitflips : Nat)
    (long : 4 * words ≤ buf.length) (low : bitflips ≤ strength) :
    checkWords strength words buf bitflips =
      (within strength (bitflips + zerosOf (buf.take (4 * words)))).map
        fun flips => (flips, buf.drop (4 * words)) := by
  induction words generalizing buf bitflips with
  | zero =>
    rw [checkWords, Nat.mul_zero, List.take_zero, List.drop_zero, zerosOf, List.map_nil,
      List.sum_nil, Nat.add_zero, within, if_pos low, Option.map_some]
  | succ words ih =>
    have word := zerosOf_word (buf.take 4) (by rw [List.length_take]; omega)
    have split : zerosOf (buf.take (4 * (words + 1))) =
        zerosOf (buf.take 4) + zerosOf ((buf.drop 4).take (4 * words)) := by
      rw [Nat.mul_succ, Nat.add_comm, List.take_add, zerosOf_append]
    have flips : (if buf.take 4 = [0xff, 0xff, 0xff, 0xff] then bitflips
        else bitflips + (32 - hweight32 (buf.take 4))) = bitflips + zerosOf (buf.take 4) := by
      rw [← word]
      split_ifs <;> omega
    dsimp only [checkWords]
    rw [flips]
    by_cases many : bitflips + zerosOf (buf.take 4) > strength
    · rw [if_pos many, within, if_neg (by omega), Option.map_none]
    · rw [if_neg many, ih _ _ (by rw [List.length_drop]; omega) (by omega), split, List.drop_drop,
        Nat.add_assoc, Nat.mul_succ, Nat.add_comm 4]

/-- The count over a buffer, wherever the words begin in it. -/
theorem checkBufBitflips_within (addr : Nat) (buf : List UInt8) (bitflips : Nat)
    (low : bitflips ≤ strength) :
    checkBufBitflips strength addr buf bitflips = within strength (bitflips + zerosOf buf) := by
  rw [checkBufBitflips]
  generalize min buf.length ((4 - addr % 4) % 4) = head
  have long : 4 * ((buf.length - head) / 4) ≤ (buf.drop head).length := by
    rw [List.length_drop]
    omega
  generalize (buf.length - head) / 4 = words at long ⊢
  have parts : zerosOf buf = zerosOf (buf.take head) + (zerosOf ((buf.drop head).take (4 * words)) +
      zerosOf ((buf.drop head).drop (4 * words))) := by
    rw [← zerosOf_append, List.take_append_drop, ← zerosOf_append, List.take_append_drop]
  simp only [Option.bind_eq_bind]
  rw [checkBytes_within strength _ _ low, within]
  by_cases first : bitflips + zerosOf (buf.take head) ≤ strength
  · rw [if_pos first, Option.bind_some, checkWords_within strength _ _ _ long first, within]
    by_cases second : bitflips + zerosOf (buf.take head) +
        zerosOf ((buf.drop head).take (4 * words)) ≤ strength
    · rw [if_pos second, Option.map_some, Option.bind_some, checkBytes_within strength _ _ second,
        parts, Nat.add_assoc, Nat.add_assoc]
    · rw [if_neg second, Option.map_none, Option.bind_none, within, if_neg (by omega)]
  · rw [if_neg first, Option.bind_none, within, if_neg (by omega)]

/-- The count over parity bits, of which the last byte may hold less than eight. -/
theorem checkParityBitflips_within (addr : Nat) (buf : Bytes) (start bits bitflips : Nat)
    (low : bitflips ≤ strength) :
    checkParityBitflips strength addr buf start bits bitflips =
      within strength (bitflips + zeroBits buf (bitsFrom start bits)) := by
  have parts : zeroBits buf (bitsFrom start bits) = zerosOf (buf.slice start (bits / 8)) +
      zeroBits buf (bitsFrom (start + bits / 8) (bits % 8)) := by
    rw [zerosOf_slice, ← zeroBits_append, ← bitsFrom_add, Nat.div_add_mod]
  have last := zeroBits_byte buf (start + bits / 8) (bits % 8) (by omega)
  rw [last] at parts
  rw [checkParityBitflips]
  simp only [Option.bind_eq_bind]
  rw [checkBufBitflips_within strength _ _ _ low, parts, within]
  by_cases whole : bitflips + zerosOf (buf.slice start (bits / 8)) ≤ strength
  · rw [if_pos whole, Option.bind_some]
    by_cases full : bits % 8 = 0
    · rw [if_pos full, full, List.range_zero, List.countP_nil, Nat.add_zero, within, if_pos whole]
    · rw [if_neg full, ← Nat.add_assoc, within]
      split_ifs <;> first | rfl | omega
  · rw [if_neg whole, Option.bind_none, within, if_neg (by omega)]

end Counting

section Setting

variable (m : Bytes)

theorem byte_full (i : Nat) (inByte : i < 8) : (0xff : UInt8).toNat.testBit i = true := by
  have all : ∀ i < 8, (0xff : UInt8).toNat.testBit i = true := by decide
  exact all i inByte

/-- Bytes set to 0xff are bits set to 1. -/
theorem bitAt_memset (start len k i : Nat) (inByte : i < 8) :
    bitAt (m.memset start 0xff len) (k, i) =
      (bitAt m (k, i) || decide ((k, i) ∈ bitsFrom start (8 * len))) := by
  rw [bitAt, bitAt]
  by_cases inside : start ≤ k ∧ k < start + len
  · have member : (k, i) ∈ bitsFrom start (8 * len) := (mem_bitsFrom inByte).mpr (by omega)
    rw [Bytes.memset_inside _ _ _ _ _ inside.1 inside.2, byte_full i inByte, decide_eq_true member,
      Bool.or_true]
  · have other : (k, i) ∉ bitsFrom start (8 * len) := by
      rw [mem_bitsFrom inByte]
      omega
    rw [Bytes.memset_outside _ _ _ _ _ (by omega), decide_eq_false other, Bool.or_false]

theorem lowBits (n i : Nat) (short : n < 8) :
    (UInt8.ofNat (2 ^ n - 1)).toNat.testBit i = decide (i < n) := by
  have small : 2 ^ n - 1 < 2 ^ 8 := by
    have := Nat.pow_lt_pow_right (show 1 < 2 by decide) short
    omega
  rw [UInt8.toNat_ofNat', Nat.mod_eq_of_lt small, Nat.testBit_two_pow_sub_one]

/-- `mtk_ecc_reset_parity` sets the parity bits and no other. -/
theorem bitAt_resetParity (start bits k i : Nat) (inByte : i < 8) :
    bitAt (resetParity m start bits) (k, i) =
      (bitAt m (k, i) || decide ((k, i) ∈ bitsFrom start bits)) := by
  have whole := bitAt_memset m start (bits / 8) k i inByte
  have member : (k, i) ∈ bitsFrom start bits ↔
      (k, i) ∈ bitsFrom start (8 * (bits / 8)) ∨ (k = start + bits / 8 ∧ i < bits % 8) := by
    rw [mem_bitsFrom inByte, mem_bitsFrom inByte]
    omega
  rw [resetParity]
  by_cases full : bits % 8 = 0
  · have same : (k, i) ∈ bitsFrom start bits ↔ (k, i) ∈ bitsFrom start (8 * (bits / 8)) := by
      rw [member, full]
      simp only [Nat.not_lt_zero, and_false, or_false]
    rw [if_pos full, whole, decide_eq_decide.mpr same]
  · rw [if_neg full]
    by_cases last : k = start + bits / 8
    · have outside : (k, i) ∉ bitsFrom start (8 * (bits / 8)) := by
        rw [mem_bitsFrom inByte]
        omega
      have own : (k, i) ∈ bitsFrom start bits ↔ i < bits % 8 := by
        rw [member]
        tauto
      rw [decide_eq_false outside, Bool.or_false] at whole
      rw [decide_eq_decide.mpr own, ← whole]
      unfold bitAt
      dsimp only
      rw [if_pos last, UInt8.toNat_or, Nat.testBit_or, lowBits _ _ (by omega)]
    · have same : (k, i) ∈ bitsFrom start bits ↔ (k, i) ∈ bitsFrom start (8 * (bits / 8)) := by
        rw [member]
        tauto
      rw [decide_eq_decide.mpr same, ← whole]
      unfold bitAt
      dsimp only
      rw [if_neg last]

end Setting

section Sector

variable (g : Geometry)

/-- The bits of a sector that take part in ECC, where the page cache has them: its data, its protected
FDM bytes and its parity. -/
def sectorBits (sect : Nat) : List (Nat × Nat) :=
  bitsFrom (g.dataPtr sect) (8 * g.soc.sectorSize) ++
    (bitsFrom (g.fdmPtr sect) (8 * g.soc.fdmEccSize) ++ bitsFrom (g.eccPtr sect) g.eccBits)

/-- No bit is among them twice. -/
theorem sectorBits_nodup (sect : Nat) (sector : sect < g.eccSteps) : (sectorBits g sect).Nodup := by
  have data : g.dataPtr sect + g.soc.sectorSize ≤ g.writesize := by
    rw [g.writesize_eq, Geometry.dataPtr, ← Nat.succ_mul]
    exact Nat.mul_le_mul_right _ sector
  have fdm : g.fdmPtr sect + g.soc.fdmEccSize ≤ g.writesize + g.eccSteps * g.soc.fdmSize := by
    have whole := Nat.mul_le_mul_right g.soc.fdmSize (Nat.succ_le_of_lt sector)
    have := g.fdmProtected
    rw [Nat.succ_mul] at whole
    unfold Geometry.fdmPtr
    omega
  have low : g.writesize ≤ g.fdmPtr sect := Nat.le_add_right _ _
  have high : g.writesize + g.eccSteps * g.soc.fdmSize ≤ g.eccPtr sect := by
    unfold Geometry.eccPtr
    omega
  rw [sectorBits, List.nodup_append', List.nodup_append']
  refine ⟨bitsFrom_nodup _ _, ⟨bitsFrom_nodup _ _, bitsFrom_nodup _ _, ?_⟩, ?_⟩
  · intro bit one two
    have := bitsFrom_byte one
    have := bitsFrom_byte two
    omega
  · intro bit one two
    have inData := bitsFrom_byte one
    rcases List.mem_append.mp two with two | two
    · have := bitsFrom_byte two
      omega
    · have := bitsFrom_byte two
      omega

/-- The count of `mtk_ecc_fixup_empty_sector`. -/
theorem emptySectorBitflips_within (cache : Bytes) (sect : Nat) :
    emptySectorBitflips g cache sect = within g.eccStrength (zeroBits cache (sectorBits g sect)) := by
  have parts : zeroBits cache (sectorBits g sect) =
      zerosOf (cache.slice (g.dataPtr sect) g.soc.sectorSize) +
        (zerosOf (cache.slice (g.fdmPtr sect) g.soc.fdmEccSize) +
          zeroBits cache (bitsFrom (g.eccPtr sect) g.eccBits)) := by
    rw [sectorBits, zeroBits_append, zeroBits_append, zerosOf_slice, zerosOf_slice]
  rw [emptySectorBitflips]
  simp only [Option.bind_eq_bind]
  rw [checkBufBitflips_within _ _ _ _ (Nat.zero_le _), Nat.zero_add, parts, within]
  by_cases data : zerosOf (cache.slice (g.dataPtr sect) g.soc.sectorSize) ≤ g.eccStrength
  · rw [if_pos data, Option.bind_some, checkBufBitflips_within _ _ _ _ data, within]
    by_cases fdm : zerosOf (cache.slice (g.dataPtr sect) g.soc.sectorSize) +
        zerosOf (cache.slice (g.fdmPtr sect) g.soc.fdmEccSize) ≤ g.eccStrength
    · rw [if_pos fdm, Option.bind_some, checkParityBitflips_within _ _ _ _ _ _ fdm, Nat.add_assoc]
    · rw [if_neg fdm, Option.bind_none, within, if_neg (by omega)]
  · rw [if_neg data, Option.bind_none, within, if_neg (by omega)]

/-- Data, FDM and parity set to 1, as `mtk_ecc_fixup_empty_sector` sets them. -/
theorem bitAt_cleared (cache : Bytes) (sect k i : Nat) (inByte : i < 8) :
    bitAt (resetParity ((cache.memset (g.dataPtr sect) 0xff g.soc.sectorSize).memset
        (g.fdmPtr sect) 0xff g.soc.fdmEccSize) (g.eccPtr sect) g.eccBits) (k, i) =
      (bitAt cache (k, i) || decide ((k, i) ∈ sectorBits g sect)) := by
  rw [bitAt_resetParity _ _ _ _ _ inByte, bitAt_memset _ _ _ _ _ inByte,
    bitAt_memset _ _ _ _ _ inByte, sectorBits]
  simp only [List.mem_append, Bool.decide_or, Bool.or_assoc]

/-- `mtk_ecc_fixup_empty_sector`: a sector with no more zero bits than the ECC strength, each counted
once, is reported with their number and gets exactly those bits set; any other is uncorrectable and the
page cache stays as it is. -/
theorem fixupEmptySector_right (cache : Bytes) (sect : Nat) (sector : sect < g.eccSteps) :
    (sectorBits g sect).Nodup ∧
    (zeroBits cache (sectorBits g sect) ≤ g.eccStrength →
      (fixupEmptySector g sect cache).1 = zeroBits cache (sectorBits g sect) ∧
      ∀ k i, i < 8 → bitAt (fixupEmptySector g sect cache).2 (k, i) =
        (bitAt cache (k, i) || decide ((k, i) ∈ sectorBits g sect))) ∧
    (g.eccStrength < zeroBits cache (sectorBits g sect) →
      fixupEmptySector g sect cache = (-ebadmsg, cache)) := by
  refine ⟨sectorBits_nodup g sect sector, ?_, ?_⟩
  · intro few
    rw [fixupEmptySector, emptySectorBitflips_within, within, if_pos few]
    cases zeros : zeroBits cache (sectorBits g sect) with
    | zero =>
      refine ⟨rfl, ?_⟩
      intro k i _
      -- Without a zero bit there is none to set.
      have set_ := List.countP_eq_zero.mp zeros
      change bitAt cache (k, i) = _
      by_cases member : (k, i) ∈ sectorBits g sect
      · have one := set_ _ member
        rw [Bool.not_eq_true', Bool.not_eq_false] at one
        rw [one, Bool.true_or]
      · rw [decide_eq_false member, Bool.or_false]
    | succ flips => exact ⟨rfl, fun k i inByte => bitAt_cleared g cache sect k i inByte⟩
  · intro many
    rw [fixupEmptySector, emptySectorBitflips_within, within, if_neg (by omega)]

/-- The second sector of the sample page, one of whose data bits reads 0. -/
theorem fixupEmptySector_right_sample :
    (fixupEmptySector sampleGeometry 1 fun k => if k = 5 then 0xfe else 0xff).1 = 1 :=
  calc (fixupEmptySector sampleGeometry 1 fun k => if k = 5 then 0xfe else 0xff).1 =
        zeroBits (fun k => if k = 5 then 0xfe else 0xff) (sectorBits sampleGeometry 1) :=
      ((fixupEmptySector_right sampleGeometry _ 1 (by decide)).2.1 (by decide +kernel)).1
    _ = 1 := by decide +kernel

end Sector

end Filogic.Snand
