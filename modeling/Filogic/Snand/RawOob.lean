import Filogic.Snand.Agreement

/-! The parity bytes of a page that is written raw and read back raw. -/

namespace Filogic.Snand
open Lib

variable {g : Geometry}

/-- Where byte `j` of a raw OOB buffer is on the page, behind the FDM bytes: the parity areas, one
behind the other. -/
def parityPlace (g : Geometry) (j : Nat) : Nat :=
  (j - g.eccSteps * g.soc.fdmSize) / g.eccBytes * g.rawSectorSize +
    (g.soc.sectorSize + g.soc.fdmSize + (j - g.eccSteps * g.soc.fdmSize) % g.eccBytes)

/-- A byte of the OOB buffer that belongs to a parity area. -/
structure InParity (g : Geometry) (j : Nat) : Prop where
  behind : g.eccSteps * g.soc.fdmSize ≤ j
  inside : j < g.eccSteps * g.sparePerSector

namespace InParity

variable {j : Nat} (parity : InParity g j)
include parity

theorem bound : j - g.eccSteps * g.soc.fdmSize < g.eccSteps * g.eccBytes := by
  have := parity.behind
  have := parity.inside
  rw [Geometry.eccBytes, Nat.mul_sub]
  omega

theorem eccBytes_pos : 0 < g.eccBytes := Nat.pos_of_lt_mul_left parity.bound

theorem sector : (j - g.eccSteps * g.soc.fdmSize) / g.eccBytes < g.eccSteps :=
  (Nat.div_lt_iff_lt_mul parity.eccBytes_pos).mpr parity.bound

theorem column : (j - g.eccSteps * g.soc.fdmSize) % g.eccBytes < g.eccBytes :=
  Nat.mod_lt _ parity.eccBytes_pos

theorem split : j = g.eccSteps * g.soc.fdmSize +
    ((j - g.eccSteps * g.soc.fdmSize) / g.eccBytes * g.eccBytes +
      (j - g.eccSteps * g.soc.fdmSize) % g.eccBytes) := by
  have := Nat.div_add_mod' (j - g.eccSteps * g.soc.fdmSize) g.eccBytes
  have := parity.behind
  omega

theorem short : g.soc.sectorSize + g.soc.fdmSize + (j - g.eccSteps * g.soc.fdmSize) % g.eccBytes <
    g.rawSectorSize := by
  have := parity.column
  rw [g.rawSectorSize_eq]
  omega

theorem place_lt : parityPlace g j < g.eccSteps * g.rawSectorSize :=
  rawOffset_lt _ _ parity.sector parity.short

theorem swaps (fits : g.MarkerInLastSector) (m : Bytes) :
    fdmBmSwapRaw g (bmSwapRaw g m) (parityPlace g j) = m (parityPlace g j) :=
  (fdmBmSwapRaw_parity _ _ _ (Nat.le_add_right _ _) parity.short).trans
    (bmSwapRaw_parity fits m _ _ (Nat.le_add_right _ _) parity.short)

/-- The parity areas of a page in raw format. -/
theorem formatted (src : Buffers) (emptyEcc : Bool) (cache : Bytes) :
    toRawPage g src emptyEcc cache (parityPlace g j) = if emptyEcc then 0xff else src.spare j := by
  obtain ⟨own, same⟩ := column_split (g := g) ((j - g.eccSteps * g.soc.fdmSize) / g.eccBytes) _
    parity.short
  have place : (j - g.eccSteps * g.soc.fdmSize) / g.eccBytes * g.rawSectorSize +
      (g.soc.sectorSize + g.soc.fdmSize + (j - g.eccSteps * g.soc.fdmSize) % g.eccBytes) <
      g.eccSteps * g.rawSectorSize := parity.place_lt
  rw [parityPlace, toRawPage_apply src emptyEcc cache _ place, own, same, rawByte, if_neg (by omega),
    if_neg (by omega), Nat.add_sub_cancel_left, Nat.add_assoc, ← parity.split, Buffers.spare]
  cases emptyEcc
  · simp
  · cases src.oob <;> rfl

/-- The parity areas of a page that was written raw. -/
theorem stored (fits : g.MarkerInLastSector) (ecc : EccEngine g) (src : Buffers) (cache : Bytes)
    (fdmRegs : Nat → Nat → UInt8) :
    storedPage g ecc (writeImage g src true true cache) fdmRegs (parityPlace g j) = src.spare j := by
  have format := parity.formatted src false cache
  rw [if_neg Bool.false_ne_true] at format
  rw [writeImage, if_pos rfl, rawPage_apply ecc _ fdmRegs _ parity.place_lt, ← format]
  exact rawImage_parity fits src false cache _ _ (Nat.le_add_right _ _) parity.short

/-- What the raw read takes of the parity areas. -/
theorem taken (cache oob oob' : Bytes) (out : Buffers) (asked : out.oob = some oob)
    (got : (fromRawPage g cache out).oob = some oob') : oob' j = cache (parityPlace g j) := by
  rw [fromRawPage_copied cache oob out asked, Option.some.injEq] at got
  subst got
  have split := parity.split
  have sector := parity.sector
  have column := parity.column
  unfold parityPlace
  generalize (j - g.eccSteps * g.soc.fdmSize) / g.eccBytes = i at split sector ⊢
  generalize (j - g.eccSteps * g.soc.fdmSize) % g.eccBytes = r at split column ⊢
  -- Only the parity half of each round matters behind `eccSteps * fdmSize`.
  have rounds (n : Nat) (le : n ≤ g.eccSteps) : forRange (fromRawOob g cache) n oob j =
      if i < n then cache (i * g.rawSectorSize + (g.soc.sectorSize + g.soc.fdmSize + r))
      else oob j := by
    induction n with
    | zero => rw [forRange, if_neg (Nat.not_lt_zero _)]
    | succ n ih =>
      have room : n * g.soc.fdmSize + g.soc.fdmSize ≤ g.eccSteps * g.soc.fdmSize := by
        rw [← Nat.succ_mul]
        exact Nat.mul_le_mul_right _ le
      change fromRawOob g cache n _ j = _
      rw [fromRawOob]
      by_cases own : i = n
      · subst own
        rw [Bytes.memcpy_inside _ _ _ _ _ _ (by omega) (by omega), if_pos (by omega)]
        congr 1
        omega
      · have other : j < g.eccSteps * g.soc.fdmSize + n * g.eccBytes ∨
            g.eccSteps * g.soc.fdmSize + n * g.eccBytes + g.eccBytes ≤ j := by
          obtain less | more := Nat.lt_or_gt_of_ne own
          · have := Nat.mul_le_mul_right g.eccBytes (Nat.succ_le_of_lt less)
            rw [Nat.succ_mul] at this
            omega
          · have := Nat.mul_le_mul_right g.eccBytes (Nat.succ_le_of_lt more)
            rw [Nat.succ_mul] at this
            omega
        rw [Bytes.memcpy_outside _ _ _ _ _ _ other,
          Bytes.memcpy_outside _ _ _ _ _ _ (.inr (by omega)), ih (by omega)]
        by_cases before : i < n
        · rw [if_pos before, if_pos (by omega)]
        · rw [if_neg before, if_neg (by omega)]
  rw [rounds g.eccSteps le_rfl, if_pos sector]

end InParity

end Filogic.Snand
