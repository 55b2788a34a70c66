import Filogic.Snand.Exec
import Filogic.Snand.Layout

/-! Both write modes put the same bytes at the same places of the raw page, and both leave a
parity area the decoder accepts. -/

namespace Filogic.Snand
open Lib

variable {g : Geometry}

namespace Buffers

/-- A missing buffer reads as erased. -/
def data (src : Buffers) (k : Nat) : UInt8 := (src.buf.map (fun buf => buf k)).getD 0xff
def spare (src : Buffers) (k : Nat) : UInt8 := (src.oob.map (fun oob => oob k)).getD 0xff

end Buffers

theorem Buffers.data_memcpyOpt (src : Buffers) (k : Nat) (m : Bytes) (j : Nat)
    (blank : m j = 0xff) : (src.buf.map (fun buf => buf k)).getD (m j) = src.data k := by
  rw [blank, Buffers.data]

theorem Buffers.spare_memcpyOpt (src : Buffers) (k : Nat) (m : Bytes) (j : Nat)
    (blank : m j = 0xff) : (src.oob.map (fun oob => oob k)).getD (m j) = src.spare k := by
  rw [blank, Buffers.spare]

theorem formatImage_data (src : Buffers) (cache : Bytes) (k : Nat) (inside : k < g.writesize) :
    formatImage g src cache k = src.data k := by
  rw [formatImage, Bytes.memcpyOpt_outside _ _ _ _ _ _ (Or.inl inside),
    Bytes.memcpyOpt_inside _ _ _ _ _ _ (Nat.zero_le _) (by omega)]
  simp only [Nat.zero_add, Nat.sub_zero]
  exact src.data_memcpyOpt k _ _ (Bytes.memset_inside _ _ _ _ _ (Nat.zero_le _) (by omega))

theorem formatImage_spare (src : Buffers) (cache : Bytes) (k : Nat)
    (inside : k < g.eccSteps * g.soc.fdmSize) :
    formatImage g src cache (g.writesize + k) = src.spare k := by
  have room : g.eccSteps * g.soc.fdmSize ≤ g.oobsize :=
    (Nat.mul_le_mul_left _ g.spareHoldsFdm).trans g.oobHoldsSpare
  rw [formatImage, Bytes.memcpyOpt_inside _ _ _ _ _ _ (by omega) (by omega)]
  simp only [Nat.zero_add, Nat.add_sub_cancel_left]
  apply src.spare_memcpyOpt
  rw [Bytes.memcpyOpt_outside _ _ _ _ _ _ (Or.inr (by omega))]
  exact Bytes.memset_inside _ _ _ _ _ (Nat.zero_le _) (by omega)

/-- The offsets of sector `i` of a raw page. -/
theorem sector_offsets (g : Geometry) (i k : Nat) :
    k / g.rawSectorSize = i ↔
      i * g.rawSectorSize ≤ k ∧ k < i * g.rawSectorSize + g.rawSectorSize := by
  have pos := g.rawSectorSize_pos
  rw [Nat.div_eq_iff pos, Nat.mul_comm i]
  constructor <;> rintro ⟨low, high⟩ <;> constructor <;> omega

theorem sector_column (g : Geometry) (i k : Nat) (own : k / g.rawSectorSize = i) :
    k = i * g.rawSectorSize + k % g.rawSectorSize := by
  rw [← own]
  exact (Nat.div_add_mod' k _).symm

/-- What `toRawSector` leaves at column `c` of its own sector `i`. -/
def rawByte (g : Geometry) (src : Buffers) (emptyEcc : Bool) (i c : Nat) (old : UInt8) : UInt8 :=
  if c < g.soc.sectorSize then
    (src.buf.map (fun buf => buf (i * g.soc.sectorSize + c))).getD old
  else if c < g.soc.sectorSize + g.soc.fdmSize then
    (src.oob.map (fun oob => oob (i * g.soc.fdmSize + (c - g.soc.sectorSize)))).getD old
  else if src.oob.isSome ∧ emptyEcc then 0xff
  else (src.oob.map (fun oob => oob (g.eccSteps * g.soc.fdmSize + i * g.eccBytes +
    (c - (g.soc.sectorSize + g.soc.fdmSize))))).getD old

theorem toRawSector_outside (src : Buffers) (emptyEcc : Bool) (i : Nat) (m : Bytes) (k : Nat)
    (other : k / g.rawSectorSize ≠ i) : toRawSector g src emptyEcc i m k = m k := by
  have outside : ¬ (i * g.rawSectorSize ≤ k ∧ k < i * g.rawSectorSize + g.rawSectorSize) :=
    fun own => other ((sector_offsets g i k).mpr own)
  have split := g.rawSectorSize_eq
  have copied : ((m.memcpyOpt (i * g.rawSectorSize) src.buf (i * g.soc.sectorSize)
      g.soc.sectorSize).memcpyOpt (i * g.rawSectorSize + g.soc.sectorSize) src.oob
      (i * g.soc.fdmSize) g.soc.fdmSize) k = m k := by
    rw [Bytes.memcpyOpt_outside _ _ _ _ _ _ (by omega),
      Bytes.memcpyOpt_outside _ _ _ _ _ _ (by omega)]
  unfold toRawSector
  split_ifs with blank
  · rw [Bytes.memset_outside _ _ _ _ _ (by omega)]
    exact copied
  · rw [Bytes.memcpyOpt_outside _ _ _ _ _ _ (by omega)]
    exact copied

theorem toRawSector_inside (src : Buffers) (emptyEcc : Bool) (i : Nat) (m : Bytes) (k : Nat)
    (own : k / g.rawSectorSize = i) :
    toRawSector g src emptyEcc i m k =
      rawByte g src emptyEcc (k / g.rawSectorSize) (k % g.rawSectorSize) (m k) := by
  have column := Nat.mod_lt k g.rawSectorSize_pos
  have at_ := sector_column g i k own
  have split := g.rawSectorSize_eq
  rw [own]
  generalize k % g.rawSectorSize = c at column at_
  unfold rawByte toRawSector
  by_cases data : c < g.soc.sectorSize
  · rw [if_pos data]
    have copied : ((m.memcpyOpt (i * g.rawSectorSize) src.buf (i * g.soc.sectorSize)
        g.soc.sectorSize).memcpyOpt (i * g.rawSectorSize + g.soc.sectorSize) src.oob
        (i * g.soc.fdmSize) g.soc.fdmSize) k =
        (src.buf.map (fun buf => buf (i * g.soc.sectorSize + c))).getD (m k) := by
      rw [Bytes.memcpyOpt_outside _ _ _ _ _ _ (by omega),
        Bytes.memcpyOpt_inside _ _ _ _ _ _ (by omega) (by omega)]
      rw [at_, Nat.add_sub_cancel_left]
    split_ifs
    · rw [Bytes.memset_outside _ _ _ _ _ (by omega), copied]
    · rw [Bytes.memcpyOpt_outside _ _ _ _ _ _ (by omega), copied]
  rw [if_neg data]
  by_cases fdm : c < g.soc.sectorSize + g.soc.fdmSize
  · rw [if_pos fdm]
    have copied : ((m.memcpyOpt (i * g.rawSectorSize) src.buf (i * g.soc.sectorSize)
        g.soc.sectorSize).memcpyOpt (i * g.rawSectorSize + g.soc.sectorSize) src.oob
        (i * g.soc.fdmSize) g.soc.fdmSize) k =
        (src.oob.map (fun oob => oob (i * g.soc.fdmSize + (c - g.soc.sectorSize)))).getD (m k) := by
      rw [Bytes.memcpyOpt_inside _ _ _ _ _ _ (by omega) (by omega),
        Bytes.memcpyOpt_outside _ _ _ _ _ _ (by omega)]
      rw [at_, show i * g.rawSectorSize + c - (i * g.rawSectorSize + g.soc.sectorSize) =
        c - g.soc.sectorSize by omega]
    split_ifs
    · rw [Bytes.memset_outside _ _ _ _ _ (by omega), copied]
    · rw [Bytes.memcpyOpt_outside _ _ _ _ _ _ (by omega), copied]
  rw [if_neg fdm]
  by_cases blank : src.oob.isSome ∧ emptyEcc
  · rw [if_pos blank, if_pos blank]
    exact Bytes.memset_inside _ _ _ _ _ (by omega) (by omega)
  · rw [if_neg blank, if_neg blank, Bytes.memcpyOpt_inside _ _ _ _ _ _ (by omega) (by omega),
      Bytes.memcpyOpt_outside _ _ _ _ _ _ (by omega),
      Bytes.memcpyOpt_outside _ _ _ _ _ _ (by omega)]
    rw [show k - (i * g.rawSectorSize + (g.soc.sectorSize + g.soc.fdmSize)) =
      c - (g.soc.sectorSize + g.soc.fdmSize) by omega]

/-- `mtk_snand_to_raw_page`, byte by byte. -/
theorem toRawPage_apply (src : Buffers) (emptyEcc : Bool) (cache : Bytes) (k : Nat)
    (inside : k < g.eccSteps * g.rawSectorSize) :
    toRawPage g src emptyEcc cache k =
      rawByte g src emptyEcc (k / g.rawSectorSize) (k % g.rawSectorSize) 0xff := by
  have reset : cache.memset 0 0xff (g.writesize + g.oobsize) k = 0xff :=
    Bytes.memset_inside _ _ _ _ _ (Nat.zero_le _) (by have := g.rawPage_le; omega)
  rw [toRawPage, forRange_owned _ (fun k => k / g.rawSectorSize)
    (fun k old => rawByte g src emptyEcc (k / g.rawSectorSize) (k % g.rawSectorSize) old)
    g.eccSteps
    (fun i _ m k other => toRawSector_outside src emptyEcc i m k other)
    (fun i _ m k own => toRawSector_inside src emptyEcc i m k own),
    if_pos ((Nat.div_lt_iff_lt_mul g.rawSectorSize_pos).mpr inside), reset]

/-- The raw formatting is the auto-format order, renamed. -/
theorem toRawPage_renamed (src : Buffers) (emptyEcc : Bool) (cache : Bytes) :
    Renamed g (toRawPage g src emptyEcc cache) (formatImage g src cache) := by
  intro k inside
  rw [toRawPage_apply src emptyEcc cache _ (g.place_lt k inside), g.place_div, g.place_mod,
    rawByte]
  have offset := g.offset_of_sector k
  have column := g.columnOf_lt k
  by_cases data : g.columnOf k < g.soc.sectorSize
  · rw [if_pos data] at offset ⊢
    have low : k < g.writesize := by
      by_contra high
      unfold Geometry.columnOf at data
      rw [if_neg high] at data
      omega
    rw [formatImage_data src cache k low, ← offset]
    rfl
  · rw [if_neg data] at offset
    rw [if_neg data, if_pos column, offset, formatImage_spare src cache _ (by
      unfold Geometry.formatted at inside; omega), ← offset]
    rfl

/-- A sector the decoder delivers as it stands: it carries its own parity, or it is erased. -/
def Carries (g : Geometry) (ecc : EccEngine g) (raw : Bytes) (i : Nat) : Prop :=
  sectorParity g raw i = ecc.parity (sectorData g raw i) (sectorFdm g raw i) ∨
  ∀ b ∈ sectorData g raw i ++ sectorFdm g raw i ++ sectorParity g raw i, b = 0xff

/-- The page as programmed, from the page cache after the swaps. -/
def encodedByte (g : Geometry) (ecc : EccEngine g) (image : Bytes) (regs : Nat → Nat → UInt8)
    (i c : Nat) : UInt8 :=
  if c < g.soc.sectorSize then image (i * g.soc.sectorSize + c)
  else if c < g.soc.sectorSize + g.soc.fdmSize then regs i (c - g.soc.sectorSize)
  else (ecc.parity (image.slice (i * g.soc.sectorSize) g.soc.sectorSize)
    (Bytes.slice (regs i) 0 g.soc.fdmEccSize)).getD (c - (g.soc.sectorSize + g.soc.fdmSize)) 0

variable (ecc : EccEngine g)

theorem encodeSector_outside (image : Bytes) (regs : Nat → Nat → UInt8) (i : Nat) (m : Bytes)
    (k : Nat) (other : k / g.rawSectorSize ≠ i) : encodeSector g ecc image regs i m k = m k := by
  have outside : ¬ (i * g.rawSectorSize ≤ k ∧ k < i * g.rawSectorSize + g.rawSectorSize) :=
    fun own => other ((sector_offsets g i k).mpr own)
  have split := g.rawSectorSize_eq
  unfold encodeSector
  rw [Bytes.splice_outside _ _ _ _ (by rw [ecc.parity_length]; omega),
    Bytes.memcpy_outside _ _ _ _ _ _ (by omega), Bytes.memcpy_outside _ _ _ _ _ _ (by omega)]

theorem encodeSector_inside (image : Bytes) (regs : Nat → Nat → UInt8) (i : Nat) (m : Bytes)
    (k : Nat) (own : k / g.rawSectorSize = i) :
    encodeSector g ecc image regs i m k =
      encodedByte g ecc image regs (k / g.rawSectorSize) (k % g.rawSectorSize) := by
  have column := Nat.mod_lt k g.rawSectorSize_pos
  have at_ := sector_column g i k own
  have split := g.rawSectorSize_eq
  rw [own]
  generalize k % g.rawSectorSize = c at column at_
  unfold encodedByte encodeSector
  by_cases data : c < g.soc.sectorSize
  · rw [if_pos data, Bytes.splice_outside _ _ _ _ (by rw [ecc.parity_length]; omega),
      Bytes.memcpy_outside _ _ _ _ _ _ (by omega),
      Bytes.memcpy_inside _ _ _ _ _ _ (by omega) (by omega), at_, Nat.add_sub_cancel_left]
  rw [if_neg data]
  by_cases fdm : c < g.soc.sectorSize + g.soc.fdmSize
  · rw [if_pos fdm, Bytes.splice_outside _ _ _ _ (by rw [ecc.parity_length]; omega),
      Bytes.memcpy_inside _ _ _ _ _ _ (by omega) (by omega), Nat.zero_add,
      show k - (i * g.rawSectorSize + g.soc.sectorSize) = c - g.soc.sectorSize by omega]
  · rw [if_neg fdm, Bytes.splice_inside _ _ _ _ (by omega) (by rw [ecc.parity_length]; omega),
      show k - (i * g.rawSectorSize + (g.soc.sectorSize + g.soc.fdmSize)) =
        c - (g.soc.sectorSize + g.soc.fdmSize) by omega]

theorem encodedPage_apply (image : Bytes) (fdmRegs : Nat → Nat → UInt8) (k : Nat)
    (inside : k < g.eccSteps * g.rawSectorSize) :
    storedPage g ecc (image, false) fdmRegs k =
      encodedByte g ecc image (writeFdm g image fdmRegs) (k / g.rawSectorSize)
        (k % g.rawSectorSize) := by
  rw [storedPage, if_neg Bool.false_ne_true, forRange_owned _ (fun k => k / g.rawSectorSize)
    (fun k _ => encodedByte g ecc image (writeFdm g image fdmRegs) (k / g.rawSectorSize)
      (k % g.rawSectorSize)) g.eccSteps
    (fun i _ m k other => encodeSector_outside ecc image _ i m k other)
    (fun i _ m k own => encodeSector_inside ecc image _ i m k own),
    if_pos ((Nat.div_lt_iff_lt_mul g.rawSectorSize_pos).mpr inside)]

theorem rawPage_apply (image : Bytes) (fdmRegs : Nat → Nat → UInt8) (k : Nat)
    (inside : k < g.eccSteps * g.rawSectorSize) :
    storedPage g ecc (image, true) fdmRegs k = image k := by
  rw [storedPage, if_pos rfl, Bytes.memcpy_inside _ _ _ _ _ _ (Nat.zero_le _) (by omega),
    Nat.zero_add, Nat.sub_zero]

theorem encodedPage_renamed (image : Bytes) (fdmRegs : Nat → Nat → UInt8) :
    Renamed g (storedPage g ecc (image, false) fdmRegs) image := by
  intro k inside
  rw [encodedPage_apply ecc image fdmRegs _ (g.place_lt k inside), g.place_div, g.place_mod,
    encodedByte]
  have offset := g.offset_of_sector k
  have column := g.columnOf_lt k
  have sector := g.sectorOf_lt k inside
  have registers := g.fdmRegisters
  by_cases data : g.columnOf k < g.soc.sectorSize
  · rw [if_pos data] at offset ⊢
    rw [← offset]
  · rw [if_neg data] at offset
    rw [if_neg data, if_pos column, writeFdm, if_pos (by omega), if_pos (by omega), Nat.add_assoc,
      ← offset]

theorem column_split (i c : Nat) (column : c < g.rawSectorSize) :
    (i * g.rawSectorSize + c) / g.rawSectorSize = i ∧
      (i * g.rawSectorSize + c) % g.rawSectorSize = c := by
  rw [Nat.mul_comm, Nat.mul_add_div g.rawSectorSize_pos, Nat.mul_add_mod,
    Nat.div_eq_of_lt column, Nat.mod_eq_of_lt column]
  exact ⟨Nat.add_zero _, rfl⟩

theorem rawOffset_lt (i c : Nat) (sector : i < g.eccSteps) (column : c < g.rawSectorSize) :
    i * g.rawSectorSize + c < g.eccSteps * g.rawSectorSize :=
  calc i * g.rawSectorSize + c < (i + 1) * g.rawSectorSize := by rw [Nat.succ_mul]; omega
    _ ≤ g.eccSteps * g.rawSectorSize := Nat.mul_le_mul_right _ sector

theorem encodedPage_carries (image : Bytes) (fdmRegs : Nat → Nat → UInt8) (i : Nat)
    (sector : i < g.eccSteps) : Carries g ecc (storedPage g ecc (image, false) fdmRegs) i := by
  have split := g.rawSectorSize_eq
  have protectedFdm := g.fdmProtected
  have byte (c : Nat) (column : c < g.rawSectorSize) :
      storedPage g ecc (image, false) fdmRegs (i * g.rawSectorSize + c) =
        encodedByte g ecc image (writeFdm g image fdmRegs) i c := by
    obtain ⟨own, same⟩ := column_split i c column
    rw [encodedPage_apply ecc image fdmRegs _ (rawOffset_lt i c sector column), own, same]
  have data : sectorData g (storedPage g ecc (image, false) fdmRegs) i =
      image.slice (i * g.soc.sectorSize) g.soc.sectorSize := by
    apply Bytes.slice_congr
    intro k low
    rw [byte k (by omega), encodedByte, if_pos low]
  have fdm : sectorFdm g (storedPage g ecc (image, false) fdmRegs) i =
      Bytes.slice (writeFdm g image fdmRegs i) 0 g.soc.fdmEccSize := by
    apply Bytes.slice_congr
    intro k low
    rw [Nat.add_assoc, byte _ (by omega), encodedByte, if_neg (by omega), if_pos (by omega),
      Nat.add_sub_cancel_left, Nat.zero_add]
  left
  rw [data, fdm]
  apply Bytes.slice_eq_list _ _ _ _ (ecc.parity_length _ _)
  intro k short
  rw [Nat.add_assoc, byte _ (by omega), encodedByte, if_neg (by omega), if_neg (by omega),
    Nat.add_sub_cancel_left]

theorem rawPage_renamed {image m : Bytes} (same : Renamed g image m)
    (fdmRegs : Nat → Nat → UInt8) : Renamed g (storedPage g ecc (image, true) fdmRegs) m := by
  intro k inside
  rw [rawPage_apply ecc image fdmRegs _ (g.place_lt k inside)]
  exact same k inside

theorem rawImage_renamed (fits : g.MarkerInLastSector) (src : Buffers) (emptyEcc : Bool)
    (cache : Bytes) : Renamed g (rawImage g src emptyEcc true cache) (eccImage g src cache) := by
  rw [rawImage, if_pos rfl, eccImage]
  exact bmSwap_renamed fits (fdmBmSwap_renamed (toRawPage_renamed src emptyEcc cache))

/-- Whatever the mode, the raw page holds the swapped auto-format image. -/
theorem writeImage_renamed (fits : g.MarkerInLastSector) (src : Buffers) (raw : Bool)
    (cache : Bytes) (fdmRegs : Nat → Nat → UInt8) :
    Renamed g (storedPage g ecc (writeImage g src raw true cache) fdmRegs)
      (eccImage g src cache) := by
  unfold writeImage
  split_ifs
  · exact rawPage_renamed ecc (rawImage_renamed fits src false cache) fdmRegs
  · exact rawPage_renamed ecc (rawImage_renamed fits src true cache) fdmRegs
  · exact encodedPage_renamed ecc _ fdmRegs

/-- Offsets of the auto-format order that ECC covers. -/
def Covered (g : Geometry) (k : Nat) : Prop :=
  g.columnOf k < g.soc.sectorSize + g.soc.fdmEccSize

theorem covered_data (k : Nat) (inside : k < g.writesize) : Covered g k := by
  unfold Covered Geometry.columnOf
  rw [if_pos inside]
  have := Nat.mod_lt k g.sectorSize_pos
  omega

theorem covered_fdm (i r : Nat) (column : r < g.soc.fdmEccSize) :
    Covered g (g.writesize + (i * g.soc.fdmSize + r)) := by
  have := g.fdmProtected
  unfold Covered Geometry.columnOf
  rw [if_neg (by omega), Nat.add_sub_cancel_left, Nat.mul_comm, Nat.mul_add_mod,
    Nat.mod_eq_of_lt (by omega)]
  omega

/-- All covered bytes are erased. -/
def Blank (g : Geometry) (m : Bytes) : Prop := ∀ k < g.formatted, Covered g k → m k = 0xff

theorem Blank.exchange {m : Bytes} (blank : Blank g m) (i j : Nat)
    (hi : i < g.formatted ∧ Covered g i) (hj : j < g.formatted ∧ Covered g j) :
    Blank g (m.exchange i j) := by
  intro k inside covered
  rw [Bytes.exchange, Equiv.swap_apply_def]
  split_ifs
  · exact blank j hj.1 hj.2
  · exact blank i hi.1 hi.2
  · exact blank k inside covered

theorem covered_first_fdm : Covered g g.writesize := by
  have := covered_fdm (g := g) 0 0 g.someFdm
  simpa only [Nat.zero_mul, Nat.add_zero] using this

theorem eccImage_blank {src : Buffers} {cache : Bytes} (blank : Blank g (formatImage g src cache)) :
    Blank g (eccImage g src cache) := by
  have first : g.writesize < g.formatted ∧ Covered g g.writesize :=
    ⟨g.writesize_lt_formatted, covered_first_fdm⟩
  have last : g.writesize + (g.eccSteps - 1) * g.soc.fdmSize < g.formatted ∧
      Covered g (g.writesize + (g.eccSteps - 1) * g.soc.fdmSize) :=
    ⟨g.marker_lt_formatted, covered_fdm (g.eccSteps - 1) 0 g.someFdm⟩
  have swapped : Blank g (fdmBmSwap g (formatImage g src cache)) := by
    unfold fdmBmSwap
    split_ifs
    · exact blank.exchange _ _ first last
    · exact blank
  unfold eccImage bmSwap
  split_ifs with on
  · have several := g.swaps_several on
    have spare : 0 < (g.eccSteps - 1) * g.sparePerSector :=
      Nat.mul_pos (by have := g.someSector; omega) (lt_of_lt_of_le g.fdmSize_pos g.spareHoldsFdm)
    have low : g.writesize - (g.eccSteps - 1) * g.sparePerSector < g.writesize := by
      have := g.writesize_pos
      omega
    exact swapped.exchange _ _ last ⟨low.trans g.writesize_lt_formatted, covered_data _ low⟩
  · exact swapped

theorem isEmptyPage_blank (src : Buffers) (cache : Bytes) (empty : isEmptyPage g src = true) :
    Blank g (formatImage g src cache) := by
  simp only [isEmptyPage, Bool.and_eq_true, Option.all_eq_true, List.all_eq_true, List.mem_range,
    beq_iff_eq] at empty
  intro k inside covered
  by_cases data : k < g.writesize
  · rw [formatImage_data src cache k data, Buffers.data]
    cases hbuf : src.buf with
    | none => rfl
    | some buf => exact empty.1 buf hbuf k data
  · have offset := g.offset_of_sector k
    unfold Covered at covered
    have high : ¬ g.columnOf k < g.soc.sectorSize := by
      unfold Geometry.columnOf
      rw [if_neg data]
      omega
    rw [if_neg high] at offset
    rw [offset, formatImage_spare src cache _ (by unfold Geometry.formatted at inside; omega),
      Buffers.spare]
    cases hoob : src.oob with
    | none => rfl
    | some oob =>
      exact empty.2 oob hoob (g.sectorOf k) (g.sectorOf_lt k inside)
        (g.columnOf k - g.soc.sectorSize) (by omega)

/-- An exchange of two places of the auto-format order leaves the parity areas alone. -/
theorem exchange_parity (m : Bytes) {a b k l : Nat} (ha : g.place k = a) (hb : g.place l = b)
    (i c : Nat) (column : g.soc.sectorSize + g.soc.fdmSize ≤ c) (bound : c < g.rawSectorSize) :
    m.exchange a b (i * g.rawSectorSize + c) = m (i * g.rawSectorSize + c) := by
  have never (k : Nat) : i * g.rawSectorSize + c ≠ g.place k := by
    intro same
    have columns : g.columnOf k = c := by
      rw [← g.place_mod, ← same, (column_split i c bound).2]
    have := g.columnOf_lt k
    omega
  rw [Bytes.exchange, Equiv.swap_apply_of_ne_of_ne (ha ▸ never k) (hb ▸ never l)]

theorem fdmBmSwapRaw_parity (m : Bytes) (i c : Nat)
    (column : g.soc.sectorSize + g.soc.fdmSize ≤ c) (bound : c < g.rawSectorSize) :
    fdmBmSwapRaw g m (i * g.rawSectorSize + c) = m (i * g.rawSectorSize + c) := by
  unfold fdmBmSwapRaw
  split_ifs
  · exact exchange_parity m g.place_first_fdm g.place_last_fdm i c column bound
  · rfl

theorem bmSwapRaw_parity (fits : g.MarkerInLastSector) (m : Bytes) (i c : Nat)
    (column : g.soc.sectorSize + g.soc.fdmSize ≤ c) (bound : c < g.rawSectorSize) :
    bmSwapRaw g m (i * g.rawSectorSize + c) = m (i * g.rawSectorSize + c) := by
  unfold bmSwapRaw
  split_ifs with on
  · exact exchange_parity m g.place_last_fdm (g.place_marker fits (g.swaps_several on)) i c column
      bound
  · rfl

/-- The swaps leave the parity areas alone. -/
theorem rawImage_parity (fits : g.MarkerInLastSector) (src : Buffers) (emptyEcc : Bool)
    (cache : Bytes) (i c : Nat) (column : g.soc.sectorSize + g.soc.fdmSize ≤ c)
    (bound : c < g.rawSectorSize) :
    rawImage g src emptyEcc true cache (i * g.rawSectorSize + c) =
      toRawPage g src emptyEcc cache (i * g.rawSectorSize + c) := by
  rw [rawImage, if_pos rfl, bmSwapRaw_parity fits _ i c column bound,
    fdmBmSwapRaw_parity _ i c column bound]

theorem emptyPage_carries (fits : g.MarkerInLastSector) (src : Buffers) (cache : Bytes)
    (fdmRegs : Nat → Nat → UInt8) (empty : isEmptyPage g src = true) (i : Nat)
    (sector : i < g.eccSteps) :
    Carries g ecc (storedPage g ecc (rawImage g src true true cache, true) fdmRegs) i := by
  have split := g.rawSectorSize_eq
  have protectedFdm := g.fdmProtected
  have blank := eccImage_blank (isEmptyPage_blank src cache empty)
  have stored := writeImage_renamed ecc fits src false cache fdmRegs
  rw [writeImage, if_neg Bool.false_ne_true, if_pos empty] at stored
  right
  intro b member
  rw [List.mem_append, List.mem_append] at member
  rcases member with (member | member) | member
  · obtain ⟨k, low, rfl⟩ := List.mem_map.mp member
    rw [List.mem_range] at low
    have inside : i * g.soc.sectorSize + k < g.writesize := by
      rw [g.writesize_eq]
      calc i * g.soc.sectorSize + k < (i + 1) * g.soc.sectorSize := by rw [Nat.succ_mul]; omega
        _ ≤ g.eccSteps * g.soc.sectorSize := Nat.mul_le_mul_right _ sector
    have formatted := inside.trans g.writesize_lt_formatted
    rw [← g.place_data i k sector low, stored _ formatted]
    exact blank _ formatted (covered_data _ inside)
  · obtain ⟨k, low, rfl⟩ := List.mem_map.mp member
    rw [List.mem_range] at low
    have formatted : g.writesize + (i * g.soc.fdmSize + k) < g.formatted := by
      have : i * g.soc.fdmSize + k < g.eccSteps * g.soc.fdmSize :=
        calc i * g.soc.fdmSize + k < (i + 1) * g.soc.fdmSize := by rw [Nat.succ_mul]; omega
          _ ≤ g.eccSteps * g.soc.fdmSize := Nat.mul_le_mul_right _ sector
      unfold Geometry.formatted
      omega
    rw [← g.place_fdm i k (by omega), stored _ formatted]
    exact blank _ formatted (covered_fdm i k low)
  · obtain ⟨k, low, rfl⟩ := List.mem_map.mp member
    rw [List.mem_range] at low
    have inside := rawOffset_lt (g := g) i (g.soc.sectorSize + g.soc.fdmSize + k) sector (by omega)
    rw [Nat.add_assoc, rawPage_apply ecc _ fdmRegs _ inside,
      rawImage_parity fits src true cache i _ (by omega) (by omega),
      toRawPage_apply src true cache _ inside]
    rw [(column_split i _ (by omega)).2, rawByte, if_neg (by omega), if_neg (by omega)]
    cases src.oob <;> rfl

theorem writeImage_carries (fits : g.MarkerInLastSector) (src : Buffers) (format : Bool)
    (cache : Bytes) (fdmRegs : Nat → Nat → UInt8) (i : Nat) (sector : i < g.eccSteps) :
    Carries g ecc (storedPage g ecc (writeImage g src false format cache) fdmRegs) i := by
  rw [writeImage, if_neg Bool.false_ne_true]
  split_ifs with empty
  · exact emptyPage_carries ecc fits src cache fdmRegs empty i sector
  · exact encodedPage_carries ecc _ fdmRegs i sector

end Filogic.Snand
