import Filogic.Snand.Page

/-! Where a page lives. `page_cache` in auto-format order (data, then all FDM bytes) is renamed
into the raw page by one injective map of offsets; the four marker swaps are the same two swaps
before and after that renaming. -/

namespace Filogic.Snand
open Lib

namespace Geometry

variable (g : Geometry)

/-- Bytes the auto-format mode transfers: the data and the FDM of every sector. -/
def formatted : Nat := g.writesize + g.eccSteps * g.soc.fdmSize

def sectorOf (k : Nat) : Nat :=
  if k < g.writesize then k / g.soc.sectorSize else (k - g.writesize) / g.soc.fdmSize

def columnOf (k : Nat) : Nat :=
  if k < g.writesize then k % g.soc.sectorSize
  else g.soc.sectorSize + (k - g.writesize) % g.soc.fdmSize

/-- Offset in the raw page of offset `k` of the auto-format order. -/
def place (k : Nat) : Nat := g.sectorOf k * g.rawSectorSize + g.columnOf k

/-- The condition under which the data byte at the marker position is in the last sector. -/
def MarkerInLastSector : Prop := (g.eccSteps - 1) * g.sparePerSector ≤ g.soc.sectorSize

instance : Decidable g.MarkerInLastSector := inferInstanceAs (Decidable (_ ≤ _))

theorem writesize_eq : g.writesize = g.eccSteps * g.soc.sectorSize := g.pageSectors.symm

theorem writesize_pos : 0 < g.writesize := Nat.two_pow_pos _

theorem sectorSize_pos : 0 < g.soc.sectorSize := by
  have pos := g.writesize_pos
  rw [g.writesize_eq] at pos
  exact Nat.pos_of_mul_pos_left pos

theorem fdmSize_pos : 0 < g.soc.fdmSize := lt_of_lt_of_le g.someFdm g.fdmProtected

theorem rawSectorSize_eq :
    g.rawSectorSize = g.soc.sectorSize + g.soc.fdmSize + g.eccBytes := by
  have := g.spareHoldsFdm
  unfold rawSectorSize eccBytes
  omega

theorem rawSectorSize_pos : 0 < g.rawSectorSize := by
  have := g.sectorSize_pos
  rw [g.rawSectorSize_eq]
  omega

theorem sectorOf_lt (k : Nat) (inside : k < g.formatted) : g.sectorOf k < g.eccSteps := by
  unfold sectorOf
  split_ifs with data
  · rw [Nat.div_lt_iff_lt_mul g.sectorSize_pos, ← g.writesize_eq]
    exact data
  · rw [Nat.div_lt_iff_lt_mul g.fdmSize_pos]
    unfold formatted at inside
    omega

theorem columnOf_lt (k : Nat) : g.columnOf k < g.soc.sectorSize + g.soc.fdmSize := by
  have data := Nat.mod_lt k g.sectorSize_pos
  have fdm := Nat.mod_lt (k - g.writesize) g.fdmSize_pos
  unfold columnOf
  split_ifs <;> omega

theorem columnOf_lt_raw (k : Nat) : g.columnOf k < g.rawSectorSize := by
  have := g.columnOf_lt k
  rw [g.rawSectorSize_eq]
  omega

theorem place_div (k : Nat) : g.place k / g.rawSectorSize = g.sectorOf k := by
  unfold place
  rw [Nat.mul_comm, Nat.mul_add_div g.rawSectorSize_pos,
    Nat.div_eq_of_lt (g.columnOf_lt_raw k), Nat.add_zero]

theorem place_mod (k : Nat) : g.place k % g.rawSectorSize = g.columnOf k := by
  unfold place
  rw [Nat.mul_comm, Nat.mul_add_mod, Nat.mod_eq_of_lt (g.columnOf_lt_raw k)]

theorem offset_of_sector (k : Nat) :
    k = if g.columnOf k < g.soc.sectorSize
      then g.sectorOf k * g.soc.sectorSize + g.columnOf k
      else g.writesize + (g.sectorOf k * g.soc.fdmSize + (g.columnOf k - g.soc.sectorSize)) := by
  have split := Nat.div_add_mod' k g.soc.sectorSize
  have split' := Nat.div_add_mod' (k - g.writesize) g.soc.fdmSize
  unfold columnOf sectorOf
  by_cases data : k < g.writesize
  · simp only [data, if_true, Nat.mod_lt k g.sectorSize_pos, split]
  · simp only [data, if_false]
    rw [if_neg (by omega), Nat.add_sub_cancel_left, split']
    omega

theorem place_injective : Function.Injective g.place := by
  intro a b same
  have sectors : g.sectorOf a = g.sectorOf b := by rw [← place_div, ← place_div, same]
  have columns : g.columnOf a = g.columnOf b := by rw [← place_mod, ← place_mod, same]
  rw [g.offset_of_sector a, g.offset_of_sector b, sectors, columns]

theorem place_lt (k : Nat) (inside : k < g.formatted) :
    g.place k < g.eccSteps * g.rawSectorSize := by
  have sector := g.sectorOf_lt k inside
  have column := g.columnOf_lt_raw k
  unfold place
  calc g.sectorOf k * g.rawSectorSize + g.columnOf k
      < g.sectorOf k * g.rawSectorSize + g.rawSectorSize := by omega
    _ = (g.sectorOf k + 1) * g.rawSectorSize := by rw [Nat.succ_mul]
    _ ≤ g.eccSteps * g.rawSectorSize := Nat.mul_le_mul_right _ sector

theorem rawPage_le : g.eccSteps * g.rawSectorSize ≤ g.writesize + g.oobsize := by
  have := g.oobHoldsSpare
  rw [rawSectorSize, Nat.mul_add, ← g.writesize_eq]
  omega

theorem place_data (i r : Nat) (sector : i < g.eccSteps) (column : r < g.soc.sectorSize) :
    g.place (i * g.soc.sectorSize + r) = i * g.rawSectorSize + r := by
  have inside : i * g.soc.sectorSize + r < g.writesize := by
    rw [g.writesize_eq]
    calc i * g.soc.sectorSize + r < (i + 1) * g.soc.sectorSize := by rw [Nat.succ_mul]; omega
      _ ≤ g.eccSteps * g.soc.sectorSize := Nat.mul_le_mul_right _ sector
  unfold place sectorOf columnOf
  rw [if_pos inside, if_pos inside, Nat.mul_comm i, Nat.mul_add_div g.sectorSize_pos,
    Nat.mul_add_mod, Nat.div_eq_of_lt column, Nat.mod_eq_of_lt column, Nat.add_zero]

theorem place_fdm (i r : Nat) (column : r < g.soc.fdmSize) :
    g.place (g.writesize + (i * g.soc.fdmSize + r)) =
      i * g.rawSectorSize + g.soc.sectorSize + r := by
  have outside : ¬ g.writesize + (i * g.soc.fdmSize + r) < g.writesize := by omega
  unfold place sectorOf columnOf
  rw [if_neg outside, if_neg outside, Nat.add_sub_cancel_left, Nat.mul_comm i,
    Nat.mul_add_div g.fdmSize_pos, Nat.mul_add_mod, Nat.div_eq_of_lt column,
    Nat.mod_eq_of_lt column, Nat.add_zero, Nat.add_assoc]

/-- FDM byte 0 of the first sector. -/
theorem place_first_fdm : g.place g.writesize = g.soc.sectorSize := by
  have := g.place_fdm 0 0 g.fdmSize_pos
  simpa only [Nat.zero_mul, Nat.zero_add, Nat.add_zero] using this

/-- FDM byte 0 of the last sector. -/
theorem place_last_fdm :
    g.place (g.writesize + (g.eccSteps - 1) * g.soc.fdmSize) =
      (g.eccSteps - 1) * g.rawSectorSize + g.soc.sectorSize :=
  g.place_fdm (g.eccSteps - 1) 0 g.fdmSize_pos

/-- The data byte that falls on the physical marker. -/
theorem place_marker (fits : g.MarkerInLastSector) (several : g.eccSteps ≠ 1) :
    g.place (g.writesize - (g.eccSteps - 1) * g.sparePerSector) = g.writesize := by
  have steps : 2 ≤ g.eccSteps := by have := g.someSector; omega
  obtain ⟨m, count⟩ : ∃ m, g.eccSteps = m + 2 := ⟨g.eccSteps - 2, by omega⟩
  have spare : 0 < g.sparePerSector := lt_of_lt_of_le g.fdmSize_pos g.spareHoldsFdm
  have some : 0 < (g.eccSteps - 1) * g.sparePerSector := Nat.mul_pos (by omega) spare
  unfold MarkerInLastSector at fits
  have column : g.soc.sectorSize - (g.eccSteps - 1) * g.sparePerSector < g.soc.sectorSize := by
    omega
  have whole : g.writesize = (g.eccSteps - 1) * g.soc.sectorSize + g.soc.sectorSize := by
    rw [g.writesize_eq, ← Nat.succ_mul]
    congr 1
    omega
  have split : g.writesize - (g.eccSteps - 1) * g.sparePerSector =
      (g.eccSteps - 1) * g.soc.sectorSize +
        (g.soc.sectorSize - (g.eccSteps - 1) * g.sparePerSector) := by omega
  rw [split, g.place_data _ _ (by omega) column, rawSectorSize, Nat.mul_add]
  omega

theorem marker_lt_formatted :
    g.writesize + (g.eccSteps - 1) * g.soc.fdmSize < g.formatted := by
  have count : g.eccSteps = (g.eccSteps - 1) + 1 := by have := g.someSector; omega
  have fdm := g.fdmSize_pos
  unfold formatted
  conv_rhs => rw [count, Nat.succ_mul]
  omega

theorem writesize_lt_formatted : g.writesize < g.formatted := by
  have := Nat.mul_pos g.someSector g.fdmSize_pos
  unfold formatted
  omega

theorem swaps_several (on : g.swaps = true) : g.eccSteps ≠ 1 := by
  simp only [Geometry.swaps, Bool.and_eq_true, bne_iff_ne] at on
  exact on.2

end Geometry

/-- `raw`, read through the renaming, is `m`. -/
def Renamed (g : Geometry) (raw m : Bytes) : Prop := ∀ k < g.formatted, raw (g.place k) = m k

theorem Renamed.exchange {g : Geometry} {raw m : Bytes} (same : Renamed g raw m) (i j : Nat)
    (hi : i < g.formatted) (hj : j < g.formatted) :
    Renamed g (raw.exchange (g.place i) (g.place j)) (m.exchange i j) := by
  intro k hk
  apply Bytes.exchange_rename
  · exact fun a _ b _ eq => g.place_injective eq
  · intro a member
    simp only [List.mem_cons, List.not_mem_nil, or_false] at member
    rcases member with rfl | rfl | rfl
    · exact same _ hi
    · exact same _ hj
    · exact same _ hk

variable {g : Geometry}

theorem fdmBmSwap_renamed {raw m : Bytes} (same : Renamed g raw m) :
    Renamed g (fdmBmSwapRaw g raw) (fdmBmSwap g m) := by
  unfold fdmBmSwapRaw fdmBmSwap
  split_ifs with swaps
  · rw [← g.place_last_fdm, ← g.place_first_fdm]
    exact same.exchange _ _ g.writesize_lt_formatted
      g.marker_lt_formatted
  · exact same

theorem bmSwap_renamed (fits : g.MarkerInLastSector) {raw m : Bytes} (same : Renamed g raw m) :
    Renamed g (bmSwapRaw g raw) (bmSwap g m) := by
  unfold bmSwapRaw bmSwap
  split_ifs with swaps
  · have several := g.swaps_several swaps
    rw [← g.place_last_fdm]
    nth_rewrite 2 [← g.place_marker fits several]
    refine same.exchange _ _ g.marker_lt_formatted ?_
    have := g.writesize_lt_formatted
    omega
  · exact same

theorem exchange_twice (m : Bytes) (i j : Nat) : (m.exchange i j).exchange i j = m := by
  funext k
  rw [Bytes.exchange, Bytes.exchange, Equiv.swap_apply_self]

theorem fdmBmSwap_twice (m : Bytes) : fdmBmSwap g (fdmBmSwap g m) = m := by
  unfold fdmBmSwap
  split_ifs
  · exact exchange_twice m _ _
  · rfl

theorem bmSwap_twice (m : Bytes) : bmSwap g (bmSwap g m) = m := by
  unfold bmSwap
  split_ifs
  · exact exchange_twice m _ _
  · rfl

end Filogic.Snand
