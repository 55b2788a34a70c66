import Filogic.Snand.RawOob

/-! The raw format and back: what `mtk_snand_to_raw_page` and the swaps of a write lay out is what the
swaps of a read and `mtk_snand_from_raw_page` take apart, whatever the geometry. -/

namespace Filogic.Snand
open Lib

section Swaps

variable (g : Geometry) (m : Bytes)

theorem bmSwapRaw_twice : bmSwapRaw g (bmSwapRaw g m) = m := by
  unfold bmSwapRaw
  split_ifs
  · exact exchange_twice m _ _
  · rfl

theorem fdmBmSwapRaw_twice : fdmBmSwapRaw g (fdmBmSwapRaw g m) = m := by
  unfold fdmBmSwapRaw
  split_ifs
  · exact exchange_twice m _ _
  · rfl

/-- The two swaps of the read, in their order, undo the two of the write. -/
theorem swapsRaw_undone : fdmBmSwapRaw g (bmSwapRaw g (bmSwapRaw g (fdmBmSwapRaw g m))) = m := by
  rw [bmSwapRaw_twice, fdmBmSwapRaw_twice]

end Swaps

/-- What comes back of a page that was brought into raw format and swapped: its data, its FDM bytes and
its parity bytes, a buffer that was missing reading as erased. Where the write path blanks the parity
of an empty page, 0xff comes back in its place. -/
theorem raw_format_round_trip (g : Geometry) (src out : Buffers) (emptyEcc : Bool) (cache : Bytes) :
    let image := bmSwapRaw g (fdmBmSwapRaw g (toRawPage g src emptyEcc cache))
    let back := fromRawPage g (fdmBmSwapRaw g (bmSwapRaw g image)) out
    back.buf.isSome = out.buf.isSome ∧ back.oob.isSome = out.oob.isSome ∧
      (∀ buf, back.buf = some buf → ∀ k < g.writesize, buf k = src.data k) ∧
      ∀ oob, back.oob = some oob → ∀ j < g.eccSteps * g.sparePerSector,
        oob j = if emptyEcc = true ∧ g.eccSteps * g.soc.fdmSize ≤ j then 0xff else src.spare j := by
  intro image back
  let page := toRawPage g src emptyEcc cache
  have undone : back = fromRawPage g page out := by
    change fromRawPage g (fdmBmSwapRaw g (bmSwapRaw g image)) out = fromRawPage g page out
    rw [swapsRaw_undone]
  have renamed : Renamed g page (formatImage g src cache) := toRawPage_renamed src emptyEcc cache
  have shape := fromRawPage_none (g := g) page out
  rw [undone]
  refine ⟨shape.1, shape.2, ?_, ?_⟩
  · intro buf found k inside
    rw [found] at shape
    obtain ⟨old, asked⟩ := Option.isSome_iff_exists.mp shape.1.symm
    obtain ⟨buf', copied, bytes⟩ := fromRawPage_buf page old out asked
    rw [found, Option.some.injEq] at copied
    rw [copied, bytes k inside, renamed k (inside.trans g.writesize_lt_formatted),
      formatImage_data src cache k inside]
  · intro oob found j inside
    rw [found] at shape
    obtain ⟨old, asked⟩ := Option.isSome_iff_exists.mp shape.2.symm
    by_cases fdm : j < g.eccSteps * g.soc.fdmSize
    · obtain ⟨oob', copied, bytes⟩ := fromRawPage_oob page old out asked
      rw [found, Option.some.injEq] at copied
      rw [if_neg (by omega), copied, bytes j fdm,
        renamed _ (by unfold Geometry.formatted; omega), formatImage_spare src cache j fdm]
    · have parity : InParity g j := ⟨not_lt.mp fdm, inside⟩
      calc oob j = page (parityPlace g j) := parity.taken page old oob out asked found
        _ = if emptyEcc then 0xff else src.spare j := parity.formatted src emptyEcc cache
        _ = _ := if_congr (and_iff_left parity.behind).symm rfl rfl

end Filogic.Snand
