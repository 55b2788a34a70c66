import Filogic.Snand.Agreement

/-! Pages that are erased as far as ECC sees them: written raw, without parity, and still read back
through the decoder. -/

namespace Filogic.Snand
open Lib

variable {g : Geometry}

/-- Every byte of the request that ECC protects is 0xff; a missing buffer counts as erased. -/
structure ProtectedErased (g : Geometry) (src : Buffers) : Prop where
  data : ∀ k < g.writesize, src.data k = 0xff
  fdm : ∀ i < g.eccSteps, ∀ r < g.soc.fdmEccSize, src.spare (i * g.soc.fdmSize + r) = 0xff

/-- `mtk_snand_is_empty_page` finds just these. -/
theorem isEmptyPage_iff (src : Buffers) : isEmptyPage g src = true ↔ ProtectedErased g src := by
  simp only [isEmptyPage, Bool.and_eq_true, Option.all_eq_true, List.all_eq_true, List.mem_range,
    beq_iff_eq]
  constructor
  · rintro ⟨data, fdm⟩
    refine ⟨?_, ?_⟩
    · intro k inside
      unfold Buffers.data
      cases given : src.buf with
      | none => rfl
      | some buf => exact data buf given k inside
    · intro i sector r column
      unfold Buffers.spare
      cases given : src.oob with
      | none => rfl
      | some oob => exact fdm oob given i sector r column
  · intro erased
    refine ⟨?_, ?_⟩
    · intro buf given k inside
      have byte := erased.data k inside
      rwa [Buffers.data, given] at byte
    · intro oob given i sector r column
      have byte := erased.fdm i sector r column
      rwa [Buffers.spare, given] at byte

/-- The shortcut for empty pages does not show: a page whose protected bytes are all 0xff is programmed
raw, and a read through the decoder, which takes an erased sector for correct or for uncorrectable,
succeeds without a bitflip and returns the data and all the FDM bytes, the unprotected ones too. -/
theorem empty_page_reads_back (g : Geometry) (fits : g.MarkerInLastSector) (ecc : EccEngine g)
    (w : World) (steady : Steady w) (addr : Nat) (src out : Buffers) (empty : ProtectedErased g src)
    (erased : ∀ k, pageCells g w addr k = 0xff)
    (written : (writePage g ecc addr src false).value w = 0)
    (asked : out.buf.isSome ∨ out.oob.isSome) :
    (writeImage g src false true w.pageCache).2 = true ∧
      ((readPage g ecc addr out false).value ((writePage g ecc addr src false).after w)).1 = 0 ∧
      Returned g src out
        ((readPage g ecc addr out false).value ((writePage g ecc addr src false).after w)).2 := by
  obtain ⟨w', run, inside, steady', holds, carries⟩ :=
    writePage_stores fits ecc w steady addr src false erased written
  have after : (writePage g ecc addr src false).after w = w' := by rw [Prog.after, run]
  rw [after]
  refine ⟨?_, readPage_returned fits ecc w' steady' addr inside src out w.pageCache false asked holds
    carries⟩
  rw [writeImage, if_neg Bool.false_ne_true, if_pos ((isEmptyPage_iff src).mpr empty)]

/-- An empty page of the sample chip with marks in the bytes that ECC does not protect. -/
theorem empty_page_reads_back_sample :
    ((readPage sampleGeometry sampleEcc 0 ⟨some fun _ => 0, some fun _ => 0⟩ false).value
      ((writePage sampleGeometry sampleEcc 0
        ⟨some fun _ => 0xff, some fun k => if k % 2 = 1 then 7 else 0xff⟩ false).after
        sampleWorld)).1 = 0 :=
  (empty_page_reads_back sampleGeometry (by decide) sampleEcc sampleWorld sampleWorld_steady 0
    ⟨some fun _ => 0xff, some fun k => if k % 2 = 1 then 7 else 0xff⟩
    ⟨some fun _ => 0, some fun _ => 0⟩ ⟨fun _ _ => rfl, by decide⟩ (fun _ => rfl)
    (by decide +kernel) (Or.inl rfl)).2.1

end Filogic.Snand
