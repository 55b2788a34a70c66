import Filogic.Mtd.Dump

/-! `mtd_dump` and `mtd_verify` after `mtd_write`. -/

namespace Filogic.Mtd
open Lib

section InStep

variable {m : MtdInfo}

/-- Only the blocks up to the one in question count. -/
theorem gap_congr (q t : Nat) (good good' : List Nat)
    (same : good.take (q + 1) = good'.take (q + 1)) : gap t good q = gap t good' q := by
  induction q generalizing t good good' with
  | zero =>
    match good, good', same with
    | [], [], _ => rfl
    | b :: good, b' :: good', same => rw [gap, gap, (List.cons.inj same).1]
  | succ q ih =>
    match good, good', same with
    | [], [], _ => rfl
    | b :: good, b' :: good', same =>
      rw [List.take_succ_cons, List.take_succ_cons] at same
      obtain ⟨rfl, rest⟩ := List.cons.inj same
      exact ih (b + 1) good good' rest

theorem InStep.congr (p n t count : Nat) (good good' : List Nat)
    (same : good.take (p + count) = good'.take (p + count))
    (taken : ∀ j, j * m.erasesize < n → j < count)
    (inStep : InStep m p n t good (good.drop p)) : InStep m p n t good' (good'.drop p) := by
  have entry : ∀ j < p + count, good'[j]? = good[j]? := by
    intro j inside
    rw [← List.getElem?_take_of_lt inside, ← same, List.getElem?_take_of_lt inside]
  constructor
  · intro j inside
    have bound := taken j inside
    obtain ⟨b, here, there⟩ := inStep.blocks j inside
    rw [List.getElem?_drop] at there
    refine ⟨b, ?_, ?_⟩
    · rw [entry j (by omega), here]
    · rw [List.getElem?_drop, entry (p + j) (by omega), there]
  · intro some
    have bound := taken (n / m.erasesize) (by
      have parts := Nat.div_add_mod' n m.erasesize
      omega)
    rw [gap_congr _ _ good' good]
    · exact inStep.tail some
    · have cut := congrArg (List.take (n / m.erasesize + 1)) same
      rw [List.take_take, List.take_take, Nat.min_eq_left (by omega)] at cut
      exact cut.symm

end InStep

section Finished

variable {p : Partition} {partOffset : Nat} {image : List UInt8} {following : List Partition}
  {s : Writer} {last : Nat}

/-- The image is what the partition holds from the logical offset on. -/
theorem Finished.stored (finished : Finished p partOffset image following s last) :
    Mtd.stored s.dev partOffset image.length = image := by
  obtain ⟨others, rest⟩ := @Frame.drop_logical _ _ _ _ _ _ [] finished.toFrame finished.start
  have whole : image <+: (logicalBytes [s.dev]).drop partOffset := by
    rw [rest]
    exact ((List.prefix_append _ _).trans (finished.read finished.empty)).trans
      (List.prefix_append _ _)
  rw [Mtd.stored]
  exact (List.prefix_iff_eq_take.mp whole).symm

end Finished

section Main

/-- The dump puts the image out, and from the start on the check tells it from other files as far
as their digests differ; and both would, whatever the blocks held. -/
structure Agree (dev : Device) (partOffset : Nat) (image : List UInt8) : Prop where
  dump : mtdDump dev partOffset image.length = image
  verify : partOffset = 0 → ∀ md5 file, file.length = image.length →
    (mtdVerify dev md5 file = true ↔ md5 file = md5 image)
  readsBack : ReadsBack dev partOffset image.length

theorem ReadsBack.agree {dev : Device} {partOffset : Nat} {image : List UInt8}
    (reads : ReadsBack dev partOffset image.length)
    (holds : stored dev partOffset image.length = image) : Agree dev partOffset image := by
  refine ⟨(reads.dumped dev.flash.data).trans holds, ?_, reads⟩
  rintro rfl md5 file length
  have verified := reads.verified rfl dev.flash.data md5 file length
  change _ ↔ md5 file = md5 (stored dev 0 image.length) at verified
  rwa [holds] at verified

end Main

end Filogic.Mtd
