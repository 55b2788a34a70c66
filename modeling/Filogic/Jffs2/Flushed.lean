import Filogic.Jffs2.Generated
import Filogic.Mtd.Going

/-! The blocks that are handed on reach the flash: each goes to the next good block. -/

namespace Filogic.Jffs2
open Lib Mtd

section Flushing

variable (m : MtdInfo)

/-- A block that can be erased and written. -/
def Takes (block : Nat) : Prop := m.eraseAnswer block = .ok ∧ m.writeAnswer block = .ok

theorem goodFrom_first (bad : Nat → Bool) (lo first hi : Nat) (low : lo ≤ first) (high : first < hi)
    (good : bad first = false) (skipped : ∀ b, lo ≤ b → b < first → bad b = true) :
    goodFrom bad lo hi = first :: goodFrom bad (first + 1) hi := by
  have before : goodFrom bad lo first = [] := by
    rw [List.eq_nil_iff_forall_not_mem]
    intro b member
    rw [mem_goodFrom] at member
    rw [skipped b member.1 member.2.1] at member
    exact Bool.false_ne_true member.2.2.symm
  have here : goodFrom bad first (first + 1) = [first] := by
    rw [goodFrom_succ bad first first (Nat.le_refl _), goodFrom_self, good]
    rfl
  rw [goodFrom_append bad lo first hi low (Nat.le_of_lt high), before,
    goodFrom_append bad first (first + 1) hi (Nat.le_succ _) high, here]
  rfl

/-- The block that the file pointer moves to. -/
theorem skipBad_first (fuel b : Nat) (f : Flash) (s : Sink)
    (ok : skipBad m fuel ⟨f, b * m.erasesize, b * m.erasesize⟩ = some s) : ∃ first,
    b ≤ first ∧ first < m.blocks ∧ f.bad first = false ∧ (∀ i, b ≤ i → i < first → f.bad i = true) ∧
      s = ⟨f, first * m.erasesize, first * m.erasesize⟩ := by
  induction fuel generalizing b with
  | zero => exact absurd ok (by simp [skipBad])
  | succ fuel ih =>
    unfold skipBad at ok
    simp only [memGetBadBlock_block] at ok
    by_cases inRange : b < m.blocks
    · rw [if_pos inRange] at ok
      cases status : f.bad b with
      | true =>
        have next : b * m.erasesize + m.erasesize = (b + 1) * m.erasesize := by
          rw [Nat.add_mul, Nat.one_mul]
        simp only [status, if_pos ((m.mul_lt b).mpr inRange), next] at ok
        obtain ⟨first, low, high, good, skipped, same⟩ := ih (b + 1) ok
        refine ⟨first, by omega, high, good, ?_, same⟩
        intro i above below
        rcases Nat.eq_or_lt_of_le above with rfl | later
        · exact status
        · exact skipped i later below
      | false =>
        simp only [status] at ok
        exact ⟨b, Nat.le_refl b, inRange, status, by omega, (Option.some.inj ok).symm⟩
    · simp [if_neg inRange] at ok

/-- One block, on a block that takes it. -/
theorem flushBlock_first (b : Nat) (f : Flash) (s : Sink) (bytes : List UInt8)
    (size : bytes.length = m.erasesize)
    (takes : ∀ block ∈ (goodFrom f.bad b m.blocks).head?, Takes m block)
    (ok : flushBlock m ⟨f, b * m.erasesize, b * m.erasesize⟩ bytes = some s) :
    ∃ first, goodFrom f.bad b m.blocks = first :: goodFrom f.bad (first + 1) m.blocks ∧ b ≤ first ∧
      s.mtdofs = (first + 1) * m.erasesize ∧ s.pos = (first + 1) * m.erasesize ∧
      s.flash.bad = f.bad ∧ blockBytes ⟨m, s.flash⟩ first = bytes ∧
      ∀ other, other ≠ first → blockBytes ⟨m, s.flash⟩ other = blockBytes ⟨m, f⟩ other := by
  unfold flushBlock at ok
  rw [Option.bind_eq_bind, Option.bind_eq_some_iff] at ok
  obtain ⟨s₁, skipped, ok⟩ := ok
  obtain ⟨first, low, high, good, before, rfl⟩ := skipBad_first m _ b f s₁ skipped
  have blocks := goodFrom_first f.bad b first m.blocks low high good before
  obtain ⟨erases, writes⟩ := takes first (by rw [blocks]; rfl)
  have room : first * m.erasesize < m.mtdsize := (m.mul_lt first).mpr high
  have whole : bytes.take (m.mtdsize - first * m.erasesize) = bytes := by
    have fits := Nat.mul_le_mul_right m.erasesize (Nat.succ_le_of_lt high)
    rw [m.blocks_mul, Nat.succ_mul] at fits
    rw [List.take_of_length_le (by omega)]
  have next : first * m.erasesize + m.erasesize = (first + 1) * m.erasesize := by
    rw [Nat.add_mul, Nat.one_mul]
  dsimp only at ok
  rw [memErase_block first m f high, erases, if_pos rfl] at ok
  simp only [writeAt, if_pos room, Nat.mul_div_cancel _ m.erasesize_pos, writes, whole, size,
    next] at ok
  obtain rfl := Option.some.inj ok
  refine ⟨first, blocks, low, rfl, rfl, rfl, ?_, ?_⟩
  · apply Bytes.slice_eq_list
    · exact size
    · intro k (bound : k < m.erasesize)
      dsimp only
      rw [Bytes.splice_inside _ _ _ _ (by omega) (by omega), Nat.add_sub_cancel_left]
  · intro other different
    apply blockBytes_other ⟨m, f⟩ _ other first different
    intro k outside
    dsimp only [Flash.erase] at outside ⊢
    rw [Bytes.splice_outside _ _ _ _ (by omega), Bytes.memset_outside _ _ _ _ _ outside]

/-- All blocks, in turn. -/
theorem flushed (out : List (List UInt8)) (b : Nat) (f : Flash) (s : Sink)
    (sizes : ∀ bytes ∈ out, bytes.length = m.erasesize)
    (takes : ∀ block ∈ (goodFrom f.bad b m.blocks).take out.length, Takes m block)
    (ok : out.foldlM (flushBlock m) ⟨f, b * m.erasesize, b * m.erasesize⟩ = some s) :
    s.flash.bad = f.bad ∧
      ((goodFrom f.bad b m.blocks).take out.length).map (blockBytes ⟨m, s.flash⟩) = out ∧
      ∀ other, other ∉ (goodFrom f.bad b m.blocks).take out.length →
        blockBytes ⟨m, s.flash⟩ other = blockBytes ⟨m, f⟩ other := by
  induction out generalizing b f with
  | nil =>
    obtain rfl := Option.some.inj ok
    exact ⟨rfl, by simp, fun other outside => rfl⟩
  | cons bytes out ih =>
    rw [List.foldlM_cons, Option.bind_eq_bind, Option.bind_eq_some_iff] at ok
    obtain ⟨⟨f₁, mtdofs, pos⟩, block, ok⟩ := ok
    have head : ∀ block ∈ (goodFrom f.bad b m.blocks).head?, Takes m block := by
      intro block member
      apply takes
      cases blocks : goodFrom f.bad b m.blocks with
      | nil => rw [blocks] at member; cases member
      | cons c rest =>
        rw [blocks] at member
        cases member
        exact List.mem_cons_self
    obtain ⟨first, blocks, low, rfl, rfl, same, content, others⟩ :=
      flushBlock_first m b f _ bytes (sizes bytes List.mem_cons_self) head block
    have nodup := goodFrom_nodup f.bad b m.blocks
    rw [blocks, List.nodup_cons] at nodup
    dsimp only at same ok content others
    rw [← same] at nodup
    obtain ⟨kept, contents, rest⟩ := ih (first + 1) f₁
      (fun other member => sizes other (List.mem_cons_of_mem _ member))
      (fun other member => takes other (by
        rw [same] at member
        rw [blocks, List.length_cons, List.take_succ_cons]
        exact List.mem_cons_of_mem _ member)) ok
    have outside : first ∉ (goodFrom f₁.bad (first + 1) m.blocks).take out.length :=
      fun member => nodup.1 (List.mem_of_mem_take member)
    rw [blocks, List.length_cons, List.take_succ_cons, ← same]
    refine ⟨kept, ?_, ?_⟩
    · rw [List.map_cons, contents, rest first outside, content]
    · intro other different
      rw [List.mem_cons, not_or] at different
      rw [rest other different.2, others other different.1]

end Flushing

end Filogic.Jffs2
