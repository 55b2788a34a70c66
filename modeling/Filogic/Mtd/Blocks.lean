import Filogic.Mtd.Writer

/-! The good blocks of a part of a partition, and what one step of the writer does to it. -/

namespace Filogic.Mtd
open Lib

def MtdInfo.blocks (m : MtdInfo) : Nat := m.mtdsize / m.erasesize

theorem MtdInfo.blocks_mul (m : MtdInfo) : m.blocks * m.erasesize = m.mtdsize :=
  Nat.div_mul_cancel m.erasesize_dvd

theorem MtdInfo.mul_lt (m : MtdInfo) (b : Nat) :
    b * m.erasesize < m.mtdsize ↔ b < m.blocks := by
  rw [← m.blocks_mul]
  exact Nat.mul_lt_mul_right m.erasesize_pos

/-- How many blocks `n` bytes take. -/
theorem MtdInfo.lt_count (m : MtdInfo) (n b : Nat) :
    b * m.erasesize < n ↔ b < (n + m.erasesize - 1) / m.erasesize := by
  have positive := m.erasesize_pos
  rw [Nat.lt_div_iff_mul_lt positive, mul_comm]
  omega

/-- The good blocks from `lo` to `hi`. -/
def goodFrom (bad : Nat → Bool) (lo hi : Nat) : List Nat :=
  (List.range' lo (hi - lo)).filter (fun b => !bad b)

section Good

variable (bad : Nat → Bool)

theorem mem_goodFrom (lo hi b : Nat) :
    b ∈ goodFrom bad lo hi ↔ lo ≤ b ∧ b < hi ∧ bad b = false := by
  simp only [goodFrom, List.mem_filter, List.mem_range'_1, Bool.not_eq_true', and_assoc]
  constructor
  · rintro ⟨low, high, good⟩
    exact ⟨low, by omega, good⟩
  · rintro ⟨low, high, good⟩
    exact ⟨low, by omega, good⟩

theorem goodFrom_self (lo : Nat) : goodFrom bad lo lo = [] := by
  simp [goodFrom]

theorem goodFrom_append (lo mid hi : Nat) (low : lo ≤ mid) (high : mid ≤ hi) :
    goodFrom bad lo hi = goodFrom bad lo mid ++ goodFrom bad mid hi := by
  have parts : List.range' lo (hi - lo) = List.range' lo (mid - lo) ++ List.range' mid (hi - mid) := by
    have whole := @List.range'_append_1 lo (mid - lo) (hi - mid)
    rw [show lo + (mid - lo) = mid by omega, show mid - lo + (hi - mid) = hi - lo by omega] at whole
    exact whole.symm
  rw [goodFrom, parts, List.filter_append]
  rfl

theorem goodFrom_succ (lo hi : Nat) (low : lo ≤ hi) :
    goodFrom bad lo (hi + 1) = goodFrom bad lo hi ++ if bad hi then [] else [hi] := by
  rw [goodFrom_append bad lo hi (hi + 1) low (Nat.le_succ hi)]
  congr 1
  simp only [goodFrom, Nat.add_sub_cancel_left, List.range'_one, List.filter_singleton]
  cases bad hi <;> rfl

theorem goodFrom_length (lo hi : Nat) : (goodFrom bad lo hi).length ≤ hi - lo := by
  have bound := List.length_filter_le (fun b => !bad b) (List.range' lo (hi - lo))
  rwa [List.length_range'] at bound

theorem goodFrom_nodup (lo hi : Nat) : (goodFrom bad lo hi).Nodup :=
  List.Nodup.filter _ (List.nodup_range' _)

theorem goodFrom_congr (bad' : Nat → Bool) (lo hi : Nat)
    (same : ∀ b, lo ≤ b → b < hi → bad' b = bad b) :
    goodFrom bad' lo hi = goodFrom bad lo hi := by
  apply List.filter_congr
  intro b member
  rw [List.mem_range'_1] at member
  rw [same b (by omega) (by omega)]

/-- Blocks outside of the part do not count. -/
theorem goodFrom_update (lo hi b : Nat) (outside : b < lo ∨ hi ≤ b) :
    goodFrom (Function.update bad b true) lo hi = goodFrom bad lo hi := by
  apply goodFrom_congr
  intro other low high
  exact Function.update_of_ne (by omega) ..

end Good

def Flash.mark (f : Flash) (b : Nat) : Flash := { f with bad := Function.update f.bad b true }

def Flash.erase (f : Flash) (size b : Nat) : Flash :=
  { f with data := f.data.memset (b * size) 0xff size, erased := b :: f.erased }

def Writer.setFlash (s : Writer) (f : Flash) : Writer := { s with dev := { s.dev with flash := f } }

section Steps

variable (partOffset : Nat) (behind : List UInt8) (s s' : Writer) (block : Nat)

/-- The ways in which the loop that erases goes on. -/
inductive EraseStep : Prop where
  | skipped (bad : s.dev.flash.bad block = true) (same : s' = skipBlock s)
  | erased (good : s.dev.flash.bad block = false) (ok : s.dev.mtd.eraseAnswer block = .ok)
      (same : s' = { s.setFlash (s.dev.flash.erase s.dev.mtd.erasesize block) with
        e := s.e + s.dev.mtd.erasesize })
  | worn (good : s.dev.flash.bad block = false) (eio : s.dev.mtd.eraseAnswer block = .eio)
      (same : s' = skipBlock (s.setFlash (s.dev.flash.mark block)))

theorem memGetBadBlock_block (m : MtdInfo) (f : Flash) :
    memGetBadBlock m (block * m.erasesize) f =
      if block < m.blocks then some (f.bad block) else none := by
  simp only [memGetBadBlock, m.mul_lt, Nat.mul_div_cancel _ m.erasesize_pos]

theorem memSetBadBlock_block (m : MtdInfo) (f : Flash) :
    memSetBadBlock m (block * m.erasesize) f =
      if block < m.blocks ∧ m.setBadFails block = false then some (f.mark block) else none := by
  simp only [memSetBadBlock, m.mul_lt, Nat.mul_div_cancel _ m.erasesize_pos]
  rfl

theorem memErase_block (m : MtdInfo) (f : Flash) (inRange : block < m.blocks) :
    memErase m (block * m.erasesize) f =
      (m.eraseAnswer block, if m.eraseAnswer block = .ok then f.erase m.erasesize block else f) := by
  simp only [memErase, m.mul_lt, Nat.mul_div_cancel _ m.erasesize_pos, if_pos inRange]
  cases m.eraseAnswer block <;> rfl

/-- The next partition is never gone on to: a block past the end is refused before. -/
theorem eraseNext_running (place : s.e + s.physPartOff = block * s.dev.mtd.erasesize)
    (ok : eraseNext partOffset behind s = .running s') :
    block < s.dev.mtd.blocks ∧ EraseStep s s' block := by
  unfold eraseNext at ok
  by_cases inRange : block < s.dev.mtd.blocks
  · refine ⟨inRange, ?_⟩
    have room : (block + 1) * s.dev.mtd.erasesize ≤ s.dev.mtd.mtdsize := by
      rw [← s.dev.mtd.blocks_mul]
      exact Nat.mul_le_mul_right _ inRange
    rw [Nat.add_mul, Nat.one_mul] at room
    simp only [place, memGetBadBlock_block, memErase_block _ _ _ inRange, if_pos inRange,
      memSetBadBlock_block, if_pos room] at ok
    cases status : s.dev.flash.bad block with
    | true =>
      rw [status] at ok
      exact .skipped status (Status.running.inj ok).symm
    | false =>
      rw [status] at ok
      cases answer : s.dev.mtd.eraseAnswer block with
      | ok =>
        simp only [answer, if_true] at ok
        split_ifs at ok
        exact .erased status answer (Status.running.inj ok).symm
      | eio =>
        simp only [answer, reduceCtorEq, if_false] at ok
        split_ifs at ok
        exact .worn status answer (Status.running.inj ok).symm
      | other =>
        simp [answer] at ok
  · simp [place, memGetBadBlock_block, inRange] at ok

theorem eraseNext_returned (place : s.e + s.physPartOff = block * s.dev.mtd.erasesize)
    (devices : List Device) : eraseNext partOffset behind s ≠ .returned devices := by
  unfold eraseNext
  by_cases inRange : block < s.dev.mtd.blocks
  · have room : (block + 1) * s.dev.mtd.erasesize ≤ s.dev.mtd.mtdsize := by
      rw [← s.dev.mtd.blocks_mul]
      exact Nat.mul_le_mul_right _ inRange
    rw [Nat.add_mul, Nat.one_mul] at room
    simp only [place, memGetBadBlock_block, memErase_block _ _ _ inRange, if_pos inRange,
      memSetBadBlock_block, if_pos room]
    cases s.dev.flash.bad block with
    | true => nofun
    | false =>
      cases s.dev.mtd.eraseAnswer block with
      | ok => simp only [if_true]; split_ifs <;> nofun
      | eio => dsimp only; split_ifs <;> nofun
      | other => nofun
  · simp [place, memGetBadBlock_block, inRange]

/-- The ways in which the write goes on, from a buffer without an offset. -/
inductive WriteStep (last : Nat) : Prop where
  | written (ok : s.dev.mtd.writeAnswer (s.pos / s.dev.mtd.erasesize) = .ok)
      (same : s' = { s.setFlash { s.dev.flash with
          data := s.dev.flash.data.splice s.pos s.buf
          writes := s.dev.flash.writes ++ [(s.pos / s.dev.mtd.erasesize, s.buf)] } with
        label := .next, pos := s.pos + s.buf.length, w := s.w + s.buf.length, buf := []
        offset := 0 })
  | worn (eio : s.dev.mtd.writeAnswer (s.pos / s.dev.mtd.erasesize) = .eio) (positive : 0 < last)
      (same : s' = { s.setFlash (({ s.dev.flash with
          data := s.dev.flash.data.memcpy s.pos s.dev.mtd.torn s.pos s.buf.length }).mark
            (last - 1)) with
        skipBadBlocks := s.skipBadBlocks + s.dev.mtd.erasesize
        pos := last * s.dev.mtd.erasesize })

theorem fromBuf_eq (start : s.offset = 0) : fromBuf behind s s.buf.length = s.buf := by
  rw [fromBuf, start, List.drop_zero, List.take_left]

theorem writeBuf_running (start : s.offset = 0)
    (place : s.e + s.physPartOff = block * s.dev.mtd.erasesize)
    (ok : writeBuf behind s = .running s') : WriteStep s s' block := by
  unfold writeBuf at ok
  rw [fromBuf_eq behind s start] at ok
  unfold writeAt at ok
  by_cases inRange : s.pos < s.dev.mtd.mtdsize
  · simp only [if_pos inRange] at ok
    cases answer : s.dev.mtd.writeAnswer (s.pos / s.dev.mtd.erasesize) with
    | ok =>
      simp only [answer] at ok
      split_ifs at ok with short
      have whole : s.buf.take (s.dev.mtd.mtdsize - s.pos) = s.buf := by
        rw [List.take_eq_self_iff]
        rw [List.length_take] at short
        omega
      rw [whole] at ok
      exact .written answer (Status.running.inj ok).symm
    | eio =>
      simp only [answer] at ok
      split_ifs at ok with negative
      have positive : 0 < block := by
        by_contra zero
        rw [place, show block = 0 by omega, Nat.zero_mul] at negative
        exact negative s.dev.mtd.erasesize_pos
      have before : s.e + s.physPartOff - s.dev.mtd.erasesize =
          (block - 1) * s.dev.mtd.erasesize := by
        rw [place, Nat.sub_mul, Nat.one_mul]
      rw [before, memSetBadBlock_block] at ok
      split_ifs at ok
      refine .worn answer positive ?_
      rw [← place]
      exact (Status.running.inj ok).symm
    | other => simp [answer] at ok
  · simp [inRange] at ok

theorem writeBuf_returned (devices : List Device) : writeBuf behind s ≠ .returned devices := by
  unfold writeBuf
  dsimp only
  split
  · split_ifs <;> nofun
  · split_ifs
    · nofun
    · split <;> nofun
  · nofun

end Steps

end Filogic.Mtd
