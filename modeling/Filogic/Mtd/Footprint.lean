import Filogic.Mtd.Placed

/-! Which blocks `mtd_write` erases and writes to, and which ones it leaves alone. -/

namespace Filogic.Mtd
open Lib

section Reach

variable (noErase : Bool) (s : Writer)

/-- The next step erases, or looks for a block to erase. -/
def Erasing : Prop := noErase = false ∧ s.e < s.w + s.buf.length + s.skipBadBlocks

instance : Decidable (Erasing noErase s) := inferInstanceAs (Decidable (_ ∧ _))

/-- The block that the next step erases or writes to. -/
def touches : Option Nat :=
  match s.label with
  | .next => none
  | .rewrite =>
    if Erasing noErase s then
      if memGetBadBlock s.dev.mtd (s.e + s.physPartOff) s.dev.flash = some false then
        some ((s.e + s.physPartOff) / s.dev.mtd.erasesize)
      else none
    else if s.pos < s.dev.mtd.mtdsize then some (s.pos / s.dev.mtd.erasesize)
    else none

/-- The next step finds the partition at its end: `Insufficient space`, where the kernel does not
refuse the block first. -/
def LacksRoom : Prop :=
  s.label = .rewrite ∧
    s.dev.mtd.mtdsize <
      if Erasing noErase s then s.e + s.physPartOff + s.dev.mtd.erasesize
      else s.pos + s.buf.length

/-- A block from `start` on, before which there are fewer than `n` good ones. -/
def InReach (bad : Nat → Bool) (start n b : Nat) : Prop :=
  start ≤ b ∧ (goodFrom bad start b).length < n

variable (p : Partition) (partOffset : Nat) (image : List UInt8)

/-- The block is not before the logical offset, nor behind the last one that the image needs. -/
def OfImage (dev : Device) (b : Nat) : Prop :=
  InReach dev.flash.bad (startBlock p partOffset) (needed p image) b

/-- What was done to the partition so far was done to blocks of the image. -/
structure Left (dev : Device) : Prop where
  erased : ∀ b ∈ dev.flash.erased, OfImage p partOffset image dev b
  wrote : ∀ write ∈ dev.flash.writes, OfImage p partOffset image dev write.1
  kept : ∀ b, ¬OfImage p partOffset image dev b → blockBytes dev b = blockBytes p.device b

/-- And what is done next is done to a good one. -/
structure Footprint : Prop extends Left p partOffset image s.dev where
  touches : ∀ b ∈ touches noErase s, s.dev.flash.bad b = false ∧ OfImage p partOffset image s.dev b
  room : LacksRoom noErase s →
    (goodFrom s.dev.flash.bad (startBlock p partOffset) p.mtd.blocks).length < needed p image

def Status.Footprint (following : List Partition) : Status → Prop
  | .running s => Mtd.Footprint noErase s p partOffset image
  | .returned devices => ∃ dev, devices = dev :: following.map Partition.device ∧
      Left p partOffset image dev
  | .exited => True

end Reach

section Footed

variable {p : Partition} {b0 n hi : Nat} {dev dev' : Device}

theorem goodFrom_le (bad bad' : Nat → Bool) (more : ∀ b, bad b = true → bad' b = true)
    (lo hi : Nat) : (goodFrom bad' lo hi).length ≤ (goodFrom bad lo hi).length := by
  refine (List.monotone_filter_right _ ?_).length_le
  intro b good
  cases before : bad b with
  | false => rfl
  | true =>
    rw [more b before] at good
    exact good

/-- Only the blocks from `b0` up to `hi` were touched, and they are in reach. -/
structure Footed (p : Partition) (b0 n : Nat) (dev : Device) (hi : Nat) : Prop where
  reach : ∀ b, b0 ≤ b → b < hi → (goodFrom dev.flash.bad b0 b).length < n
  erased : ∀ b ∈ dev.flash.erased, b0 ≤ b ∧ b < hi
  wrote : ∀ write ∈ dev.flash.writes, b0 ≤ write.1 ∧ write.1 < hi
  kept : ∀ b, b < b0 ∨ hi ≤ b → blockBytes dev b = blockBytes p.device b

/-- One block more is touched at most, and there may be more bad ones. -/
theorem Footed.touch (footed : Footed p b0 n dev hi) (block : Nat) (low : b0 ≤ block)
    (high : block < hi) (more : ∀ b, dev.flash.bad b = true → dev'.flash.bad b = true)
    (erased : ∀ b ∈ dev'.flash.erased, b = block ∨ b ∈ dev.flash.erased)
    (wrote : ∀ write ∈ dev'.flash.writes, write.1 = block ∨ write ∈ dev.flash.writes)
    (others : ∀ b, b ≠ block → blockBytes dev' b = blockBytes dev b) :
    Footed p b0 n dev' hi := by
  constructor
  · intro b above below
    exact lt_of_le_of_lt (goodFrom_le _ _ more b0 b) (footed.reach b above below)
  · intro b member
    rcases erased b member with rfl | old
    · exact ⟨low, high⟩
    · exact footed.erased b old
  · intro write member
    rcases wrote write member with same | old
    · rw [same]
      exact ⟨low, high⟩
    · exact footed.wrote write old
  · intro b outside
    rw [others b (by omega)]
    exact footed.kept b outside

/-- There may be more bad blocks. -/
theorem Footed.mark (footed : Footed p b0 n dev hi) (bad : Nat → Bool)
    (more : ∀ b, dev.flash.bad b = true → bad b = true) :
    Footed p b0 n { dev with flash := { dev.flash with bad := bad } } hi :=
  ⟨fun b above below => lt_of_le_of_lt (goodFrom_le _ _ more b0 b) (footed.reach b above below),
    footed.erased, footed.wrote, footed.kept⟩

/-- The next block may be touched if fewer good ones than are needed come before it. -/
theorem Footed.grow (footed : Footed p b0 n dev hi)
    (few : (goodFrom dev.flash.bad b0 hi).length < n) : Footed p b0 n dev (hi + 1) := by
  constructor
  · intro b above below
    by_cases here : b = hi
    · rw [here]
      exact few
    · exact footed.reach b above (by omega)
  · intro b member
    have bounds := footed.erased b member
    omega
  · intro write member
    have bounds := footed.wrote write member
    omega
  · intro b outside
    exact footed.kept b (by omega)

theorem Footed.left {partOffset : Nat} {image : List UInt8}
    (footed : Footed p (startBlock p partOffset) (needed p image) dev hi) :
    Left p partOffset image dev := by
  have reach : ∀ b, startBlock p partOffset ≤ b → b < hi → OfImage p partOffset image dev b :=
    fun b above below => ⟨above, footed.reach b above below⟩
  constructor
  · intro b member
    have bounds := footed.erased b member
    exact reach b bounds.1 bounds.2
  · intro write member
    have bounds := footed.wrote write member
    exact reach write.1 bounds.1 bounds.2
  · intro b outside
    apply footed.kept
    by_contra inside
    rw [not_or, Nat.not_lt, Nat.not_le] at inside
    exact outside (reach b inside.1 inside.2)

end Footed

section Erased

variable {p : Partition} {b0 : Nat} {image : List UInt8} {following : List Device}
  {s : Writer} {last : Nat}

/-- A step with the blocks erased one at a time, since none was skipped while seeking. -/
theorem rewrite_footed (partOffset : Nat) (behind : List UInt8)
    (rewrite : AtRewrite p.mtd p.bad b0 0 image following s last)
    (footed : Footed p b0 (needed p image) s.dev last) (s' : Writer)
    (ok : step false partOffset behind s = .running s') :
    ∃ last', (AtNext p.mtd p.bad b0 0 image following s' last' ∨
        AtRewrite p.mtd p.bad b0 0 image following s' last') ∧
      Footed p b0 (needed p image) s'.dev last' := by
  have mtd := rewrite.mtd
  have place := rewrite.place
  rw [← mtd] at place
  have ahead := rewrite.ahead
  have low := rewrite.low
  have bound := @lag_le b0 s last
  have size : lag b0 s last = (met b0 s last).length - s.dev.flash.writes.length := rfl
  have wanted := (lt_needed s.dev.flash.writes.length).mp rewrite.behind
  unfold step at ok
  rw [rewrite.label] at ok
  dsimp only at ok
  split_ifs at ok with more
  · have room := rewrite.erases_iff.mp more.2
    have caughtUp : lag b0 s last = 0 := by omega
    have few : (goodFrom s.dev.flash.bad b0 last).length < needed p image :=
      lt_of_le_of_lt room wanted
    have next := footed.grow few
    obtain ⟨inRange, taken⟩ := eraseNext_running partOffset behind s s' last place ok
    rw [mtd] at inRange
    cases taken with
    | skipped bad same =>
      rw [same]
      exact ⟨last + 1, .inr (skip_rewrite rewrite caughtUp inRange s.dev.flash.bad bad
        fun _ _ => rfl), next⟩
    | erased good answer same =>
      rw [same, mtd]
      refine ⟨last + 1, .inr (erase_rewrite rewrite inRange good room), ?_⟩
      apply next.touch last low (Nat.lt_succ_self last)
      · exact fun _ bad => bad
      · exact fun b member => List.mem_cons.mp member
      · exact fun write member => .inr member
      · intro b other
        apply blockBytes_other s.dev _ b last other
        intro j outside
        rw [mtd] at outside
        exact Bytes.memset_outside _ _ _ _ _ outside
    | worn good eio same =>
      rw [same]
      refine ⟨last + 1, .inr (skip_rewrite rewrite caughtUp inRange
        (Function.update s.dev.flash.bad last true) (Function.update_self ..)
        fun b other => Function.update_of_ne other ..), ?_⟩
      apply next.mark
      intro b bad
      rw [Function.update_apply]
      split_ifs
      · rfl
      · exact bad
  · have waiting : 0 < lag b0 s last := by
      by_contra none
      exact more ⟨rfl, rewrite.erases_iff.mpr (by omega)⟩
    have single : lag b0 s last = 1 := by omega
    have pos := rewrite.pos
    rw [single] at pos
    have position := rewrite.pos_div
    rw [single] at position
    have fits := rewrite.fits
    cases writeBuf_running behind s s' last rewrite.offset place ok with
    | written answer same =>
      rw [same]
      refine ⟨last, .inl (write_next rewrite waiting), ?_⟩
      apply footed.touch (last - 1) (by omega) (by omega)
      · exact fun _ bad => bad
      · exact fun b member => .inr member
      · intro write member
        change write ∈ s.dev.flash.writes ++ [_] at member
        rw [List.mem_append, List.mem_singleton, position] at member
        rcases member with old | rfl
        · exact .inr old
        · exact .inl rfl
      · intro b other
        apply blockBytes_other s.dev _ b (last - 1) other
        intro j outside
        rw [mtd] at outside
        apply Bytes.splice_outside
        rw [pos]
        omega
    | worn eio positive same =>
      rw [same]
      refine ⟨last, .inr (worn_rewrite rewrite single), ?_⟩
      apply footed.touch (last - 1) (by omega) (by omega)
      · intro b bad
        change Function.update s.dev.flash.bad (last - 1) true b = true
        rw [Function.update_apply]
        split_ifs
        · rfl
        · exact bad
      · exact fun b member => .inr member
      · exact fun write member => .inr member
      · intro b other
        apply blockBytes_other s.dev _ b (last - 1) other
        intro j outside
        rw [mtd] at outside
        apply Bytes.memcpy_outside
        rw [pos]
        omega

end Erased

section Bare

variable {p : Partition} {b0 : Nat} {image : List UInt8} {following : List Device} {s : Writer}

/-- With `-n` the blocks follow each other from the offset on, and from there again after a write
that failed. -/
structure Bared (p : Partition) (b0 : Nat) (image : List UInt8) (following : List Device)
    (s : Writer) : Prop where
  mtd : s.dev.mtd = p.mtd
  following : s.following = following
  closed : s.closed = []
  offset : s.offset = 0
  phys : s.physPartOff = b0 * p.mtd.erasesize
  e : s.e = 0
  later : ∀ b, b0 ≤ b → s.dev.flash.bad b = p.bad b
  fits : s.buf.length ≤ p.mtd.erasesize
  next : s.label = .next → s.buf ++ s.image = [] ∨ ∃ i, s.pos = (b0 + i) * p.mtd.erasesize ∧
    i * p.mtd.erasesize + (s.buf ++ s.image).length ≤ image.length
  rewrite : s.label = .rewrite → ∃ i, s.pos = (b0 + i) * p.mtd.erasesize ∧
    i * p.mtd.erasesize < image.length ∧ (s.image = [] ∨ s.buf.length = p.mtd.erasesize ∧
      (i + 1) * p.mtd.erasesize + s.image.length ≤ image.length)

/-- The buffer is filled for the block at the file pointer. -/
theorem bared_next (partOffset : Nat) (behind : List UInt8) (bared : Bared p b0 image following s)
    (label : s.label = .next) (s' : Writer) (ok : step true partOffset behind s = .running s') :
    Bared p b0 image following s' ∧ s'.dev = s.dev := by
  have mtd := bared.mtd
  have positive := p.mtd.erasesize_pos
  have block : ((s.buf ++ s.image).take p.mtd.erasesize).length ≤ p.mtd.erasesize :=
    List.length_take_le _ _
  have place := bared.next label
  unfold step at ok
  rw [label] at ok
  dsimp only at ok
  rw [fill_eq s (by rw [mtd]; exact bared.fits), mtd] at ok
  split_ifs at ok with none
  rw [pad_eq _ (by dsimp only; rwa [mtd])] at ok
  obtain rfl := Status.running.inj ok
  dsimp only at none ⊢
  rw [mtd]
  refine ⟨⟨mtd, bared.following, bared.closed, bared.offset, bared.phys, bared.e, bared.later,
    padded_block _ _ block, nofun, fun _ => ?_⟩, rfl⟩
  rcases place with empty | ⟨i, pos, inside⟩
  · rw [empty, List.take_nil] at none
    exact absurd rfl none
  · have filled : 0 < (s.buf ++ s.image).length := by
      rw [List.length_pos_iff]
      rintro empty
      rw [empty, List.take_nil] at none
      exact none rfl
    refine ⟨i, pos, by omega, ?_⟩
    rcases Nat.lt_or_ge p.mtd.erasesize (s.buf ++ s.image).length with long | short
    · right
      have whole : ((s.buf ++ s.image).take p.mtd.erasesize).length = p.mtd.erasesize :=
        List.length_take_of_le long.le
      rw [padded_page _ p.mtd.writesize_pos _ (by rw [whole]; exact p.mtd.writesize_dvd)]
      refine ⟨whole, ?_⟩
      rw [List.length_drop, Nat.add_mul, Nat.one_mul]
      omega
    · exact .inl (List.drop_of_length_le short)

theorem bared_rewrite (partOffset : Nat) (behind : List UInt8)
    (bared : Bared p b0 image following s) (label : s.label = .rewrite)
    (footed : Footed p b0 (needed p image) s.dev (b0 + needed p image)) (s' : Writer)
    (ok : step true partOffset behind s = .running s') :
    Bared p b0 image following s' ∧
      Footed p b0 (needed p image) s'.dev (b0 + needed p image) := by
  have mtd := bared.mtd
  have fits := bared.fits
  obtain ⟨i, pos, inside, rest⟩ := bared.rewrite label
  have wanted := (lt_needed i).mp inside
  have position : s.pos / s.dev.mtd.erasesize = b0 + i := by
    rw [pos, mtd, Nat.mul_div_cancel _ p.mtd.erasesize_pos]
  have place : s.e + s.physPartOff = b0 * s.dev.mtd.erasesize := by
    rw [bared.e, bared.phys, mtd, Nat.zero_add]
  unfold step at ok
  rw [label] at ok
  dsimp only at ok
  rw [if_neg (by rintro ⟨no, -⟩; cases no)] at ok
  cases writeBuf_running behind s s' b0 bared.offset place ok with
  | written answer same =>
    rw [same]
    constructor
    · refine ⟨mtd, bared.following, bared.closed, rfl, bared.phys, bared.e, bared.later,
        Nat.zero_le _, fun _ => ?_, nofun⟩
      rcases rest with none | ⟨whole, more⟩
      · exact .inl none
      · refine .inr ⟨i + 1, ?_, more⟩
        change s.pos + s.buf.length = _
        rw [pos, whole, ← Nat.succ_mul]
        rfl
    · apply footed.touch (b0 + i) (by omega) (by omega)
      · exact fun _ bad => bad
      · exact fun b member => .inr member
      · intro write member
        change write ∈ s.dev.flash.writes ++ [_] at member
        rw [List.mem_append, List.mem_singleton, position] at member
        rcases member with old | rfl
        · exact .inr old
        · exact .inl rfl
      · intro b other
        apply blockBytes_other s.dev _ b (b0 + i) other
        intro j outside
        rw [mtd] at outside
        apply Bytes.splice_outside
        rw [pos]
        omega
  | worn eio positive same =>
    rw [same]
    constructor
    · refine ⟨mtd, bared.following, bared.closed, bared.offset, bared.phys, bared.e, ?_, fits,
        fun other => ?_, fun _ => ⟨0, ?_, by omega, ?_⟩⟩
      · intro b above
        exact (Function.update_of_ne (by omega) ..).trans (bared.later b above)
      · exact absurd (label.symm.trans other) (by decide)
      · rw [Nat.add_zero, ← mtd]
      · refine rest.imp_right fun full => ⟨full.1, ?_⟩
        have low : (0 + 1) * p.mtd.erasesize ≤ (i + 1) * p.mtd.erasesize :=
          Nat.mul_le_mul_right _ (by omega)
        exact le_trans (Nat.add_le_add_right low _) full.2
    · apply footed.touch (b0 + i) (by omega) (by omega)
      · intro b bad
        change Function.update s.dev.flash.bad (b0 - 1) true b = true
        rw [Function.update_apply]
        split_ifs
        · rfl
        · exact bad
      · exact fun b member => .inr member
      · exact fun write member => .inr member
      · intro b other
        apply blockBytes_other s.dev _ b (b0 + i) other
        intro j outside
        rw [mtd] at outside
        apply Bytes.memcpy_outside
        rw [pos]
        omega

end Bare

section States

variable {p : Partition} {k partOffset : Nat} {image : List UInt8} {following : List Device}
  {s : Writer} {last : Nat}

/-- Nothing is done to a block while the buffer is filled. -/
theorem footprint_next (noErase : Bool) (left : Left p partOffset image s.dev)
    (label : s.label = .next) : Footprint noErase s p partOffset image := by
  refine ⟨left, ?_, ?_⟩
  · intro b member
    rw [touches, label] at member
    cases member
  · rintro ⟨other, -⟩
    rw [label] at other
    cases other

theorem AtRewrite.footprint
    (rewrite : AtRewrite p.mtd p.bad (startBlock p partOffset) 0 image following s last)
    (left : Left p partOffset image s.dev) : Footprint false s p partOffset image := by
  have mtd := rewrite.mtd
  have place := rewrite.place
  have fits := rewrite.fits
  have high := rewrite.high
  have low := rewrite.low
  have wanted := (lt_needed s.dev.flash.writes.length).mp rewrite.behind
  have blocks := p.mtd.blocks_mul
  have all : (goodFrom s.dev.flash.bad (startBlock p partOffset) last).length =
      (met (startBlock p partOffset) s last).length := rfl
  have waiting : ¬Erasing false s → 0 < lag (startBlock p partOffset) s last := by
    intro done
    have more : ¬_ := fun less => done ⟨rfl, rewrite.erases_iff.mpr less⟩
    unfold lag
    omega
  refine ⟨left, ?_, ?_⟩
  · intro b member
    rw [touches, rewrite.label] at member
    dsimp only at member
    split_ifs at member with erasing good
    · have few := rewrite.erases_iff.mp erasing.2
      rw [mtd, place, memGetBadBlock_block] at good
      rw [mtd, place, Nat.mul_div_cancel _ p.mtd.erasesize_pos, Option.mem_some_iff] at member
      split_ifs at good
      subst member
      exact ⟨Option.some.inj good, low, by omega⟩
    · exact absurd member (Option.not_mem_none b)
    · have hole := rewrite.before_hole (waiting erasing)
      have bound := @lag_le (startBlock p partOffset) s last
      rw [rewrite.pos_div, Option.mem_some_iff] at member
      subst member
      exact ⟨hole.2, by omega, by omega⟩
    · exact absurd member (Option.not_mem_none b)
  · rintro ⟨-, past⟩
    rw [mtd] at past
    split_ifs at past with erasing
    · have few := rewrite.erases_iff.mp erasing.2
      rw [place, ← blocks, ← Nat.succ_mul, Nat.mul_lt_mul_right p.mtd.erasesize_pos] at past
      have ends : last = p.mtd.blocks := by omega
      rw [← ends]
      omega
    · have positive := waiting erasing
      have bound := @lag_le (startBlock p partOffset) s last
      have inside := Nat.mul_le_mul_right p.mtd.erasesize
        (show last - lag (startBlock p partOffset) s last + 1 ≤ p.mtd.blocks by omega)
      rw [rewrite.pos] at past
      rw [Nat.add_mul, Nat.one_mul] at inside
      omega

theorem Bared.footprint (bared : Bared p (startBlock p partOffset) image following s)
    (good : ∀ b, startBlock p partOffset ≤ b → b < startBlock p partOffset + needed p image →
      b < p.mtd.blocks → p.bad b = false)
    (left : Left p partOffset image s.dev) : Footprint true s p partOffset image := by
  cases label : s.label with
  | next => exact footprint_next true left label
  | rewrite =>
    have mtd := bared.mtd
    have fits := bared.fits
    obtain ⟨i, pos, inside, -⟩ := bared.rewrite label
    have wanted := (lt_needed i).mp inside
    have bare : ¬Erasing true s := fun erasing => Bool.noConfusion erasing.1
    refine ⟨left, ?_, ?_⟩
    · intro b member
      rw [touches, label] at member
      dsimp only at member
      rw [if_neg bare, pos, mtd, Nat.mul_div_cancel _ p.mtd.erasesize_pos] at member
      split_ifs at member with inRange
      · rw [p.mtd.mul_lt] at inRange
        rw [Option.mem_some_iff] at member
        subst member
        have few := goodFrom_length s.dev.flash.bad (startBlock p partOffset)
          (startBlock p partOffset + i)
        refine ⟨?_, by omega, by omega⟩
        rw [bared.later _ (by omega)]
        exact good _ (by omega) (by omega) inRange
      · exact absurd member (Option.not_mem_none b)
    · rintro ⟨-, past⟩
      have few := goodFrom_length s.dev.flash.bad (startBlock p partOffset) p.mtd.blocks
      rw [if_neg bare, mtd, pos, ← p.mtd.blocks_mul] at past
      have ends : p.mtd.blocks < startBlock p partOffset + i + 1 := by
        rw [← Nat.mul_lt_mul_right p.mtd.erasesize_pos, Nat.add_mul _ 1, Nat.one_mul]
        omega
      omega

end States

section Runs

variable {p : Partition} {k partOffset : Nat} {image : List UInt8} {following : List Partition}

/-- The seek skipped no bad block, or with `-n` none is among as many blocks as are needed. -/
def StaysInReach (noErase : Bool) (p : Partition) (partOffset : Nat) (image : List UInt8) : Prop :=
  image = [] ∨ (noErase = false ∧ passedBad p partOffset = 0) ∨
    (noErase = true ∧ ∀ b, startBlock p partOffset ≤ b →
      b < startBlock p partOffset + needed p image → b < p.mtd.blocks → p.bad b = false)

theorem footed_start (b0 n : Nat) : Footed p b0 n p.device b0 :=
  ⟨fun _ above below => absurd below (Nat.not_lt.mpr above),
    fun _ member => absurd member List.not_mem_nil,
    fun _ member => absurd member List.not_mem_nil, fun _ _ => rfl⟩

/-- A writer that erases has counted the blocks that it met. -/
def Status.Counted (p : Partition) (partOffset : Nat) (image : List UInt8)
    (following : List Partition) : Status → Prop
  | .running s => ∃ last, Footed p (startBlock p partOffset) (needed p image) s.dev last ∧
      (AtNext p.mtd p.bad (startBlock p partOffset) 0 image (following.map Partition.device) s
          last ∨
        AtRewrite p.mtd p.bad (startBlock p partOffset) 0 image (following.map Partition.device) s
          last)
  | .returned devices => ∃ dev, devices = dev :: following.map Partition.device ∧
      Left p partOffset image dev
  | .exited => True

theorem counted_step (behind : List UInt8) (status : Status)
    (counted : status.Counted p partOffset image following) :
    (status.step false partOffset behind).Counted p partOffset image following := by
  cases status with
  | returned devices => exact counted
  | exited => exact counted
  | running s =>
    change (step false partOffset behind s).Counted p partOffset image following
    obtain ⟨last, footed, next | rewrite⟩ := counted
    · rcases next_step false partOffset behind next with ⟨-, ok⟩ | ⟨s', ok, dev, rewrite⟩
      · rw [ok]
        exact ⟨s.dev, rfl, footed.left⟩
      · rw [ok]
        rw [← dev] at footed
        exact ⟨last, footed, .inr rewrite⟩
    · cases ok : step false partOffset behind s with
      | running s' =>
        obtain ⟨last', at', footed'⟩ := rewrite_footed partOffset behind rewrite footed s' ok
        exact ⟨last', footed', at'⟩
      | exited => trivial
      | returned devices =>
        have place := rewrite.place
        rw [← rewrite.mtd] at place
        have label := (step_returned false partOffset behind rewrite.following rewrite.closed place
          devices ok).1
        rw [rewrite.label] at label
        cases label

/-- One that does not erase stays within as many blocks as the image needs. -/
def Status.Bared (p : Partition) (partOffset : Nat) (image : List UInt8)
    (following : List Partition) : Status → Prop
  | .running s => Mtd.Bared p (startBlock p partOffset) image (following.map Partition.device) s ∧
      Footed p (startBlock p partOffset) (needed p image) s.dev
        (startBlock p partOffset + needed p image)
  | .returned devices => ∃ dev, devices = dev :: following.map Partition.device ∧
      Left p partOffset image dev
  | .exited => True

theorem bared_step (behind : List UInt8) (status : Status)
    (bared : status.Bared p partOffset image following) :
    (status.step true partOffset behind).Bared p partOffset image following := by
  cases status with
  | returned devices => exact bared
  | exited => exact bared
  | running s =>
    change (step true partOffset behind s).Bared p partOffset image following
    obtain ⟨bared, footed⟩ := bared
    cases ok : step true partOffset behind s with
    | exited => trivial
    | returned devices =>
      have place : s.e + s.physPartOff = startBlock p partOffset * s.dev.mtd.erasesize := by
        rw [bared.e, bared.phys, bared.mtd, Nat.zero_add]
      have same := (step_returned true partOffset behind bared.following bared.closed place
        devices ok).2.2
      exact ⟨s.dev, same, footed.left⟩
    | running s' =>
      cases label : s.label with
      | next =>
        obtain ⟨bared', dev⟩ := bared_next partOffset behind bared label s' ok
        rw [← dev] at footed
        exact ⟨bared', footed⟩
      | rewrite => exact bared_rewrite partOffset behind bared label footed s' ok

/-- The step lemma of a property, for a whole run. -/
theorem Status.iterate (holds : Status → Prop) (noErase : Bool) (behind : List UInt8)
    (kept : ∀ status : Status, holds status → holds (status.step noErase partOffset behind))
    (status : Status) (start : holds status) (steps : Nat) :
    holds ((Status.step noErase partOffset behind)^[steps] status) := by
  induction steps with
  | zero => exact start
  | succ steps ih =>
    rw [Function.iterate_succ_apply']
    exact kept _ ih

theorem bared_start (s : Writer) (next : AtNext p.mtd p.bad (startBlock p partOffset) k image
      (following.map Partition.device) s (startBlock p partOffset)) (dev : s.dev = p.device) :
    Bared p (startBlock p partOffset) image (following.map Partition.device) s := by
  have place := next.place
  have none : s.dev.flash.writes.length = 0 := by rw [dev]; rfl
  have left := next.left
  have lagging : lag (startBlock p partOffset) s (startBlock p partOffset) = 0 := by
    have bound := @lag_le (startBlock p partOffset) s (startBlock p partOffset)
    omega
  rw [none, Nat.zero_mul, Nat.sub_zero] at left
  rw [next.phys] at place
  refine ⟨next.mtd, next.following, next.closed, next.offset, next.phys, by omega, next.later,
    next.fits, fun _ => ?_, fun other => ?_⟩
  · by_cases empty : s.buf ++ s.image = []
    · exact .inl empty
    · refine .inr ⟨0, ?_, by omega⟩
      rw [(next.more empty).pos, lagging]
      rfl
  · rw [next.label] at other
    cases other

/-- In every state of a run, the writer erases and writes good blocks of the image only, leaves the
others as they were, and lacks room only where the good blocks are too few. -/
theorem footprint_of_stays (noErase : Bool) (behind : List UInt8) (ready : Nat)
    (stays : StaysInReach noErase p partOffset image) (steps : Nat) :
    (mtdWrite noErase partOffset behind image ready p following steps).Footprint noErase p
      partOffset image following := by
  unfold mtdWrite
  cases started : resume partOffset (starting image ready p following) with
  | exited =>
    rw [Function.iterate_fixed rfl]
    trivial
  | returned devices => exact absurd started (resume_returned _ _)
  | running s =>
    obtain ⟨next, -, -⟩ := resume_start s started
    have dev : s.dev = p.device := resume_dev _ s started
    have footed := @footed_start p (startBlock p partOffset) (needed p image)
    rw [← dev] at footed
    rcases stays with rfl | ⟨rfl, none⟩ | ⟨rfl, good⟩
    · cases steps with
      | zero => exact footprint_next noErase footed.left next.label
      | succ steps =>
        rw [Function.iterate_succ_apply]
        change Status.Footprint noErase p partOffset [] following
          ((Status.step noErase partOffset behind)^[steps] (step noErase partOffset behind s))
        rcases next_step noErase partOffset behind next with ⟨-, ok⟩ | ⟨s', -, -, rewrite⟩
        · rw [ok, Function.iterate_fixed rfl]
          exact ⟨s.dev, rfl, footed.left⟩
        · exact absurd rewrite.behind (Nat.not_lt_zero _)
    · rw [none] at next
      have counted := Status.iterate (Status.Counted p partOffset image following) false behind
        (counted_step behind) (.running s) ⟨_, footed, .inl next⟩ steps
      cases ended : (Status.step false partOffset behind)^[steps] (.running s) with
      | exited => trivial
      | returned devices =>
        rw [ended] at counted
        exact counted
      | running s' =>
        rw [ended] at counted
        obtain ⟨last, footed', next' | rewrite⟩ := counted
        · exact footprint_next false footed'.left next'.label
        · exact rewrite.footprint footed'.left
    · have bounds : ∀ b, startBlock p partOffset ≤ b →
          b < startBlock p partOffset + needed p image →
          (goodFrom s.dev.flash.bad (startBlock p partOffset) b).length < needed p image := by
        intro b above below
        have few := goodFrom_length s.dev.flash.bad (startBlock p partOffset) b
        omega
      have wide : Footed p (startBlock p partOffset) (needed p image) s.dev
          (startBlock p partOffset + needed p image) := by
        refine ⟨bounds, ?_, ?_, fun b _ => by rw [dev]⟩
        · rw [dev]
          exact fun _ member => absurd member List.not_mem_nil
        · rw [dev]
          exact fun _ member => absurd member List.not_mem_nil
      have bared := Status.iterate (Status.Bared p partOffset image following) true behind
        (bared_step behind) (.running s) ⟨bared_start s next dev, wide⟩ steps
      cases ended : (Status.step true partOffset behind)^[steps] (.running s) with
      | exited => trivial
      | returned devices =>
        rw [ended] at bared
        exact bared
      | running s' =>
        rw [ended] at bared
        exact bared.1.footprint good bared.2.left

theorem footprint_over_bad :
    (mtdWrite false 0 [] [1, 2, 3] 1 ⟨sevenBlocks, fun _ => 0, fun b => b = 1⟩ [] 12).Footprint
      false ⟨sevenBlocks, fun _ => 0, fun b => b = 1⟩ 0 [1, 2, 3] [] :=
  footprint_of_stays false [] 1 (.inr (.inl ⟨rfl, rfl⟩)) 12

/-- Block 0 is bad, and an image of one block starts at the second good one, block 2: block 3 is
erased as well. -/
theorem erased_behind_image :
    ¬(mtdWrite false 2 [] [1] 1 ⟨sevenBlocks, fun _ => 0, fun b => b = 0⟩ [] 12).Footprint false
      ⟨sevenBlocks, fun _ => 0, fun b => b = 0⟩ 2 [1] [] := by
  rintro ⟨dev, same, left⟩
  obtain rfl := (List.cons.inj same).1
  have reach := left.erased 3 (by decide)
  exact absurd reach.2 (by decide)

end Runs

end Filogic.Mtd
