import Filogic.Mtd.Blocks

/-! What the writer keeps as long as its file pointer is at the next good block. -/

namespace Filogic.Mtd
open Lib

section Padding

theorem padded_nil (writesize : Nat) (positive : 0 < writesize) : padded writesize [] = [] := by
  simp [padded, Nat.div_eq_of_lt (Nat.sub_lt positive Nat.one_pos)]

theorem padded_length (writesize : Nat) (positive : 0 < writesize) (l : List UInt8) :
    (padded writesize l).length = (l.length + writesize - 1) / writesize * writesize := by
  have parts := Nat.div_add_mod (l.length + writesize - 1) writesize
  have rest := Nat.mod_lt (l.length + writesize - 1) positive
  rw [mul_comm] at parts
  rw [padded, List.length_append, List.length_replicate]
  omega

/-- A multiple of the page size is a length that stays. -/
theorem align_mul (writesize len more : Nat) (positive : 0 < writesize)
    (page : writesize ∣ more) :
    (more + len + writesize - 1) / writesize * writesize =
      more + (len + writesize - 1) / writesize * writesize := by
  obtain ⟨pages, rfl⟩ := page
  rw [show writesize * pages + len + writesize - 1 = len + writesize - 1 + writesize * pages by omega,
    Nat.add_mul_div_left _ _ positive, Nat.add_mul]
  ring

theorem padded_append (writesize : Nat) (positive : 0 < writesize) (l more : List UInt8)
    (page : writesize ∣ l.length) : padded writesize (l ++ more) = l ++ padded writesize more := by
  have align := align_mul writesize more.length l.length positive page
  unfold padded
  rw [List.length_append, align, List.append_assoc]
  congr 3
  omega

theorem padded_page (writesize : Nat) (positive : 0 < writesize) (l : List UInt8)
    (page : writesize ∣ l.length) : padded writesize l = l := by
  have same := padded_append writesize positive l [] page
  rwa [List.append_nil, padded_nil writesize positive, List.append_nil] at same

/-- Padding the blocks of an image one by one pads the image. -/
theorem padded_take_drop (m : MtdInfo) (l : List UInt8) :
    padded m.writesize l = padded m.writesize (l.take m.erasesize) ++
      padded m.writesize (l.drop m.erasesize) := by
  by_cases long : m.erasesize ≤ l.length
  · have page : m.writesize ∣ (l.take m.erasesize).length := by
      rw [List.length_take_of_le long]
      exact m.writesize_dvd
    rw [padded_page _ m.writesize_pos _ page, ← padded_append _ m.writesize_pos _ _ page,
      List.take_append_drop]
  · rw [List.take_of_length_le (by omega), List.drop_of_length_le (by omega),
      padded_nil _ m.writesize_pos, List.append_nil]

theorem padded_block (m : MtdInfo) (l : List UInt8) (short : l.length ≤ m.erasesize) :
    (padded m.writesize l).length ≤ m.erasesize := by
  obtain ⟨pages, size⟩ := m.writesize_dvd
  have positive := m.writesize_pos
  rw [padded_length _ positive, mul_comm]
  have bound : (l.length + m.writesize - 1) / m.writesize ≤ pages := by
    apply Nat.le_of_lt_succ
    rw [Nat.div_lt_iff_lt_mul positive, Nat.succ_mul, mul_comm, ← size]
    omega
  rw [size]
  exact Nat.mul_le_mul_left _ bound

theorem padded_ne_nil (writesize : Nat) (l : List UInt8) (some : l ≠ []) :
    padded writesize l ≠ [] := fun none => some (List.append_eq_nil_iff.mp none).1

theorem fill_eq (s : Writer) (fits : s.buf.length ≤ s.dev.mtd.erasesize) :
    fill s = { s with
      buf := (s.buf ++ s.image).take s.dev.mtd.erasesize
      image := (s.buf ++ s.image).drop s.dev.mtd.erasesize } := by
  rw [List.take_append, List.drop_append, List.take_of_length_le fits,
    List.drop_of_length_le fits, List.nil_append]
  rfl

theorem pad_eq (s : Writer) (fits : s.buf.length ≤ s.dev.mtd.erasesize) :
    pad s = { s with buf := padded s.dev.mtd.writesize s.buf } := by
  unfold pad
  dsimp only
  split_ifs with short
  · rfl
  · rw [padded_page _ s.dev.mtd.writesize_pos]
    rw [show s.buf.length = s.dev.mtd.erasesize by omega]
    exact s.dev.mtd.writesize_dvd

end Padding

section Invariant

variable (m : MtdInfo) (bad0 : Nat → Bool) (b0 k : Nat) (image : List UInt8)
  (following : List Device)

/-- What every state of a run has: `last` is the block that comes next in the loop that erases. -/
structure Frame (s : Writer) (last : Nat) : Prop where
  mtd : s.dev.mtd = m
  following : s.following = following
  closed : s.closed = []
  offset : s.offset = 0
  phys : s.physPartOff = b0 * m.erasesize
  place : s.e + s.physPartOff = last * m.erasesize
  low : b0 ≤ last
  high : last ≤ m.blocks
  before : ∀ b < b0, s.dev.flash.bad b = bad0 b

/-- The good blocks that were met so far. -/
def met (s : Writer) (last : Nat) : List Nat := goodFrom s.dev.flash.bad b0 last

/-- How many of them are still to be written. -/
def lag (s : Writer) (last : Nat) : Nat := (met b0 s last).length - s.dev.flash.writes.length

/-- The good blocks so far were erased, and hold the writes in order, as far as these go; those
after them are the last ones. -/
structure Going (s : Writer) (last : Nat) : Prop extends Frame m bad0 b0 following s last where
  later : ∀ b, last ≤ b → s.dev.flash.bad b = bad0 b
  skip : s.skipBadBlocks = (k + (last - b0 - (met b0 s last).length)) * m.erasesize
  count : s.dev.flash.writes.length ≤ (met b0 s last).length
  order : s.dev.flash.writes.map Prod.fst = (met b0 s last).take s.dev.flash.writes.length
  content : ∀ write ∈ s.dev.flash.writes, blockBytes s.dev write.1 =
    write.2 ++ List.replicate (m.erasesize - write.2.length) 0xff
  tail : (met b0 s last).drop s.dev.flash.writes.length =
    List.range' (last - lag b0 s last) (lag b0 s last)
  early : ∀ write ∈ s.dev.flash.writes.dropLast, write.2.length = m.erasesize
  blank : ∀ b ∈ (met b0 s last).drop s.dev.flash.writes.length,
    blockBytes s.dev b = List.replicate m.erasesize 0xff
  erased : ∀ b ∈ met b0 s last, b ∈ s.dev.flash.erased

/-- More is to be written, and will go to the next good block. -/
structure More (s : Writer) (last : Nat) : Prop where
  full : ∀ write ∈ s.dev.flash.writes, write.2.length = m.erasesize
  w : s.w = s.dev.flash.writes.length * m.erasesize
  pos : s.pos = (last - lag b0 s last) * m.erasesize

structure AtNext (s : Writer) (last : Nat) : Prop
    extends Going m bad0 b0 k following s last where
  label : s.label = .next
  fits : s.buf.length ≤ m.erasesize
  ahead : (met b0 s last).length ≤ s.dev.flash.writes.length + k
  bytes : s.dev.flash.writes.flatMap Prod.snd ++ padded m.writesize (s.buf ++ s.image) =
    padded m.writesize image
  left : (s.buf ++ s.image).length = image.length - s.dev.flash.writes.length * m.erasesize
  more : s.buf ++ s.image ≠ [] → More m b0 s last

structure AtRewrite (s : Writer) (last : Nat) : Prop
    extends Going m bad0 b0 k following s last, More m b0 s last where
  label : s.label = .rewrite
  some : s.buf ≠ []
  fits : s.buf.length ≤ m.erasesize
  short : s.buf.length < m.erasesize → s.image = []
  ahead : (met b0 s last).length ≤ s.dev.flash.writes.length + k + 1
  bytes : s.dev.flash.writes.flatMap Prod.snd ++ (s.buf ++ padded m.writesize s.image) =
    padded m.writesize image
  behind : s.dev.flash.writes.length * m.erasesize < image.length
  left : s.image.length = image.length - (s.dev.flash.writes.length + 1) * m.erasesize

end Invariant

section Steps

variable {m : MtdInfo} {bad0 : Nat → Bool} {b0 k : Nat} {image : List UInt8}
  {following : List Device} {s : Writer} {last : Nat}

theorem Going.rebuffer (going : Going m bad0 b0 k following s last) (label : Label)
    (buf rest : List UInt8) :
    Going m bad0 b0 k following { s with label := label, buf := buf, image := rest } last where
  mtd := going.mtd
  following := going.following
  closed := going.closed
  offset := going.offset
  phys := going.phys
  place := going.place
  low := going.low
  high := going.high
  before := going.before
  later := going.later
  skip := going.skip
  count := going.count
  order := going.order
  tail := going.tail
  content := going.content
  early := going.early
  blank := going.blank
  erased := going.erased

theorem next_step (noErase : Bool) (partOffset : Nat) (behind : List UInt8)
    (next : AtNext m bad0 b0 k image following s last) :
    (s.buf ++ s.image = [] ∧
        step noErase partOffset behind s = .returned (s.dev :: following)) ∨
      ∃ s', step noErase partOffset behind s = .running s' ∧ s'.dev = s.dev ∧
        AtRewrite m bad0 b0 k image following s' last := by
  have mtd := next.mtd
  have block : ((s.buf ++ s.image).take m.erasesize).length ≤ m.erasesize := by
    rw [List.length_take]
    exact Nat.min_le_left _ _
  unfold step
  rw [next.label]
  dsimp only
  rw [fill_eq s (by rw [mtd]; exact next.fits), mtd]
  by_cases none : s.buf ++ s.image = []
  · refine .inl ⟨none, ?_⟩
    rw [none, List.take_nil, if_pos rfl]
    change Status.returned (s.closed ++ s.dev :: s.following) = _
    rw [next.closed, next.following, List.nil_append]
  · have some : (s.buf ++ s.image).take m.erasesize ≠ [] := by
      rw [Ne, List.take_eq_nil_iff, not_or]
      exact ⟨m.erasesize_pos.ne', none⟩
    rw [if_neg some, pad_eq _ (by dsimp only; rwa [mtd])]
    refine .inr ⟨_, rfl, rfl, ?_⟩
    dsimp only
    rw [mtd]
    have more := next.more none
    have positive := List.length_pos_iff.mpr none
    have left := next.left
    constructor
    · exact next.toGoing.rebuffer _ _ _
    · exact ⟨more.full, more.w, more.pos⟩
    · rfl
    · exact padded_ne_nil _ _ some
    · exact padded_block m _ block
    · intro short
      apply List.drop_of_length_le
      by_contra long
      have whole : ((s.buf ++ s.image).take m.erasesize).length = m.erasesize := by
        rw [List.length_take]
        omega
      rw [padded_page _ m.writesize_pos _ (by rw [whole]; exact m.writesize_dvd)] at short
      exact absurd short (by rw [whole]; exact lt_irrefl _)
    · exact le_trans next.ahead (Nat.le_succ _)
    · rw [← padded_take_drop]
      exact next.bytes
    · dsimp only
      omega
    · dsimp only
      rw [List.length_drop, left, Nat.succ_mul]
      omega

theorem lag_le : lag b0 s last ≤ last - b0 :=
  le_trans (Nat.sub_le _ _) (goodFrom_length _ _ _)

/-- A block that was met is not the next one, nor past it. -/
theorem met_lt (b : Nat) (member : b ∈ met b0 s last) : b0 ≤ b ∧ b < last := by
  have bounds := (mem_goodFrom _ _ _ _).mp member
  exact ⟨bounds.1, bounds.2.1⟩

theorem Going.write_met (going : Going m bad0 b0 k following s last)
    (write : Nat × List UInt8) (member : write ∈ s.dev.flash.writes) :
    write.1 ∈ met b0 s last := by
  have first : write.1 ∈ s.dev.flash.writes.map Prod.fst := List.mem_map_of_mem member
  rw [going.order] at first
  exact List.mem_of_mem_take first

/-- A change within one block leaves the others. -/
theorem blockBytes_other (dev : Device) (data : Bytes) (b c : Nat) (other : b ≠ c)
    (same : ∀ k, k < c * dev.mtd.erasesize ∨ c * dev.mtd.erasesize + dev.mtd.erasesize ≤ k →
      data k = dev.flash.data k) :
    blockBytes { dev with flash := { dev.flash with data := data } } b = blockBytes dev b := by
  apply Bytes.slice_congr
  intro k (bound : k < dev.mtd.erasesize)
  apply same
  rcases Nat.lt_or_gt_of_ne other with less | more
  · left
    have step := Nat.mul_le_mul_right dev.mtd.erasesize less
    rw [Nat.succ_mul] at step
    dsimp only
    omega
  · right
    have step := Nat.mul_le_mul_right dev.mtd.erasesize more
    rw [Nat.succ_mul] at step
    dsimp only
    omega

/-- Moving over a block that is bad by now does not change the good ones that were met. -/
theorem met_skip (frame : Frame m bad0 b0 following s last) (bad : Nat → Bool)
    (isBad : bad last = true) (others : ∀ b, b ≠ last → bad b = s.dev.flash.bad b) :
    met b0 (skipBlock (s.setFlash { s.dev.flash with bad := bad })) (last + 1) =
      met b0 s last := by
  change goodFrom bad b0 (last + 1) = goodFrom s.dev.flash.bad b0 last
  rw [goodFrom_succ bad b0 last frame.low, isBad, if_pos rfl, List.append_nil]
  exact goodFrom_congr _ _ _ _ fun b _ high => others b (by omega)

theorem skip_frame (frame : Frame m bad0 b0 following s last) (inRange : last < m.blocks)
    (bad : Nat → Bool) (others : ∀ b, b ≠ last → bad b = s.dev.flash.bad b) :
    Frame m bad0 b0 following (skipBlock (s.setFlash { s.dev.flash with bad := bad }))
      (last + 1) where
  mtd := frame.mtd
  following := frame.following
  closed := frame.closed
  offset := frame.offset
  phys := frame.phys
  place := by
    have place := frame.place
    change s.e + s.dev.mtd.erasesize + s.physPartOff = _
    rw [frame.mtd, Nat.succ_mul, ← place]
    omega
  low := Nat.le_succ_of_le frame.low
  high := inRange
  before b below := by
    have low := frame.low
    exact (others b (by omega)).trans (frame.before b below)

/-- The next block is bad, or turns bad when it is erased, while none waits to be written. -/
theorem skip_rewrite (rewrite : AtRewrite m bad0 b0 k image following s last)
    (caughtUp : lag b0 s last = 0) (inRange : last < m.blocks) (bad : Nat → Bool)
    (isBad : bad last = true) (others : ∀ b, b ≠ last → bad b = s.dev.flash.bad b) :
    AtRewrite m bad0 b0 k image following
      (skipBlock (s.setFlash { s.dev.flash with bad := bad })) (last + 1) := by
  have low := rewrite.low
  have mtd := rewrite.mtd
  have same := met_skip rewrite.toFrame bad isBad others
  have sameLag : lag b0 (skipBlock (s.setFlash { s.dev.flash with bad := bad })) (last + 1) = 0 := by
    unfold lag
    rw [same]
    exact caughtUp
  have size := goodFrom_length s.dev.flash.bad b0 last
  change (met b0 s last).length ≤ last - b0 at size
  have move : (skipBlock (s.setFlash { s.dev.flash with bad := bad })).pos =
      s.pos + m.erasesize := by
    rw [← mtd]
    rfl
  constructor
  · constructor
    · exact skip_frame rewrite.toFrame inRange bad others
    · intro b above
      exact (others b (by omega)).trans (rewrite.later b (by omega))
    · rw [same]
      change s.skipBadBlocks + s.dev.mtd.erasesize = _
      rw [rewrite.skip, mtd, ← Nat.succ_mul]
      congr 1
      omega
    · rw [same]
      exact rewrite.count
    · rw [same]
      exact rewrite.order
    · exact rewrite.content
    · rw [same, sameLag]
      have tail := rewrite.tail
      rw [caughtUp] at tail
      exact tail
    · exact rewrite.early
    · rw [same]
      exact rewrite.blank
    · rw [same]
      exact rewrite.erased
  · constructor
    · exact rewrite.full
    · exact rewrite.w
    · rw [sameLag, move, rewrite.pos, caughtUp, Nat.sub_zero, Nat.sub_zero, Nat.succ_mul]
  · exact rewrite.label
  · exact rewrite.some
  · exact rewrite.fits
  · exact rewrite.short
  · rw [same]
    exact rewrite.ahead
  · exact rewrite.bytes
  · exact rewrite.behind
  · exact rewrite.left

theorem met_erase (frame : Frame m bad0 b0 following s last)
    (good : s.dev.flash.bad last = false) :
    met b0 { s.setFlash (s.dev.flash.erase m.erasesize last) with e := s.e + m.erasesize }
      (last + 1) = met b0 s last ++ [last] := by
  change goodFrom s.dev.flash.bad b0 (last + 1) = goodFrom s.dev.flash.bad b0 last ++ [last]
  rw [goodFrom_succ _ b0 last frame.low, good]
  rfl

/-- The next block is good, and erased. -/
theorem erase_rewrite (rewrite : AtRewrite m bad0 b0 k image following s last)
    (inRange : last < m.blocks) (good : s.dev.flash.bad last = false)
    (room : (met b0 s last).length ≤ s.dev.flash.writes.length + k) :
    AtRewrite m bad0 b0 k image following
      { s.setFlash (s.dev.flash.erase m.erasesize last) with e := s.e + m.erasesize }
      (last + 1) := by
  obtain ⟨s', after⟩ : ∃ s', s' =
    { s.setFlash (s.dev.flash.erase m.erasesize last) with e := s.e + m.erasesize } := ⟨_, rfl⟩
  have low := rewrite.low
  have mtd := rewrite.mtd
  have count := rewrite.count
  have more : met b0 s' (last + 1) = met b0 s last ++ [last] := by
    rw [after]
    exact met_erase rewrite.toFrame good
  have moreLag : lag b0 s' (last + 1) = lag b0 s last + 1 := by
    unfold lag
    rw [more, List.length_append, List.length_singleton, after]
    change _ - s.dev.flash.writes.length = _
    omega
  have size := goodFrom_length s.dev.flash.bad b0 last
  change (met b0 s last).length ≤ last - b0 at size
  have lagBound := @lag_le b0 s last
  have others : ∀ b, b ≠ last → blockBytes s'.dev b = blockBytes s.dev b := by
    intro b other
    rw [after]
    apply blockBytes_other s.dev _ b last other
    intro k outside
    rw [mtd] at outside
    exact Bytes.memset_outside _ _ _ _ _ outside
  rw [← after]
  constructor
  · constructor
    · constructor
      · rw [after]; exact mtd
      · rw [after]; exact rewrite.following
      · rw [after]; exact rewrite.closed
      · rw [after]; exact rewrite.offset
      · rw [after]; exact rewrite.phys
      · have place := rewrite.place
        rw [after]
        change s.e + m.erasesize + s.physPartOff = _
        rw [Nat.succ_mul, ← place]
        omega
      · exact Nat.le_succ_of_le low
      · exact inRange
      · rw [after]; exact rewrite.before
    · rw [after]
      exact fun b above => rewrite.later b (by omega)
    · rw [more, List.length_append, List.length_singleton, after]
      change s.skipBadBlocks = _
      rw [rewrite.skip]
      congr 1
      omega
    · rw [more, List.length_append, after]
      exact le_trans count (Nat.le_add_right _ _)
    · rw [more, after]
      change s.dev.flash.writes.map Prod.fst = (met b0 s last ++ [last]).take s.dev.flash.writes.length
      rw [List.take_append_of_le_length count]
      exact rewrite.order
    · intro write member
      rw [after] at member
      have bounds := met_lt write.1 (rewrite.write_met write member)
      rw [others write.1 (by omega)]
      exact rewrite.content write member
    · rw [more, moreLag, after]
      change (met b0 s last ++ [last]).drop s.dev.flash.writes.length = _
      rw [List.drop_append_of_le_length count, rewrite.tail,
        show last + 1 - (lag b0 s last + 1) = last - lag b0 s last by omega, List.range'_1_concat,
        show last - lag b0 s last + lag b0 s last = last by omega]
    · rw [after]; exact rewrite.early
    · intro b member
      rw [more, after] at member
      change b ∈ (met b0 s last ++ [last]).drop s.dev.flash.writes.length at member
      rw [List.drop_append_of_le_length count, List.mem_append, List.mem_singleton] at member
      rcases member with waiting | rfl
      · have bounds := met_lt b (List.mem_of_mem_drop waiting)
        rw [others b (by omega)]
        exact rewrite.blank b waiting
      · rw [after]
        change ((s.dev.flash.data.memset (b * m.erasesize) 0xff m.erasesize).slice
          (b * s.dev.mtd.erasesize) s.dev.mtd.erasesize) = _
        rw [mtd]
        apply Bytes.slice_eq_replicate
        intro k bound
        exact Bytes.memset_inside _ _ _ _ _ (Nat.le_add_right _ _) (by omega)
    · intro b member
      rw [more, List.mem_append, List.mem_singleton] at member
      rw [after]
      change b ∈ last :: s.dev.flash.erased
      rcases member with old | rfl
      · exact List.mem_cons_of_mem _ (rewrite.erased b old)
      · exact List.mem_cons_self
  · constructor
    · rw [after]; exact rewrite.full
    · rw [after]; exact rewrite.w
    · rw [moreLag, after]
      change s.pos = _
      rw [rewrite.pos]
      congr 1
      omega
  · rw [after]; exact rewrite.label
  · rw [after]; exact rewrite.some
  · rw [after]; exact rewrite.fits
  · rw [after]; exact rewrite.short
  · rw [more, List.length_append, List.length_singleton, after]
    change (met b0 s last).length + 1 ≤ s.dev.flash.writes.length + k + 1
    omega
  · rw [after]; exact rewrite.bytes
  · rw [after]; exact rewrite.behind
  · rw [after]; exact rewrite.left

theorem AtRewrite.pos_div (rewrite : AtRewrite m bad0 b0 k image following s last) :
    s.pos / s.dev.mtd.erasesize = last - lag b0 s last := by
  rw [rewrite.pos, rewrite.mtd, Nat.mul_div_cancel _ m.erasesize_pos]

/-- The first of the blocks that wait is the one at the file pointer. -/
theorem AtRewrite.met_split (rewrite : AtRewrite m bad0 b0 k image following s last)
    (waiting : 0 < lag b0 s last) :
    met b0 s last = (met b0 s last).take s.dev.flash.writes.length ++ (last - lag b0 s last) ::
      List.range' (last - lag b0 s last + 1) (lag b0 s last - 1) := by
  have tail := rewrite.tail
  obtain ⟨more, count⟩ := Nat.exists_eq_succ_of_ne_zero waiting.ne'
  rw [count, List.range'_succ] at tail
  rw [count, Nat.succ_sub_one, ← tail, List.take_append_drop]

/-- It is none of those that were written to. -/
theorem AtRewrite.missed (rewrite : AtRewrite m bad0 b0 k image following s last)
    (waiting : 0 < lag b0 s last) (write : Nat × List UInt8)
    (member : write ∈ s.dev.flash.writes) : write.1 ≠ last - lag b0 s last := by
  have distinct : (met b0 s last).Nodup := goodFrom_nodup _ _ _
  rw [rewrite.met_split waiting] at distinct
  have first : write.1 ∈ s.dev.flash.writes.map Prod.fst := List.mem_map_of_mem member
  rw [rewrite.order] at first
  exact (List.nodup_append.mp distinct).2.2 write.1 first _ List.mem_cons_self

/-- The write succeeds, and goes to the first of the blocks that wait. -/
theorem write_next (rewrite : AtRewrite m bad0 b0 k image following s last)
    (waiting : 0 < lag b0 s last) :
    AtNext m bad0 b0 k image following { s.setFlash { s.dev.flash with
        data := s.dev.flash.data.splice s.pos s.buf
        writes := s.dev.flash.writes ++ [(s.pos / s.dev.mtd.erasesize, s.buf)] } with
      label := .next, pos := s.pos + s.buf.length, w := s.w + s.buf.length, buf := []
      offset := 0 } last := by
  rw [rewrite.pos_div]
  obtain ⟨s', after⟩ : ∃ s', s' = { s.setFlash { s.dev.flash with
        data := s.dev.flash.data.splice s.pos s.buf
        writes := s.dev.flash.writes ++ [(last - lag b0 s last, s.buf)] } with
      label := .next, pos := s.pos + s.buf.length, w := s.w + s.buf.length, buf := []
      offset := 0 } := ⟨_, rfl⟩
  have mtd := rewrite.mtd
  have size := goodFrom_length s.dev.flash.bad b0 last
  change (met b0 s last).length ≤ last - b0 at size
  have lagBound := @lag_le b0 s last
  have count : s.dev.flash.writes.length < (met b0 s last).length := Nat.lt_of_sub_pos waiting
  have split := rewrite.met_split waiting
  have same : met b0 s' last = met b0 s last := by rw [after]; rfl
  have writes : s'.dev.flash.writes =
      s.dev.flash.writes ++ [(last - lag b0 s last, s.buf)] := by rw [after]; rfl
  have empty : s'.buf = [] := by rw [after]
  have rest : s'.image = s.image := by rw [after]; rfl
  have lessLag : lag b0 s' last = lag b0 s last - 1 := by
    unfold lag
    rw [same, writes, List.length_append, List.length_singleton]
    omega
  -- the blocks before and after it keep their content
  have others : ∀ b, b ≠ last - lag b0 s last → blockBytes s'.dev b = blockBytes s.dev b := by
    intro b other
    rw [after]
    apply blockBytes_other s.dev _ b (last - lag b0 s last) other
    intro j outside
    have fits := rewrite.fits
    rw [mtd] at outside
    apply Bytes.splice_outside
    rw [rewrite.pos]
    omega
  have takeOne : (met b0 s last).take (s.dev.flash.writes.length + 1) =
      (met b0 s last).take s.dev.flash.writes.length ++ [last - lag b0 s last] := by
    conv_lhs => rw [split]
    rw [List.take_append, List.length_take, Nat.min_eq_left count.le,
      List.take_of_length_le (by rw [List.length_take]; omega), Nat.add_sub_cancel_left]
    rfl
  have dropOne : (met b0 s last).drop (s.dev.flash.writes.length + 1) =
      List.range' (last - lag b0 s last + 1) (lag b0 s last - 1) := by
    conv_lhs => rw [split]
    rw [List.drop_append, List.length_take, Nat.min_eq_left count.le,
      List.drop_of_length_le (by rw [List.length_take]; omega), Nat.add_sub_cancel_left]
    rfl
  rw [← after]
  constructor
  · constructor
    · constructor
      · rw [after]; exact mtd
      · rw [after]; exact rewrite.following
      · rw [after]; exact rewrite.closed
      · rw [after]
      · rw [after]; exact rewrite.phys
      · rw [after]; exact rewrite.place
      · exact rewrite.low
      · exact rewrite.high
      · rw [after]; exact rewrite.before
    · rw [after]; exact rewrite.later
    · rw [same, after]; exact rewrite.skip
    · rw [same, writes, List.length_append, List.length_singleton]
      exact count
    · rw [same, writes, List.map_append, List.length_append, List.length_singleton, takeOne,
        rewrite.order]
      rfl
    · intro write member
      rw [writes, List.mem_append, List.mem_singleton] at member
      rcases member with old | rfl
      · rw [others write.1 (rewrite.missed waiting write old)]
        exact rewrite.content write old
      · have fits := rewrite.fits
        have blank := rewrite.blank (last - lag b0 s last) (by
          rw [rewrite.tail]
          exact List.mem_range'_1.mpr ⟨le_refl _, by omega⟩)
        rw [after]
        change (s.dev.flash.data.splice s.pos s.buf).slice
          ((last - lag b0 s last) * s.dev.mtd.erasesize) s.dev.mtd.erasesize = _
        change s.dev.flash.data.slice
          ((last - lag b0 s last) * s.dev.mtd.erasesize) s.dev.mtd.erasesize = _ at blank
        rw [mtd] at blank ⊢
        apply Bytes.slice_eq_list
        · rw [List.length_append, List.length_replicate]
          dsimp only
          omega
        · intro j bound
          rw [rewrite.pos]
          dsimp only
          by_cases inside : j < s.buf.length
          · rw [Bytes.splice_inside _ _ _ _ (Nat.le_add_right _ _) (by omega),
              Nat.add_sub_cancel_left, List.getD_eq_getElem?_getD, List.getD_eq_getElem?_getD,
              List.getElem?_append_left inside]
          · rw [Bytes.splice_outside _ _ _ _ (by omega), List.getD_eq_getElem?_getD,
              List.getElem?_append_right (by omega), ← List.getD_eq_getElem?_getD]
            have byte := Bytes.slice_getD s.dev.flash.data
              ((last - lag b0 s last) * m.erasesize) m.erasesize j bound
            rw [blank] at byte
            rw [← byte]
            simp only [List.getD_eq_getElem?_getD, List.getElem?_replicate]
            rw [if_pos bound, if_pos (by omega)]
    · rw [same, lessLag, writes, List.length_append, List.length_singleton, dropOne]
      congr 1
      omega
    · rw [writes, List.dropLast_concat]
      exact rewrite.full
    · intro b member
      rw [same, writes, List.length_append, List.length_singleton, dropOne] at member
      have bounds := List.mem_range'_1.mp member
      rw [others b (by omega)]
      apply rewrite.blank
      rw [rewrite.tail]
      exact List.mem_range'_1.mpr (by omega)
    · rw [same, after]; exact rewrite.erased
  · rw [after]
  · rw [after]
    exact Nat.zero_le _
  · have ahead := rewrite.ahead
    rw [same, writes, List.length_append, List.length_singleton]
    omega
  · have bytes := rewrite.bytes
    rw [writes, List.flatMap_append, empty, rest]
    simpa only [List.flatMap_cons, List.flatMap_nil, List.append_nil, List.nil_append,
      List.append_assoc] using bytes
  · have left := rewrite.left
    rw [writes, empty, rest, List.nil_append, List.length_append, List.length_singleton]
    exact left
  · intro some
    have whole : s.buf.length = m.erasesize := by
      have fits := rewrite.fits
      by_contra other
      apply some
      rw [empty, rest, rewrite.short (by omega), List.append_nil]
    constructor
    · intro write member
      rw [writes, List.mem_append, List.mem_singleton] at member
      rcases member with old | rfl
      · exact rewrite.full write old
      · exact whole
    · rw [writes, List.length_append, List.length_singleton, after]
      change s.w + s.buf.length = _
      rw [rewrite.w, whole, Nat.succ_mul]
    · rw [lessLag, after]
      change s.pos + s.buf.length = _
      rw [rewrite.pos, whole, ← Nat.succ_mul]
      congr 1
      omega

/-- The write fails in the only block that waits, which is the last one: it is marked bad. -/
theorem worn_rewrite (rewrite : AtRewrite m bad0 b0 k image following s last)
    (single : lag b0 s last = 1) :
    AtRewrite m bad0 b0 k image following { s.setFlash (({ s.dev.flash with
          data := s.dev.flash.data.memcpy s.pos s.dev.mtd.torn s.pos s.buf.length }).mark
            (last - 1)) with
      skipBadBlocks := s.skipBadBlocks + s.dev.mtd.erasesize
      pos := last * s.dev.mtd.erasesize } last := by
  obtain ⟨s', after⟩ : ∃ s', s' = { s.setFlash (({ s.dev.flash with
          data := s.dev.flash.data.memcpy s.pos s.dev.mtd.torn s.pos s.buf.length }).mark
            (last - 1)) with
      skipBadBlocks := s.skipBadBlocks + s.dev.mtd.erasesize
      pos := last * s.dev.mtd.erasesize } := ⟨_, rfl⟩
  have mtd := rewrite.mtd
  have low := rewrite.low
  have size := goodFrom_length s.dev.flash.bad b0 last
  change (met b0 s last).length ≤ last - b0 at size
  have count : (met b0 s last).length = s.dev.flash.writes.length + 1 := by
    unfold lag at single
    omega
  have split := rewrite.met_split (by omega)
  rw [single, List.range'_zero] at split
  have lastGood : s.dev.flash.bad (last - 1) = false := by
    have member : last - 1 ∈ met b0 s last := by
      rw [split]
      exact List.mem_append_right _ List.mem_cons_self
    exact ((mem_goodFrom _ _ _ _).mp member).2.2
  have bad : s'.dev.flash.bad = Function.update s.dev.flash.bad (last - 1) true := by
    rw [after]
    rfl
  have writes : s'.dev.flash.writes = s.dev.flash.writes := by
    rw [after]
    rfl
  have less : met b0 s' last = (met b0 s last).take s.dev.flash.writes.length := by
    have before := goodFrom_succ s.dev.flash.bad b0 (last - 1) (by omega)
    have now := goodFrom_succ s'.dev.flash.bad b0 (last - 1) (by omega)
    rw [show last - 1 + 1 = last by omega] at before now
    rw [lastGood] at before
    rw [bad, Function.update_self, goodFrom_update _ _ _ _ (.inr (le_refl _))] at now
    change goodFrom s'.dev.flash.bad b0 last = _
    rw [bad, now, if_pos rfl, List.append_nil]
    change met b0 s last = _ ++ [last - 1] at before
    rw [before] at split count ⊢
    rw [List.length_append, List.length_singleton] at count
    rw [List.take_append_of_le_length (by omega), List.take_of_length_le (by omega)]
  have caughtUp : lag b0 s' last = 0 := by
    unfold lag
    rw [less, List.length_take, writes]
    exact Nat.sub_eq_zero_of_le (Nat.min_le_left _ _)
  have apart : ∀ b ∈ met b0 s' last, b ≠ last - 1 := by
    intro b member equal
    have good := ((mem_goodFrom _ _ _ _).mp member).2.2
    rw [bad, equal, Function.update_self] at good
    cases good
  have others : ∀ b, b ≠ last - 1 → blockBytes s'.dev b = blockBytes s.dev b := by
    intro b other
    rw [after]
    apply blockBytes_other s.dev _ b (last - 1) other
    intro j outside
    have fits := rewrite.fits
    have pos := rewrite.pos
    rw [single] at pos
    rw [mtd] at outside
    apply Bytes.memcpy_outside
    rw [pos]
    omega
  have firsts : s.dev.flash.writes.map Prod.fst = met b0 s' last := by
    rw [less]
    exact rewrite.order
  rw [← after]
  constructor
  · constructor
    · constructor
      · rw [after]; exact mtd
      · rw [after]; exact rewrite.following
      · rw [after]; exact rewrite.closed
      · rw [after]; exact rewrite.offset
      · rw [after]; exact rewrite.phys
      · rw [after]; exact rewrite.place
      · exact low
      · exact rewrite.high
      · intro b below
        rw [bad, Function.update_of_ne (by omega)]
        exact rewrite.before b below
    · intro b above
      rw [bad, Function.update_of_ne (by omega)]
      exact rewrite.later b above
    · rw [less, List.length_take, Nat.min_eq_left (by omega), after]
      change s.skipBadBlocks + s.dev.mtd.erasesize = _
      rw [rewrite.skip, mtd, ← Nat.succ_mul]
      congr 1
      omega
    · rw [less, List.length_take, writes]
      exact Nat.le_min.mpr ⟨le_refl _, by omega⟩
    · rw [← firsts, writes]
      exact (List.take_of_length_le (by rw [List.length_map])).symm
    · intro write member
      rw [writes] at member
      have first : write.1 ∈ s.dev.flash.writes.map Prod.fst := List.mem_map_of_mem member
      rw [firsts] at first
      rw [others write.1 (apart write.1 first)]
      exact rewrite.content write member
    · rw [caughtUp, ← firsts, writes]
      exact List.drop_of_length_le (by rw [List.length_map])
    · rw [writes]; exact rewrite.early
    · intro b member
      rw [← firsts, writes, List.drop_of_length_le (by rw [List.length_map])] at member
      cases member
    · intro b member
      rw [less] at member
      rw [after]
      exact rewrite.erased b (List.mem_of_mem_take member)
  · constructor
    · rw [after]; exact rewrite.full
    · rw [after]; exact rewrite.w
    · rw [caughtUp, after, Nat.sub_zero]
      change last * s.dev.mtd.erasesize = _
      rw [mtd]
  · rw [after]; exact rewrite.label
  · rw [after]; exact rewrite.some
  · rw [after]; exact rewrite.fits
  · rw [after]; exact rewrite.short
  · rw [less, List.length_take, writes]
    exact le_trans (Nat.min_le_left _ _) (by omega)
  · rw [after]; exact rewrite.bytes
  · rw [after]; exact rewrite.behind
  · rw [after]; exact rewrite.left

end Steps

end Filogic.Mtd
