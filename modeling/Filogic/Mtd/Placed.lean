import Filogic.Mtd.Turned

/-! `mtd_write` places the image as it should exactly if no block goes astray. -/

namespace Filogic.Mtd
open Lib

section Start

variable {p : Partition} {partOffset : Nat} {image : List UInt8} {ready : Nat}
  {following : List Partition}

/-- The writer is at the next good block when it starts. -/
theorem start_next (b0 k : Nat) (inRange : b0 ≤ p.mtd.blocks) (s : Writer)
    (start : s = { starting image ready p following with
      pos := b0 * p.mtd.erasesize, physPartOff := b0 * p.mtd.erasesize
      skipBadBlocks := k * p.mtd.erasesize, curOff := s.curOff }) :
    AtNext p.mtd p.bad b0 k image (following.map Partition.device) s b0 ∧
      Straight p b0 k s b0 := by
  have dev : s.dev = p.device := by rw [start]; rfl
  have writes : s.dev.flash.writes = [] := by rw [dev]; rfl
  have none : met b0 s b0 = [] := goodFrom_self _ _
  have buffer : s.buf ++ s.image = image := by
    rw [start]
    exact List.take_append_drop _ _
  constructor
  · constructor
    · constructor
      · constructor
        · rw [dev]; rfl
        · rw [start]; rfl
        · rw [start]; rfl
        · rw [start]; rfl
        · rw [start]
        · rw [start]
          exact Nat.zero_add _
        · exact le_refl _
        · exact inRange
        · intro b _
          rw [dev]
          rfl
      · intro b _
        rw [dev]
        rfl
      · rw [none, start]
        simp
      · rw [writes]
        exact Nat.zero_le _
      · simp [writes, none]
      · rw [writes]
        nofun
      · simp [lag, none]
      · rw [writes]
        nofun
      · rw [none, List.drop_nil]
        nofun
      · rw [none]
        nofun
    · rw [start]; rfl
    · rw [start]
      exact le_trans (List.length_take_le _ _) (Nat.min_le_right _ _)
    · rw [none]
      exact Nat.zero_le _
    · rw [buffer, writes]
      rfl
    · rw [buffer, writes]
      simp
    · intro _
      constructor
      · rw [writes]
        nofun
      · rw [writes, start]
        exact (Nat.zero_mul _).symm
      · rw [start]
        simp [lag, met, goodFrom_self]
  · right
    refine ⟨b0, le_refl _, le_refl _, ?_, ?_, ?_, ?_, ?_⟩
    · intro x above below
      omega
    · rw [none, Nat.sub_self]
      rfl
    · intro x above below
      omega
    · rw [writes]
      intro x above below
      exact absurd below (Nat.not_lt.mpr above)
    · intro some
      exact absurd (congrArg List.length writes) some

theorem resume_seek (some : partOffset ≠ 0) (s : Writer)
    (aligned : ¬partOffset % s.dev.mtd.erasesize ≠ 0) (cur phys skip : Nat)
    (found : seek s.dev.mtd s.dev.flash partOffset (s.dev.mtd.mtdsize / s.dev.mtd.erasesize)
      s.curOff s.physPartOff s.skipBadBlocks = (cur, phys, skip)) :
    resume partOffset s = if phys = s.dev.mtd.mtdsize then .exited else .running { s with
      label := .next, pos := phys, w := 0, e := 0
      curOff := cur, physPartOff := phys, skipBadBlocks := skip } := by
  unfold resume
  dsimp only
  rw [if_neg some, if_neg aligned, found]

/-- Where the writer starts, if it does. -/
theorem resume_start (s : Writer)
    (ok : resume partOffset (starting image ready p following) = .running s) :
    AtNext p.mtd p.bad (startBlock p partOffset) (passedBad p partOffset) image
        (following.map Partition.device) s (startBlock p partOffset) ∧
      Straight p (startBlock p partOffset) (passedBad p partOffset) s (startBlock p partOffset) ∧
      partOffset = (goodFrom p.bad 0 (startBlock p partOffset)).length * p.mtd.erasesize := by
  unfold startBlock passedBad sought
  by_cases zero : partOffset = 0
  · unfold resume at ok
    rw [if_pos zero] at ok
    simp only [if_pos zero, Nat.zero_div, goodFrom_self, List.length_nil, Nat.zero_mul]
    have started := @start_next p image ready following 0 0 (Nat.zero_le _) s (by
      rw [← Status.running.inj ok]
      simp [starting])
    exact ⟨started.1, started.2, zero⟩
  · rw [if_neg zero]
    by_cases aligned : partOffset % p.mtd.erasesize ≠ 0
    · have refused : resume partOffset (starting image ready p following) = .exited :=
        (if_neg zero).trans (if_pos aligned)
      rw [refused] at ok
      cases ok
    · obtain ⟨b, bound, found, stop⟩ := seek_counts p.mtd p.device.flash partOffset
        (p.mtd.mtdsize / p.mtd.erasesize) 0 (Nat.zero_le _) (le_refl _)
      simp only [goodFrom_self, List.length_nil, Nat.zero_mul, Nat.sub_zero] at found
      rw [resume_seek zero _ aligned _ _ _ found] at ok
      split_ifs at ok with past
      have inside : b ≠ p.mtd.blocks := by
        rintro rfl
        exact past p.mtd.blocks_mul
      have started := @start_next p image ready following b
        (b - (goodFrom p.device.flash.bad 0 b).length) bound s (by
          rw [← Status.running.inj ok]
          rfl)
      rw [found]
      dsimp only
      rw [Nat.mul_div_cancel _ p.mtd.erasesize_pos, Nat.mul_div_cancel _ p.mtd.erasesize_pos]
      exact ⟨started.1, started.2, (stop.resolve_left inside).symm⟩

theorem resume_dev (s s' : Writer) (ok : resume partOffset s = .running s') : s'.dev = s.dev := by
  unfold resume at ok
  dsimp only at ok
  split_ifs at ok
  · rw [← Status.running.inj ok]
  · rw [← Status.running.inj ok]

theorem resume_returned (s : Writer) (devices : List Device) :
    resume partOffset s ≠ .returned devices := by
  unfold resume
  dsimp only
  split_ifs <;> nofun

end Start

section Reading

/-- Blocks that hold what was written to them, all but the last one to the end, hold the writes in
a row. -/
theorem writes_in_row (size : Nat) (content : Nat → List UInt8)
    (writes : List (Nat × List UInt8))
    (holds : ∀ write ∈ writes, content write.1 =
      write.2 ++ List.replicate (size - write.2.length) 0xff)
    (early : ∀ write ∈ writes.dropLast, write.2.length = size) :
    writes.flatMap Prod.snd <+: (writes.map Prod.fst).flatMap content := by
  induction writes with
  | nil => exact List.nil_prefix
  | cons write writes ih =>
    rw [List.flatMap_cons, List.map_cons, List.flatMap_cons, holds write List.mem_cons_self]
    cases writes with
    | nil =>
      simp only [List.map_nil, List.flatMap_nil, List.append_nil]
      exact List.prefix_append _ _
    | cons next rest =>
      rw [List.dropLast_cons_cons] at early
      rw [early write List.mem_cons_self, Nat.sub_self, List.replicate_zero, List.append_nil,
        List.prefix_append_right_inj]
      apply ih
      · intro other member
        exact holds other (List.mem_cons_of_mem _ member)
      · intro other member
        exact early other (List.mem_cons_of_mem _ member)

variable (dev : Device)

theorem goodBlocks_eq : goodBlocks dev = goodFrom dev.flash.bad 0 dev.mtd.blocks := by
  unfold goodBlocks goodFrom
  rw [List.range_eq_range']
  rfl

theorem goodBlocks_split (b0 last : Nat) (low : b0 ≤ last) (high : last ≤ dev.mtd.blocks) :
    goodBlocks dev = goodFrom dev.flash.bad 0 b0 ++
      (goodFrom dev.flash.bad b0 last ++ goodFrom dev.flash.bad last dev.mtd.blocks) := by
  rw [← goodFrom_append _ _ _ _ low high,
    ← goodFrom_append _ _ _ _ (Nat.zero_le _) (le_trans low high), goodBlocks_eq]

theorem blocks_length (blocks : List Nat) :
    (blocks.flatMap (blockBytes dev)).length = blocks.length * dev.mtd.erasesize := by
  induction blocks with
  | nil => simp
  | cons b blocks ih =>
    rw [List.flatMap_cons, List.length_append, ih, List.length_cons, Nat.succ_mul,
      Nat.add_comm, blockBytes, Bytes.slice_length]

theorem written_first (following : List Partition) :
    written (dev :: following.map Partition.device) =
      dev.flash.writes.map fun write => ((0, write.1), write.2) := by
  have none : ((following.map Partition.device).zipIdx 1).flatMap (fun dev =>
      dev.1.flash.writes.map fun write => ((dev.2, write.1), write.2)) = [] := by
    rw [List.flatMap_eq_nil_iff]
    intro other member
    obtain ⟨p, -, same⟩ := List.mem_map.mp (List.fst_mem_of_mem_zipIdx member)
    rw [← same]
    rfl
  rw [written, List.zipIdx_cons, List.flatMap_cons, none, List.append_nil]

theorem places_first (devices : List Device) :
    ∃ others, places (dev :: devices) = (goodBlocks dev).map (0, ·) ++ others := by
  rw [places, List.zipIdx_cons, List.flatMap_cons]
  exact ⟨_, rfl⟩

end Reading

section Ends

variable {p : Partition} {b0 k partOffset : Nat} {image : List UInt8}
  {following : List Partition} {s : Writer} {last hole : Nat}

theorem Frame.before_length (frame : Frame p.mtd p.bad b0 (following.map Partition.device) s last)
    (offset : partOffset = (goodFrom p.bad 0 b0).length * p.mtd.erasesize) :
    partOffset = (goodFrom s.dev.flash.bad 0 b0).length * p.mtd.erasesize := by
  rw [goodFrom_congr p.bad s.dev.flash.bad 0 b0 fun b _ below => frame.before b below]
  exact offset

/-- What comes from the logical offset on. -/
theorem Frame.drop_places (frame : Frame p.mtd p.bad b0 (following.map Partition.device) s last)
    (offset : partOffset = (goodFrom p.bad 0 b0).length * p.mtd.erasesize) :
    ∃ others, (places (s.dev :: following.map Partition.device)).drop
        (partOffset / p.mtd.erasesize) = (met b0 s last).map (0, ·) ++ others := by
  have high := frame.high
  rw [← frame.mtd] at high
  obtain ⟨others, split⟩ := places_first s.dev (following.map Partition.device)
  rw [split, goodBlocks_split s.dev b0 last frame.low high, List.map_append, List.map_append,
    frame.before_length offset, Nat.mul_div_cancel _ p.mtd.erasesize_pos, List.append_assoc,
    List.drop_left' (by rw [List.length_map]), List.append_assoc]
  exact ⟨_, rfl⟩

theorem Frame.drop_logical {rest : List Device}
    (frame : Frame p.mtd p.bad b0 (following.map Partition.device) s last)
    (offset : partOffset = (goodFrom p.bad 0 b0).length * p.mtd.erasesize) :
    ∃ others, (logicalBytes (s.dev :: rest)).drop partOffset =
      (met b0 s last).flatMap (blockBytes s.dev) ++ others := by
  have high := frame.high
  rw [← frame.mtd] at high
  rw [logicalBytes, List.flatMap_cons, goodBlocks_split s.dev b0 last frame.low high,
    List.flatMap_append, List.flatMap_append, frame.before_length offset, List.append_assoc,
    List.drop_left' (by rw [blocks_length, frame.mtd]), List.append_assoc]
  exact ⟨_, rfl⟩

/-- The good blocks that were met hold the image, if all of it was written. -/
theorem AtNext.read (next : AtNext p.mtd p.bad b0 k image (following.map Partition.device) s last)
    (empty : s.buf ++ s.image = []) :
    padded p.mtd.writesize image <+: (met b0 s last).flatMap (blockBytes s.dev) := by
  have bytes := next.bytes
  rw [empty, padded_nil _ p.mtd.writesize_pos, List.append_nil] at bytes
  rw [← bytes, ← List.take_append_drop s.dev.flash.writes.length (met b0 s last), ← next.order,
    List.flatMap_append]
  apply List.IsPrefix.trans (writes_in_row p.mtd.erasesize (blockBytes s.dev) _ next.content
    next.early)
  exact List.prefix_append _ _

/-- The image is placed if the writer never lost its way. -/
theorem AtNext.placed
    (next : AtNext p.mtd p.bad b0 k image (following.map Partition.device) s last)
    (empty : s.buf ++ s.image = [])
    (offset : partOffset = (goodFrom p.bad 0 b0).length * p.mtd.erasesize) :
    Placed p.mtd partOffset image (s.dev :: following.map Partition.device) := by
  have bytes := next.bytes
  rw [empty, padded_nil _ p.mtd.writesize_pos, List.append_nil] at bytes
  have first := written_first s.dev following
  constructor
  · obtain ⟨others, rest⟩ := next.drop_logical offset
    rw [rest]
    exact (next.read empty).trans (List.prefix_append _ _)
  · rw [first, List.flatMap_map]
    exact bytes
  · obtain ⟨others, rest⟩ := next.drop_places offset
    have count := next.count
    rw [first, rest, List.length_map, List.map_map,
      List.take_append_of_le_length (by rw [List.length_map]; exact count), ← List.map_take,
      ← next.order, List.map_map]
    rfl
  · intro dev member write wrote
    rw [List.mem_cons] at member
    rcases member with rfl | other
    · exact next.erased write.1 (next.toGoing.write_met write wrote)
    · obtain ⟨q, -, rfl⟩ := List.mem_map.mp other
      cases wrote

/-- A writer that went astray has left out a good block. -/
theorem Astray.not_placed
    (astray : Astray p b0 k image (following.map Partition.device) s last hole)
    (label : s.label = .next)
    (offset : partOffset = (goodFrom p.bad 0 b0).length * p.mtd.erasesize) :
    ¬Placed p.mtd partOffset image (s.dev :: following.map Partition.device) := by
  intro placed
  have order := placed.order
  obtain ⟨others, rest⟩ := astray.drop_places offset
  have more : (goodFrom s.dev.flash.bad b0 hole).length < s.dev.flash.writes.length := by
    apply lt_of_le_of_ne astray.count
    intro equal
    have old := (astray.more equal.symm).1
    rw [label] at old
    cases old
  have member : (0, hole) ∈ (written (s.dev :: following.map Partition.device)).map Prod.fst := by
    rw [order, rest, written_first, List.length_map, List.take_append]
    apply List.mem_append_left
    rw [← List.map_take]
    exact List.mem_map_of_mem (astray.mem_take more)
  rw [written_first, List.map_map, List.mem_map] at member
  obtain ⟨write, wrote, same⟩ := member
  exact astray.missed write wrote (Prod.mk.inj same).2

/-- As many blocks were written to as were needed. -/
theorem AtNext.enough
    (next : AtNext p.mtd p.bad b0 k image (following.map Partition.device) s last)
    (empty : s.buf ++ s.image = []) : needed p image ≤ s.dev.flash.writes.length := by
  by_contra short
  have bytes := (lt_needed s.dev.flash.writes.length).mpr (Nat.not_le.mp short)
  have left := next.left
  rw [empty, List.length_nil] at left
  omega

/-- The good blocks that a straight run met are the clear run that was needed. -/
theorem AtNext.clearRun
    (next : AtNext p.mtd p.bad b0 k image (following.map Partition.device) s last)
    (straight : Straight p b0 k s last) (empty : s.buf ++ s.image = []) (some : image ≠ []) :
    k = 0 ∨ ClearRun p b0 k (needed p image) := by
  rcases straight with none | ⟨b, contiguous⟩
  · exact .inl none
  · right
    have positive := List.length_pos_iff.mpr some
    have enough := next.enough empty
    have wrote : s.dev.flash.writes.length ≠ 0 := by
      intro none
      have less := (@lt_needed p image 0).mp (by rwa [Nat.zero_mul])
      omega
    have ahead := contiguous.ahead wrote
    have length := contiguous.length
    have high := contiguous.high
    refine ⟨b, contiguous.low, contiguous.stops, ?_, ?_⟩
    · intro x above below
      exact contiguous.good x above (by omega)
    · intro x above below
      exact contiguous.wrote x above (by omega)

end Ends

section NoErase

variable {m : MtdInfo} {following : List Device} {s : Writer} {last : Nat}

/-- With `-n` no block is erased; something is written before the run returns. -/
structure Bare (m : MtdInfo) (following : List Device) (s : Writer) (last : Nat) : Prop where
  mtd : s.dev.mtd = m
  following : s.following = following
  closed : s.closed = []
  offset : s.offset = 0
  place : s.e + s.physPartOff = last * m.erasesize
  erased : s.dev.flash.erased = []
  some : s.dev.flash.writes = [] → s.buf ++ s.image ≠ []

theorem pad_ne_nil (s : Writer) (some : s.buf ≠ []) : (pad s).buf ≠ [] := by
  unfold pad
  dsimp only
  split_ifs
  · exact fun none => some (List.append_eq_nil_iff.mp none).1
  · exact some

theorem bare_step (partOffset : Nat) (behind : List UInt8) (bare : Bare m following s last)
    (s' : Writer) (ok : step true partOffset behind s = .running s') :
    Bare m following s' last := by
  have place := bare.place
  rw [← bare.mtd] at place
  unfold step at ok
  cases label : s.label with
  | next =>
    rw [label] at ok
    dsimp only at ok
    split_ifs at ok with none
    have some := pad_ne_nil (fill s) none
    obtain ⟨buf, rest, same⟩ := pad_fill s
    rw [same] at ok some
    obtain rfl := Status.running.inj ok
    exact ⟨bare.mtd, bare.following, bare.closed, bare.offset, bare.place, bare.erased,
      fun _ empty => some (List.append_eq_nil_iff.mp empty).1⟩
  | rewrite =>
    rw [label] at ok
    dsimp only at ok
    rw [if_neg (by rintro ⟨no, -⟩; cases no)] at ok
    cases writeBuf_running behind s s' last bare.offset place ok with
    | written answer same =>
      rw [same]
      refine ⟨bare.mtd, bare.following, bare.closed, rfl, bare.place, bare.erased, ?_⟩
      intro none
      exact absurd (List.append_eq_nil_iff.mp none).2 (List.cons_ne_nil _ _)
    | worn eio positive same =>
      rw [same]
      exact ⟨bare.mtd, bare.following, bare.closed, bare.offset, bare.place, bare.erased,
        bare.some⟩

def Status.Bare (m : MtdInfo) (following : List Device) (last : Nat) : Status → Prop
  | .running s => Mtd.Bare m following s last
  | .returned devices => ∃ dev ∈ devices, dev.flash.erased = [] ∧ dev.flash.writes ≠ []
  | .exited => True

theorem iterate_bare (partOffset : Nat) (behind : List UInt8) (status : Status)
    (bare : status.Bare m following last) (steps : Nat) :
    ((Status.step true partOffset behind)^[steps] status).Bare m following last := by
  induction steps with
  | zero => exact bare
  | succ steps ih =>
    rw [Function.iterate_succ_apply']
    cases status' : (Status.step true partOffset behind)^[steps] status with
    | returned devices =>
      rw [status'] at ih
      exact ih
    | exited => trivial
    | running s =>
      rw [status'] at ih
      change (step true partOffset behind s).Bare m following last
      cases ok : step true partOffset behind s with
      | running s' => exact bare_step partOffset behind ih s' ok
      | exited => trivial
      | returned devices =>
        have place := ih.place
        rw [← ih.mtd] at place
        obtain ⟨-, empty, rfl⟩ := step_returned true partOffset behind ih.following ih.closed
          place devices ok
        exact ⟨s.dev, List.mem_cons_self, ih.erased, fun none => ih.some none empty⟩

end NoErase

section Main

variable {p : Partition} {b0 k partOffset : Nat} {image : List UInt8}
  {following : List Partition} {s : Writer} {last : Nat}

/-- Without an image the first step returns. -/
theorem empty_returned (noErase : Bool) (behind : List UInt8)
    (next : AtNext p.mtd p.bad b0 k [] (following.map Partition.device) s last) (steps : Nat)
    (devices : List Device)
    (ok : (Status.step noErase partOffset behind)^[steps] (.running s) = .returned devices) :
    s.buf ++ s.image = [] ∧ devices = s.dev :: following.map Partition.device := by
  have empty : s.buf ++ s.image = [] := by
    rw [List.eq_nil_iff_length_eq_zero, next.left]
    exact Nat.zero_sub _
  refine ⟨empty, ?_⟩
  have first : step noErase partOffset behind s =
      .returned (s.dev :: following.map Partition.device) := by
    rcases next_step noErase partOffset behind next with ⟨-, same⟩ | ⟨s', same, dev, rewrite⟩
    · exact same
    · exact absurd rewrite.behind (Nat.not_lt_zero _)
  have after : ∀ steps, (Status.step noErase partOffset behind)^[steps]
      (.returned (s.dev :: following.map Partition.device)) =
        .returned (s.dev :: following.map Partition.device) :=
    Function.iterate_fixed rfl
  cases steps with
  | zero => cases ok
  | succ steps =>
    rw [Function.iterate_succ_apply] at ok
    change (Status.step noErase partOffset behind)^[steps] (step noErase partOffset behind s) = _
      at ok
    rw [first, after] at ok
    exact (Status.returned.inj ok).symm

/-- The state in which a run that stayed on its way returns. -/
structure Finished (p : Partition) (partOffset : Nat) (image : List UInt8)
    (following : List Partition) (s : Writer) (last : Nat) : Prop
    extends AtNext p.mtd p.bad (startBlock p partOffset) (passedBad p partOffset) image
      (following.map Partition.device) s last where
  turned : Turned p (startBlock p partOffset) s last
  empty : s.buf ++ s.image = []
  start : partOffset = (goodFrom p.bad 0 (startBlock p partOffset)).length * p.mtd.erasesize
  untouched : image = [] → s.dev = p.device

theorem returned_finished (noErase : Bool) (behind : List UInt8) (ready : Nat) (steps : Nat)
    (devices : List Device)
    (ok : mtdWrite noErase partOffset behind image ready p following steps = .returned devices)
    (clear : image = [] ∨ (noErase = false ∧ NoneAstray p partOffset image)) :
    ∃ s last, Finished p partOffset image following s last ∧
      devices = s.dev :: following.map Partition.device := by
  unfold mtdWrite at ok
  cases started : resume partOffset (starting image ready p following) with
  | exited =>
    rw [started, Function.iterate_fixed rfl] at ok
    cases ok
  | returned devices => exact absurd started (resume_returned _ _)
  | running s =>
    rw [started] at ok
    obtain ⟨next, straight, offset⟩ := resume_start s started
    by_cases none : image = []
    · subst none
      obtain ⟨empty, same⟩ := empty_returned noErase behind next steps devices ok
      exact ⟨s, _, ⟨next, turned_start s, empty, offset, fun _ => resume_dev _ s started⟩, same⟩
    · obtain ⟨rfl, noneAstray⟩ := clear.resolve_left none
      obtain ⟨t, last, at', turned, empty, same⟩ := ended_next partOffset behind next straight
        noneAstray steps devices ok
      exact ⟨t, last, ⟨at', turned, empty, offset, fun empty => absurd empty none⟩, same⟩

theorem returned_astray (noErase : Bool) (behind : List UInt8) (ready : Nat) (steps : Nat)
    (devices : List Device)
    (ok : mtdWrite noErase partOffset behind image ready p following steps = .returned devices)
    (lost : ¬(image = [] ∨ (noErase = false ∧ NoneAstray p partOffset image))) :
    ¬Placed p.mtd partOffset image devices := by
  rw [not_or] at lost
  obtain ⟨none, lost⟩ := lost
  unfold mtdWrite at ok
  cases started : resume partOffset (starting image ready p following) with
  | exited =>
    rw [started, Function.iterate_fixed rfl] at ok
    cases ok
  | returned devices => exact absurd started (resume_returned _ _)
  | running s =>
    rw [started] at ok
    obtain ⟨next, straight, offset⟩ := resume_start s started
    cases noErase with
    | true =>
      have bare : Bare p.mtd (following.map Partition.device) s (startBlock p partOffset) := by
        refine ⟨next.mtd, next.following, next.closed, next.offset, next.place, ?_, ?_⟩
        · rw [resume_dev _ s started]
          rfl
        · intro _ empty
          have left := next.left
          have writes := next.count
          rw [met, goodFrom_self, List.length_nil, Nat.le_zero] at writes
          rw [empty, writes, Nat.zero_mul, Nat.sub_zero] at left
          exact none (List.eq_nil_iff_length_eq_zero.mpr left.symm)
      have ended := iterate_bare partOffset behind (.running s) bare steps
      rw [ok] at ended
      obtain ⟨dev, member, erased, wrote⟩ := ended
      intro placed
      obtain ⟨write, rest, same⟩ := List.exists_cons_of_ne_nil wrote
      have inErased := placed.erased dev member write (by rw [same]; exact List.mem_cons_self)
      rw [erased] at inErased
      cases inErased
    | false =>
      have ended := iterate_course partOffset behind (.running s) (.next _ next straight) steps
      rw [ok] at ended
      cases ended with
      | next s last at' straight empty same =>
        exact absurd ⟨rfl, at'.clearRun straight empty none⟩ lost
      | astray s last hole at' label same =>
        rw [same]
        exact at'.not_placed label offset

/-- What `mtd_write` returns is as it should be exactly if there is nothing to write, or if the
blocks are erased and none goes astray. -/
theorem placed_iff (noErase : Bool) (partOffset : Nat) (behind image : List UInt8) (ready : Nat)
    (first : Partition) (following : List Partition) (steps : Nat) (devices : List Device)
    (ok : mtdWrite noErase partOffset behind image ready first following steps =
      .returned devices) :
    Placed first.mtd partOffset image devices ↔
      image = [] ∨ (noErase = false ∧ NoneAstray first partOffset image) := by
  constructor
  · intro placed
    by_contra lost
    exact returned_astray noErase behind ready steps devices ok lost placed
  · intro clear
    obtain ⟨s, last, finished, rfl⟩ := returned_finished noErase behind ready steps devices ok clear
    exact finished.placed finished.empty finished.start

/-- Seven blocks of two bytes. -/
def sevenBlocks : MtdInfo where
  mtdsize := 14
  erasesize := 2
  writesize := 1
  eraseAnswer _ := .ok
  writeAnswer _ := .ok
  setBadFails _ := false
  torn _ := 0
  erasesize_pos := Nat.two_pos
  erasesize_dvd := by decide
  writesize_pos := Nat.one_pos
  writesize_dvd := by decide

theorem placed_over_bad : ∃ devices,
    mtdWrite false 0 [] [1, 2, 3] 1 ⟨sevenBlocks, fun _ => 0, fun b => b = 1⟩ [] 12 =
      .returned devices ∧
    Placed sevenBlocks 0 [1, 2, 3] devices := by
  refine ⟨_, rfl, ?_⟩
  apply (placed_iff false 0 [] [1, 2, 3] 1 ⟨sevenBlocks, fun _ => 0, fun b => b = 1⟩ [] 12 _ rfl).mpr
  exact .inr ⟨rfl, .inl rfl⟩

/-- Blocks 0 and 3 are bad, and the image starts at the second good block: its first half goes to
block 3. -/
theorem astray_after_seek :
    ¬∀ (partOffset : Nat) (behind image : List UInt8) (ready : Nat) (first : Partition)
      (following : List Partition) (steps : Nat) (devices : List Device),
      mtdWrite false partOffset behind image ready first following steps = .returned devices →
      Placed first.mtd partOffset image devices := by
  intro always
  have placed := always 2 [] [1, 2, 3] 1
    ⟨sevenBlocks, fun _ => 0, fun b => b = 0 || b = 3⟩ [] 20 _ rfl
  exact absurd placed.order (by decide)

end Main

end Filogic.Mtd
