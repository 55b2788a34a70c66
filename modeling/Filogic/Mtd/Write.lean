import Filogic.Mtd.Placement

/-! When `mtd_write` places the image as it should: exactly unless the seek skipped bad blocks
and another block stops the writer later. -/

namespace Filogic.Mtd
open Lib

section Astray

variable {p : Partition} {b0 k : Nat} {image : List UInt8} {following : List Device}
  {s : Writer} {last hole : Nat}

theorem pad_fill (s : Writer) : ∃ buf rest,
    pad (fill s) = { s with buf := buf, image := rest } := by
  unfold pad
  dsimp only
  split_ifs
  · exact ⟨_, _, rfl⟩
  · exact ⟨_, _, rfl⟩

/-- How a run ends. -/
theorem step_returned (noErase : Bool) (partOffset : Nat) (behind : List UInt8)
    (others : s.following = following) (closed : s.closed = [])
    (place : s.e + s.physPartOff = last * s.dev.mtd.erasesize) (devices : List Device)
    (ok : step noErase partOffset behind s = .returned devices) :
    s.label = .next ∧ s.buf ++ s.image = [] ∧ devices = s.dev :: following := by
  unfold step at ok
  cases label : s.label with
  | next =>
    rw [label] at ok
    dsimp only at ok
    split_ifs at ok with none
    refine ⟨rfl, ?_, ?_⟩
    · obtain ⟨empty, rest⟩ := List.append_eq_nil_iff.mp none
      rw [empty, List.length_nil, Nat.sub_zero, List.take_eq_nil_iff] at rest
      have positive := s.dev.mtd.erasesize_pos
      rw [empty, rest.resolve_left (by omega)]
      rfl
    · have same := Status.returned.inj ok
      change s.closed ++ s.dev :: s.following = devices at same
      rw [← same, closed, others, List.nil_append]
  | rewrite =>
    rw [label] at ok
    dsimp only at ok
    split_ifs at ok
    · exact absurd ok (eraseNext_returned partOffset behind s last place devices)
    · exact absurd ok (writeBuf_returned behind s devices)

theorem astray_step (partOffset : Nat) (behind : List UInt8)
    (astray : Astray p b0 k image following s last hole) (s' : Writer)
    (ok : step false partOffset behind s = .running s') :
    ∃ last', Astray p b0 k image following s' last' hole := by
  have mtd := astray.mtd
  have place := astray.place
  have past := astray.past
  have above := astray.above
  have before := astray.behind
  have positive := p.mtd.erasesize_pos
  rw [← mtd] at place
  unfold step at ok
  cases label : s.label with
  | next =>
    rw [label] at ok
    dsimp only at ok
    split_ifs at ok
    obtain ⟨buf, rest, same⟩ := pad_fill s
    rw [same] at ok
    obtain rfl := Status.running.inj ok
    refine ⟨last, ⟨?_, above, before, astray.good, past, astray.count, astray.missed, ?_,
      astray.skipped, astray.notClear⟩⟩
    · exact ⟨mtd, astray.following, astray.closed, astray.offset, astray.phys, astray.place,
        astray.low, astray.high, astray.before⟩
    · intro equal
      have old := (astray.more equal).1
      rw [label] at old
      cases old
  | rewrite =>
    rw [label] at ok
    dsimp only at ok
    -- a block from `last` on is moved over
    have skip : ∀ bad : Nat → Bool, (∀ b, b ≠ last → bad b = s.dev.flash.bad b) →
        last < p.mtd.blocks → Astray p b0 k image following
          (skipBlock (s.setFlash { s.dev.flash with bad := bad })) (last + 1) hole := by
      intro bad others inRange
      have same := goodFrom_congr s.dev.flash.bad bad b0 hole fun b _ below => others b (by omega)
      refine ⟨skip_frame astray.toFrame inRange bad others, above, by omega,
        (others hole (by omega)).trans astray.good, ?_, ?_, astray.missed, ?_, astray.skipped,
        astray.notClear⟩
      · exact le_trans past (Nat.le_add_right _ _)
      · change (goodFrom bad b0 hole).length ≤ _
        rw [same]
        exact astray.count
      · change _ = (goodFrom bad b0 hole).length → _
        rw [same]
        exact astray.more
    split_ifs at ok with more
    · obtain ⟨inRange, taken⟩ := eraseNext_running partOffset behind s s' last place ok
      rw [mtd] at inRange
      cases taken with
      | skipped bad same =>
        rw [same]
        exact ⟨last + 1, skip s.dev.flash.bad (fun _ _ => rfl) inRange⟩
      | erased good answer same =>
        rw [same]
        refine ⟨last + 1, ⟨?_, above, by omega, astray.good, past, astray.count, astray.missed,
          astray.more, astray.skipped, astray.notClear⟩⟩
        refine ⟨mtd, astray.following, astray.closed, astray.offset, astray.phys, ?_,
          Nat.le_succ_of_le astray.low, inRange, astray.before⟩
        have old := astray.place
        change s.e + s.dev.mtd.erasesize + s.physPartOff = _
        rw [mtd, Nat.succ_mul, ← old]
        omega
      | worn good eio same =>
        rw [same]
        exact ⟨last + 1, skip (Function.update s.dev.flash.bad last true)
          (fun b other => Function.update_of_ne other ..) inRange⟩
    · cases writeBuf_running behind s s' last astray.offset place ok with
      | written answer same =>
        rw [same]
        refine ⟨last, ⟨?_, above, before, astray.good, ?_, ?_, ?_, ?_, astray.skipped,
          astray.notClear⟩⟩
        · exact ⟨mtd, astray.following, astray.closed, rfl, astray.phys, astray.place,
            astray.low, astray.high, astray.before⟩
        · exact le_trans past (Nat.le_add_right _ _)
        · change _ ≤ (s.dev.flash.writes ++ [_]).length
          rw [List.length_append]
          exact le_trans astray.count (Nat.le_add_right _ _)
        · intro write member
          change write ∈ s.dev.flash.writes ++ [_] at member
          rw [List.mem_append, List.mem_singleton] at member
          rcases member with old | rfl
          · exact astray.missed write old
          · have place := (Nat.le_div_iff_mul_le s.dev.mtd.erasesize_pos).mpr (mtd ▸ past)
            dsimp only
            omega
        · intro equal
          have count := astray.count
          change (s.dev.flash.writes ++ [_]).length = (goodFrom s.dev.flash.bad b0 hole).length
            at equal
          rw [List.length_append, List.length_singleton] at equal
          omega
      | worn eio positive same =>
        rw [same]
        have keeps := goodFrom_update s.dev.flash.bad b0 hole (last - 1) (.inr (by omega))
        refine ⟨last, ⟨?_, above, before, ?_, ?_, ?_, astray.missed, ?_, astray.skipped,
          astray.notClear⟩⟩
        · refine ⟨mtd, astray.following, astray.closed, astray.offset, astray.phys, astray.place,
            astray.low, astray.high, ?_⟩
          intro b below
          exact (Function.update_of_ne (by omega) ..).trans (astray.before b below)
        · exact (Function.update_of_ne (by omega) ..).trans astray.good
        · change _ ≤ last * s.dev.mtd.erasesize
          rw [mtd]
          exact Nat.mul_le_mul_right _ (by omega)
        · change (goodFrom (Function.update s.dev.flash.bad (last - 1) true) b0 hole).length ≤ _
          rw [keeps]
          exact astray.count
        · change _ = (goodFrom (Function.update s.dev.flash.bad (last - 1) true) b0 hole).length → _
          rw [keeps]
          exact astray.more

end Astray

section Ends

variable {p : Partition} {b0 k : Nat} {image : List UInt8} {following : List Device}

/-- The ends of a run that returns. -/
inductive Ended (p : Partition) (b0 k : Nat) (image : List UInt8) (following : List Device)
    (devices : List Device) : Prop where
  | next (s : Writer) (last : Nat) (at' : AtNext p.mtd p.bad b0 k image following s last)
      (straight : Straight p b0 k s last) (empty : s.buf ++ s.image = [])
      (same : devices = s.dev :: following)
  | astray (s : Writer) (last hole : Nat) (at' : Astray p b0 k image following s last hole)
      (label : s.label = .next) (same : devices = s.dev :: following)

def Status.OnCourse (p : Partition) (b0 k : Nat) (image : List UInt8) (following : List Device) :
    Status → Prop
  | .running s => Mtd.OnCourse p b0 k image following s
  | .returned devices => Ended p b0 k image following devices
  | .exited => True

theorem step_course (partOffset : Nat) (behind : List UInt8) (status : Status)
    (course : status.OnCourse p b0 k image following) :
    (status.step false partOffset behind).OnCourse p b0 k image following := by
  cases status with
  | returned devices => exact course
  | exited => exact course
  | running s =>
    change (step false partOffset behind s).OnCourse p b0 k image following
    cases course with
    | next last at' straight =>
      rcases next_step false partOffset behind at' with ⟨none, ok⟩ | ⟨s', ok, dev, rewrite⟩
      · rw [ok]
        exact .next s last at' straight none rfl
      · rw [ok]
        apply OnCourse.rewrite last rewrite
        rcases straight with none | ⟨b, low, high, stops, length, good, wrote, ahead⟩
        · exact .inl none
        · unfold met at length ahead
          rw [← dev] at length wrote ahead
          exact .inr ⟨b, low, high, stops, length, good, wrote, ahead⟩
    | rewrite last at' straight =>
      have place := at'.place
      rw [← at'.mtd] at place
      cases ok : step false partOffset behind s with
      | running s' => exact rewrite_course partOffset behind at' straight s' ok
      | exited => trivial
      | returned devices =>
        have label := (step_returned false partOffset behind at'.following at'.closed place
          devices ok).1
        rw [at'.label] at label
        cases label
    | astray last hole at' =>
      have place := at'.place
      rw [← at'.mtd] at place
      cases ok : step false partOffset behind s with
      | running s' =>
        obtain ⟨last', astray⟩ := astray_step partOffset behind at' s' ok
        exact .astray last' hole astray
      | exited => trivial
      | returned devices =>
        obtain ⟨label, -, same⟩ := step_returned false partOffset behind at'.following at'.closed
          place devices ok
        exact .astray s last hole at' label same

theorem iterate_course (partOffset : Nat) (behind : List UInt8) (status : Status)
    (course : status.OnCourse p b0 k image following) (steps : Nat) :
    ((Status.step false partOffset behind)^[steps] status).OnCourse p b0 k image following := by
  induction steps with
  | zero => exact course
  | succ steps ih =>
    rw [Function.iterate_succ_apply']
    exact step_course partOffset behind _ ih

/-- The seek counts good and bad blocks, and stops after as many good ones as it should. -/
theorem seek_counts (m : MtdInfo) (f : Flash) (partOffset left b : Nat) (bound : b ≤ m.blocks)
    (enough : m.blocks ≤ left + b) :
    ∃ b', b' ≤ m.blocks ∧
      seek m f partOffset left ((goodFrom f.bad 0 b).length * m.erasesize) (b * m.erasesize)
          ((b - (goodFrom f.bad 0 b).length) * m.erasesize) =
        ((goodFrom f.bad 0 b').length * m.erasesize, b' * m.erasesize,
          (b' - (goodFrom f.bad 0 b').length) * m.erasesize) ∧
      (b' = m.blocks ∨ (goodFrom f.bad 0 b').length * m.erasesize = partOffset) := by
  induction left generalizing b with
  | zero =>
    exact ⟨b, bound, rfl, .inl (by omega)⟩
  | succ left ih =>
    unfold seek
    by_cases inside : b < m.blocks
    · rw [if_neg (by rw [Nat.not_le, m.mul_lt]; exact inside),
        Nat.mul_div_cancel _ m.erasesize_pos]
      by_cases found : (goodFrom f.bad 0 b).length * m.erasesize = partOffset
      · rw [if_pos found]
        exact ⟨b, bound, rfl, .inr found⟩
      · rw [if_neg found]
        have size := goodFrom_length f.bad 0 b
        have more := goodFrom_succ f.bad 0 b (Nat.zero_le b)
        have rest := ih (b + 1) inside (by omega)
        rw [more] at rest
        cases bad : f.bad b with
        | false =>
          rw [bad] at rest
          simp only [Bool.false_eq_true, if_false, List.length_append, List.length_singleton,
            Nat.add_mul, Nat.one_mul] at rest
          rw [if_pos rfl]
          rwa [show b + 1 - ((goodFrom f.bad 0 b).length + 1) =
            b - (goodFrom f.bad 0 b).length by omega] at rest
        | true =>
          rw [bad] at rest
          simp only [if_true, List.append_nil, Nat.add_mul, Nat.one_mul] at rest
          rw [if_neg (by decide)]
          rwa [show b + 1 - (goodFrom f.bad 0 b).length =
            b - (goodFrom f.bad 0 b).length + 1 by omega, Nat.add_mul, Nat.one_mul] at rest
    · rw [if_pos (by rw [Nat.le_iff_lt_or_eq]; have := m.mul_lt b; omega)]
      exact ⟨b, bound, rfl, .inl (by omega)⟩

end Ends

end Filogic.Mtd
