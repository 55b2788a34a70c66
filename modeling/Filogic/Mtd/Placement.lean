import Filogic.Mtd.Going

/-! Where `mtd_write` places an image, over any pattern of bad blocks. -/

namespace Filogic.Mtd
open Lib

section Runs

variable {p : Partition} {b0 k : Nat} {image : List UInt8} {following : List Device}
  {s : Writer} {last : Nat}

theorem lt_needed (i : Nat) : i * p.mtd.erasesize < image.length ↔ i < needed p image :=
  p.mtd.lt_count image.length i

/-- With bad blocks skipped before, nothing else than blocks that stop come before the good ones,
and the writes to these succeeded. -/
structure Contiguous (p : Partition) (b0 k : Nat) (s : Writer) (last b : Nat) : Prop where
  low : b0 ≤ b
  high : b ≤ last
  stops : ∀ x, b0 ≤ x → x < b → Stops p x
  length : (met b0 s last).length = last - b
  good : ∀ x, b ≤ x → x < last → ¬Stops p x
  wrote : ∀ x, b ≤ x → x < b + s.dev.flash.writes.length → p.mtd.writeAnswer x ≠ .eio
  ahead : s.dev.flash.writes.length ≠ 0 → s.dev.flash.writes.length + k ≤ (met b0 s last).length

def Straight (p : Partition) (b0 k : Nat) (s : Writer) (last : Nat) : Prop :=
  k = 0 ∨ ∃ b, Contiguous p b0 k s last b

/-- The writer passed over a good block that it should have written to. -/
structure Astray (p : Partition) (b0 k : Nat) (image : List UInt8) (following : List Device)
    (s : Writer) (last hole : Nat) : Prop extends Frame p.mtd p.bad b0 following s last where
  above : b0 ≤ hole
  behind : hole + 1 < last
  good : s.dev.flash.bad hole = false
  past : (hole + 1) * p.mtd.erasesize ≤ s.pos
  count : (goodFrom s.dev.flash.bad b0 hole).length ≤ s.dev.flash.writes.length
  missed : ∀ write ∈ s.dev.flash.writes, write.1 ≠ hole
  more : s.dev.flash.writes.length = (goodFrom s.dev.flash.bad b0 hole).length →
    s.label = .rewrite ∧ s.buf ≠ []
  skipped : k ≠ 0
  notClear : ¬ClearRun p b0 k (needed p image)

/-- Whether the loop that erases goes on. -/
theorem AtRewrite.erases_iff (rewrite : AtRewrite p.mtd p.bad b0 k image following s last) :
    s.e < s.w + s.buf.length + s.skipBadBlocks ↔
      (met b0 s last).length ≤ s.dev.flash.writes.length + k := by
  have low := rewrite.low
  have size := goodFrom_length s.dev.flash.bad b0 last
  change (met b0 s last).length ≤ last - b0 at size
  have positive := p.mtd.erasesize_pos
  have fits := rewrite.fits
  have some := List.length_pos_iff.mpr rewrite.some
  obtain ⟨bad, sum⟩ := Nat.exists_eq_add_of_le size
  have e : s.e = ((met b0 s last).length + bad) * p.mtd.erasesize := by
    have place := rewrite.place
    rw [rewrite.phys, show last = (met b0 s last).length + bad + b0 by omega, Nat.add_mul] at place
    exact Nat.add_right_cancel place
  rw [e, rewrite.w, rewrite.skip, sum, Nat.add_sub_cancel_left]
  generalize (met b0 s last).length = g
  generalize s.dev.flash.writes.length = i
  constructor
  · intro less
    by_contra more
    have step := Nat.mul_le_mul_right p.mtd.erasesize (show i + k + 1 ≤ g by omega)
    simp only [Nat.add_mul, Nat.one_mul] at step less
    omega
  · intro less
    have step := Nat.mul_le_mul_right p.mtd.erasesize less
    simp only [Nat.add_mul] at step ⊢
    omega

/-- The good blocks before those that wait are the ones that were written to. -/
theorem Going.before_waiting {m : MtdInfo} {bad0 : Nat → Bool}
    (going : Going m bad0 b0 k following s last) :
    (goodFrom s.dev.flash.bad b0 (last - lag b0 s last)).length = s.dev.flash.writes.length ∧
      ∀ b, last - lag b0 s last ≤ b → b < last → s.dev.flash.bad b = false := by
  have bound := @lag_le b0 s last
  have low := going.low
  have split := goodFrom_append s.dev.flash.bad b0 (last - lag b0 s last) last (by omega) (by omega)
  have good : ∀ b, last - lag b0 s last ≤ b → b < last → s.dev.flash.bad b = false := by
    intro b above below
    have member : b ∈ (met b0 s last).drop s.dev.flash.writes.length := by
      rw [going.tail]
      exact List.mem_range'_1.mpr (by omega)
    exact ((mem_goodFrom _ _ _ _).mp (List.mem_of_mem_drop member)).2.2
  have all : goodFrom s.dev.flash.bad (last - lag b0 s last) last =
      List.range' (last - lag b0 s last) (lag b0 s last) := by
    unfold goodFrom
    rw [show last - (last - lag b0 s last) = lag b0 s last by omega, List.filter_eq_self]
    intro b member
    have bounds := List.mem_range'_1.mp member
    rw [good b bounds.1 (by omega)]
    rfl
  refine ⟨?_, good⟩
  have lengths := congrArg List.length split
  rw [List.length_append, all, List.length_range'] at lengths
  change (met b0 s last).length = _ at lengths
  have count := going.count
  unfold lag at lengths ⊢
  omega

theorem AtRewrite.before_hole (rewrite : AtRewrite p.mtd p.bad b0 k image following s last)
    (waiting : 0 < lag b0 s last) :
    (goodFrom s.dev.flash.bad b0 (last - lag b0 s last)).length = s.dev.flash.writes.length ∧
      s.dev.flash.bad (last - lag b0 s last) = false := by
  obtain ⟨count, good⟩ := rewrite.before_waiting
  have bound := @lag_le b0 s last
  have low := rewrite.low
  exact ⟨count, good _ (le_refl _) (by omega)⟩

/-- A clear run of blocks starts where the good blocks start. -/
theorem Contiguous.clear (b : Nat) (contiguous : Contiguous p b0 k s last b) (start : Nat)
    (some : 0 < needed p image)
    (stops : ∀ x, b0 ≤ x → x < start → Stops p x) (low : b0 ≤ start)
    (good : ∀ x, start ≤ x → x < start + needed p image + k → ¬Stops p x) (met : b < last) :
    start = b := by
  rcases lt_trichotomy start b with less | same | more
  · exact absurd (contiguous.stops start low less) (good start (le_refl _) (by omega))
  · exact same
  · exact absurd (stops b contiguous.low more) (contiguous.good b (le_refl _) met)

/-- A block that stops while one waits to be written: the file pointer moves too early. -/
theorem skip_astray (rewrite : AtRewrite p.mtd p.bad b0 k image following s last)
    (straight : Straight p b0 k s last)
    (room : (met b0 s last).length ≤ s.dev.flash.writes.length + k)
    (waiting : 0 < lag b0 s last) (inRange : last < p.mtd.blocks) (bad : Nat → Bool)
    (others : ∀ b, b ≠ last → bad b = s.dev.flash.bad b) (stops : Stops p last) :
    Astray p b0 k image following (skipBlock (s.setFlash { s.dev.flash with bad := bad }))
      (last + 1) (last - lag b0 s last) := by
  have bound := @lag_le b0 s last
  have low := rewrite.low
  have hole := rewrite.before_hole waiting
  have count : lag b0 s last = (met b0 s last).length - s.dev.flash.writes.length := rfl
  have sameCount : goodFrom bad b0 (last - lag b0 s last) =
      goodFrom s.dev.flash.bad b0 (last - lag b0 s last) :=
    goodFrom_congr _ _ _ _ fun b _ below => others b (by omega)
  constructor
  · exact skip_frame rewrite.toFrame inRange bad others
  · omega
  · omega
  · exact (others _ (by omega)).trans hole.2
  · change _ ≤ s.pos + s.dev.mtd.erasesize
    rw [rewrite.pos, rewrite.mtd, Nat.succ_mul]
  · change (goodFrom bad b0 (last - lag b0 s last)).length ≤ s.dev.flash.writes.length
    rw [sameCount, hole.1]
  · exact rewrite.missed waiting
  · exact fun _ => ⟨rewrite.label, rewrite.some⟩
  · omega
  · rintro ⟨start, above, before, good, -⟩
    have someNeeded := (lt_needed s.dev.flash.writes.length).mp rewrite.behind
    rcases straight with none | ⟨b, contiguous⟩
    · omega
    · have length := contiguous.length
      obtain rfl := contiguous.clear b start (by omega) before above good (by omega)
      exact good last (by omega) (by omega) stops

/-- A write fails in a block that is not the last: another one is marked bad. -/
theorem worn_astray (rewrite : AtRewrite p.mtd p.bad b0 k image following s last)
    (straight : Straight p b0 k s last)
    (all : s.dev.flash.writes.length + k < (met b0 s last).length) (several : 1 < lag b0 s last)
    (eio : p.mtd.writeAnswer (last - lag b0 s last) = .eio) :
    Astray p b0 k image following { s.setFlash (({ s.dev.flash with
          data := s.dev.flash.data.memcpy s.pos s.dev.mtd.torn s.pos s.buf.length }).mark
            (last - 1)) with
      skipBadBlocks := s.skipBadBlocks + s.dev.mtd.erasesize
      pos := last * s.dev.mtd.erasesize } last (last - lag b0 s last) := by
  have bound := @lag_le b0 s last
  have low := rewrite.low
  have ahead := rewrite.ahead
  have hole := rewrite.before_hole (by omega)
  have count : lag b0 s last = (met b0 s last).length - s.dev.flash.writes.length := rfl
  constructor
  · constructor
    · exact rewrite.mtd
    · exact rewrite.following
    · exact rewrite.closed
    · exact rewrite.offset
    · exact rewrite.phys
    · exact rewrite.place
    · exact low
    · exact rewrite.high
    · intro b below
      exact (Function.update_of_ne (by omega) ..).trans (rewrite.before b below)
  · omega
  · omega
  · exact (Function.update_of_ne (by omega) ..).trans hole.2
  · change _ ≤ last * s.dev.mtd.erasesize
    rw [rewrite.mtd]
    exact Nat.mul_le_mul_right _ (by omega)
  · change (goodFrom (Function.update s.dev.flash.bad (last - 1) true) b0
      (last - lag b0 s last)).length ≤ s.dev.flash.writes.length
    rw [goodFrom_update _ _ _ _ (.inr (by omega)), hole.1]
  · exact rewrite.missed (by omega)
  · exact fun _ => ⟨rewrite.label, rewrite.some⟩
  · omega
  · rintro ⟨start, above, before, good, wrote⟩
    have someNeeded := (lt_needed s.dev.flash.writes.length).mp rewrite.behind
    rcases straight with none | ⟨b, contiguous⟩
    · omega
    · have length := contiguous.length
      obtain rfl := contiguous.clear b start (by omega) before above good (by omega)
      exact wrote (last - lag b0 s last) (by omega) (by omega) eio

/-- The states of a run: the writer is on its way, or went astray. -/
inductive OnCourse (p : Partition) (b0 k : Nat) (image : List UInt8) (following : List Device)
    (s : Writer) : Prop where
  | next (last : Nat) (at' : AtNext p.mtd p.bad b0 k image following s last)
      (straight : Straight p b0 k s last)
  | rewrite (last : Nat) (at' : AtRewrite p.mtd p.bad b0 k image following s last)
      (straight : Straight p b0 k s last)
  | astray (last hole : Nat) (at' : Astray p b0 k image following s last hole)

theorem skip_course (rewrite : AtRewrite p.mtd p.bad b0 k image following s last)
    (straight : Straight p b0 k s last)
    (room : (met b0 s last).length ≤ s.dev.flash.writes.length + k)
    (inRange : last < p.mtd.blocks) (bad : Nat → Bool) (isBad : bad last = true)
    (others : ∀ b, b ≠ last → bad b = s.dev.flash.bad b) (stops : Stops p last) :
    OnCourse p b0 k image following
      (skipBlock (s.setFlash { s.dev.flash with bad := bad })) := by
  by_cases caughtUp : lag b0 s last = 0
  · apply OnCourse.rewrite (last + 1)
    · exact skip_rewrite rewrite caughtUp inRange bad isBad others
    · rcases straight with none | ⟨b, contiguous⟩
      · exact .inl none
      · by_cases none : k = 0
        · exact .inl none
        · have low := rewrite.low
          have same := met_skip rewrite.toFrame bad isBad others
          have length := contiguous.length
          have ahead := contiguous.ahead
          have high := contiguous.high
          -- nothing was written yet, nor erased
          have first : s.dev.flash.writes.length = 0 := by
            unfold lag at caughtUp
            by_contra some
            have := ahead some
            omega
          unfold lag at caughtUp
          refine .inr ⟨last + 1, by omega, le_refl _, ?_, ?_, ?_, ?_, ?_⟩
          · intro x above below
            by_cases here : x = last
            · rw [here]
              exact stops
            · exact contiguous.stops x above (by omega)
          · rw [same]
            omega
          · intro x above below
            omega
          · intro x above below
            change x < last + 1 + s.dev.flash.writes.length at below
            omega
          · intro some
            exact absurd first some
  · exact .astray _ _ (skip_astray rewrite straight room (by omega) inRange bad others stops)

theorem erase_course (rewrite : AtRewrite p.mtd p.bad b0 k image following s last)
    (straight : Straight p b0 k s last)
    (room : (met b0 s last).length ≤ s.dev.flash.writes.length + k)
    (inRange : last < p.mtd.blocks) (good : s.dev.flash.bad last = false)
    (ok : p.mtd.eraseAnswer last = .ok) :
    OnCourse p b0 k image following { s.setFlash (s.dev.flash.erase p.mtd.erasesize last) with
      e := s.e + p.mtd.erasesize } := by
  apply OnCourse.rewrite (last + 1)
  · exact erase_rewrite rewrite inRange good room
  · rcases straight with none | ⟨b, contiguous⟩
    · exact .inl none
    · have more := met_erase rewrite.toFrame good
      have low := contiguous.low
      have high := contiguous.high
      have length := contiguous.length
      refine .inr ⟨b, low, by omega, contiguous.stops, ?_, ?_, contiguous.wrote, ?_⟩
      · rw [more, List.length_append, List.length_singleton]
        omega
      · intro x above below
        by_cases here : x = last
        · subst here
          rintro (bad | eio)
          · rw [← rewrite.later x (le_refl _), good] at bad
            cases bad
          · rw [ok] at eio
            cases eio
        · exact contiguous.good x above (by omega)
      · intro some
        rw [more, List.length_append]
        exact le_trans (contiguous.ahead some) (Nat.le_add_right _ _)

theorem rewrite_course (partOffset : Nat) (behind : List UInt8)
    (rewrite : AtRewrite p.mtd p.bad b0 k image following s last)
    (straight : Straight p b0 k s last) (s' : Writer)
    (ok : step false partOffset behind s = .running s') :
    OnCourse p b0 k image following s' := by
  have mtd := rewrite.mtd
  have place := rewrite.place
  rw [← mtd] at place
  have ahead := rewrite.ahead
  have count := rewrite.count
  unfold step at ok
  rw [rewrite.label] at ok
  dsimp only at ok
  split_ifs at ok with more
  · have room := rewrite.erases_iff.mp more.2
    obtain ⟨inRange, taken⟩ := eraseNext_running partOffset behind s s' last place ok
    rw [mtd] at inRange
    cases taken with
    | skipped bad same =>
      rw [same]
      exact skip_course rewrite straight room inRange s.dev.flash.bad bad (fun _ _ => rfl)
        (.inl (by rw [← rewrite.later last (le_refl _), bad]))
    | erased good answer same =>
      rw [same, mtd]
      exact erase_course rewrite straight room inRange good (by rw [← mtd, answer])
    | worn good eio same =>
      rw [same]
      exact skip_course rewrite straight room inRange
        (Function.update s.dev.flash.bad last true) (Function.update_self ..)
        (fun b other => Function.update_of_ne other ..) (.inr (by rw [← mtd, eio]))
  · have all : s.dev.flash.writes.length + k < (met b0 s last).length := by
      by_contra less
      exact more ⟨rfl, rewrite.erases_iff.mpr (by omega)⟩
    have waiting : 0 < lag b0 s last := by
      unfold lag
      omega
    have position := rewrite.pos_div
    cases writeBuf_running behind s s' last rewrite.offset place ok with
    | written answer same =>
      rw [position, mtd] at answer
      rw [same]
      apply OnCourse.next last
      · exact write_next rewrite waiting
      · rcases straight with none | ⟨b, contiguous⟩
        · exact .inl none
        · have length := contiguous.length
          have high := contiguous.high
          refine .inr ⟨b, contiguous.low, high, contiguous.stops, length, contiguous.good, ?_, ?_⟩
          · intro x above below
            change x < b + (s.dev.flash.writes ++ [_]).length at below
            rw [List.length_append, List.length_singleton] at below
            by_cases here : x = last - lag b0 s last
            · rw [here, answer]
              nofun
            · unfold lag at here
              exact contiguous.wrote x above (by omega)
          · intro _
            change (s.dev.flash.writes ++ [_]).length + k ≤ (met b0 s last).length
            rw [List.length_append, List.length_singleton]
            omega
    | worn eio positive same =>
      rw [position, mtd] at eio
      rw [same]
      by_cases single : lag b0 s last = 1
      · apply OnCourse.rewrite last
        · exact worn_rewrite rewrite single
        · left
          unfold lag at single
          omega
      · exact .astray _ _ (worn_astray rewrite straight all (by omega) eio)

end Runs

end Filogic.Mtd
