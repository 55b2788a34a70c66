import Filogic.Mtd.Write

/-! Which blocks turn bad in a run: those that fail on erase or write, up to the last one that was
written. -/

namespace Filogic.Mtd
open Lib

section Turned

variable {p : Partition} {b0 k : Nat} {image : List UInt8} {following : List Device}
  {s s' : Writer} {last last' : Nat}

/-- Of the blocks passed so far, those are bad that stopped the writer or failed it; those that wait
did not stop it. -/
structure Turned (p : Partition) (b0 : Nat) (s : Writer) (last : Nat) : Prop where
  past : ∀ x, b0 ≤ x → x < last - lag b0 s last →
    (s.dev.flash.bad x = true ↔ Stops p x ∨ p.mtd.writeAnswer x = .eio)
  waiting : ∀ x, last - lag b0 s last ≤ x → x < last → ¬Stops p x

theorem turned_start (s : Writer) : Turned p b0 s b0 := by
  have none : lag b0 s b0 = 0 := by
    have bound := @lag_le b0 s b0
    omega
  constructor
  · intro x above below
    omega
  · intro x above below
    omega

theorem Turned.same_dev (turned : Turned p b0 s last) (dev : s'.dev = s.dev) :
    Turned p b0 s' last := by
  have lags : lag b0 s' last = lag b0 s last := by
    unfold lag met
    rw [dev]
  constructor
  · rw [lags, dev]
    exact turned.past
  · rw [lags]
    exact turned.waiting

/-- Where the loop that erases is. -/
theorem Frame.last_eq (frame : Frame p.mtd p.bad b0 following s last)
    (place : s.e + s.physPartOff = last' * p.mtd.erasesize) : last = last' :=
  Nat.eq_of_mul_eq_mul_right p.mtd.erasesize_pos (frame.place.symm.trans place)

/-- The blocks that wait are told by where they start. -/
theorem Going.start_eq (going : Going p.mtd p.bad b0 k following s last) (start count : Nat)
    (some : 0 < count) (tail : (met b0 s last).drop s.dev.flash.writes.length =
      List.range' start count) : last - lag b0 s last = start := by
  rw [going.tail] at tail
  have lengths := congrArg List.length tail
  rw [List.length_range', List.length_range'] at lengths
  obtain ⟨more, same⟩ := Nat.exists_eq_succ_of_ne_zero some.ne'
  rw [lengths, same, List.range'_succ, List.range'_succ] at tail
  rw [lengths, same]
  exact (List.cons.inj tail).1

theorem skip_turned (rewrite : AtRewrite p.mtd p.bad b0 k image following s last)
    (turned : Turned p b0 s last) (bad : Nat → Bool) (isBad : bad last = true)
    (others : ∀ b, b ≠ last → bad b = s.dev.flash.bad b) (stops : Stops p last)
    (going : Going p.mtd p.bad b0 k following
      (skipBlock (s.setFlash { s.dev.flash with bad := bad })) (last + 1)) :
    Turned p b0 (skipBlock (s.setFlash { s.dev.flash with bad := bad })) (last + 1) := by
  have same := met_skip rewrite.toFrame bad isBad others
  have bound := @lag_le b0 s last
  have low := rewrite.low
  have sameLag : lag b0 (skipBlock (s.setFlash { s.dev.flash with bad := bad })) (last + 1) =
      lag b0 s last := by
    unfold lag
    rw [same]
    rfl
  -- the writer would be astray otherwise
  have caughtUp : lag b0 s last = 0 := by
    by_contra waiting
    have start := going.start_eq (last - lag b0 s last) (lag b0 s last)
      (Nat.pos_of_ne_zero waiting) (by rw [same]; exact rewrite.tail)
    rw [sameLag] at start
    omega
  have past := turned.past
  rw [caughtUp] at past
  constructor
  · intro x above below
    rw [sameLag, caughtUp] at below
    change bad x = true ↔ _
    by_cases here : x = last
    · rw [here]
      exact iff_of_true isBad (.inl stops)
    · rw [others x here]
      exact past x above (by omega)
  · intro x above below
    rw [sameLag, caughtUp] at above
    omega

theorem erase_turned (rewrite : AtRewrite p.mtd p.bad b0 k image following s last)
    (turned : Turned p b0 s last) (good : s.dev.flash.bad last = false)
    (ok : p.mtd.eraseAnswer last = .ok) :
    Turned p b0 { s.setFlash (s.dev.flash.erase p.mtd.erasesize last) with
      e := s.e + p.mtd.erasesize } (last + 1) := by
  have more := met_erase rewrite.toFrame good
  have count := rewrite.count
  have moreLag : lag b0 { s.setFlash (s.dev.flash.erase p.mtd.erasesize last) with
      e := s.e + p.mtd.erasesize } (last + 1) = lag b0 s last + 1 := by
    unfold lag
    rw [more, List.length_append, List.length_singleton]
    change _ - s.dev.flash.writes.length = _
    omega
  constructor
  · intro x above below
    rw [moreLag] at below
    exact turned.past x above (by omega)
  · intro x above below
    rw [moreLag] at above
    by_cases here : x = last
    · rw [here]
      rintro (bad | eio)
      · rw [← rewrite.later last (le_refl _), good] at bad
        cases bad
      · rw [ok] at eio
        cases eio
    · exact turned.waiting x (by omega) (by omega)

theorem write_turned (rewrite : AtRewrite p.mtd p.bad b0 k image following s last)
    (turned : Turned p b0 s last) (waiting : 0 < lag b0 s last)
    (ok : p.mtd.writeAnswer (last - lag b0 s last) = .ok) (dev : s'.dev.flash.bad = s.dev.flash.bad)
    (writes : s'.dev.flash.writes.length = s.dev.flash.writes.length + 1) :
    Turned p b0 s' last := by
  have hole := rewrite.before_hole waiting
  have bound := @lag_le b0 s last
  have lessLag : lag b0 s' last = lag b0 s last - 1 := by
    unfold lag met
    rw [dev, writes]
    rfl
  constructor
  · intro x above below
    rw [lessLag] at below
    rw [dev]
    by_cases here : x = last - lag b0 s last
    · rw [here]
      apply iff_of_false
      · rw [hole.2]
        exact Bool.false_ne_true
      · rintro (stops | eio)
        · exact turned.waiting _ (le_refl _) (by omega) stops
        · rw [ok] at eio
          cases eio
    · exact turned.past x above (by omega)
  · intro x above below
    rw [lessLag] at above
    exact turned.waiting x (by omega) below

theorem worn_turned (rewrite : AtRewrite p.mtd p.bad b0 k image following s last)
    (turned : Turned p b0 s last) (waiting : 0 < lag b0 s last)
    (eio : p.mtd.writeAnswer (last - lag b0 s last) = .eio)
    (bad : s'.dev.flash.bad = Function.update s.dev.flash.bad (last - 1) true)
    (writes : s'.dev.flash.writes = s.dev.flash.writes)
    (going : Going p.mtd p.bad b0 k following s' last) : Turned p b0 s' last := by
  have bound := @lag_le b0 s last
  have low := rewrite.low
  have next : last - 1 + 1 = last := by omega
  have lastGood := rewrite.before_waiting.2 (last - 1) (by omega) (by omega)
  have before : met b0 s last = met b0 s' last ++ [last - 1] := by
    have old := goodFrom_succ s.dev.flash.bad b0 (last - 1) (by omega)
    have new := goodFrom_succ s'.dev.flash.bad b0 (last - 1) (by omega)
    rw [next, lastGood, if_neg Bool.false_ne_true] at old
    rw [next, bad, Function.update_self, if_pos rfl, List.append_nil,
      goodFrom_update _ _ _ _ (.inr (le_refl _))] at new
    rw [met, met, bad, new, old]
  have length : (met b0 s last).length = (met b0 s' last).length + 1 := by
    rw [before, List.length_append, List.length_singleton]
  have lessLag : lag b0 s' last = lag b0 s last - 1 := by
    unfold lag
    rw [writes]
    omega
  -- the writer would be astray otherwise
  have single : lag b0 s last = 1 := by
    by_contra several
    have tail := rewrite.tail
    have count : s.dev.flash.writes.length ≤ (met b0 s' last).length := by
      unfold lag at several waiting
      omega
    obtain ⟨more, some⟩ := Nat.exists_eq_succ_of_ne_zero waiting.ne'
    rw [before, List.drop_append_of_le_length count, some, List.range'_1_concat] at tail
    have start := going.start_eq (last - (more + 1)) more (by omega)
      (by rw [writes]; exact (List.append_inj' tail rfl).1)
    omega
  rw [single] at eio
  have past := turned.past
  rw [single] at past
  constructor
  · intro x above below
    rw [lessLag, single] at below
    rw [bad]
    by_cases here : x = last - 1
    · rw [here, Function.update_self]
      exact iff_of_true rfl (.inr eio)
    · rw [Function.update_of_ne here]
      exact past x above (by omega)
  · intro x above below
    rw [lessLag, single] at above
    omega

theorem rewrite_turned (partOffset : Nat) (behind : List UInt8)
    (rewrite : AtRewrite p.mtd p.bad b0 k image following s last)
    (turned : Turned p b0 s last) (ok : step false partOffset behind s = .running s')
    (going : Going p.mtd p.bad b0 k following s' last') : Turned p b0 s' last' := by
  have mtd := rewrite.mtd
  have place := rewrite.place
  have reached := going.place
  rw [← mtd] at place
  unfold step at ok
  rw [rewrite.label] at ok
  dsimp only at ok
  split_ifs at ok with more
  · obtain ⟨inRange, taken⟩ := eraseNext_running partOffset behind s s' last place ok
    rw [mtd] at inRange
    have skipped : ∀ bad : Nat → Bool, (∀ b, b ≠ last → bad b = s.dev.flash.bad b) →
        s' = skipBlock (s.setFlash { s.dev.flash with bad := bad }) → last' = last + 1 := by
      intro bad others same
      rw [same] at reached
      exact ((skip_frame rewrite.toFrame inRange bad others).last_eq reached).symm
    cases taken with
    | skipped bad same =>
      obtain rfl := skipped s.dev.flash.bad (fun _ _ => rfl) same
      rw [same] at going ⊢
      exact skip_turned rewrite turned s.dev.flash.bad bad (fun _ _ => rfl)
        (.inl (by rw [← rewrite.later last (le_refl _), bad])) going
    | erased good answer same =>
      rw [same, mtd] at reached ⊢
      have room := (rewrite.erases_iff.mp more.2)
      obtain rfl := (erase_rewrite rewrite inRange good room).last_eq reached
      exact erase_turned rewrite turned good (by rw [← mtd, answer])
    | worn good eio same =>
      obtain rfl := skipped (Function.update s.dev.flash.bad last true)
        (fun b other => Function.update_of_ne other ..) same
      rw [same] at going ⊢
      exact skip_turned rewrite turned (Function.update s.dev.flash.bad last true)
        (Function.update_self ..) (fun b other => Function.update_of_ne other ..)
        (.inr (by rw [← mtd, eio])) going
  · have waiting : 0 < lag b0 s last := by
      by_contra none
      apply more
      refine ⟨rfl, rewrite.erases_iff.mpr ?_⟩
      unfold lag at none
      omega
    have position := rewrite.pos_div
    cases writeBuf_running behind s s' last rewrite.offset place ok with
    | written answer same =>
      rw [position, mtd] at answer
      have lasts : last = last' := by
        rw [same] at reached
        exact rewrite.last_eq reached
      rw [← lasts]
      apply write_turned rewrite turned waiting answer
      · rw [same]
        rfl
      · rw [same]
        exact List.length_append
    | worn eio positive same =>
      rw [position, mtd] at eio
      have lasts : last = last' := by
        rw [same] at reached
        exact rewrite.last_eq reached
      rw [← lasts] at going ⊢
      apply worn_turned rewrite turned waiting eio _ _ going
      · rw [same]
        rfl
      · rw [same]
        rfl

/-- The block that was passed over, among the good ones. -/
theorem Astray.met_split {hole : Nat} (astray : Astray p b0 k image following s last hole) :
    met b0 s last = goodFrom s.dev.flash.bad b0 hole ++
      (hole :: goodFrom s.dev.flash.bad (hole + 1) last) := by
  have above := astray.above
  have behind := astray.behind
  have next := goodFrom_succ s.dev.flash.bad b0 hole above
  rw [astray.good] at next
  rw [met, goodFrom_append _ b0 (hole + 1) last (by omega) (by omega), next, List.append_assoc]
  rfl

/-- It would have been written to by now. -/
theorem Astray.mem_take {hole : Nat} (astray : Astray p b0 k image following s last hole)
    (more : (goodFrom s.dev.flash.bad b0 hole).length < s.dev.flash.writes.length) :
    hole ∈ (met b0 s last).take s.dev.flash.writes.length := by
  rw [astray.met_split, List.take_append]
  apply List.mem_append_right
  obtain ⟨left, count⟩ := Nat.exists_eq_add_of_lt more
  rw [count, Nat.add_assoc, Nat.add_sub_cancel_left, List.take_succ_cons]
  exact List.mem_cons_self

/-- A writer that went astray is not on its way. -/
theorem Astray.off_course {hole : Nat} (astray : Astray p b0 k image following s last hole) :
    ¬(AtNext p.mtd p.bad b0 k image following s last ∨
      AtRewrite p.mtd p.bad b0 k image following s last) := by
  intro onWay
  have going : Going p.mtd p.bad b0 k following s last := by
    rcases onWay with next | rewrite
    · exact next.toGoing
    · exact rewrite.toGoing
  have equal : s.dev.flash.writes.length = (goodFrom s.dev.flash.bad b0 hole).length := by
    by_contra other
    have member := astray.mem_take (lt_of_le_of_ne astray.count (Ne.symm other))
    rw [← going.order, List.mem_map] at member
    obtain ⟨write, wrote, same⟩ := member
    exact astray.missed write wrote same
  rcases onWay with next | rewrite
  · have label := (astray.more equal).1
    rw [next.label] at label
    cases label
  · have past := astray.past
    have tail := rewrite.tail
    rw [astray.met_split, List.drop_left' equal.symm] at tail
    cases count : lag b0 s last with
    | zero =>
      rw [count] at tail
      cases tail
    | succ more =>
      rw [rewrite.pos] at past
      rw [count, List.range'_succ] at tail
      rw [count, ← (List.cons.inj tail).1, Nat.succ_mul] at past
      have positive := p.mtd.erasesize_pos
      omega

/-- In a run that has not gone astray. -/
def Status.Turned (p : Partition) (b0 k : Nat) (image : List UInt8) (following : List Device) :
    Status → Prop
  | .running s => ∀ last, AtNext p.mtd p.bad b0 k image following s last ∨
      AtRewrite p.mtd p.bad b0 k image following s last → Mtd.Turned p b0 s last
  | .returned _ => True
  | .exited => True

theorem iterate_turned (partOffset : Nat) (behind : List UInt8)
    (next : AtNext p.mtd p.bad b0 k image following s b0) (straight : Straight p b0 k s b0)
    (steps : Nat) : ((Status.step false partOffset behind)^[steps] (.running s)).Turned p b0 k
      image following := by
  induction steps with
  | zero =>
    intro last onWay
    have place : s.e + s.physPartOff = last * p.mtd.erasesize := by
      rcases onWay with next | rewrite
      · exact next.place
      · exact rewrite.place
    obtain rfl := next.last_eq place
    exact turned_start s
  | succ steps ih =>
    have course := iterate_course partOffset behind (.running s) (.next _ next straight) steps
    rw [Function.iterate_succ_apply']
    cases status : (Status.step false partOffset behind)^[steps] (.running s) with
    | returned devices => trivial
    | exited => trivial
    | running t =>
      rw [status] at ih course
      change (step false partOffset behind t).Turned p b0 k image following
      cases ok : step false partOffset behind t with
      | returned devices => trivial
      | exited => trivial
      | running t' =>
        intro last' onWay
        have going : Going p.mtd p.bad b0 k following t' last' := by
          rcases onWay with next | rewrite
          · exact next.toGoing
          · exact rewrite.toGoing
        cases course with
        | next last at' =>
          have old := ih last (.inl at')
          rcases next_step false partOffset behind at' with ⟨-, returned⟩ | ⟨_, same, dev, rewrite⟩
          · rw [returned] at ok
            cases ok
          · obtain rfl := Status.running.inj (same.symm.trans ok)
            obtain rfl := rewrite.last_eq going.place
            exact old.same_dev dev
        | rewrite last at' =>
          exact rewrite_turned partOffset behind at' (ih last (.inr at')) ok going
        | astray last hole at' =>
          obtain ⟨last'', astray⟩ := astray_step partOffset behind at' t' ok
          obtain rfl := astray.last_eq going.place
          exact absurd onWay astray.off_course

/-- The state before a run returns. -/
theorem last_running (noErase : Bool) (partOffset : Nat) (behind : List UInt8) (steps : Nat)
    (devices : List Device) (ok : (Status.step noErase partOffset behind)^[steps] (.running s) =
      .returned devices) :
    ∃ count t, (Status.step noErase partOffset behind)^[count] (.running s) = .running t ∧
      step noErase partOffset behind t = .returned devices := by
  induction steps with
  | zero => cases ok
  | succ steps ih =>
    rw [Function.iterate_succ_apply'] at ok
    cases before : (Status.step noErase partOffset behind)^[steps] (.running s) with
    | running t =>
      rw [before] at ok
      exact ⟨steps, t, before, ok⟩
    | returned devices' =>
      rw [before] at ok ih
      exact ih ok
    | exited =>
      rw [before] at ok
      cases ok

/-- Without a block that leads the writer astray, it ends on its way. -/
theorem ended_next (partOffset : Nat) (behind : List UInt8)
    (next : AtNext p.mtd p.bad b0 k image following s b0) (straight : Straight p b0 k s b0)
    (clear : k = 0 ∨ ClearRun p b0 k (needed p image)) (steps : Nat) (devices : List Device)
    (ok : (Status.step false partOffset behind)^[steps] (.running s) = .returned devices) :
    ∃ t last, AtNext p.mtd p.bad b0 k image following t last ∧ Turned p b0 t last ∧
      t.buf ++ t.image = [] ∧ devices = t.dev :: following := by
  obtain ⟨count, t, before, returns⟩ := last_running false partOffset behind steps devices ok
  have course := iterate_course partOffset behind (.running s) (.next _ next straight) count
  have turned := iterate_turned partOffset behind next straight count
  rw [before] at course turned
  cases course with
  | next last at' =>
    have place := at'.place
    rw [← at'.mtd] at place
    obtain ⟨-, empty, same⟩ := step_returned false partOffset behind at'.following at'.closed place
      devices returns
    exact ⟨t, last, at', turned last (.inl at'), empty, same⟩
  | rewrite last at' =>
    have place := at'.place
    rw [← at'.mtd] at place
    have label := (step_returned false partOffset behind at'.following at'.closed place devices
      returns).1
    rw [at'.label] at label
    cases label
  | astray last hole at' =>
    rcases clear with none | clear
    · exact absurd none at'.skipped
    · exact absurd clear at'.notClear

end Turned

end Filogic.Mtd
