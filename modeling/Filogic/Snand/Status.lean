import Filogic.Snand.Agreement

/-! The return codes of programs and erases on any bus: what the transactions of a call say, and
what the driver makes of them. -/

namespace Filogic.Snand
open Lib

namespace Transaction

variable (t : Transaction)

/-- A read of the status register, whether or not it went through. -/
def IsStatusRead : Prop := t.command = .getFeature featureStatusAddr

instance : Decidable t.IsStatusRead :=
  inferInstanceAs (Decidable (t.command = .getFeature featureStatusAddr))

/-- What `mtk_snand_get_feature` returns: an error code, or else the byte. -/
def feature : Int := if t.ret ≠ 0 then t.ret else (t.reply.headD 0).toNat

/-- A status byte that was read with the write-enable latch set. -/
def Latched : Prop := t.IsStatusRead ∧ t.ret = 0 ∧ t.feature / 2 % 2 = 1

/-- An answer that the masks of the driver take for a finished operation without `failBit`. -/
def LooksDone (failBit : Int) : Prop := t.feature % 2 = 0 ∧ t.feature / failBit % 2 ≠ 1

/-- A status byte that was read with the busy bit and `failBit` clear. -/
def Done (failBit : Int) : Prop := t.IsStatusRead ∧ t.ret = 0 ∧ t.LooksDone failBit

/-- A program or an erase that was sent. -/
def Starts : Prop :=
  match t.command with
  | .programExecute _ | .blockErase _ => t.ret = 0
  | _ => False

end Transaction

/-- `SNAND_STATUS_PROGRAM_FAIL` and `SNAND_STATUS_ERASE_FAIL` -/
def programFail : Int := 8
def eraseFail : Int := 4

/-- The transactions of a run, the first one first. -/
def transactions (prog : Prog World Int) (w : World) : List Transaction :=
  ((prog.after w).trace.take ((prog.after w).trace.length - w.trace.length)).reverse

/-- The write-enable latch was read as set, then the array operation was sent, and then the chip
was read to have finished it well. -/
def Confirmed (failBit : Int) (ts : List Transaction) : Prop :=
  ∃ before start after, ts = before ++ start :: after ∧ start.Starts ∧
    (∃ t ∈ before, t.Latched) ∧ ∃ t ∈ after, t.Done failBit

/-- A call that says 0 was confirmed, and one that was not says so with a negative error code. -/
structure SaysWhatHappened (failBit : Int) (prog : Prog World Int) (w : World) : Prop where
  success : prog.value w = 0 → Confirmed failBit (transactions prog w)
  failure : prog.value w ≠ 0 → prog.value w < 0

/-- Where the array operation was sent and the last status read looks as if it had ended well,
that read went through, and so did the first one, which is for the write-enable latch. -/
def Answered (failBit : Int) (ts : List Transaction) : Prop :=
  (∃ t ∈ ts, t.Starts) → ∀ last ∈ ts.getLast?, last.LooksDone failBit →
    last.ret = 0 ∧ ∀ latch ∈ ts.find? (·.IsStatusRead), latch.ret = 0

/-- The error codes of the bus and of the DMA mapping are negative. -/
def ErrorsNegative (w : World) : Prop := ∀ t, (w.bus t).ret ≤ 0

/-- From `w` to `w'` the transactions `ts` took place. -/
structure Sent (w w' : World) (ts : List Transaction) : Prop where
  trace : w'.trace = ts.reverse ++ w.trace
  bus : w'.bus = w.bus

namespace Sent

variable {a b c : World} {ts us : List Transaction}

theorem refl (w : World) : Sent w w [] := ⟨rfl, rfl⟩

theorem trans (one : Sent a b ts) (two : Sent b c us) : Sent a c (ts ++ us) where
  trace := by rw [two.trace, one.trace, List.reverse_append, List.append_assoc]
  bus := two.bus.trans one.bus

theorem errors (sent : Sent a b ts) (negative : ErrorsNegative a) : ErrorsNegative b := by
  intro t
  rw [sent.bus]
  exact negative t

theorem transactions_eq {prog : Prog World Int} {w : World}
    (sent : Sent w (prog.after w) ts) : transactions prog w = ts := by
  have length : ts.reverse.length = (ts.reverse ++ w.trace).length - w.trace.length := by simp
  rw [transactions, sent.trace, ← length, List.take_left, List.reverse_reverse]

end Sent

section Calls

variable (g : Geometry)

theorem macIo_sent (command : Command) (w : World) :
    ∃ t : Transaction, t.command = command ∧ t.ret = w.cycle.ret ∧
      ((macIo g command).run w).1 = (t.ret, t.reply) ∧
      Sent w ((macIo g command).run w).2 [t] := by
  refine ⟨⟨command, w.cycle.ret, w.reply command⟩, rfl, rfl, rfl, rfl, ?_⟩
  simp only [macIo, Prog.run]
  split_ifs
  · rfl
  · cases command <;> simp only [World.execute] <;> split_ifs <;> rfl

theorem getFeature_sent (addr : Nat) (w : World) (negative : ErrorsNegative w) :
    ∃ t : Transaction, t.command = .getFeature addr ∧ t.ret ≤ 0 ∧
      ((getFeature g addr).run w).1 = t.feature ∧ Sent w ((getFeature g addr).run w).2 [t] := by
  obtain ⟨t, command, ret, value, sent⟩ := macIo_sent g (.getFeature addr) w
  refine ⟨t, command, by rw [ret]; exact negative _, ?_, ?_⟩
  all_goals
    rw [getFeature, Prog.run_bind, value]
    simp only [Transaction.feature]
    split_ifs <;> first | rfl | exact sent

/-- How polling ends: with the first even answer, or when the timer does. -/
inductive Polled : Int → List Transaction → Prop
  | expired (last : Transaction) (head : List Transaction) (read : ∀ t ∈ head ++ [last], t.IsStatusRead)
      (running : last.feature % 2 = 1) : Polled (-etimedout) (head ++ [last])
  | ready (last : Transaction) (head : List Transaction) (read : last.IsStatusRead)
      (errors : last.ret ≤ 0) (even : last.feature % 2 = 0)
      (running : ∀ t ∈ head, t.IsStatusRead ∧ t.feature % 2 = 1) :
      Polled (last.feature / 4 % 4 * 4) (head ++ [last])

theorem Polled.cons {ret : Int} {ts : List Transaction} (t : Transaction) (read : t.IsStatusRead)
    (running : t.feature % 2 = 1) (polled : Polled ret ts) : Polled ret (t :: ts) := by
  cases polled with
  | expired last head reads odd =>
    apply Polled.expired last (t :: head) _ odd
    simpa [read] using reads
  | ready last head final errors even odd =>
    apply Polled.ready last (t :: head) final errors even
    simpa [read, running] using odd

theorem pollRound_sent (next : Prog World Int) (w : World) (negative : ErrorsNegative w)
    (rest : ∀ w', ErrorsNegative w' → (∃ ts, Polled (next.run w').1 ts ∧ Sent w' (next.run w').2 ts) ∨
      next.run w' = (-etimedout, w')) :
    ∃ ts, Polled ((pollRound g next).run w).1 ts ∧ Sent w ((pollRound g next).run w).2 ts := by
  obtain ⟨t, command, errors, value, sent⟩ := getFeature_sent g featureStatusAddr w negative
  rw [pollRound, Prog.run_bind, value]
  by_cases even : t.feature % 2 = 0
  · rw [if_pos even]
    exact ⟨[] ++ [t], .ready t [] command errors even (by simp), sent⟩
  · have odd : t.feature % 2 = 1 := by omega
    rw [if_neg even]
    obtain ⟨ts, polled, later⟩ | stop := rest _ (sent.errors negative)
    · exact ⟨t :: ts, polled.cons t command odd, sent.trans later⟩
    · rw [stop]
      exact ⟨[] ++ [t], .expired t [] (by simpa [Transaction.IsStatusRead] using command) odd, sent⟩

theorem pollLoop_sent (polls : Nat) (w : World) (negative : ErrorsNegative w) :
    ∃ ts, Polled ((pollLoop g polls).run w).1 ts ∧ Sent w ((pollLoop g polls).run w).2 ts := by
  induction polls generalizing w with
  | zero => exact pollRound_sent g _ w negative fun _ _ => .inr rfl
  | succ polls ih => exact pollRound_sent g _ w negative fun w' errors => .inl (ih w' errors)

/-- How the write-enable ends: refused, or with a first status read that says the latch is set or
does not go through. -/
inductive Enabled : Int → List Transaction → Prop
  | refused (ret : Int) (ts : List Transaction) (error : ret < 0)
      (unsent : ∀ t ∈ ts, ¬t.Starts) : Enabled ret ts
  | enabled (head : List Transaction) (latch : Transaction) (read : latch.IsStatusRead)
      (answer : latch.ret ≠ 0 ∨ latch.feature / 2 % 2 = 1)
      (others : ∀ t ∈ head, ¬t.IsStatusRead ∧ ¬t.Starts) : Enabled 0 (head ++ [latch])

theorem writeEnable_sent (w : World) (negative : ErrorsNegative w) :
    ∃ ts, Enabled ((writeEnable g).run w).1 ts ∧ Sent w ((writeEnable g).run w).2 ts := by
  obtain ⟨t, command, ret, value, sent⟩ := macIo_sent g .writeEnable w
  have errors : t.ret ≤ 0 := ret ▸ negative w.tick
  have other : ¬t.IsStatusRead ∧ ¬t.Starts := by
    simp [Transaction.IsStatusRead, Transaction.Starts, command]
  rw [writeEnable, Prog.run_bind, value]
  by_cases lost : t.ret = 0
  · obtain ⟨latch, read, errors, answer, sent'⟩ :=
      getFeature_sent g featureStatusAddr _ (sent.errors negative)
    simp only [lost, ne_eq, not_true_eq_false, if_false]
    rw [Prog.run_bind, answer]
    refine ⟨[t] ++ [latch], ?_, ?_⟩
    · split_ifs with failed set
      · apply Enabled.enabled [t] latch read (.inl _) (by simpa using other)
        intro zero
        simp only [Transaction.feature, zero, ne_eq, not_true_eq_false, if_false] at failed
        omega
      · exact .enabled [t] latch read (.inr set) (by simpa using other)
      · apply Enabled.refused (-enotsupp) _ (by decide)
        simp [Transaction.Starts, command, show latch.command = _ from read]
    · split_ifs <;> exact sent.trans sent'
  · simp only [ne_eq, lost, not_false_eq_true, if_true]
    exact ⟨[t], .refused t.ret _ (by omega) (by simpa using other.2), sent⟩

theorem selectDieAddress_sent (addr : Nat) (w : World) :
    ∃ ts, (∀ t ∈ ts, ¬t.IsStatusRead ∧ ¬t.Starts) ∧
      Sent w ((selectDieAddress g addr).run w).2 ts := by
  have one (command : Command) (other : command ≠ .getFeature featureStatusAddr)
      (quiet : ∀ t : Transaction, t.command = command → ¬t.Starts) :
      ∃ ts, (∀ t ∈ ts, ¬t.IsStatusRead ∧ ¬t.Starts) ∧ Sent w ((macIo g command).run w).2 ts := by
    obtain ⟨t, sent, -, -, run⟩ := macIo_sent g command w
    refine ⟨[t], ?_, run⟩
    simpa [Transaction.IsStatusRead, sent] using ⟨other, quiet t sent⟩
  cases chosen : g.selectDie with
  | none =>
    simp only [selectDieAddress, chosen]
    exact ⟨[], by simp, .refl w⟩
  | some select =>
    cases select <;> simp only [selectDieAddress, selectDie, chosen, Prog.run_bind] <;> split_ifs
    · exact ⟨[], by simp, .refl w⟩
    · exact one _ (by simp) fun t sent => by simp [Transaction.Starts, sent]
    · exact ⟨[], by simp, .refl w⟩
    · exact one _ (by simp) fun t sent => by simp [Transaction.Starts, sent]

/-- The tail that programs and erases share: send the command, poll, look at the fail bit. -/
def awaitArray (command : Command) (failBit : Int) : Prog World Int := do
  let ret ← pageOp g command
  if ret ≠ 0 then
    pure ret
  else do
    let ret ← pollStatus g
    if ret < 0 then
      pure ret
    else if ret / failBit % 2 = 1 then
      pure (-eio)
    else
      pure 0

/-- A whole call: it is given up before the array operation is sent, it ends with the poll timer,
or an even answer of the status register ends it. -/
inductive Course (failBit : Int) : Int → List Transaction → Prop
  | refused (ret : Int) (ts : List Transaction) (error : ret < 0)
      (unsent : ∀ t ∈ ts, ¬t.Starts) : Course failBit ret ts
  | expired (head : List Transaction) (last : Transaction)
      (running : last.feature % 2 = 1) : Course failBit (-etimedout) (head ++ [last])
  | ended (head : List Transaction) (latch start : Transaction) (polls : List Transaction)
      (last : Transaction) (others : ∀ t ∈ head, ¬t.IsStatusRead ∧ ¬t.Starts)
      (read : latch.IsStatusRead) (answer : latch.ret ≠ 0 ∨ latch.feature / 2 % 2 = 1)
      (starts : start.Starts) (running : ∀ t ∈ polls, t.IsStatusRead ∧ t.feature % 2 = 1)
      (final : last.IsStatusRead) (even : last.feature % 2 = 0) :
      Course failBit (if last.feature / failBit % 2 = 1 then -eio else 0)
        (head ++ latch :: start :: polls ++ [last])

theorem not_starts_of_read (t : Transaction) (read : t.IsStatusRead) : ¬t.Starts := by
  simp [Transaction.Starts, show t.command = _ from read]

/-- The bits that polling passes on are those of the answer. -/
theorem bit_of_poll (failBit feature : Int) (bit : failBit = programFail ∨ failBit = eraseFail) :
    ¬feature / 4 % 4 * 4 < 0 ∧
      (feature / 4 % 4 * 4 / failBit % 2 = 1 ↔ feature / failBit % 2 = 1) := by
  obtain rfl | rfl := bit
  · unfold programFail
    omega
  · unfold eraseFail
    omega

theorem awaitArray_course (command : Command) (failBit : Int)
    (bit : failBit = programFail ∨ failBit = eraseFail)
    (array : ∀ t : Transaction, t.command = command → (t.Starts ↔ t.ret = 0))
    (w : World) (negative : ErrorsNegative w) (head : List Transaction) (latch : Transaction)
    (others : ∀ t ∈ head, ¬t.IsStatusRead ∧ ¬t.Starts) (read : latch.IsStatusRead)
    (answer : latch.ret ≠ 0 ∨ latch.feature / 2 % 2 = 1) :
    ∃ ts, Course failBit ((awaitArray g command failBit).run w).1 (head ++ [latch] ++ ts) ∧
      Sent w ((awaitArray g command failBit).run w).2 ts := by
  obtain ⟨t, sent, ret, value, run⟩ := macIo_sent g command w
  have errors : t.ret ≤ 0 := ret ▸ negative w.tick
  have starts : t.Starts ↔ t.ret = 0 := array t sent
  rw [awaitArray, pageOp, Prog.run_bind, Prog.run_bind, value]
  by_cases through : t.ret = 0
  · simp only [Prog.run_pure, through, ne_eq, not_true_eq_false, if_false]
    obtain ⟨ts, polled, later⟩ := pollLoop_sent g ((macIo g command).run w).2.cycle.polls
      ((macIo g command).run w).2 (run.errors negative)
    change Polled ((pollStatus g).run _).1 ts at polled
    refine ⟨[t] ++ ts, ?_, ?_⟩
    · rw [Prog.run_bind]
      generalize ((pollStatus g).run ((macIo g command).run w).2).1 = verdict at polled ⊢
      cases polled with
      | expired last polls reads running =>
        rw [if_pos (by decide)]
        simpa using Course.expired (head ++ latch :: t :: polls) last running
      | ready last polls final errors even running =>
        obtain ⟨sign, same⟩ := bit_of_poll failBit last.feature bit
        rw [if_neg sign]
        have ended := @Course.ended failBit head latch t polls last others read answer
          (starts.mpr through) running final even
        simp only [same]
        simpa [apply_ite] using ended
    · rw [Prog.run_bind]
      split_ifs <;> exact run.trans later
  · simp only [Prog.run_pure, ne_eq, through, not_false_eq_true, if_true]
    refine ⟨[t], .refused t.ret _ (by omega) ?_, run⟩
    have latched := not_starts_of_read latch read
    simp only [List.mem_append, List.mem_singleton]
    rintro u ((old | rfl) | rfl)
    · exact (others u old).2
    · exact latched
    · rwa [starts]

theorem programLoad_sent (ecc : EccEngine g) (raw : Bool) (w : World) (negative : ErrorsNegative w) :
    ((programLoad g ecc raw).run w).1 ≤ 0 ∧ Sent w ((programLoad g ecc raw).run w).2 [] :=
  ⟨negative w.tick, rfl, rfl⟩

/-- A program that begins with the write-enable, and whose rest has a course once the first status
read has let it pass. -/
theorem enabled_course (failBit : Int) (rest : Prog World Int)
    (ends : ∀ (w : World) (head : List Transaction) (latch : Transaction), ErrorsNegative w →
      (∀ t ∈ head, ¬t.IsStatusRead ∧ ¬t.Starts) → latch.IsStatusRead →
      (latch.ret ≠ 0 ∨ latch.feature / 2 % 2 = 1) →
      ∃ ts, Course failBit (rest.run w).1 (head ++ [latch] ++ ts) ∧ Sent w (rest.run w).2 ts)
    (prog : Prog World Int)
    (begins : prog = do
      let ret ← writeEnable g
      if ret ≠ 0 then pure ret else rest)
    (w : World) (negative : ErrorsNegative w) (dies : List Transaction)
    (quiet : ∀ t ∈ dies, ¬t.IsStatusRead ∧ ¬t.Starts) :
    ∃ ts, Course failBit (prog.run w).1 (dies ++ ts) ∧ Sent w (prog.run w).2 ts := by
  obtain ⟨ts, enabled, sent⟩ := writeEnable_sent g w negative
  rw [begins, Prog.run_bind]
  generalize ((writeEnable g).run w).1 = verdict at enabled ⊢
  cases enabled with
  | refused ret ts error unsent =>
    simp only [ne_eq, error.ne, not_false_eq_true, if_true]
    refine ⟨ts, .refused _ _ error ?_, sent⟩
    simp only [List.mem_append]
    rintro t (die | own)
    · exact (quiet t die).2
    · exact unsent t own
  | enabled head latch read answer others =>
    simp only [ne_eq, not_true_eq_false, if_false]
    have before : ∀ t ∈ dies ++ head, ¬t.IsStatusRead ∧ ¬t.Starts := by
      simp only [List.mem_append]
      rintro t (die | own)
      · exact quiet t die
      · exact others t own
    obtain ⟨us, course, later⟩ :=
      ends _ (dies ++ head) latch (sent.errors negative) before read answer
    refine ⟨head ++ [latch] ++ us, ?_, sent.trans later⟩
    simpa only [List.append_assoc] using course

theorem programPage_course (ecc : EccEngine g) (page : Nat) (raw : Bool) (w : World)
    (negative : ErrorsNegative w) (dies : List Transaction)
    (quiet : ∀ t ∈ dies, ¬t.IsStatusRead ∧ ¬t.Starts) :
    ∃ ts, Course programFail ((programPage g ecc page raw).run w).1 (dies ++ ts) ∧
      Sent w ((programPage g ecc page raw).run w).2 ts := by
  refine enabled_course g programFail (do
    let ret ← programLoad g ecc raw
    if ret ≠ 0 then pure ret else awaitArray g (.programExecute page) programFail)
    ?_ _ rfl w negative dies quiet
  intro w head latch negative others read answer
  obtain ⟨sign, loaded⟩ := programLoad_sent g ecc raw w negative
  rw [Prog.run_bind]
  by_cases load : ((programLoad g ecc raw).run w).1 = 0
  · rw [load]
    simp only [ne_eq, not_true_eq_false, if_false]
    obtain ⟨ts, course, later⟩ := awaitArray_course g (.programExecute page) programFail (.inl rfl)
      (fun t command => by simp [Transaction.Starts, command]) _ (loaded.errors negative) head
      latch others read answer
    exact ⟨ts, course, loaded.trans later⟩
  · simp only [ne_eq, load, not_false_eq_true, if_true]
    refine ⟨[], .refused _ _ (by simp only [Prog.run_pure]; omega) ?_, loaded⟩
    have latched := not_starts_of_read latch read
    simp only [List.append_nil, List.mem_append, List.mem_singleton]
    rintro t (old | rfl)
    · exact (others t old).2
    · exact latched

theorem doWritePage_course (ecc : EccEngine g) (addr : Nat) (src : Buffers) (raw format : Bool)
    (w : World) (negative : ErrorsNegative w) :
    ∃ ts, Course programFail ((doWritePage g ecc addr src raw format).value w) ts ∧
      Sent w ((doWritePage g ecc addr src raw format).after w) ts := by
  obtain ⟨dies, quiet, sent⟩ := selectDieAddress_sent g addr w
  let chosen := ((selectDieAddress g addr).run w).2
  let image := writeImage g src raw format chosen.pageCache
  let prepared : World := { chosen with pageCache := image.1 }
  have filled : Sent w prepared dies := ⟨sent.trace, sent.bus⟩
  obtain ⟨ts, course, later⟩ := programPage_course g ecc
    (((selectDieAddress g addr).run w).1 >>> g.writesizeShift) image.2 prepared
    (filled.errors negative) dies quiet
  exact ⟨dies ++ ts, course, filled.trans later⟩

theorem eraseBlock_course (addr : Nat) (w : World) (negative : ErrorsNegative w) :
    ∃ ts, Course eraseFail ((eraseBlock g addr).value w) ts ∧
      Sent w ((eraseBlock g addr).after w) ts := by
  rw [Prog.value, Prog.after, eraseBlock]
  split_ifs with outside
  · exact ⟨[], .refused _ _ (by simp [einval]) (by simp), .refl w⟩
  · obtain ⟨dies, quiet, sent⟩ := selectDieAddress_sent g addr w
    rw [Prog.run_bind]
    obtain ⟨ts, course, later⟩ := enabled_course g eraseFail
      (awaitArray g (.blockErase (((selectDieAddress g addr).run w).1 >>> g.erasesizeShift <<<
        (g.erasesizeShift - g.writesizeShift))) eraseFail)
      (fun w head latch negative others read answer =>
        awaitArray_course g _ eraseFail (.inr rfl)
          (fun t command => by simp [Transaction.Starts, command]) w negative head latch others
          read answer)
      _ rfl _ (sent.errors negative) dies quiet
    exact ⟨dies ++ ts, course, sent.trans later⟩

end Calls

namespace Course

variable {failBit : Int}

/-- The call that an even answer ends well is confirmed exactly when the two reads that decide went
through: no other read says anything, and nothing else starts an operation. -/
theorem confirmed_iff (head polls : List Transaction) (latch start last : Transaction)
    (others : ∀ t ∈ head, ¬t.IsStatusRead ∧ ¬t.Starts) (read : latch.IsStatusRead)
    (answer : latch.ret ≠ 0 ∨ latch.feature / 2 % 2 = 1) (starts : start.Starts)
    (running : ∀ t ∈ polls, t.IsStatusRead ∧ t.feature % 2 = 1) (final : last.IsStatusRead)
    (even : last.feature % 2 = 0) (well : last.feature / failBit % 2 ≠ 1) :
    Confirmed failBit (head ++ latch :: start :: polls ++ [last]) ↔ last.ret = 0 ∧ latch.ret = 0 := by
  have split : head ++ latch :: start :: polls ++ [last] =
      (head ++ [latch]) ++ start :: (polls ++ [last]) := by simp
  rw [split]
  constructor
  · rintro ⟨before, start', after, same, starts', ⟨t, early, latched⟩, u, late, done⟩
    have first : start' ∉ head ++ [latch] := by
      simp only [List.mem_append, List.mem_singleton]
      rintro (old | rfl)
      · exact (others _ old).2 starts'
      · exact not_starts_of_read _ read starts'
    have second : start' ∉ polls ++ [last] := by
      simp only [List.mem_append, List.mem_singleton]
      rintro (poll | rfl)
      · exact not_starts_of_read _ (running _ poll).1 starts'
      · exact not_starts_of_read _ final starts'
    obtain ⟨rfl, -, rfl⟩ := (List.append_cons_inj_of_notMem first second).mp same
    constructor
    · simp only [List.mem_append, List.mem_singleton] at late
      obtain poll | rfl := late
      · have odd := (running u poll).2
        have even := done.2.2.1
        omega
      · exact done.2.1
    · simp only [List.mem_append, List.mem_singleton] at early
      obtain old | rfl := early
      · exact absurd latched.1 (others t old).1
      · exact latched.2.1
  · rintro ⟨ready, set⟩
    have latched : latch.Latched := ⟨read, set, answer.resolve_left fun failed => failed set⟩
    exact ⟨head ++ [latch], start, polls ++ [last], rfl, starts, ⟨latch, by simp, latched⟩, last,
      by simp, final, ready, even, well⟩

theorem honest_iff {ret : Int} {ts : List Transaction} (course : Course failBit ret ts) :
    ((ret = 0 → Confirmed failBit ts) ∧ (ret ≠ 0 → ret < 0)) ↔ Answered failBit ts := by
  cases course with
  | refused ret ts error unsent =>
    apply iff_of_true ⟨fun zero => absurd zero error.ne, fun _ => error⟩
    rintro ⟨t, sent, starts⟩
    exact absurd starts (unsent t sent)
  | expired head last running =>
    apply iff_of_true ⟨fun zero => absurd zero (by decide), fun _ => by decide⟩
    simp only [Answered, List.getLast?_concat, Option.mem_some_iff]
    rintro - _ rfl ⟨even, -⟩
    omega
  | ended head latch start polls last others read answer starts running final even =>
    have first : (head ++ latch :: start :: polls ++ [last]).find? (·.IsStatusRead) = some latch := by
      have none : head.find? (·.IsStatusRead) = none := by
        simpa using fun t own => (others t own).1
      simp [List.find?_append, none, read]
    have sent : ∃ t ∈ head ++ latch :: start :: polls ++ [last], t.Starts := ⟨start, by simp, starts⟩
    simp only [Answered, List.getLast?_concat, first, Option.mem_some_iff, sent, true_imp_iff,
      forall_eq']
    by_cases failed : last.feature / failBit % 2 = 1
    · simp [failed, eio, Transaction.LooksDone]
    · have confirmed := confirmed_iff head polls latch start last others read answer starts running
        final even failed
      rw [confirmed]
      simp [failed, Transaction.LooksDone, even]

end Course

theorem saysWhatHappened_iff {failBit : Int} {prog : Prog World Int} {w : World}
    (runs : ∃ ts, Course failBit (prog.value w) ts ∧ Sent w (prog.after w) ts) :
    SaysWhatHappened failBit prog w ↔ Answered failBit (transactions prog w) := by
  obtain ⟨ts, course, sent⟩ := runs
  rw [sent.transactions_eq, ← course.honest_iff, ← sent.transactions_eq]
  exact ⟨fun told => ⟨told.success, told.failure⟩, fun both => ⟨both.1, both.2⟩⟩

/-- A program or an erase says what happened exactly when the two status reads that decide were
answered: the one for the write-enable latch, whose error is passed over, and the last one, whose
error code is taken for a status byte. -/
theorem status_is_real_iff (g : Geometry) (ecc : EccEngine g) (w : World)
    (negative : ErrorsNegative w) :
    (∀ addr src raw format,
      SaysWhatHappened programFail (doWritePage g ecc addr src raw format) w ↔
        Answered programFail (transactions (doWritePage g ecc addr src raw format) w)) ∧
    ∀ addr, SaysWhatHappened eraseFail (eraseBlock g addr) w ↔
      Answered eraseFail (transactions (eraseBlock g addr) w) := by
  constructor
  · intro addr src raw format
    exact saysWhatHappened_iff (doWritePage_course g ecc addr src raw format w negative)
  · intro addr
    exact saysWhatHappened_iff (eraseBlock_course g addr w negative)

section Sample

/-- The sample chip, whose erases and programs all fail, on a bus whose transfer at tick `lost`
times out. -/
def brokenWorld (lost : Nat) : World :=
  { sampleWorld with
    bus := fun t => { sampleWorld.bus t with
      ret := if t = lost then -etimedout else 0
      fails := true } }

theorem brokenWorld_negative (lost : Nat) : ErrorsNegative (brokenWorld lost) := by
  intro t
  change (if t = lost then -etimedout else 0) ≤ 0
  split_ifs <;> decide

/-- The status read behind an erase that failed times out: its error code is even, and the call
returns 0. -/
theorem timeout_taken_for_success :
    ¬∀ (g : Geometry) (ecc : EccEngine g) (w : World), ErrorsNegative w →
      (∀ addr src raw format,
        SaysWhatHappened programFail (doWritePage g ecc addr src raw format) w) ∧
      ∀ addr, SaysWhatHappened eraseFail (eraseBlock g addr) w := by
  intro all
  have told := (all sampleGeometry sampleEcc (brokenWorld 3) (brokenWorld_negative 3)).2 0
  have answered := (saysWhatHappened_iff
    (eraseBlock_course sampleGeometry 0 _ (brokenWorld_negative 3))).mp told
  have sent : transactions (eraseBlock sampleGeometry 0) (brokenWorld 3) =
      [⟨.writeEnable, 0, []⟩, ⟨.getFeature featureStatusAddr, 0, [2]⟩, ⟨.blockErase 0, 0, []⟩,
        ⟨.getFeature featureStatusAddr, -etimedout, [4]⟩] := by decide +kernel
  rw [sent] at answered
  have last := answered ⟨⟨.blockErase 0, 0, []⟩, by simp, rfl⟩ _ rfl ⟨by decide, by decide⟩
  exact absurd last.1 (by decide)

/-- A program that fails on a bus without faults so far, and says so. -/
theorem status_is_real_sample :
    SaysWhatHappened programFail
      (doWritePage sampleGeometry sampleEcc 0 ⟨some fun _ => 0, none⟩ true false)
      (brokenWorld 9) := by
  have sent : transactions
      (doWritePage sampleGeometry sampleEcc 0 ⟨some fun _ => 0, none⟩ true false) (brokenWorld 9) =
      [⟨.writeEnable, 0, []⟩, ⟨.getFeature featureStatusAddr, 0, [2]⟩, ⟨.programExecute 0, 0, []⟩,
        ⟨.getFeature featureStatusAddr, 0, [8]⟩] := by decide +kernel
  apply ((status_is_real_iff sampleGeometry sampleEcc (brokenWorld 9) (brokenWorld_negative 9)).1 0
    ⟨some fun _ => 0, none⟩ true false).mpr
  rw [sent]
  intro _ last final done
  simp only [List.getLast?_cons_cons, List.getLast?_singleton, Option.mem_some_iff] at final
  rw [← final] at done
  exact absurd rfl done.2

end Sample

end Filogic.Snand
