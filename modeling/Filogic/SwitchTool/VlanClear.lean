import Filogic.SwitchTool.Registers

/-! `vlan_clear` of the switch tool: 4096 commands to the VLAN table, and the timer that is to bound
the wait for each of them. -/

namespace Filogic.SwitchTool

/-- `struct timespec`. -/
structure Timespec where
  tvSec : Int
  tvNsec : Int
deriving DecidableEq, Repr

/-- `clock_gettime` at a time in nanoseconds. -/
def clockGettime (ns : Nat) : Timespec := ⟨ns / 1000000000, ns % 1000000000⟩

/-- The result is an `unsigned long`, which the caller compares as one. -/
def timespecDiffUs (start stop : Timespec) : Nat :=
  let temp : Timespec :=
    if stop.tvNsec - start.tvNsec < 0 then
      ⟨stop.tvSec - start.tvSec - 1, 1000000000 + stop.tvNsec - start.tvNsec⟩
    else ⟨stop.tvSec - start.tvSec, stop.tvNsec - start.tvNsec⟩
  -- the shift by ten stands for a division by a thousand
  ((temp.tvSec * 1000000 + temp.tvNsec / 1024) % 2 ^ 64).toNat

/-- A microsecond of the tool is never less than a microsecond. -/
theorem elapsed_of_timespecDiffUs (start stop : Nat) (forward : start ≤ stop)
    (over_ : 1000 < timespecDiffUs (clockGettime start) (clockGettime stop)) :
    start + 1000000 ≤ stop := by
  by_contra early
  have small : timespecDiffUs (clockGettime start) (clockGettime stop) ≤ 1000 := by
    by_cases borrow : ((stop : Int) % 1000000000 - (start : Int) % 1000000000) < 0
    · simp only [timespecDiffUs, clockGettime, borrow, ↓reduceIte]
      omega
    · simp only [timespecDiffUs, clockGettime, borrow, ↓reduceIte]
      omega
  omega

/-- The command that writes the table's entry of a VLAN id. -/
def wVidCmd (vid : Nat) : Nat := 0x80001000 + vid

/-- What the tool's surroundings answer: for each VLAN id the time of `start`, what the readings of
the command register show, and the time of `end` after each. The clock goes on. -/
structure Host where
  start : Nat → Nat
  vtcr : Nat → Nat → BitVec 32
  stop : Nat → Nat → Nat
  forward : ∀ vid k, start vid ≤ stop vid k
  passes : ∀ vid, ∃ k,
    1000 < timespecDiffUs (clockGettime (start vid)) (clockGettime (stop vid k))

/-- What the tool does, in order. -/
inductive Event where
  | gettimeStart (ns : Nat)
  | gettimeEnd (ns : Nat)
  | regWrite (addr value : Nat)
  | regRead (addr : Nat) (value : BitVec 32)
  | configVlanTimeout (durationUs : Nat)
deriving DecidableEq, Repr

namespace Host

variable (h : Host)

/-- `duration_us` after a reading of the clock. -/
def durationUs (vid k : Nat) : Nat :=
  timespecDiffUs (clockGettime (h.start vid)) (clockGettime (h.stop vid k))

/-- The busy bit of a reading. -/
def busy (vid k : Nat) : Bool := (h.vtcr vid k).getLsbD 31

/-- The loop on the busy bit, from its `k`-th reading on, with `duration_us` as it stands. -/
def wait (vid : Nat) : Nat → Nat → Nat → List Event × Nat
  | 0, _, durationUs => ([], durationUs)
  | fuel + 1, k, durationUs =>
      if durationUs ≤ 1000 then
        if h.busy vid k = false then ([.regRead regVtcrAddr (h.vtcr vid k)], durationUs)
        else
          let rest := wait vid fuel (k + 1) (h.durationUs vid k)
          (.regRead regVtcrAddr (h.vtcr vid k) :: .gettimeEnd (h.stop vid k) :: rest.1, rest.2)
      else ([], durationUs)

/-- Rounds after which the loop is over at the latest. -/
def rounds (vid : Nat) : Nat := Nat.find (h.passes vid) + 2

/-- The entries from `vid` on: `duration_us` is set before the first of them only. -/
def clearFrom : Nat → Nat → Nat → List Event
  | 0, _, _ => []
  | n + 1, vid, durationUs =>
      let waited := h.wait vid (h.rounds vid) 0 durationUs
      .gettimeStart (h.start vid) :: .regWrite regVawd1Addr 0 ::
        .regWrite regVtcrAddr (wVidCmd vid) ::
          (waited.1 ++ (if 1000 < waited.2 then [.configVlanTimeout waited.2] else []) ++
            clearFrom n (vid + 1) waited.2)

def vlanClear : List Event := h.clearFrom 4096 0 0

end Host

/-- The commands given to the VLAN table. -/
def commands : List Event → List Nat
  | [] => []
  | .regWrite addr value :: rest =>
      if addr = regVtcrAddr then value :: commands rest else commands rest
  | _ :: rest => commands rest

/-- What is done for an entry comes before the next entry's reading of the clock. -/
def ownEvents : List Event → List Event
  | [] => []
  | .gettimeStart _ :: _ => []
  | event :: rest => event :: ownEvents rest

/-- A command was seen complete, or a reading of the clock is a millisecond after the entry's first. -/
def Settled (began : Nat) (after : List Event) : Prop :=
  (∃ value, .regRead regVtcrAddr value ∈ ownEvents after ∧ value.getLsbD 31 = false) ∨
    ∃ ns, .gettimeEnd ns ∈ ownEvents after ∧ began + 1000000 ≤ ns

/-- Each command is settled before the next entry begins, or before the tool ends. -/
def Waited : Nat → List Event → Prop
  | _, [] => True
  | _, .gettimeStart ns :: rest => Waited ns rest
  | began, .regWrite addr _ :: rest =>
      (addr = regVtcrAddr → Settled began rest) ∧ Waited began rest
  | began, _ :: rest => Waited began rest

/-- Every entry's command once and in order, and a wait for each. -/
structure Orderly (events : List Event) : Prop where
  once : commands events = (List.range 4096).map wVidCmd
  waited : ∀ began, Waited began events

namespace Host

variable (h : Host)

/-- From the `k`-th reading on, one shows the command complete before the millisecond is over. -/
def InTimeFrom (vid k : Nat) : Prop :=
  ∃ i, k ≤ i ∧ h.busy vid i = false ∧ ∀ j, k ≤ j → j < i → h.durationUs vid j ≤ 1000

/-- The command of an id is seen complete within its own millisecond. -/
def InTime (vid : Nat) : Prop := h.InTimeFrom vid 0

theorem inTimeFrom_iff (vid k : Nat) :
    h.InTimeFrom vid k ↔
      h.busy vid k = false ∨ h.durationUs vid k ≤ 1000 ∧ h.InTimeFrom vid (k + 1) := by
  constructor
  · rintro ⟨i, from_, clear, quiet⟩
    by_cases here : i = k
    · exact Or.inl (here ▸ clear)
    · exact Or.inr ⟨quiet k (le_refl k) (by omega), i, by omega, clear,
        fun j lower upper => quiet j (by omega) upper⟩
  · rintro (clear | ⟨quiet, i, from_, clear, rest⟩)
    · exact ⟨k, le_refl k, clear, fun j lower upper => by omega⟩
    · refine ⟨i, by omega, clear, fun j lower upper => ?_⟩
      by_cases here : j = k
      · exact here ▸ quiet
      · exact rest j (by omega) upper

/-- How the loop ends: the command seen complete in time, or the millisecond over. -/
structure Ended (vid : Nat) (inTime : Prop) (waited : List Event × Nat) : Prop where
  duration : waited.2 ≤ 1000 ↔ inTime
  evidence :
    (∃ value, .regRead regVtcrAddr value ∈ waited.1 ∧ value.getLsbD 31 = false) ∨
      ∃ k, .gettimeEnd (h.stop vid k) ∈ waited.1 ∧ 1000 < h.durationUs vid k

/-- The loop with time left, by induction on its rounds. -/
theorem wait_ended (vid fuel k durationUs : Nat) (quiet : durationUs ≤ 1000)
    (enough : ∃ m, k ≤ m ∧ m + 1 < k + fuel ∧ 1000 < h.durationUs vid m) :
    h.Ended vid (h.InTimeFrom vid k) (h.wait vid fuel k durationUs) := by
  induction fuel generalizing k durationUs with
  | zero =>
    obtain ⟨m, lower, upper, _⟩ := enough
    omega
  | succ fuel ih =>
    rw [wait, if_pos quiet]
    by_cases clear : h.busy vid k = false
    · rw [if_pos clear]
      have inTime : h.InTimeFrom vid k := (h.inTimeFrom_iff vid k).2 (Or.inl clear)
      exact ⟨iff_of_true quiet inTime, Or.inl ⟨h.vtcr vid k, by simp, clear⟩⟩
    · rw [if_neg clear]
      by_cases over_ : 1000 < h.durationUs vid k
      · -- the next test of the loop's condition ends it
        have ends : h.wait vid fuel (k + 1) (h.durationUs vid k) = ([], h.durationUs vid k) := by
          cases fuel with
          | zero => rfl
          | succ fuel => rw [wait, if_neg (by omega)]
        have late : ¬h.InTimeFrom vid k := by
          rw [inTimeFrom_iff]
          rintro (done | ⟨quiet', _⟩)
          · exact clear done
          · omega
        simp only [ends]
        exact ⟨iff_of_false (by omega) late, Or.inr ⟨k, by simp, over_⟩⟩
      · have left : h.durationUs vid k ≤ 1000 := by omega
        obtain ⟨m, lower, upper, passed⟩ := enough
        have later : m ≠ k := by
          rintro rfl
          exact over_ passed
        have rest := ih (k + 1) (h.durationUs vid k) left ⟨m, by omega, by omega, passed⟩
        refine ⟨?_, ?_⟩
        · rw [rest.duration, h.inTimeFrom_iff vid k]
          simp [clear, left]
        · rcases rest.evidence with ⟨value, member, done⟩ | ⟨i, member, passed⟩
          · exact Or.inl ⟨value, by simp [member], done⟩
          · exact Or.inr ⟨i, by simp [member], passed⟩

/-- The loop of an entry that is reached with time left. -/
theorem wait_rounds (vid durationUs : Nat) (quiet : durationUs ≤ 1000) :
    h.Ended vid (h.InTime vid) (h.wait vid (h.rounds vid) 0 durationUs) := by
  apply h.wait_ended vid _ 0 durationUs quiet
  exact ⟨Nat.find (h.passes vid), by omega, by simp only [rounds]; omega,
    Nat.find_spec (h.passes vid)⟩

/-- With the timer over from an earlier entry the loop's body is not entered. -/
theorem wait_over (vid fuel k durationUs : Nat) (over_ : 1000 < durationUs) :
    h.wait vid fuel k durationUs = ([], durationUs) := by
  cases fuel with
  | zero => rfl
  | succ fuel => rw [wait, if_neg (by omega)]

end Host

/-- The events of a wait: readings of the command register, of the clock, and the report. -/
def Event.waiting : Event → Bool
  | .gettimeStart _ => false
  | .regWrite _ _ => false
  | _ => true

attribute [simp] Event.waiting commands Waited ownEvents

theorem commands_waiting (events rest : List Event) (waiting : ∀ e ∈ events, e.waiting) :
    commands (events ++ rest) = commands rest := by
  induction events with
  | nil => rfl
  | cons e events ih =>
    have here := waiting e List.mem_cons_self
    have others := ih fun e' member => waiting e' (List.mem_cons_of_mem e member)
    cases e <;> simp_all [Event.waiting, commands]

theorem waited_waiting (began : Nat) (events rest : List Event)
    (waiting : ∀ e ∈ events, e.waiting) :
    Waited began (events ++ rest) ↔ Waited began rest := by
  induction events with
  | nil => rfl
  | cons e events ih =>
    have here := waiting e List.mem_cons_self
    have others := ih fun e' member => waiting e' (List.mem_cons_of_mem e member)
    cases e <;> simp_all [Event.waiting, Waited]

theorem ownEvents_waiting (events rest : List Event) (waiting : ∀ e ∈ events, e.waiting) :
    ownEvents (events ++ rest) = events ++ ownEvents rest := by
  induction events with
  | nil => rfl
  | cons e events ih =>
    have here := waiting e List.mem_cons_self
    have others := ih fun e' member => waiting e' (List.mem_cons_of_mem e member)
    cases e <;> simp_all [Event.waiting, ownEvents]

namespace Host

variable (h : Host)

theorem wait_waiting (vid fuel k durationUs : Nat) :
    ∀ e ∈ (h.wait vid fuel k durationUs).1, e.waiting := by
  induction fuel generalizing k durationUs with
  | zero => simp [wait]
  | succ fuel ih =>
    rw [wait]
    split_ifs
    · simp [Event.waiting]
    · intro e member
      simp only [List.mem_cons] at member
      rcases member with rfl | rfl | member
      · rfl
      · rfl
      · exact ih (k + 1) (h.durationUs vid k) e member
    · simp

/-- All that is done for an entry after its command. -/
def tail (vid durationUs : Nat) : List Event :=
  (h.wait vid (h.rounds vid) 0 durationUs).1 ++
    if 1000 < (h.wait vid (h.rounds vid) 0 durationUs).2 then
      [.configVlanTimeout (h.wait vid (h.rounds vid) 0 durationUs).2] else []

theorem tail_waiting (vid durationUs : Nat) : ∀ e ∈ h.tail vid durationUs, e.waiting := by
  intro e member
  rcases List.mem_append.1 member with member | member
  · exact h.wait_waiting _ _ _ _ e member
  · split_ifs at member
    · rw [List.mem_singleton.1 member]
      rfl
    · simp at member

theorem clearFrom_succ (n vid durationUs : Nat) :
    h.clearFrom (n + 1) vid durationUs =
      .gettimeStart (h.start vid) :: .regWrite regVawd1Addr 0 ::
        .regWrite regVtcrAddr (wVidCmd vid) ::
          (h.tail vid durationUs ++
            h.clearFrom n (vid + 1) (h.wait vid (h.rounds vid) 0 durationUs).2) := rfl

theorem ownEvents_clearFrom (n vid durationUs : Nat) :
    ownEvents (h.clearFrom n vid durationUs) = [] := by
  cases n <;> rfl

theorem commands_clearFrom (n vid durationUs : Nat) :
    commands (h.clearFrom n vid durationUs) = (List.range' vid n).map wVidCmd := by
  induction n generalizing vid durationUs with
  | zero => rfl
  | succ n ih =>
    rw [clearFrom_succ]
    simp [commands, regVawd1Addr, regVtcrAddr, commands_waiting _ _ (h.tail_waiting vid durationUs),
      ih, List.range'_succ]

/-- An entry reached with time left is waited for. -/
theorem settled_tail (n vid durationUs : Nat) (quiet : durationUs ≤ 1000) (next : Nat) :
    Settled (h.start vid) (h.tail vid durationUs ++ h.clearFrom n (vid + 1) next) := by
  have ended := h.wait_rounds vid durationUs quiet
  rw [Settled, ownEvents_waiting _ _ (h.tail_waiting vid durationUs), ownEvents_clearFrom]
  rcases ended.evidence with ⟨value, member, done⟩ | ⟨k, member, passed⟩
  · exact Or.inl ⟨value, by simp [tail, member], done⟩
  · exact Or.inr ⟨h.stop vid k, by simp [tail, member],
      elapsed_of_timespecDiffUs _ _ (h.forward vid k) passed⟩

/-- An entry reached with the timer over is not. -/
theorem not_settled_tail (n vid durationUs : Nat) (over_ : 1000 < durationUs) (next : Nat) :
    ¬Settled (h.start vid) (h.tail vid durationUs ++ h.clearFrom n (vid + 1) next) := by
  rw [Settled, ownEvents_waiting _ _ (h.tail_waiting vid durationUs), ownEvents_clearFrom]
  simp [tail, h.wait_over vid _ 0 durationUs over_, over_]

theorem waited_clearFrom_succ (n vid durationUs began : Nat) :
    Waited began (h.clearFrom (n + 1) vid durationUs) ↔
      durationUs ≤ 1000 ∧ Waited (h.start vid)
        (h.clearFrom n (vid + 1) (h.wait vid (h.rounds vid) 0 durationUs).2) := by
  rw [clearFrom_succ]
  simp only [Waited, waited_waiting _ _ _ (h.tail_waiting vid durationUs), forall_const]
  have other : regVawd1Addr ≠ regVtcrAddr := by decide
  by_cases quiet : durationUs ≤ 1000
  · simp [other, quiet, h.settled_tail n vid durationUs quiet]
  · simp [other, quiet, h.not_settled_tail n vid durationUs (by omega)]

/-- From an entry with time left on: the waits of all later ones stand as long as no entry but the
last runs out of its own. -/
theorem waited_clearFrom (n vid durationUs began : Nat) (quiet : durationUs ≤ 1000) :
    Waited began (h.clearFrom n vid durationUs) ↔
      ∀ v, vid ≤ v → v + 1 < vid + n → h.InTime v := by
  induction n generalizing vid durationUs began with
  | zero => exact iff_of_true trivial fun v lower upper => by omega
  | succ n ih =>
    rw [waited_clearFrom_succ, and_iff_right quiet]
    have ended := h.wait_rounds vid durationUs quiet
    by_cases inTime : h.InTime vid
    · rw [ih _ _ _ (ended.duration.2 inTime)]
      constructor
      · intro rest v lower upper
        by_cases here : v = vid
        · exact here ▸ inTime
        · exact rest v (by omega) (by omega)
      · intro all v lower upper
        exact all v (by omega) (by omega)
    · have over_ : ¬(h.wait vid (h.rounds vid) 0 durationUs).2 ≤ 1000 :=
        fun still => inTime (ended.duration.1 still)
      cases n with
      | zero => exact iff_of_true trivial fun v lower upper => by omega
      | succ n =>
        rw [waited_clearFrom_succ]
        exact iff_of_false (fun holds => over_ holds.1)
          fun all => inTime (all vid (le_refl vid) (by omega))

/-- Every entry gets its command and its own wait exactly when no entry but the last times out: the
timer that a timeout has left is not set back for the entries after it. -/
theorem vlanClear_orderly_iff : Orderly h.vlanClear ↔ ∀ vid < 4095, h.InTime vid := by
  have all := h.waited_clearFrom 4096 0 0
  constructor
  · intro orderly vid bound
    exact (all 0 (by omega)).1 (orderly.waited 0) vid (by omega) (by omega)
  · intro inTime
    refine ⟨?_, fun began => (all began (by omega)).2 fun v _ upper => inTime v (by omega)⟩
    rw [vlanClear, commands_clearFrom, List.range_eq_range']

end Host

/-- The command of VLAN 0 takes more than two milliseconds, all others are complete at once. -/
def slowFirst : Host where
  start vid := vid * 10000000
  vtcr vid k := if vid = 0 ∧ k < 3 then 0x80001000 else 0x1000
  stop vid k := vid * 10000000 + (k + 1) * 2000000
  forward vid k := by omega
  passes vid := ⟨0, by
    by_cases borrow : ((vid * 10000000 + (0 + 1) * 2000000 : Nat) : Int) % 1000000000 -
        ((vid * 10000000 : Nat) : Int) % 1000000000 < 0
    · simp only [timespecDiffUs, clockGettime, borrow, ↓reduceIte]
      omega
    · simp only [timespecDiffUs, clockGettime, borrow, ↓reduceIte]
      omega⟩

/-- After the timeout of VLAN 0 the tool no longer waits. -/
theorem slowFirst_not_waited : ¬Orderly slowFirst.vlanClear := by
  intro orderly
  have second := (slowFirst.waited_clearFrom_succ 4095 0 0 0).1 (orderly.waited 0)
  have over_ := ((slowFirst.waited_clearFrom_succ 4094 1 _ _).1 second.2).1
  have ended := slowFirst.wait_rounds 0 0 (by omega)
  have late : ¬slowFirst.InTime 0 := by
    rw [Host.InTime, Host.inTimeFrom_iff]
    rintro (clear | ⟨quiet, _⟩)
    · exact absurd clear (by decide)
    · exact absurd quiet (by decide)
  exact late (ended.duration.1 over_)

end Filogic.SwitchTool
