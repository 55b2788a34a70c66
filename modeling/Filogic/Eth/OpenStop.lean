import Filogic.Lib.Runs

/-! `mtk_eth_soc.c`: bringing the DMA up with the first interface and down with the last, in
`mtk_open` and `mtk_stop`, the reset worker and the mux poller. -/

namespace Filogic.Eth
open Lib

/-- The chip's capabilities, and the interfaces that were probed. -/
structure Caps where
  qdma : Bool
  rss : Bool
  hwlro : Bool
  netsysRxV2 : Bool
  macCount : Nat
  netdev : Nat → Bool

inductive Dma where
  | qdma | pdma
  deriving DecidableEq, Repr

inductive Napi where
  | tx (i : Nat) | rx (ring : Nat)
  deriving DecidableEq, Repr

/-- `MTK_HW_LRO_RING(i)` for `i < MTK_HW_LRO_RING_NUM` -/
def hwLroRings (caps : Caps) : List Nat := if caps.netsysRxV2 then [4, 5, 6, 7] else [1, 2, 3]

/-- The engines that `mtk_start_dma` starts and `mtk_stop` stops. -/
def engines (caps : Caps) : List Dma := if caps.qdma then [.qdma, .pdma] else [.pdma]

/-- The NAPI instances that `mtk_open` enables and `mtk_stop` disables, in loops of one form. -/
def napis (caps : Caps) : List Napi :=
  (if caps.qdma then [.tx 0] else [.tx 0, .tx 1, .tx 2, .tx 3]) ++ [.rx 0] ++
    (if caps.rss then [.rx 1, .rx 2, .rx 3] else []) ++
    (if caps.hwlro then (hwLroRings caps).map .rx else [])

/-- `opened` are the interfaces whose `mtk_open` succeeded and that were not stopped since;
`underflow` is the warning that a counter at zero was to be decremented. -/
structure OpenState where
  dmaRefcnt : Nat
  underflow : Bool
  dmaOn : Dma → Bool
  napiOn : Napi → Bool
  running : Finset Nat
  opened : Finset Nat
  channel : Nat → Nat

/-- What fails in one call of `mtk_open`: attaching the PHY, or `mtk_dma_init`. -/
structure Try where
  phy : Bool
  dma : Bool

def setAll {α : Type} [DecidableEq α] (members : List α) (value : Bool) (f : α → Bool) :
    α → Bool :=
  fun a => if a ∈ members then value else f a

/-- `mtk_open`, and whether it succeeded -/
def mtkOpen (caps : Caps) (i : Nat) (t : Try) (s : OpenState) : OpenState × Bool :=
  if t.phy then (s, false)
  else if s.dmaRefcnt = 0 then
    if t.dma then (s, false)
    else
      ({ s with
          dmaOn := setAll (engines caps) true s.dmaOn
          napiOn := setAll (napis caps) true s.napiOn
          dmaRefcnt := 1
          opened := insert i s.opened }, true)
  else ({ s with dmaRefcnt := s.dmaRefcnt + 1, opened := insert i s.opened }, true)

/-- `refcount_dec_and_test`: a counter at zero stays there, with a warning. -/
def refcountDecAndTest (s : OpenState) : OpenState × Bool :=
  if s.dmaRefcnt = 0 then ({ s with underflow := true }, false)
  else ({ s with dmaRefcnt := s.dmaRefcnt - 1 }, s.dmaRefcnt - 1 = 0)

/-- `mtk_stop` -/
def mtkStop (caps : Caps) (i : Nat) (s : OpenState) : OpenState :=
  let dec := refcountDecAndTest { s with opened := s.opened.erase i }
  if dec.2 then
    { dec.1 with
      napiOn := setAll (napis caps) false dec.1.napiOn
      dmaOn := setAll (engines caps) false dec.1.dmaOn }
  else dec.1

/-- `dev_open` of the network core: `ndo_open` unless the interface is up. -/
def devOpen (caps : Caps) (i : Nat) (t : Try) (s : OpenState) : OpenState :=
  if i ∈ s.running then s
  else
    let called := mtkOpen caps i t s
    if called.2 then { called.1 with running := insert i called.1.running } else called.1

/-- `dev_close` of the network core: `ndo_stop` if the interface is up. -/
def devClose (caps : Caps) (i : Nat) (s : OpenState) : OpenState :=
  if i ∈ s.running then
    let stopped := mtkStop caps i s
    { stopped with running := stopped.running.erase i }
  else s

/-- The interfaces that the reset worker stops and reopens. -/
def restart (caps : Caps) (s : OpenState) : List Nat :=
  (List.range caps.macCount).filter fun i => caps.netdev i && i ∈ s.running

def reopen (caps : Caps) (t : Nat → Try) (s : OpenState) (i : Nat) : OpenState :=
  let called := mtkOpen caps i (t i) s
  if called.2 then called.1 else devClose caps i called.1

/-- `mtk_pending_work`; `reset` is what `mtk_check_reset_event` says. -/
def mtkPendingWork (caps : Caps) (reset : Bool) (t : Nat → Try) (s : OpenState) : OpenState :=
  if reset then
    let stopped := (restart caps s).foldl (fun s i => mtkStop caps i s) s
    (restart caps s).foldl (reopen caps t) stopped
  else s

/-- `mux_poll`, which drops the result of `mtk_open` -/
def muxPoll (caps : Caps) (i : Nat) (gpioErr : Bool) (channel : Nat) (t : Try) (s : OpenState) :
    OpenState :=
  if gpioErr then s
  else if s.channel i = channel ∨ i ∉ s.running then s
  else
    let opened := (mtkOpen caps i t (mtkStop caps i s)).1
    { opened with channel := Function.update opened.channel i channel }

inductive OpenEvent where
  | open (i : Nat) (t : Try)
  | stop (i : Nat)
  | pendingWork (reset : Bool) (t : Nat → Try)
  | muxPoll (i : Nat) (gpioErr : Bool) (channel : Nat) (t : Try)

/-- The user can open the interfaces that exist. -/
def openStep (caps : Caps) (s : OpenState) : OpenEvent → OpenState
  | .open i t => if i < caps.macCount ∧ caps.netdev i then devOpen caps i t s else s
  | .stop i => devClose caps i s
  | .pendingWork reset t => mtkPendingWork caps reset t s
  | .muxPoll i gpioErr channel t => muxPoll caps i gpioErr channel t s

def probed : OpenState :=
  { dmaRefcnt := 0, underflow := false, dmaOn := fun _ => false, napiOn := fun _ => false
    running := ∅, opened := ∅, channel := fun _ => 0 }

/-- The counter counts the open interfaces and was never to go below zero; the engines and the
NAPI instances are on exactly while it is positive. -/
structure Balanced (caps : Caps) (s : OpenState) : Prop where
  count : s.dmaRefcnt = s.opened.card
  above : s.underflow = false
  dma : ∀ d ∈ engines caps, s.dmaOn d = decide (0 < s.dmaRefcnt)
  napi : ∀ n ∈ napis caps, s.napiOn n = decide (0 < s.dmaRefcnt)

/-- Every `mtk_open` inside the reset work and inside a mux switch succeeds. -/
def Reopens (caps : Caps) (s : OpenState) : OpenEvent → Prop
  | .pendingWork reset t => reset → ∀ i ∈ restart caps s,
      (t i).phy = false ∧ ((restart caps s).head? = some i → (t i).dma = false)
  | .muxPoll i gpioErr channel t => gpioErr = false → s.channel i ≠ channel → i ∈ s.running →
      t.phy = false ∧ (s.dmaRefcnt = 1 → t.dma = false)
  | _ => True

section Steps

variable {caps : Caps} {s : OpenState}

theorem setAll_mem {α : Type} [DecidableEq α] (members : List α) (value : Bool) (f : α → Bool)
    (a : α) (member : a ∈ members) : setAll members value f a = value := if_pos member

theorem mtkOpen_fails (caps : Caps) (i : Nat) (t : Try) (s : OpenState)
    (fails : (mtkOpen caps i t s).2 = false) : (mtkOpen caps i t s).1 = s := by
  unfold mtkOpen at fails ⊢
  split_ifs at fails ⊢ <;> rfl

theorem mtkOpen_running (caps : Caps) (i : Nat) (t : Try) (s : OpenState) :
    (mtkOpen caps i t s).1.running = s.running := by
  unfold mtkOpen
  split_ifs <;> rfl

theorem mtkOpen_opened (caps : Caps) (i : Nat) (t : Try) (s : OpenState)
    (succeeds : (mtkOpen caps i t s).2 = true) :
    (mtkOpen caps i t s).1.opened = insert i s.opened := by
  unfold mtkOpen at succeeds ⊢
  split_ifs at succeeds ⊢ <;> rfl

theorem mtkOpen_succeeds (caps : Caps) (i : Nat) (t : Try) (s : OpenState)
    (phy : t.phy = false) (dma : s.dmaRefcnt = 0 → t.dma = false) :
    (mtkOpen caps i t s).2 = true := by
  unfold mtkOpen
  rw [phy]
  by_cases first : s.dmaRefcnt = 0
  · simp [first, dma first]
  · simp [first]

/-- A successful `mtk_open` of an interface that is not open counts it. -/
theorem mtkOpen_balanced (balanced : Balanced caps s) (i : Nat) (t : Try)
    (closed : i ∉ s.opened) (succeeds : (mtkOpen caps i t s).2 = true) :
    Balanced caps (mtkOpen caps i t s).1 := by
  obtain ⟨count, above, dma, napi⟩ := balanced
  unfold mtkOpen at succeeds ⊢
  split_ifs at succeeds ⊢ with phy first fails
  · refine ⟨?_, above, ?_, ?_⟩
    · rw [Finset.card_insert_of_notMem closed, ← count, first]
    · exact fun d member => setAll_mem _ true _ d member
    · exact fun n member => setAll_mem _ true _ n member
  · have positive : 0 < s.dmaRefcnt := by omega
    refine ⟨?_, above, ?_, ?_⟩
    · rw [Finset.card_insert_of_notMem closed, ← count]
    · intro d member
      simp [dma d member, positive]
    · intro n member
      simp [napi n member, positive]

theorem refcountDecAndTest_frame (s : OpenState) :
    (refcountDecAndTest s).1.running = s.running ∧ (refcountDecAndTest s).1.opened = s.opened := by
  unfold refcountDecAndTest
  split_ifs <;> exact ⟨rfl, rfl⟩

theorem mtkStop_running (caps : Caps) (i : Nat) (s : OpenState) :
    (mtkStop caps i s).running = s.running := by
  have frame := (refcountDecAndTest_frame { s with opened := s.opened.erase i }).1
  unfold mtkStop
  dsimp only
  split_ifs <;> exact frame

theorem mtkStop_opened (caps : Caps) (i : Nat) (s : OpenState) :
    (mtkStop caps i s).opened = s.opened.erase i := by
  have frame := (refcountDecAndTest_frame { s with opened := s.opened.erase i }).2
  unfold mtkStop
  dsimp only
  split_ifs <;> exact frame

/-- `mtk_stop` of an open interface counts it off. -/
theorem mtkStop_balanced (balanced : Balanced caps s) (i : Nat) (isOpen : i ∈ s.opened) :
    Balanced caps (mtkStop caps i s) := by
  obtain ⟨count, above, dma, napi⟩ := balanced
  have positive : 0 < s.dmaRefcnt := by
    rw [count]
    exact Finset.card_pos.mpr ⟨i, isOpen⟩
  have left : (s.opened.erase i).card = s.dmaRefcnt - 1 := by
    rw [Finset.card_erase_of_mem isOpen, count]
  have some_left : ¬s.dmaRefcnt = 0 := by omega
  unfold mtkStop refcountDecAndTest
  simp only [some_left, if_false, decide_eq_true_eq]
  split_ifs with last
  · refine ⟨left.symm, above, ?_, ?_⟩
    · intro d member
      simp [setAll_mem _ _ _ _ member, last]
    · intro n member
      simp [setAll_mem _ _ _ _ member, last]
  · have more : 0 < s.dmaRefcnt - 1 := by omega
    refine ⟨left.symm, above, ?_, ?_⟩
    · intro d member
      simp [dma d member, positive, more]
    · intro n member
      simp [napi n member, positive, more]

/-- The interfaces that run are the open ones, and exist. -/
structure Kept (caps : Caps) (s : OpenState) : Prop where
  balanced : Balanced caps s
  running : s.running = s.opened
  exist : ∀ i ∈ s.running, i < caps.macCount ∧ caps.netdev i = true

theorem devOpen_kept (kept : Kept caps s) (i : Nat) (t : Try)
    (exist : i < caps.macCount ∧ caps.netdev i) : Kept caps (devOpen caps i t s) := by
  unfold devOpen
  dsimp only
  split_ifs with up succeeds
  · exact kept
  · have closed : i ∉ s.opened := by rwa [← kept.running]
    obtain ⟨count, above, dma, napi⟩ := mtkOpen_balanced kept.balanced i t closed succeeds
    refine ⟨⟨count, above, dma, napi⟩, ?_, ?_⟩
    · simp only [mtkOpen_running, mtkOpen_opened caps i t s succeeds, kept.running]
    · intro j member
      simp only [mtkOpen_running, Finset.mem_insert] at member
      rcases member with rfl | old
      · exact exist
      · exact kept.exist j old
  · rw [mtkOpen_fails caps i t s (by simpa using succeeds)]
    exact kept

theorem devClose_kept (kept : Kept caps s) (i : Nat) : Kept caps (devClose caps i s) := by
  unfold devClose
  dsimp only
  split_ifs with up
  · have isOpen : i ∈ s.opened := by rwa [← kept.running]
    obtain ⟨count, above, dma, napi⟩ := mtkStop_balanced kept.balanced i isOpen
    refine ⟨⟨count, above, dma, napi⟩, ?_, ?_⟩
    · simp only [mtkStop_running, mtkStop_opened, kept.running]
    · intro j member
      simp only [mtkStop_running, Finset.mem_erase] at member
      exact kept.exist j member.2
  · exact kept

theorem stopAll_balanced (members : List Nat) (nodup : members.Nodup) (s : OpenState)
    (balanced : Balanced caps s) (allOpen : ∀ i ∈ members, i ∈ s.opened) :
    let after := members.foldl (fun s i => mtkStop caps i s) s
    Balanced caps after ∧ after.opened = s.opened \ members.toFinset ∧
      after.running = s.running := by
  induction members generalizing s with
  | nil => exact ⟨balanced, by simp, rfl⟩
  | cons i rest ih =>
    obtain ⟨fresh, nodup⟩ := List.nodup_cons.mp nodup
    have others : ∀ j ∈ rest, j ∈ (mtkStop caps i s).opened := by
      intro j member
      rw [mtkStop_opened]
      exact Finset.mem_erase.mpr
        ⟨fun same => fresh (same ▸ member), allOpen j (List.mem_cons_of_mem i member)⟩
    obtain ⟨after, opened, running⟩ := ih nodup (mtkStop caps i s)
      (mtkStop_balanced balanced i (allOpen i List.mem_cons_self)) others
    refine ⟨after, opened.trans ?_, running.trans (mtkStop_running caps i s)⟩
    rw [mtkStop_opened]
    ext j
    simp only [Finset.mem_sdiff, Finset.mem_erase, List.mem_toFinset, List.mem_cons]
    tauto

theorem reopenAll_balanced (t : Nat → Try) (members : List Nat) (nodup : members.Nodup)
    (s : OpenState) (balanced : Balanced caps s) (allClosed : ∀ i ∈ members, i ∉ s.opened)
    (phy : ∀ i ∈ members, (t i).phy = false)
    (dma : s.dmaRefcnt = 0 → ∀ i, members.head? = some i → (t i).dma = false) :
    let after := members.foldl (reopen caps t) s
    Balanced caps after ∧ after.opened = s.opened ∪ members.toFinset ∧
      after.running = s.running := by
  induction members generalizing s with
  | nil => exact ⟨balanced, by simp, rfl⟩
  | cons i rest ih =>
    obtain ⟨fresh, nodup⟩ := List.nodup_cons.mp nodup
    have succeeds := mtkOpen_succeeds caps i (t i) s (phy i List.mem_cons_self)
      fun none => dma none i rfl
    have opened_i := mtkOpen_opened caps i (t i) s succeeds
    have balanced_i := mtkOpen_balanced balanced i (t i) (allClosed i List.mem_cons_self) succeeds
    have step : reopen caps t s i = (mtkOpen caps i (t i) s).1 := by
      simp only [reopen, succeeds, if_true]
    have others : ∀ j ∈ rest, j ∉ (mtkOpen caps i (t i) s).1.opened := by
      intro j member inside
      rw [opened_i, Finset.mem_insert] at inside
      rcases inside with same | inside
      · exact fresh (same ▸ member)
      · exact allClosed j (List.mem_cons_of_mem i member) inside
    have positive : (mtkOpen caps i (t i) s).1.dmaRefcnt ≠ 0 := by
      rw [balanced_i.count, opened_i]
      exact Finset.card_ne_zero_of_mem (Finset.mem_insert_self i s.opened)
    obtain ⟨after, opened, running⟩ := ih nodup _ balanced_i others
      (fun j member => phy j (List.mem_cons_of_mem i member)) (fun none => absurd none positive)
    rw [List.foldl_cons, step]
    refine ⟨after, opened.trans ?_, running.trans (mtkOpen_running caps i (t i) s)⟩
    rw [opened_i]
    ext j
    simp only [Finset.mem_union, Finset.mem_insert, List.mem_toFinset, List.mem_cons]
    tauto

theorem restart_toFinset (kept : Kept caps s) : (restart caps s).toFinset = s.opened := by
  ext i
  simp only [restart, List.mem_toFinset, List.mem_filter, List.mem_range, Bool.and_eq_true,
    decide_eq_true_eq, ← kept.running]
  constructor
  · exact fun inside => inside.2.2
  · exact fun up => ⟨(kept.exist i up).1, (kept.exist i up).2, up⟩

theorem pendingWork_kept (kept : Kept caps s) (reset : Bool) (t : Nat → Try)
    (reopens : Reopens caps s (.pendingWork reset t)) :
    Kept caps (mtkPendingWork caps reset t s) := by
  unfold mtkPendingWork
  dsimp only
  split_ifs with work
  · have nodup : (restart caps s).Nodup := List.nodup_range.filter _
    have members := restart_toFinset kept
    have allOpen : ∀ i ∈ restart caps s, i ∈ s.opened := by
      intro i member
      rw [← members]
      exact List.mem_toFinset.mpr member
    obtain ⟨balanced, opened, running⟩ := stopAll_balanced _ nodup s kept.balanced allOpen
    rw [members, Finset.sdiff_self] at opened
    have closed : ∀ i ∈ restart caps s,
        i ∉ ((restart caps s).foldl (fun s i => mtkStop caps i s) s).opened := by
      intro i _
      rw [opened]
      exact Finset.notMem_empty i
    obtain ⟨balanced', opened', running'⟩ := reopenAll_balanced t _ nodup _ balanced closed
      (fun i member => (reopens work i member).1)
      (fun _ i head => (reopens work i (List.mem_of_mem_head? head)).2 head)
    rw [opened, Finset.empty_union, members] at opened'
    have running := running'.trans running
    refine ⟨balanced', ?_, ?_⟩
    · rw [running, opened', kept.running]
    · rw [running]
      exact kept.exist
  · exact kept

theorem muxPoll_kept (kept : Kept caps s) (i : Nat) (gpioErr : Bool) (channel : Nat) (t : Try)
    (reopens : Reopens caps s (.muxPoll i gpioErr channel t)) :
    Kept caps (muxPoll caps i gpioErr channel t s) := by
  unfold muxPoll
  dsimp only
  split_ifs with err same
  · exact kept
  · exact kept
  · simp only [not_or, not_not] at same
    obtain ⟨phy, dma⟩ := reopens (by simpa using err) same.1 same.2
    have isOpen : i ∈ s.opened := by
      rw [← kept.running]
      exact same.2
    have stopped := mtkStop_balanced kept.balanced i isOpen
    have left : (mtkStop caps i s).dmaRefcnt = s.dmaRefcnt - 1 := by
      rw [stopped.count, mtkStop_opened, Finset.card_erase_of_mem isOpen, kept.balanced.count]
    have closed : i ∉ (mtkStop caps i s).opened := by
      rw [mtkStop_opened]
      exact Finset.notMem_erase i _
    have positive : s.dmaRefcnt ≠ 0 := by
      rw [kept.balanced.count]
      exact Finset.card_ne_zero_of_mem isOpen
    have succeeds := mtkOpen_succeeds caps i t (mtkStop caps i s) phy (by
      intro none
      exact dma (by omega))
    obtain ⟨count, above, dma, napi⟩ := mtkOpen_balanced stopped i t closed succeeds
    refine ⟨⟨count, above, dma, napi⟩, ?_, ?_⟩
    · dsimp only
      rw [mtkOpen_running, mtkStop_running, mtkOpen_opened caps i t _ succeeds, mtkStop_opened,
        Finset.insert_erase isOpen, kept.running]
    · dsimp only
      rw [mtkOpen_running, mtkStop_running]
      exact kept.exist

/-- One step. -/
theorem openStep_kept (kept : Kept caps s) (event : OpenEvent) (reopens : Reopens caps s event) :
    Kept caps (openStep caps s event) := by
  cases event with
  | «open» i t =>
    simp only [openStep]
    split_ifs with exist
    · exact devOpen_kept kept i t exist
    · exact kept
  | stop i => exact devClose_kept kept i
  | pendingWork reset t => exact pendingWork_kept kept reset t reopens
  | muxPoll i gpioErr channel t => exact muxPoll_kept kept i gpioErr channel t reopens

end Steps

theorem probed_kept (caps : Caps) : Kept caps probed := by
  refine ⟨⟨rfl, rfl, fun _ _ => rfl, fun _ _ => rfl⟩, rfl, ?_⟩
  intro i member
  exact absurd member (Finset.notMem_empty i)

/-- In a run in which the reset work and the mux switches reopen what they stopped, the counter
counts the open interfaces. -/
theorem dma_refcnt_balanced (caps : Caps) (events : List OpenEvent)
    (reopens : Along (openStep caps) (Reopens caps) probed events) :
    Balanced caps (run (openStep caps) probed events) := by
  have kept := run_invariant (openStep caps) (Reopens caps) (Kept caps)
    (fun _ event kept reopens => openStep_kept kept event reopens) probed events
    (probed_kept caps) reopens
  exact kept.balanced

def twoMacs : Caps :=
  { qdma := true, rss := true, hwlro := false, netsysRxV2 := true, macCount := 2
    netdev := fun _ => true }

def fine : Try := { phy := false, dma := false }

/-- Both interfaces go through a reset, and one through a mux switch. -/
def reset_and_switch : List OpenEvent :=
  [.open 0 fine, .open 1 { phy := true, dma := false }, .open 1 fine,
    .pendingWork true fun _ => fine, .muxPoll 1 false 1 fine, .stop 0]

theorem dma_refcnt_balanced_reset :
    Along (openStep twoMacs) (Reopens twoMacs) probed reset_and_switch ∧
      Balanced twoMacs (run (openStep twoMacs) probed reset_and_switch) := by
  have reopens : Along (openStep twoMacs) (Reopens twoMacs) probed reset_and_switch := by
    refine ⟨trivial, trivial, trivial, ?_, ?_, trivial, trivial⟩
    · exact fun _ i _ => ⟨rfl, fun _ => rfl⟩
    · exact fun _ _ _ => ⟨rfl, fun _ => rfl⟩
  exact ⟨reopens, dma_refcnt_balanced twoMacs reset_and_switch reopens⟩

/-- The PHY of the second interface cannot be attached again after a reset: the interface is
stopped twice, and the DMA goes down under the first. -/
theorem reset_stops_twice :
    ¬∀ caps events, Balanced caps (run (openStep caps) probed events) := by
  intro balanced
  have count := (balanced twoMacs [.open 0 fine, .open 1 fine,
    .pendingWork true fun i => { phy := decide (i = 1), dma := false }]).count
  revert count
  decide

end Filogic.Eth
