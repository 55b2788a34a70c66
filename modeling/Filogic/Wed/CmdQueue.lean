import Filogic.Wed.RxQueue

/-! The queue of the commands to the WED firmware in `mtk_wed_wo.c`: `woif_q_rx_fill` gives the slots
their buffers, `woif_q_tx_skb` copies a message to the slot behind the head. -/

namespace Filogic.Wed.Cmd
open Lib

/-- The queue's dimensions; the length of a buffer fits `WED_CTL_SD_LEN0`. -/
structure QueueConf where
  ndesc : Nat
  bufSize : Nat
  ndesc_pos : 0 < ndesc
  ndesc_le : ndesc ≤ 2 ^ 16
  bufSize_lt : bufSize < 2 ^ 14

/-- `MTK_WED_WO_RING_SIZE` and `MTK_WED_WO_CMD_LEN` -/
def mtkWedWoRingSize : Nat := 256
def mtkWedWoCmdLen : Nat := 1504

/-- The queue of the commands -/
def ccif : QueueConf where
  ndesc := mtkWedWoRingSize
  bufSize := mtkWedWoCmdLen
  ndesc_pos := by decide
  ndesc_le := by decide
  bufSize_lt := by decide

/-- `struct wed_wo_queue_entry`, with the bytes that its buffer holds -/
structure Entry where
  buf : List (BitVec 8)
  dmaAddr : BitVec 32
  dmaLen : BitVec 16

/-- `wo->q_tx` -/
structure Queue where
  head : BitVec 16
  tail : BitVec 16
  queued : Nat
  entry : Nat → Entry
  desc : Nat → WoDesc

/-- A buffer that `page_frag_alloc` has given and `dma_map_single` has mapped, with what it held. -/
structure Frag where
  held : List (BitVec 8)
  addr : BitVec 32

section Code

variable (conf : QueueConf)

/-- One pass of the loop of `woif_q_rx_fill`, which leaves the descriptors of this queue alone. -/
def Queue.post (q : Queue) (frag : Frag) : Queue :=
  let head := (q.head.toNat + 1) % conf.ndesc
  { q with
    head := BitVec.ofNat 16 head
    entry := Function.update q.entry head ⟨frag.held, frag.addr, BitVec.ofNat 16 conf.bufSize⟩
    queued := q.queued + 1 }

/-- `woif_q_rx_fill`: it ends early where a buffer is not to be had. -/
def woifQRxFill : List (Option Frag) → Queue → Queue
  | some frag :: supplies, q =>
    if q.queued < conf.ndesc then woifQRxFill supplies (q.post conf frag) else q
  | _, q => q

/-- `woif_q_alloc`, with the queue zeroed before -/
def woifQAlloc (supplies : List (Option Frag)) : Queue :=
  woifQRxFill conf supplies ⟨0, 0, 0, fun _ => ⟨[], 0, 0⟩, fun _ => ⟨0, 0, 0⟩⟩

/-- What a call of `woif_q_tx_skb` leaves: whether the lock is still held, what was written to the
register of the CPU index, and how often the message was freed. -/
structure Sent where
  q : Queue
  locked : Bool
  cpuIdx : Option (BitVec 32)
  freed : Nat
  ret : Int

/-- `woif_q_tx_skb`, from where it has the lock; `dmaIdx` is what the register holds. -/
def woifQTxSkb (q : Queue) (dmaIdx : BitVec 32) (skb : List (BitVec 8)) : Sent :=
  let q := { q with
    tail := dmaIdx.setWidth 16, head := BitVec.ofNat 16 ((q.head.toNat + 1) % conf.ndesc) }
  let idx := q.head.toNat
  let entry := q.entry idx
  -- both jumps to `error` pass over the unlock
  if q.tail = q.head then ⟨q, true, none, 1, -12⟩
  else if entry.dmaLen.toNat < skb.length then ⟨q, true, none, 1, -12⟩
  else
    let buf := skb ++ entry.buf.drop skb.length
    let ctrl := prepLen0 (BitVec.ofNat 16 skb.length) ||| wedCtlLastSec0 ||| wedCtlDmaDone
    { q := { q with
        entry := Function.update q.entry idx { entry with buf := buf }
        desc := Function.update q.desc idx { q.desc idx with buf0 := entry.dmaAddr, ctrl := ctrl } }
      locked := false
      cpuIdx := some (q.head.setWidth 32)
      freed := 1
      ret := 0 }

/-- The queue, its lock and its two registers, with the messages accepted and not yet consumed. -/
structure Link where
  q : Queue
  locked : Bool
  cpuIdx : BitVec 32
  dmaIdx : BitVec 32
  pending : List (List (BitVec 8))

inductive Event where
  | send (skb : List (BitVec 8))
  | consume

/-- A message is sent, where a caller spins on a lock that is held, or the firmware reads the next
descriptor up to the CPU index. -/
def step (s : Link) : Event → Link
  | .send skb =>
    if s.locked then s
    else
      let sent := woifQTxSkb conf s.q s.dmaIdx skb
      { s with
        q := sent.q
        locked := sent.locked
        cpuIdx := sent.cpuIdx.getD s.cpuIdx
        pending := if sent.ret = 0 then s.pending ++ [skb] else s.pending }
  | .consume =>
    if s.dmaIdx = s.cpuIdx then s
    else
      { s with
        dmaIdx := BitVec.ofNat 32 ((s.dmaIdx.toNat + 1) % conf.ndesc), pending := s.pending.tail }

/-- After `woif_q_reset` -/
def start (supplies : List (Option Frag)) : Link := ⟨woifQAlloc conf supplies, false, 0, 0, []⟩

end Code

section Spec

variable (conf : QueueConf)

/-- A call that fails has released the lock, left the head and the descriptors as before, and freed
the message once. -/
def Undone (q : Queue) (dmaIdx : BitVec 32) (skb : List (BitVec 8)) : Prop :=
  let sent := woifQTxSkb conf q dmaIdx skb
  sent.ret ≠ 0 →
    sent.locked = false ∧ sent.q.head = q.head ∧ sent.q.desc = q.desc ∧ sent.freed = 1

/-- The descriptor of a slot hands the message to the firmware. -/
def Describes (q : Queue) (i : Nat) (skb : List (BitVec 8)) : Prop :=
  (q.desc i).buf0 = (q.entry i).dmaAddr ∧ getLen0 (q.desc i).ctrl = skb.length ∧
    (q.entry i).buf.take skb.length = skb

/-- The descriptors between the firmware's index and the head are the messages, in order. -/
def InOrder (s : Link) : Prop :=
  List.Forall₂ (Describes s.q) (around.between conf.ndesc s.dmaIdx.toNat s.q.head.toNat) s.pending

/-- What is to hold of a run, in every state and of every call. -/
structure Kept (supplies : List (Option Frag)) (events : List Event) : Prop where
  order : ∀ early late, events = early ++ late →
    InOrder conf (run (step conf) (start conf supplies) early)
  undone : ∀ early skb late, events = early ++ .send skb :: late →
    let s := run (step conf) (start conf supplies) early
    s.locked = false → Undone conf s.q s.dmaIdx skb

/-- The slot behind the head -/
def Queue.next (q : Queue) : BitVec 16 := BitVec.ofNat 16 ((q.head.toNat + 1) % conf.ndesc)

/-- The ring is not full, and the message fits the buffer of the next slot. -/
def Room (q : Queue) (dmaIdx : BitVec 32) (skb : List (BitVec 8)) : Prop :=
  dmaIdx.setWidth 16 ≠ q.next conf ∧ skb.length ≤ (q.entry (q.next conf).toNat).dmaLen.toNat

def Fits (s : Link) : Event → Prop
  | .send skb => Room conf s.q s.dmaIdx skb
  | .consume => True

/-- How many buffers are to be had when the queue is set up. -/
def frames (supplies : List (Option Frag)) : Nat :=
  ((supplies.take conf.ndesc).takeWhile Option.isSome).length

end Spec

section Calls

variable {conf : QueueConf}

theorem next_toNat (conf : QueueConf) (q : Queue) : (q.next conf).toNat = (q.head.toNat + 1) % conf.ndesc := by
  have below := Nat.mod_lt (q.head.toNat + 1) conf.ndesc_pos
  have le := conf.ndesc_le
  unfold Queue.next
  rw [BitVec.toNat_ofNat, Nat.mod_eq_of_lt (by omega)]

/-- A call without room -/
theorem refused (q : Queue) (dmaIdx : BitVec 32) (skb : List (BitVec 8))
    (full : ¬ Room conf q dmaIdx skb) :
    woifQTxSkb conf q dmaIdx skb =
      ⟨{ q with tail := dmaIdx.setWidth 16, head := q.next conf }, true, none, 1, -12⟩ := by
  unfold woifQTxSkb
  dsimp only
  by_cases behind : dmaIdx.setWidth 16 = q.next conf
  · exact if_pos behind
  · have long : ¬ skb.length ≤ (q.entry (q.next conf).toNat).dmaLen.toNat :=
      fun fits => full ⟨behind, fits⟩
    exact (if_neg behind).trans (if_pos (Nat.lt_of_not_le long))

/-- A call with room -/
theorem accepted (q : Queue) (dmaIdx : BitVec 32) (skb : List (BitVec 8))
    (room : Room conf q dmaIdx skb) :
    woifQTxSkb conf q dmaIdx skb =
      let idx := (q.next conf).toNat
      let entry := q.entry idx
      let buf := skb ++ entry.buf.drop skb.length
      let ctrl := prepLen0 (BitVec.ofNat 16 skb.length) ||| wedCtlLastSec0 ||| wedCtlDmaDone
      ⟨{ q with
          tail := dmaIdx.setWidth 16
          head := q.next conf
          entry := Function.update q.entry idx { entry with buf := buf }
          desc := Function.update q.desc idx
            { q.desc idx with buf0 := entry.dmaAddr, ctrl := ctrl } },
        false, some ((q.next conf).setWidth 32), 1, 0⟩ := by
  unfold woifQTxSkb
  dsimp only
  exact (if_neg room.1).trans (if_neg (Nat.not_lt_of_le room.2))

theorem undone_iff (q : Queue) (dmaIdx : BitVec 32) (skb : List (BitVec 8)) :
    Undone conf q dmaIdx skb ↔ Room conf q dmaIdx skb := by
  unfold Undone
  by_cases room : Room conf q dmaIdx skb
  · rw [accepted q dmaIdx skb room]
    exact ⟨fun _ => room, fun _ failed => absurd rfl failed⟩
  · rw [refused q dmaIdx skb room]
    constructor
    · intro undone
      exact absurd (undone (by simp)).1 (by simp)
    · exact fun other => absurd other room

end Calls

section Lengths

theorem getLen0_prepLen0 (len : Nat) (short : len < 2 ^ 14) :
    getLen0 (prepLen0 (BitVec.ofNat 16 len) ||| wedCtlLastSec0 ||| wedCtlDmaDone) = len := by
  have field : (prepLen0 (BitVec.ofNat 16 len) ||| wedCtlLastSec0 ||| wedCtlDmaDone) &&&
      0x3fff0000 = prepLen0 (BitVec.ofNat 16 len) := by
    have last : wedCtlLastSec0 &&& 0x3fff0000 = 0 := by decide
    have done : wedCtlDmaDone &&& 0x3fff0000 = 0 := by decide
    rw [BitVec.and_or_distrib_right, BitVec.and_or_distrib_right, last, done]
    unfold prepLen0
    simp [BitVec.and_assoc]
  have mask : ((0x3fff0000 : BitVec 32) >>> 16).toNat = 2 ^ 14 - 1 := by decide
  unfold getLen0
  rw [field]
  unfold prepLen0
  rw [BitVec.ushiftRight_and_distrib, BitVec.toNat_and, mask, Nat.and_two_pow_sub_one_eq_mod]
  have whole : (BitVec.setWidth 32 (BitVec.ofNat 16 len)).toNat = len := by
    rw [BitVec.toNat_setWidth, BitVec.toNat_ofNat]
    omega
  rw [BitVec.toNat_ushiftRight, BitVec.toNat_shiftLeft, whole, Nat.shiftLeft_eq,
    Nat.shiftRight_eq_div_pow]
  omega

end Lengths

section Order

variable {conf : QueueConf} {s : Link}

/-- What holds as long as no call fails. -/
structure Sound (conf : QueueConf) (s : Link) : Prop where
  free : s.locked = false
  cpu : s.cpuIdx.toNat = s.q.head.toNat
  head : s.q.head.toNat < conf.ndesc
  dma : s.dmaIdx.toNat < conf.ndesc
  lens : ∀ i, (s.q.entry i).dmaLen.toNat < 2 ^ 14
  order : InOrder conf s

/-- What a message put into another slot leaves -/
theorem describes_update {q : Queue} {i idx : Nat} {skb : List (BitVec 8)} (entry : Entry)
    (desc : WoDesc) (tail head : BitVec 16) (other : i ≠ idx) (told : Describes q i skb) :
    Describes { q with
      tail := tail, head := head, entry := Function.update q.entry idx entry
      desc := Function.update q.desc idx desc } i skb := by
  unfold Describes
  dsimp only
  rw [Function.update_of_ne other, Function.update_of_ne other]
  exact told

theorem Sound.send (sound : Sound conf s) (skb : List (BitVec 8))
    (room : Room conf s.q s.dmaIdx skb) : Sound conf (step conf s (.send skb)) := by
  have stepped : step conf s (.send skb) = _ := if_neg (by simp [sound.free])
  rw [stepped, accepted s.q s.dmaIdx skb room]
  have next := next_toNat conf s.q
  have below := Nat.mod_lt (s.q.head.toNat + 1) conf.ndesc_pos
  have le := conf.ndesc_le
  have apart : s.dmaIdx.toNat ≠ (s.q.head.toNat + 1) % conf.ndesc := by
    intro same
    refine room.1 (BitVec.eq_of_toNat_eq ?_)
    have inside := sound.dma
    rw [next, BitVec.toNat_setWidth, Nat.mod_eq_of_lt (by omega), same]
  have fits := room.2
  have len := sound.lens (s.q.next conf).toNat
  refine ⟨rfl, ?_, ?_, sound.dma, ?_, ?_⟩
  · change ((s.q.next conf).setWidth 32).toNat = (s.q.next conf).toNat
    rw [BitVec.toNat_setWidth, Nat.mod_eq_of_lt (by omega)]
  · change (s.q.next conf).toNat < conf.ndesc
    rwa [next]
  · intro i
    dsimp only
    by_cases same : i = (s.q.next conf).toNat
    · rw [same, Function.update_self]
      exact len
    · rw [Function.update_of_ne same]
      exact sound.lens i
  · unfold InOrder
    dsimp only
    rw [if_pos rfl, next, around.between_next _ _ _ sound.dma sound.head apart, ← next]
    refine List.rel_append ?_ (.cons ?_ .nil)
    · have others : ∀ i ∈ around.between conf.ndesc s.dmaIdx.toNat s.q.head.toNat,
          i ≠ (s.q.next conf).toNat := by
        rintro i member rfl
        rw [next] at member
        exact around.next_notMem _ _ _ sound.dma sound.head apart member
      refine ((List.forall₂_and_left _ _).mpr ⟨others, sound.order⟩).imp ?_
      exact fun i skb other => describes_update _ _ _ _ other.1 other.2
    · unfold Describes
      dsimp only
      rw [Function.update_self, Function.update_self]
      exact ⟨rfl, getLen0_prepLen0 _ (by omega), by simp⟩

theorem Sound.consume (sound : Sound conf s) : Sound conf (step conf s .consume) := by
  by_cases empty : s.dmaIdx = s.cpuIdx
  · rwa [show step conf s .consume = s from if_pos empty]
  · have stepped : step conf s .consume = _ := if_neg empty
    rw [stepped]
    have below := Nat.mod_lt (s.dmaIdx.toNat + 1) conf.ndesc_pos
    have le := conf.ndesc_le
    have index : (BitVec.ofNat 32 ((s.dmaIdx.toNat + 1) % conf.ndesc)).toNat =
        (s.dmaIdx.toNat + 1) % conf.ndesc := by
      rw [BitVec.toNat_ofNat, Nat.mod_eq_of_lt (by omega)]
    have other : s.dmaIdx.toNat ≠ s.q.head.toNat := by
      rw [← sound.cpu]
      exact fun same => empty (BitVec.eq_of_toNat_eq same)
    have order := sound.order
    unfold InOrder at order
    rw [around.next_between _ _ _ sound.dma sound.head other] at order
    refine ⟨sound.free, sound.cpu, sound.head, ?_, sound.lens, ?_⟩
    · change (BitVec.ofNat 32 ((s.dmaIdx.toNat + 1) % conf.ndesc)).toNat < conf.ndesc
      rwa [index]
    · unfold InOrder
      dsimp only
      rw [index]
      cases pending : s.pending with
      | nil =>
        rw [pending] at order
        cases order
      | cons skb rest =>
        rw [pending, List.forall₂_cons] at order
        exact order.2

theorem Sound.step (sound : Sound conf s) (event : Event) (fits : Fits conf s event) :
    Sound conf (step conf s event) := by
  cases event with
  | send skb => exact sound.send skb fits
  | consume => exact sound.consume

end Order

section Setup

variable {conf : QueueConf}

theorem woifQRxFill_spec (conf : QueueConf) (supplies : List (Option Frag)) (q : Queue)
    (head : q.head.toNat = q.queued % conf.ndesc) (room : q.queued ≤ conf.ndesc)
    (lens : ∀ i, (q.entry i).dmaLen.toNat < 2 ^ 14) :
    let filled := woifQRxFill conf supplies q
    let count := ((supplies.take (conf.ndesc - q.queued)).takeWhile Option.isSome).length
    filled.head.toNat = (q.queued + count) % conf.ndesc ∧
      ∀ i, (filled.entry i).dmaLen.toNat < 2 ^ 14 := by
  induction supplies generalizing q with
  | nil => simpa [woifQRxFill] using ⟨head, lens⟩
  | cons supply supplies ih =>
    cases supply with
    | none =>
      rw [woifQRxFill]
      · cases conf.ndesc - q.queued <;> simpa using ⟨head, lens⟩
      · intro frag rest same
        cases same
    | some frag =>
      rw [woifQRxFill]
      have le := conf.ndesc_le
      have short := conf.bufSize_lt
      have below := Nat.mod_lt (q.head.toNat + 1) conf.ndesc_pos
      split_ifs with more
      · have posted := ih (q.post conf frag)
          (by
            change (BitVec.ofNat 16 ((q.head.toNat + 1) % conf.ndesc)).toNat =
              (q.queued + 1) % conf.ndesc
            rw [BitVec.toNat_ofNat, Nat.mod_eq_of_lt (by omega), head, Nat.mod_add_mod])
          more
          (by
            intro i
            unfold Queue.post
            dsimp only
            by_cases same : i = (q.head.toNat + 1) % conf.ndesc
            · rw [same, Function.update_self]
              dsimp only
              rw [BitVec.toNat_ofNat]
              omega
            · rw [Function.update_of_ne same]
              exact lens i)
        obtain ⟨left, rest⟩ : ∃ left, conf.ndesc - q.queued = left + 1 :=
          ⟨conf.ndesc - q.queued - 1, by omega⟩
        have left_eq : conf.ndesc - (q.post conf frag).queued = left := by
          change conf.ndesc - (q.queued + 1) = left
          omega
        rw [left_eq] at posted
        rw [rest]
        refine ⟨?_, posted.2⟩
        rw [posted.1]
        change (q.queued + 1 + _) % _ = _
        simp only [List.take_succ_cons, List.takeWhile_cons, Option.isSome_some, if_true,
          List.length_cons]
        congr 1
        omega
      · rw [show conf.ndesc - q.queued = 0 by omega]
        exact ⟨head, lens⟩

theorem alloc_spec (conf : QueueConf) (supplies : List (Option Frag)) :
    (woifQAlloc conf supplies).head.toNat = frames conf supplies % conf.ndesc ∧
      ∀ i, ((woifQAlloc conf supplies).entry i).dmaLen.toNat < 2 ^ 14 := by
  have filled := woifQRxFill_spec conf supplies
    ⟨0, 0, 0, fun _ => ⟨[], 0, 0⟩, fun _ => ⟨0, 0, 0⟩⟩ (by simp) (Nat.zero_le _) (by simp)
  simpa [frames, woifQAlloc] using filled

/-- A ring that is set up in part starts with descriptors that no message has. -/
theorem start_inOrder (supplies : List (Option Frag)) :
    InOrder conf (start conf supplies) ↔ frames conf supplies % conf.ndesc = 0 := by
  have head := (alloc_spec conf supplies).1
  unfold InOrder start
  dsimp only
  rw [List.forall₂_nil_right_iff, head]
  exact (around.between_eq_nil _ _ _ conf.ndesc_pos (Nat.mod_lt _ conf.ndesc_pos)).trans eq_comm

theorem start_sound (supplies : List (Option Frag)) (whole : frames conf supplies % conf.ndesc = 0) :
    Sound conf (start conf supplies) := by
  have head := (alloc_spec conf supplies).1
  rw [whole] at head
  refine ⟨rfl, head.symm, ?_, conf.ndesc_pos, (alloc_spec conf supplies).2, ?_⟩
  · exact head.symm ▸ conf.ndesc_pos
  · exact (start_inOrder supplies).mpr whole

end Setup

section Runs

variable {conf : QueueConf} {supplies : List (Option Frag)} {events : List Event}

/-- Where every call that fails is undone, the lock is free. -/
theorem Kept.free (kept : Kept conf supplies events) (early late : List Event)
    (split : events = early ++ late) :
    (run (step conf) (start conf supplies) early).locked = false := by
  induction early using List.reverseRecOn generalizing late with
  | nil => rfl
  | append_singleton early event ih =>
    rw [List.append_assoc] at split
    have before := ih _ split
    rw [run_append]
    change (step conf (run (step conf) (start conf supplies) early) event).locked = false
    cases event with
    | send skb =>
      have room := (undone_iff _ _ _).mp (kept.undone early skb late split before)
      have stepped : step conf (run (step conf) (start conf supplies) early) (.send skb) = _ :=
        if_neg (by simp [before])
      rw [stepped, accepted _ _ _ room]
    | consume =>
      unfold step
      dsimp only
      split_ifs
      · exact before
      · exact before

theorem Kept.fits (kept : Kept conf supplies events) :
    Along (step conf) (Fits conf) (start conf supplies) events := by
  refine along_of_prefixes _ _ (fun s => s.locked = false) _ _ ?_ kept.free
  intro early event late split tight
  cases event with
  | send skb =>
    have before := kept.free early _ split
    exact absurd ((undone_iff _ _ _).mp (kept.undone early skb late split before)) tight
  | consume => exact absurd trivial tight

theorem kept_of_fits (whole : frames conf supplies % conf.ndesc = 0)
    (fits : Along (step conf) (Fits conf) (start conf supplies) events) :
    Kept conf supplies events := by
  have sound (early late) (split : events = early ++ late) :
      Sound conf (run (step conf) (start conf supplies) early) := by
    rw [split, along_append] at fits
    exact run_invariant (step conf) (Fits conf) (Sound conf) (fun _ event sound => sound.step event)
      _ _ (start_sound supplies whole) fits.1
  refine ⟨fun early late split => (sound early late split).order, ?_⟩
  intro early skb late split s free
  rw [split, along_append] at fits
  exact (undone_iff _ _ _).mpr fits.2.1

end Runs

/-- A call that fails is undone just when there is room, so that it does not fail; and runs keep the
ring in order and undo all failures just when the ring was set up as a whole, or not at all, and
each message finds room. -/
theorem transmit_kept_iff (conf : QueueConf) :
    (∀ (q : Queue) (dmaIdx : BitVec 32) (skb : List (BitVec 8)),
      Undone conf q dmaIdx skb ↔ Room conf q dmaIdx skb) ∧
    ∀ (supplies : List (Option Frag)) (events : List Event), Kept conf supplies events ↔
      frames conf supplies % conf.ndesc = 0 ∧
        Along (step conf) (Fits conf) (start conf supplies) events := by
  refine ⟨undone_iff, fun supplies events => ⟨fun kept => ⟨?_, kept.fits⟩, ?_⟩⟩
  · exact (start_inOrder supplies).mp (kept.order [] events rfl)
  · exact fun both => kept_of_fits both.1 both.2

/-- A message of 1505 bytes on the queue as it is set up -/
theorem long_message_keeps_lock :
    ¬ ((∀ (q : Queue) (dmaIdx : BitVec 32) (skb : List (BitVec 8)), Undone ccif q dmaIdx skb) ∧
      ∀ (supplies : List (Option Frag)) (events : List Event), Kept ccif supplies events) := by
  rintro ⟨all, -⟩
  let q : Queue :=
    ⟨0, 0, 256, fun _ => ⟨List.replicate 1504 0, 0x40000000, 1504⟩, fun _ => ⟨0, 0, 0⟩⟩
  have undone := all q 0 (List.replicate 1505 0)
  have full : ¬ Room ccif q 0 (List.replicate 1505 0) := by
    intro room
    have fits := room.2
    rw [List.length_replicate] at fits
    exact absurd fits (by decide)
  unfold Undone at undone
  rw [refused q 0 _ full] at undone
  exact absurd (undone (by decide)).1 (by decide)

end Filogic.Wed.Cmd
