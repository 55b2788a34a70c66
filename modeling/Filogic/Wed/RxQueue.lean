import Filogic.Lib.Around
import Filogic.Lib.Cells
import Filogic.Lib.Runs

/-! The receive queue of the WED firmware's messages in `mtk_wed_wo.c`: `woif_q_rx_fill` posts
buffers behind the head, `woif_q_deq` takes them after the tail. Buffers are numbered as they are
allocated. -/

namespace Filogic.Wed
open Lib
open scoped List

/-- The queue's dimensions, and `SKB_DATA_ALIGN(sizeof(struct skb_shared_info))`. -/
structure RxConf where
  ndesc : Nat
  bufSize : Nat
  overhead : Nat
  ndesc_pos : 0 < ndesc
  ndesc_le : ndesc ≤ 2 ^ 16
  overhead_pos : 0 < overhead
  overhead_le : overhead ≤ bufSize

/-- `struct wed_wo_queue_entry` -/
structure RxEntry where
  buf : Option Nat
  dmaAddr : BitVec 32
  dmaLen : BitVec 16

/-- `struct wed_wo_desc` -/
structure WoDesc where
  buf0 : BitVec 32
  ctrl : BitVec 32
  info : BitVec 32

/-- A call of `dma_map_single` or `dma_unmap_single` for a buffer. -/
structure Mapping where
  buf : Nat
  addr : BitVec 32
  len : Nat
  deriving DecidableEq, Repr

/-- A message on its way to the stack. -/
structure RxMessage where
  buf : Nat
  len : Nat
  deriving DecidableEq, Repr

/-- What was written to the register of the CPU index, and the slot that was posted last. -/
structure Kick where
  index : BitVec 32
  last : Nat
  deriving DecidableEq, Repr

/-- `wo->q_rx`, with the buffers allocated so far, the mappings made and ended, the messages that
hold a buffer, the buffers freed and the indices written after a refill. -/
structure RxQueue where
  head : Nat
  tail : Nat
  queued : Nat
  entry : Nat → RxEntry
  desc : Nat → WoDesc
  next : Nat
  mapped : List Mapping
  unmapped : List Mapping
  messages : List RxMessage
  freed : List Nat
  last : Nat
  kicks : List Kick

def wedCtlDmaDone : BitVec 32 := 1 <<< 31
def wedCtlLastSec0 : BitVec 32 := 1 <<< 30

/-- `FIELD_PREP(WED_CTL_SD_LEN0, len)` -/
def prepLen0 (len : BitVec 16) : BitVec 32 := (len.setWidth 32 <<< 16) &&& 0x3fff0000

/-- `FIELD_GET(WED_CTL_SD_LEN0, ctrl)` -/
def getLen0 (ctrl : BitVec 32) : Nat := ((ctrl &&& 0x3fff0000) >>> 16).toNat

/-- What meets one pass of the loop of `woif_q_rx_fill`; the device reaches 32 bits of address. -/
inductive Supply where
  | noMemory | notMapped | mapped (addr : BitVec 32)
  deriving DecidableEq, Repr

section Code

variable (conf : RxConf)

/-- A buffer that was mapped takes the slot behind the head. -/
def RxQueue.post (q : RxQueue) (addr : BitVec 32) : RxQueue :=
  let head := (q.head + 1) % conf.ndesc
  let dmaLen := BitVec.ofNat 16 conf.bufSize
  { q with
    head := head
    entry := Function.update q.entry head ⟨some q.next, addr, dmaLen⟩
    desc := Function.update q.desc head
      { q.desc head with buf0 := addr, ctrl := prepLen0 dmaLen ||| wedCtlLastSec0 }
    queued := q.queued + 1
    next := q.next + 1
    mapped := q.mapped ++ [⟨q.next, addr, conf.bufSize⟩]
    last := head }

/-- `woif_q_rx_fill` for the receive queue, with the number of frames -/
def woifQRxFill : List Supply → RxQueue → RxQueue × Nat
  | [], q => (q, 0)
  | supply :: supplies, q =>
    if q.queued < conf.ndesc then
      match supply with
      | .noMemory => (q, 0)
      | .notMapped => ({ q with next := q.next + 1, freed := q.freed ++ [q.next] }, 0)
      | .mapped addr =>
        let filled := woifQRxFill supplies (q.post conf addr)
        (filled.1, filled.2 + 1)
    else (q, 0)

/-- `woif_q_kick` -/
def woifQKick (q : RxQueue) (offset : Int) : RxQueue :=
  { q with kicks := q.kicks ++ [⟨BitVec.ofInt 32 (q.head + offset), q.last⟩] }

/-- `woif_q_rx_fill_process` -/
def woifQRxFillProcess (supplies : List Supply) (q : RxQueue) : RxQueue :=
  let filled := woifQRxFill conf supplies q
  if filled.2 ≠ 0 then woifQKick filled.1 (-1) else filled.1

/-- What `woif_q_deq` gives back. -/
structure Dequeued where
  buf : Nat
  len : Nat
  info : BitVec 32
  more : Bool

/-- The part of `woif_q_deq` behind its checks; `SKB_WITH_OVERHEAD` gives the length. -/
def RxQueue.take (q : RxQueue) (idx : Nat) : RxQueue × Option Dequeued :=
  let e := q.entry idx
  let desc := q.desc idx
  let q := { q with tail := idx, queued := q.queued - 1 }
  match e.buf with
  | none => (q, none)
  | some buf =>
    ({ q with
        unmapped := q.unmapped ++ [⟨buf, e.dmaAddr, conf.bufSize - conf.overhead⟩]
        entry := Function.update q.entry idx { e with buf := none } },
      some
        { buf := buf, len := getLen0 desc.ctrl, info := desc.info
          more := desc.ctrl &&& wedCtlLastSec0 = 0 })

/-- `woif_q_deq` -/
def woifQDeq (flush : Bool) (q : RxQueue) : RxQueue × Option Dequeued :=
  let idx := (q.tail + 1) % conf.ndesc
  if q.queued = 0 then (q, none)
  else if flush then
    { q with
      desc := Function.update q.desc idx
        { q.desc idx with ctrl := (q.desc idx).ctrl ||| wedCtlDmaDone } }.take conf idx
  else if (q.desc idx).ctrl &&& wedCtlDmaDone = 0 then (q, none)
  else q.take conf idx

/-- The loop of `woif_q_rx_clean`; each round takes one of the queued buffers. -/
def rxClean : Nat → RxQueue → RxQueue
  | 0, q => q
  | rounds + 1, q =>
    match woifQDeq conf true q with
    | (q, none) => q
    | (q, some taken) => rxClean rounds { q with freed := q.freed ++ [taken.buf] }

/-- `woif_q_rx_clean` -/
def woifQRxClean (q : RxQueue) : RxQueue := rxClean conf (q.queued + 1) q

/-- The firmware fills the buffer of a slot and marks the descriptor done. -/
structure Completion where
  slot : Nat
  ctrl : BitVec 32
  info : BitVec 32

def RxQueue.complete (q : RxQueue) (done : Completion) : RxQueue :=
  { q with
    desc := Function.update q.desc done.slot
      { q.desc done.slot with ctrl := done.ctrl ||| wedCtlDmaDone, info := done.info } }

/-- What meets one pass of the loop of `mtk_wed_wo_rx_process`: what the firmware has completed,
whether `build_skb` succeeds, and whether `woif_q_rx_skb` keeps the message or frees it. -/
structure Round where
  completions : List Completion
  built : Bool
  kept : Bool

/-- The loop of `mtk_wed_wo_rx_process`, with its count `done`. -/
def rxLoop (budget : Nat) (rounds : Nat → Round) : Nat → Nat → Nat → RxQueue → RxQueue × Nat
  | 0, _, done, q => (q, done)
  | fuel + 1, pass, done, q =>
    if done < budget then
      match woifQDeq conf false ((rounds pass).completions.foldl RxQueue.complete q) with
      | (q, none) => (q, done)
      | (q, some taken) =>
        if !(rounds pass).built then
          rxLoop budget rounds fuel (pass + 1) done { q with freed := q.freed ++ [taken.buf] }
        else if (rounds pass).kept then
          rxLoop budget rounds fuel (pass + 1) (done + 1)
            { q with messages := q.messages ++ [⟨taken.buf, taken.len⟩] }
        else
          rxLoop budget rounds fuel (pass + 1) (done + 1) { q with freed := q.freed ++ [taken.buf] }
    else (q, done)

/-- `mtk_wed_wo_rx_process`: each pass takes a queued buffer, so that one more than the queue
holds are enough. -/
def mtkWedWoRxProcess (budget : Nat) (rounds : Nat → Round) (supplies : List Supply)
    (q : RxQueue) : RxQueue × Nat :=
  let polled := rxLoop conf budget rounds (q.queued + 1) 0 0 q
  (woifQRxFillProcess conf supplies polled.1, polled.2)

/-- What one call of `mtk_wed_wo_rx_process` meets. -/
structure Poll where
  rounds : Nat → Round
  supplies : List Supply

/-- The loop of `mtk_wed_wo_rx_poll` -/
def rxPollLoop (budget : Nat) (polls : Nat → Poll) : Nat → Nat → Nat → RxQueue → RxQueue × Nat
  | 0, _, done, q => (q, done)
  | fuel + 1, call, done, q =>
    let cur := mtkWedWoRxProcess conf (budget - done) (polls call).rounds (polls call).supplies q
    if cur.2 ≠ 0 ∧ done + cur.2 < budget then
      rxPollLoop budget polls fuel (call + 1) (done + cur.2) cur.1
    else (cur.1, done + cur.2)

/-- `mtk_wed_wo_rx_poll`: each call but the last counts a message at least. -/
def mtkWedWoRxPoll (budget : Nat) (polls : Nat → Poll) (q : RxQueue) : RxQueue × Nat :=
  rxPollLoop conf budget polls (budget + 1) 0 0 q

/-- The queue as `woif_q_init` leaves it, with the descriptors and entries zeroed before. -/
def woifQInit (supplies : List Supply) : RxQueue :=
  (woifQRxFill conf supplies
    { head := 0, tail := 0, queued := 0, entry := fun _ => ⟨none, 0, 0⟩, desc := fun _ => ⟨0, 0, 0⟩
      next := 0, mapped := [], unmapped := [], messages := [], freed := [], last := 0
      kicks := [] }).1

inductive RxEvent where
  | complete (done : Completion)
  | poll (budget : Nat) (polls : Nat → Poll)
  | free (m : RxMessage)
  | clean

/-- The firmware completes a slot, the queue is polled or cleaned, or a message is freed by the
one who got it. -/
def rxStep (q : RxQueue) : RxEvent → RxQueue
  | .complete done => q.complete done
  | .poll budget polls => (mtkWedWoRxPoll conf budget polls q).1
  | .free m =>
    if m ∈ q.messages then
      { q with messages := q.messages.erase m, freed := q.freed ++ [m.buf] }
    else q
  | .clean => woifQRxClean conf q

/-- The buffer that a slot holds, and the address it was mapped at. -/
def RxQueue.held (q : RxQueue) (i : Nat) : Option (Nat × BitVec 32) :=
  (q.entry i).buf.map fun buf => (buf, (q.entry i).dmaAddr)

/-- The buffers in the ring. -/
def RxQueue.ring (q : RxQueue) : List (Nat × BitVec 32) :=
  (List.range conf.ndesc).filterMap q.held

/-- `queued` counts the slots that hold a buffer, which follow the tail; each buffer is in the
ring, in a message or free; and each that was mapped is in the ring or was unmapped, and once. -/
structure InOrder (q : RxQueue) : Prop where
  count : q.queued = ((Finset.range conf.ndesc).filter (fun i => (q.entry i).buf.isSome)).card
  slots : ∀ i < conf.ndesc,
    (q.entry i).buf.isSome ↔ ∃ k < q.queued, i = (q.tail + 1 + k) % conf.ndesc
  owned : ((q.ring conf).map Prod.fst ++ q.messages.map RxMessage.buf ++ q.freed).Perm
    (List.range q.next)
  once : (q.unmapped.map Mapping.buf ++ (q.ring conf).map Prod.fst).Perm (q.mapped.map Mapping.buf)

/-- Besides, a buffer is unmapped as it was mapped, and an index written to the firmware is that
of the slot that was posted last. -/
structure RxSound (q : RxQueue) : Prop extends InOrder conf q where
  unmapped : ∀ mapping ∈ q.unmapped, mapping ∈ q.mapped
  kicked : ∀ kick ∈ q.kicks, kick.index.toNat < conf.ndesc ∧ kick.index.toNat = kick.last

/-- A poll finds no completed buffer and refills no slot, and a cleaned queue is empty. -/
def Idle (q : RxQueue) : RxEvent → Prop
  | .poll budget polls =>
    (budget = 0 ∨ q.queued = 0 ∨
      ((((polls 0).rounds 0).completions.foldl RxQueue.complete q).desc
        ((q.tail + 1) % conf.ndesc)).ctrl &&& wedCtlDmaDone = 0) ∧
      (q.queued = conf.ndesc ∨ ∀ addr rest, (polls 0).supplies ≠ .mapped addr :: rest)
  | .clean => q.queued = 0
  | _ => True

end Code

section Steps

variable {conf : RxConf}

/-- What holds in every run, with the mistakes that the code makes at each unmapping and at each
index that it writes. -/
structure Kept (conf : RxConf) (q : RxQueue) : Prop where
  tail : q.tail < conf.ndesc
  room : q.queued ≤ conf.ndesc
  head : q.head = (q.tail + q.queued) % conf.ndesc
  last : q.last = q.head
  slots : ∀ i < conf.ndesc,
    (q.entry i).buf.isSome ↔ i ∈ around conf.ndesc (q.tail + 1) q.queued
  owned : ((q.ring conf).map Prod.fst ++ q.messages.map RxMessage.buf ++ q.freed).Perm
    (List.range q.next)
  once : (q.unmapped.map (fun m => (m.buf, m.addr)) ++ q.ring conf).Perm
    (q.mapped.map fun m => (m.buf, m.addr))
  mapped : ∀ m ∈ q.mapped, m.len = conf.bufSize
  unmapped : ∀ m ∈ q.unmapped, m.len = conf.bufSize - conf.overhead
  kicked : ∀ kick ∈ q.kicks,
    kick.last < conf.ndesc ∧ kick.index = BitVec.ofInt 32 ((kick.last : Int) - 1)

theorem Kept.count (q : RxQueue) (kept : Kept conf q) :
    q.queued = ((Finset.range conf.ndesc).filter (fun i => (q.entry i).buf.isSome)).card := by
  have same : (Finset.range conf.ndesc).filter (fun i => (q.entry i).buf.isSome) =
      (around conf.ndesc (q.tail + 1) q.queued).toFinset := by
    ext i
    rw [Finset.mem_filter, Finset.mem_range, List.mem_toFinset]
    constructor
    · exact fun ⟨below, filled⟩ => (kept.slots i below).mp filled
    · intro mem
      have below : i < conf.ndesc := by
        obtain ⟨k, _, rfl⟩ := (around.mem ..).mp mem
        exact Nat.mod_lt _ conf.ndesc_pos
      exact ⟨below, (kept.slots i below).mpr mem⟩
  rw [same, List.toFinset_card_of_nodup (around.nodup _ _ _ kept.room), around.length]

theorem Kept.inOrder (q : RxQueue) (kept : Kept conf q) : InOrder conf q where
  count := kept.count
  slots i below := (kept.slots i below).trans (around.mem ..)
  owned := kept.owned
  once := by
    have pairs := kept.once.map Prod.fst
    simpa [List.map_append, List.map_map, Function.comp_def] using pairs

/-- The length is short by what the stack adds, and the index by one, so that nothing may have
been unmapped and no index written. -/
theorem sound_iff (q : RxQueue) (kept : Kept conf q) :
    RxSound conf q ↔ q.unmapped = [] ∧ q.kicks = [] := by
  constructor
  · intro sound
    constructor
    · by_contra some
      obtain ⟨m, mem⟩ := List.exists_mem_of_ne_nil _ some
      have ended := kept.unmapped m mem
      rw [kept.mapped m (sound.unmapped m mem)] at ended
      have pos := conf.overhead_pos
      have le := conf.overhead_le
      omega
    · by_contra some
      obtain ⟨kick, mem⟩ := List.exists_mem_of_ne_nil _ some
      obtain ⟨below, index⟩ := kept.kicked kick mem
      have own := (sound.kicked kick mem).2
      have le := conf.ndesc_le
      rw [index, BitVec.toNat_ofInt] at own
      omega
  · rintro ⟨unmapped, kicks⟩
    refine ⟨kept.inOrder, ?_, ?_⟩
    · simp [unmapped]
    · simp [kicks]

/-- The buffer of a slot is taken out, and unmapped with the length that `woif_q_deq` uses. -/
def RxQueue.out (conf : RxConf) (q : RxQueue) (idx buf : Nat) : RxQueue :=
  { q with
    tail := idx, queued := q.queued - 1
    unmapped := q.unmapped ++ [⟨buf, (q.entry idx).dmaAddr, conf.bufSize - conf.overhead⟩]
    entry := Function.update q.entry idx { q.entry idx with buf := none } }

/-- What a single step of the code can do to the queue. -/
inductive Move (conf : RxConf) (q : RxQueue) : RxQueue → Prop where
  | desc (desc : Nat → WoDesc) : Move conf q { q with desc := desc }
  | drop : Move conf q { q with next := q.next + 1, freed := q.freed ++ [q.next] }
  | post (addr : BitVec 32) (room : q.queued < conf.ndesc) : Move conf q (q.post conf addr)
  | kick : Move conf q (woifQKick q (-1))
  | pass (m : RxMessage) (queued : q.queued ≠ 0)
      (filled : (q.entry ((q.tail + 1) % conf.ndesc)).buf = some m.buf) :
      Move conf q { q.out conf ((q.tail + 1) % conf.ndesc) m.buf with
        messages := q.messages ++ [m] }
  | release (buf : Nat) (queued : q.queued ≠ 0)
      (filled : (q.entry ((q.tail + 1) % conf.ndesc)).buf = some buf) :
      Move conf q { q.out conf ((q.tail + 1) % conf.ndesc) buf with freed := q.freed ++ [buf] }
  | free (m : RxMessage) (mem : m ∈ q.messages) :
      Move conf q { q with messages := q.messages.erase m, freed := q.freed ++ [m.buf] }

theorem held_post (q : RxQueue) (addr : BitVec 32) :
    (q.post conf addr).held =
      Function.update q.held ((q.head + 1) % conf.ndesc) (some (q.next, addr)) := by
  funext i
  by_cases here : i = (q.head + 1) % conf.ndesc
  · subst here
    simp [RxQueue.held, RxQueue.post]
  · simp [RxQueue.held, RxQueue.post, Function.update_of_ne here]

theorem held_out (q : RxQueue) (idx buf : Nat) :
    (q.out conf idx buf).held = Function.update q.held idx none := by
  funext i
  by_cases here : i = idx
  · subst here
    simp [RxQueue.held, RxQueue.out]
  · simp [RxQueue.held, RxQueue.out, Function.update_of_ne here]

theorem held_isSome (q : RxQueue) (i : Nat) : (q.held i).isSome = (q.entry i).buf.isSome := by
  simp [RxQueue.held]

/-- The slot behind the head is the one after the queued slots, and it is empty. -/
theorem Kept.behind (q : RxQueue) (kept : Kept conf q) (room : q.queued < conf.ndesc) :
    (q.head + 1) % conf.ndesc = (q.tail + 1 + q.queued) % conf.ndesc ∧
      q.held ((q.head + 1) % conf.ndesc) = none := by
  have place : (q.head + 1) % conf.ndesc = (q.tail + 1 + q.queued) % conf.ndesc := by
    rw [kept.head, Nat.mod_add_mod, Nat.add_right_comm]
  refine ⟨place, ?_⟩
  rw [← Option.not_isSome_iff_eq_none, held_isSome, place,
    kept.slots _ (Nat.mod_lt _ conf.ndesc_pos), around.mem_iff _ _ _ _ room kept.room]
  exact lt_irrefl _

theorem Kept.post (q : RxQueue) (kept : Kept conf q) (addr : BitVec 32)
    (room : q.queued < conf.ndesc) : Kept conf (q.post conf addr) := by
  obtain ⟨place, empty⟩ := kept.behind q room
  have below := Nat.mod_lt (q.head + 1) conf.ndesc_pos
  have ring : ((q.post conf addr).ring conf).Perm ((q.next, addr) :: q.ring conf) := by
    unfold RxQueue.ring
    rw [held_post]
    exact filterMap_update_perm q.held conf.ndesc _ below empty (q.next, addr)
  constructor
  · exact kept.tail
  · exact room
  · change (q.head + 1) % conf.ndesc = (q.tail + (q.queued + 1)) % conf.ndesc
    rw [place]
    congr 1
    omega
  · rfl
  · intro i bound
    rw [← held_isSome, held_post]
    change _ ↔ i ∈ around conf.ndesc (q.tail + 1) (q.queued + 1)
    rw [around.succ, List.mem_append, List.mem_singleton, ← kept.slots i bound, ← place,
      ← held_isSome]
    by_cases here : i = (q.head + 1) % conf.ndesc
    · subst here
      simp
    · simp [here]
  · refine ((ring.map Prod.fst).append_right _ |>.append_right _).trans ?_
    refine (kept.owned.cons q.next).trans ?_
    change _ ~ List.range (q.next + 1)
    rw [List.range_succ]
    exact (List.perm_append_singleton _ _).symm
  · refine (ring.append_left _).trans ?_
    refine List.perm_middle.trans ((kept.once.cons (q.next, addr)).trans ?_)
    change _ ~ (q.mapped ++ [_]).map _
    rw [List.map_append]
    exact (List.perm_append_singleton _ _).symm
  · intro m mem
    rcases List.mem_append.mp mem with old | new
    · exact kept.mapped m old
    · rw [List.mem_singleton.mp new]
  · exact kept.unmapped
  · exact kept.kicked

/-- The slot behind the tail holds a buffer, if any is queued. -/
theorem Kept.first (q : RxQueue) (kept : Kept conf q) (queued : q.queued ≠ 0) :
    ∃ buf, (q.entry ((q.tail + 1) % conf.ndesc)).buf = some buf := by
  rw [← Option.isSome_iff_exists, kept.slots _ (Nat.mod_lt _ conf.ndesc_pos)]
  obtain ⟨rest, count⟩ := Nat.exists_eq_succ_of_ne_zero queued
  rw [count, Nat.succ_eq_add_one, around.cons]
  exact List.mem_cons_self

theorem Kept.out (q : RxQueue) (kept : Kept conf q) (buf : Nat) (queued : q.queued ≠ 0)
    (filled : (q.entry ((q.tail + 1) % conf.ndesc)).buf = some buf) (messages : List RxMessage)
    (freed : List Nat)
    (gone : (messages.map RxMessage.buf ++ freed).Perm
      (buf :: (q.messages.map RxMessage.buf ++ q.freed))) :
    Kept conf { q.out conf ((q.tail + 1) % conf.ndesc) buf with
      messages := messages, freed := freed } := by
  set idx := (q.tail + 1) % conf.ndesc with place
  have below : idx < conf.ndesc := Nat.mod_lt _ conf.ndesc_pos
  obtain ⟨rest, count⟩ := Nat.exists_eq_succ_of_ne_zero queued
  have ring : (q.ring conf).Perm
      ((buf, (q.entry idx).dmaAddr) :: (q.out conf idx buf).ring conf) := by
    have back : q.held =
        Function.update (q.out conf idx buf).held idx (some (buf, (q.entry idx).dmaAddr)) := by
      rw [held_out, Function.update_idem]
      refine (Function.update_eq_self_iff.mpr ?_).symm
      simp [RxQueue.held, filled]
    unfold RxQueue.ring
    conv_lhs => rw [back]
    exact filterMap_update_perm _ conf.ndesc idx below (by simp [held_out]) _
  have after : ∀ i, i ∈ around conf.ndesc (idx + 1) rest ↔
      i ∈ around conf.ndesc (q.tail + 1) q.queued ∧ i ≠ idx := by
    intro i
    have room := kept.room
    rw [around.congr conf.ndesc (idx + 1) (q.tail + 1 + 1) rest (Nat.mod_add_mod ..), count]
    exact around.mem_tail conf.ndesc (q.tail + 1) rest i (by omega)
  constructor
  · exact below
  · change q.queued - 1 ≤ conf.ndesc
    have := kept.room
    omega
  · change q.head = (idx + (q.queued - 1)) % conf.ndesc
    rw [place, Nat.mod_add_mod, kept.head]
    congr 1
    omega
  · exact kept.last
  · intro i bound
    rw [← held_isSome]
    change ((q.out conf idx buf).held i).isSome ↔ i ∈ around conf.ndesc (idx + 1) (q.queued - 1)
    rw [held_out, count, Nat.succ_sub_one, after, ← kept.slots i bound, ← held_isSome]
    by_cases here : i = idx
    · simp [here]
    · simp [here]
  · refine List.Perm.trans ?_ kept.owned
    rw [List.append_assoc, List.append_assoc]
    refine (gone.append_left _).trans (List.perm_middle.trans ?_)
    exact ((ring.map Prod.fst).append_right _).symm
  · refine List.Perm.trans ?_ kept.once
    change (q.unmapped ++ [_]).map _ ++ _ ~ _
    rw [List.map_append, List.append_assoc]
    exact (ring.append_left _).symm
  · exact kept.mapped
  · intro m mem
    rcases List.mem_append.mp mem with old | new
    · exact kept.unmapped m old
    · rw [List.mem_singleton.mp new]
  · exact kept.kicked

theorem Kept.move (q q' : RxQueue) (kept : Kept conf q) (move : Move conf q q') : Kept conf q' := by
  cases move with
  | desc desc =>
    exact ⟨kept.tail, kept.room, kept.head, kept.last, kept.slots, kept.owned, kept.once,
      kept.mapped, kept.unmapped, kept.kicked⟩
  | drop =>
    refine ⟨kept.tail, kept.room, kept.head, kept.last, kept.slots, ?_, kept.once, kept.mapped,
      kept.unmapped, kept.kicked⟩
    change _ ~ List.range (q.next + 1)
    rw [List.range_succ, ← List.append_assoc]
    exact kept.owned.append_right [q.next]
  | post addr room => exact kept.post q addr room
  | kick =>
    refine ⟨kept.tail, kept.room, kept.head, kept.last, kept.slots, kept.owned, kept.once,
      kept.mapped, kept.unmapped, ?_⟩
    intro kick mem
    rcases List.mem_append.mp mem with old | new
    · exact kept.kicked kick old
    · rw [List.mem_singleton.mp new, kept.last]
      refine ⟨?_, rfl⟩
      rw [kept.head]
      exact Nat.mod_lt _ conf.ndesc_pos
  | pass m queued filled =>
    refine kept.out q m.buf queued filled (q.messages ++ [m]) q.freed ?_
    rw [List.map_append, List.append_assoc]
    exact List.perm_middle
  | release buf queued filled =>
    refine kept.out q buf queued filled q.messages (q.freed ++ [buf]) ?_
    rw [← List.append_assoc]
    exact List.perm_append_singleton _ _
  | free m mem =>
    refine ⟨kept.tail, kept.room, kept.head, kept.last, kept.slots, ?_, kept.once, kept.mapped,
      kept.unmapped, kept.kicked⟩
    refine List.Perm.trans ?_ kept.owned
    rw [List.append_assoc, List.append_assoc]
    apply List.Perm.append_left
    have split := (List.perm_cons_erase mem).map RxMessage.buf
    refine List.Perm.trans ?_ (split.append_right _).symm
    rw [← List.append_assoc]
    exact List.perm_append_singleton _ _

abbrev Moves (conf : RxConf) : RxQueue → RxQueue → Prop := Relation.ReflTransGen (Move conf)

theorem Kept.moves (q q' : RxQueue) (kept : Kept conf q) (moves : Moves conf q q') :
    Kept conf q' := by
  induction moves with
  | refl => exact kept
  | tail _ move ih => exact ih.move _ _ move

/-- Something was unmapped or an index written. -/
def Touched (q : RxQueue) : Prop := q.unmapped ≠ [] ∨ q.kicks ≠ []

theorem Touched.move (q q' : RxQueue) (touched : Touched q) (move : Move conf q q') :
    Touched q' := by
  cases move with
  | kick => exact Or.inr (by simp [woifQKick])
  | pass | release => exact Or.inl (by simp [RxQueue.out])
  | desc | drop | post | free => exact touched

theorem Touched.moves (q q' : RxQueue) (touched : Touched q) (moves : Moves conf q q') :
    Touched q' := by
  induction moves with
  | refl => exact touched
  | tail _ move ih => exact ih.move _ _ move

theorem fill_moves (supplies : List Supply) (q : RxQueue) :
    Moves conf q (woifQRxFill conf supplies q).1 := by
  induction supplies generalizing q with
  | nil => exact .refl
  | cons supply supplies ih =>
    unfold woifQRxFill
    split_ifs with room
    · cases supply with
      | noMemory => exact .refl
      | notMapped => exact .single .drop
      | mapped addr => exact .head (.post addr room) (ih _)
    · exact .refl

theorem fillProcess_moves (supplies : List Supply) (q : RxQueue) :
    Moves conf q (woifQRxFillProcess conf supplies q) := by
  unfold woifQRxFillProcess
  dsimp only
  split_ifs
  · exact .tail (fill_moves supplies q) .kick
  · exact fill_moves supplies q

/-- The descriptor behind the tail is done. -/
def RxQueue.isDone (conf : RxConf) (q : RxQueue) : Prop :=
  (q.desc ((q.tail + 1) % conf.ndesc)).ctrl &&& wedCtlDmaDone ≠ 0

/-- `woif_q_deq` gives nothing and leaves the queue, or takes the buffer behind the tail out. -/
theorem woifQDeq_cases (q : RxQueue) (kept : Kept conf q) (flush : Bool) :
    (woifQDeq conf flush q = (q, none) ∧ (q.queued = 0 ∨ flush = false ∧ ¬q.isDone conf)) ∨
      ∃ desc buf taken, q.queued ≠ 0 ∧ (flush = true ∨ q.isDone conf) ∧
        (q.entry ((q.tail + 1) % conf.ndesc)).buf = some buf ∧ taken.buf = buf ∧
        woifQDeq conf flush q =
          ({ q with desc := desc }.out conf ((q.tail + 1) % conf.ndesc) buf, some taken) := by
  unfold woifQDeq
  dsimp only
  by_cases empty : q.queued = 0
  · rw [if_pos empty]
    exact Or.inl ⟨rfl, Or.inl empty⟩
  · rw [if_neg empty]
    obtain ⟨buf, filled⟩ := kept.first q empty
    have take : ∀ desc : Nat → WoDesc, ∃ taken : Dequeued, taken.buf = buf ∧
        { q with desc := desc }.take conf ((q.tail + 1) % conf.ndesc) =
          ({ q with desc := desc }.out conf ((q.tail + 1) % conf.ndesc) buf, some taken) := by
      intro desc
      unfold RxQueue.take
      dsimp only
      rw [filled]
      exact ⟨_, rfl, rfl⟩
    cases flush with
    | true =>
      rw [if_pos rfl]
      obtain ⟨taken, own, result⟩ := take _
      exact Or.inr ⟨_, buf, taken, empty, Or.inl rfl, filled, own, result⟩
    | false =>
      rw [if_neg (by decide)]
      split_ifs with done
      · exact Or.inl ⟨rfl, Or.inr ⟨rfl, not_not.mpr done⟩⟩
      · obtain ⟨taken, own, result⟩ := take q.desc
        exact Or.inr ⟨q.desc, buf, taken, empty, Or.inr done, filled, own, result⟩

theorem complete_fold (completions : List Completion) (q : RxQueue) :
    ∃ desc, completions.foldl RxQueue.complete q = { q with desc := desc } := by
  induction completions generalizing q with
  | nil => exact ⟨q.desc, rfl⟩
  | cons done completions ih =>
    obtain ⟨desc, result⟩ := ih (q.complete done)
    exact ⟨desc, result⟩

/-- A buffer that `woif_q_deq` has taken becomes a message, or is freed. -/
theorem taken_moves (q : RxQueue) (desc : Nat → WoDesc) (buf : Nat) (queued : q.queued ≠ 0)
    (filled : (q.entry ((q.tail + 1) % conf.ndesc)).buf = some buf) :
    Moves conf q { { q with desc := desc }.out conf ((q.tail + 1) % conf.ndesc) buf with
        freed := q.freed ++ [buf] } ∧
      ∀ len, Moves conf q { { q with desc := desc }.out conf ((q.tail + 1) % conf.ndesc) buf with
        messages := q.messages ++ [⟨buf, len⟩] } := by
  have first : Move conf q { q with desc := desc } := .desc desc
  constructor
  · exact .head first (.single (@Move.release conf { q with desc := desc } buf queued filled))
  · intro len
    exact .head first (.single (@Move.pass conf { q with desc := desc } ⟨buf, len⟩ queued filled))

theorem rxLoop_moves (budget : Nat) (rounds : Nat → Round) (fuel pass done : Nat) (q : RxQueue)
    (kept : Kept conf q) : Moves conf q (rxLoop conf budget rounds fuel pass done q).1 := by
  induction fuel generalizing pass done q with
  | zero => exact .refl
  | succ fuel ih =>
    unfold rxLoop
    by_cases left : done < budget
    · rw [if_pos left]
      obtain ⟨desc, arrived⟩ := complete_fold (rounds pass).completions q
      rw [arrived]
      have first : Move conf q { q with desc := desc } := .desc desc
      have kept' := kept.move _ _ first
      rcases woifQDeq_cases _ kept' false with
        ⟨result, -⟩ | ⟨desc', buf, taken, queued, -, filled, rfl, result⟩
      · rw [result]
        exact .single first
      · rw [result]
        dsimp only
        obtain ⟨freed, passed⟩ := taken_moves _ desc' taken.buf queued filled
        have onward : ∀ q' pass done, Moves conf { q with desc := desc } q' →
            Moves conf q (rxLoop conf budget rounds fuel pass done q').1 := by
          intro q' pass done moves
          exact .head first (moves.trans (ih pass done q' (kept'.moves _ _ moves)))
        split_ifs
        · exact onward _ _ _ freed
        · exact onward _ _ _ (passed taken.len)
        · exact onward _ _ _ freed
    · rw [if_neg left]

theorem process_moves (budget : Nat) (rounds : Nat → Round) (supplies : List Supply)
    (q : RxQueue) (kept : Kept conf q) :
    Moves conf q (mtkWedWoRxProcess conf budget rounds supplies q).1 :=
  (rxLoop_moves budget rounds _ 0 0 q kept).trans (fillProcess_moves supplies _)

theorem rxPollLoop_moves (budget : Nat) (polls : Nat → Poll) (fuel call done : Nat) (q : RxQueue)
    (kept : Kept conf q) : Moves conf q (rxPollLoop conf budget polls fuel call done q).1 := by
  induction fuel generalizing call done q with
  | zero => exact .refl
  | succ fuel ih =>
    unfold rxPollLoop
    have moves := process_moves (budget - done) (polls call).rounds (polls call).supplies q kept
    dsimp only
    split_ifs
    · exact moves.trans (ih _ _ _ (kept.moves _ _ moves))
    · exact moves

theorem rxClean_moves (rounds : Nat) (q : RxQueue) (kept : Kept conf q) :
    Moves conf q (rxClean conf rounds q) := by
  induction rounds generalizing q with
  | zero => exact .refl
  | succ rounds ih =>
    unfold rxClean
    rcases woifQDeq_cases q kept true with
      ⟨result, -⟩ | ⟨desc, buf, taken, queued, -, filled, rfl, result⟩
    · rw [result]
    · rw [result]
      dsimp only
      have moves := (taken_moves q desc taken.buf queued filled).1
      exact moves.trans (ih _ (kept.moves _ _ moves))

theorem rxStep_moves (q : RxQueue) (event : RxEvent) (kept : Kept conf q) :
    Moves conf q (rxStep conf q event) := by
  cases event with
  | complete done => exact .single (.desc _)
  | poll budget polls => exact rxPollLoop_moves budget polls _ 0 0 q kept
  | free m =>
    unfold rxStep
    dsimp only
    split_ifs with mem
    · exact .single (.free m mem)
    · exact .refl
  | clean => exact rxClean_moves _ q kept

theorem kept_init (supplies : List Supply) : Kept conf (woifQInit conf supplies) := by
  refine Kept.moves _ _ ?_ (fill_moves supplies _)
  constructor
  · exact conf.ndesc_pos
  · exact Nat.zero_le _
  · exact (Nat.zero_mod _).symm
  · rfl
  · intro i _
    simp
  · simp [RxQueue.ring, RxQueue.held]
  · simp [RxQueue.ring, RxQueue.held]
  · simp
  · simp
  · simp

theorem kept_run (supplies : List Supply) (events : List RxEvent) :
    Kept conf (run (rxStep conf) (woifQInit conf supplies) events) :=
  run_preserves (rxStep conf) (Kept conf)
    (fun q event kept => kept.moves _ _ (rxStep_moves q event kept)) _ events (kept_init supplies)

/-- A refill posts no frame if the queue is full or no buffer comes, and else writes an index. -/
theorem fillProcess_idle (supplies : List Supply) (q : RxQueue)
    (idle : q.queued = conf.ndesc ∨ ∀ addr rest, supplies ≠ .mapped addr :: rest) :
    (woifQRxFillProcess conf supplies q).unmapped = q.unmapped ∧
      (woifQRxFillProcess conf supplies q).kicks = q.kicks := by
  have frames : (woifQRxFill conf supplies q).2 = 0 ∧
      (woifQRxFill conf supplies q).1.unmapped = q.unmapped ∧
      (woifQRxFill conf supplies q).1.kicks = q.kicks := by
    cases supplies with
    | nil => exact ⟨rfl, rfl, rfl⟩
    | cons supply rest =>
      unfold woifQRxFill
      split_ifs with room
      · cases supply with
        | noMemory => exact ⟨rfl, rfl, rfl⟩
        | notMapped => exact ⟨rfl, rfl, rfl⟩
        | mapped addr =>
          rcases idle with full | other
          · omega
          · exact absurd rfl (other addr rest)
      · exact ⟨rfl, rfl, rfl⟩
  unfold woifQRxFillProcess
  dsimp only
  rw [if_neg (not_not.mpr frames.1)]
  exact frames.2

theorem fillProcess_touched (addr : BitVec 32) (rest : List Supply) (q : RxQueue)
    (room : q.queued < conf.ndesc) :
    Touched (woifQRxFillProcess conf (.mapped addr :: rest) q) := by
  unfold woifQRxFillProcess
  dsimp only
  rw [if_pos]
  · exact Or.inr (by simp [woifQKick])
  · unfold woifQRxFill
    rw [if_pos room]
    exact Nat.succ_ne_zero _

/-- What the first pass of a poll would find. -/
def Finds (conf : RxConf) (budget : Nat) (rounds : Nat → Round) (q : RxQueue) : Prop :=
  budget ≠ 0 ∧ q.queued ≠ 0 ∧ ((rounds 0).completions.foldl RxQueue.complete q).isDone conf

theorem rxLoop_idle (budget : Nat) (rounds : Nat → Round) (fuel : Nat) (q : RxQueue)
    (kept : Kept conf q) (idle : ¬Finds conf budget rounds q) :
    ∃ desc, rxLoop conf budget rounds (fuel + 1) 0 0 q = ({ q with desc := desc }, 0) := by
  unfold rxLoop
  by_cases left : 0 < budget
  · rw [if_pos left]
    obtain ⟨desc, arrived⟩ := complete_fold (rounds 0).completions q
    unfold Finds at idle
    rw [arrived] at idle ⊢
    rcases woifQDeq_cases _ (kept.move _ _ (.desc desc)) false with
      ⟨result, -⟩ | ⟨desc', buf, taken, queued, flushed | done, filled, own, result⟩
    · rw [result]
      exact ⟨desc, rfl⟩
    · cases flushed
    · exact absurd ⟨left.ne', queued, done⟩ idle
  · rw [if_neg left]
    exact ⟨q.desc, rfl⟩

theorem rxLoop_touched (budget : Nat) (rounds : Nat → Round) (fuel : Nat) (q : RxQueue)
    (kept : Kept conf q) (finds : Finds conf budget rounds q) :
    Touched (rxLoop conf budget rounds (fuel + 1) 0 0 q).1 := by
  obtain ⟨left, queued, done⟩ := finds
  unfold rxLoop
  rw [if_pos (Nat.pos_of_ne_zero left)]
  obtain ⟨desc, arrived⟩ := complete_fold (rounds 0).completions q
  rw [arrived] at done ⊢
  have kept' := kept.move _ _ (Move.desc desc)
  rcases woifQDeq_cases _ kept' false with
    ⟨-, empty | ⟨-, open'⟩⟩ | ⟨desc', buf, taken, _, -, filled, rfl, result⟩
  · exact absurd empty queued
  · exact absurd done open'
  · rw [result]
    dsimp only
    obtain ⟨freed, passed⟩ := taken_moves { q with desc := desc } desc' taken.buf queued filled
    have onward : ∀ q' pass done, Touched q' → Moves conf { q with desc := desc } q' →
        Touched (rxLoop conf budget rounds fuel pass done q').1 := by
      intro q' pass done touched moves
      exact touched.moves _ _ (rxLoop_moves budget rounds fuel pass done q' (kept'.moves _ _ moves))
    have ended : ∀ q' : RxQueue, q'.unmapped = q.unmapped ++
        [⟨taken.buf, (q.entry ((q.tail + 1) % conf.ndesc)).dmaAddr,
          conf.bufSize - conf.overhead⟩] → Touched q' := by
      intro q' same
      exact Or.inl (by simp [same])
    split_ifs
    · exact onward _ _ _ (ended _ rfl) freed
    · exact onward _ _ _ (ended _ rfl) (passed taken.len)
    · exact onward _ _ _ (ended _ rfl) freed

theorem idle_poll (q : RxQueue) (budget : Nat) (polls : Nat → Poll) :
    Idle conf q (.poll budget polls) ↔ ¬Finds conf budget (polls 0).rounds q ∧
      (q.queued = conf.ndesc ∨ ∀ addr rest, (polls 0).supplies ≠ .mapped addr :: rest) := by
  have tail : (((polls 0).rounds 0).completions.foldl RxQueue.complete q).tail = q.tail := by
    obtain ⟨desc, arrived⟩ := complete_fold ((polls 0).rounds 0).completions q
    rw [arrived]
  unfold Idle Finds RxQueue.isDone
  rw [tail]
  tauto

theorem step_idle (q : RxQueue) (event : RxEvent) (kept : Kept conf q) (idle : Idle conf q event) :
    (rxStep conf q event).unmapped = q.unmapped ∧ (rxStep conf q event).kicks = q.kicks := by
  cases event with
  | complete done => exact ⟨rfl, rfl⟩
  | poll budget polls =>
    obtain ⟨nothing, full⟩ := (idle_poll q budget polls).mp idle
    obtain ⟨desc, loop⟩ := rxLoop_idle budget (polls 0).rounds q.queued q kept nothing
    have process : mtkWedWoRxProcess conf (budget - 0) (polls 0).rounds (polls 0).supplies q =
        (woifQRxFillProcess conf (polls 0).supplies { q with desc := desc }, 0) := by
      unfold mtkWedWoRxProcess
      rw [Nat.sub_zero, loop]
    change (rxPollLoop conf budget polls (budget + 1) 0 0 q).1.unmapped = _ ∧
      (rxPollLoop conf budget polls (budget + 1) 0 0 q).1.kicks = _
    unfold rxPollLoop
    rw [process]
    exact fillProcess_idle (polls 0).supplies { q with desc := desc } full
  | free m =>
    unfold rxStep
    dsimp only
    split_ifs <;> exact ⟨rfl, rfl⟩
  | clean =>
    have empty : q.queued = 0 := idle
    simp [rxStep, woifQRxClean, rxClean, woifQDeq, empty]

theorem step_touched (q : RxQueue) (event : RxEvent) (kept : Kept conf q)
    (busy : ¬Idle conf q event) : Touched (rxStep conf q event) := by
  cases event with
  | complete done => exact absurd trivial busy
  | poll budget polls =>
    rw [idle_poll, not_and_or, not_not, not_or] at busy
    have first : Touched (mtkWedWoRxProcess conf (budget - 0) (polls 0).rounds
        (polls 0).supplies q).1 := by
      unfold mtkWedWoRxProcess
      rw [Nat.sub_zero]
      by_cases finds : Finds conf budget (polls 0).rounds q
      · exact (rxLoop_touched budget (polls 0).rounds q.queued q kept finds).moves _ _
          (fillProcess_moves _ _)
      · obtain ⟨desc, loop⟩ := rxLoop_idle budget (polls 0).rounds q.queued q kept finds
        rw [loop]
        obtain ⟨short, posts⟩ := busy.resolve_left finds
        push Not at posts
        obtain ⟨addr, rest, supplies⟩ := posts
        rw [supplies]
        exact fillProcess_touched addr rest _ (lt_of_le_of_ne kept.room short)
    change Touched (rxPollLoop conf budget polls (budget + 1) 0 0 q).1
    unfold rxPollLoop
    dsimp only
    split_ifs
    · have moves := process_moves (budget - 0) (polls 0).rounds (polls 0).supplies q kept
      exact first.moves _ _ (rxPollLoop_moves budget polls budget _ _ _ (kept.moves _ _ moves))
    · exact first
  | free m => exact absurd trivial busy
  | clean =>
    change Touched (rxClean conf (q.queued + 1) q)
    unfold rxClean
    rcases woifQDeq_cases q kept true with
      ⟨-, empty | ⟨flush, -⟩⟩ | ⟨desc, buf, taken, queued, -, filled, rfl, result⟩
    · exact absurd empty busy
    · cases flush
    · rw [result]
      dsimp only
      have moves := (taken_moves q desc taken.buf queued filled).1
      refine Touched.moves _ _ (Or.inl ?_) (rxClean_moves q.queued _ (kept.moves _ _ moves))
      simp [RxQueue.out]

theorem fill_untouched (supplies : List Supply) (q : RxQueue) :
    (woifQRxFill conf supplies q).1.unmapped = q.unmapped ∧
      (woifQRxFill conf supplies q).1.kicks = q.kicks := by
  induction supplies generalizing q with
  | nil => exact ⟨rfl, rfl⟩
  | cons supply supplies ih =>
    unfold woifQRxFill
    split_ifs
    · cases supply with
      | noMemory => exact ⟨rfl, rfl⟩
      | notMapped => exact ⟨rfl, rfl⟩
      | mapped addr => exact ih (q.post conf addr)
    · exact ⟨rfl, rfl⟩

theorem step_exact (q : RxQueue) (event : RxEvent) (good : Kept conf q ∧ RxSound conf q) :
    Idle conf q event ↔
      Kept conf (rxStep conf q event) ∧ RxSound conf (rxStep conf q event) := by
  obtain ⟨kept, sound⟩ := good
  have after := kept.moves _ _ (rxStep_moves q event kept)
  obtain ⟨unmapped, kicks⟩ := (sound_iff q kept).mp sound
  constructor
  · intro idle
    obtain ⟨same, same'⟩ := step_idle q event kept idle
    exact ⟨after, (sound_iff _ after).mpr ⟨same.trans unmapped, same'.trans kicks⟩⟩
  · rintro ⟨-, still⟩
    by_contra busy
    obtain ⟨unmapped', kicks'⟩ := (sound_iff _ after).mp still
    rcases step_touched q event kept busy with ended | written
    · exact ended unmapped'
    · exact written kicks'

/-- In every run the queue is in order; and buffers are unmapped, and indices written, as they
should be exactly in the runs that do neither. -/
theorem rx_sound_iff (conf : RxConf) (supplies : List Supply) (events : List RxEvent) :
    (∀ early late, events = early ++ late →
        InOrder conf (run (rxStep conf) (woifQInit conf supplies) early)) ∧
      (Along (rxStep conf) (Idle conf) (woifQInit conf supplies) events ↔
        ∀ early late, events = early ++ late →
          RxSound conf (run (rxStep conf) (woifQInit conf supplies) early)) := by
  refine ⟨fun early _ _ => (kept_run supplies early).inOrder, ?_⟩
  have start : RxSound conf (woifQInit conf supplies) :=
    (sound_iff _ (kept_init supplies)).mpr (fill_untouched supplies _)
  rw [along_iff_prefixes (rxStep conf) (Idle conf) _ step_exact _ events
    ⟨kept_init supplies, start⟩]
  constructor
  · exact fun all early late split => (all early late split).2
  · exact fun all early late split => ⟨kept_run supplies early, all early late split⟩

end Steps

theorem woRing_dims : 0 < 256 ∧ 256 ≤ 2 ^ 16 ∧ 0 < 320 ∧ 320 ≤ 1504 := by decide

/-- `MTK_WED_WO_RING_SIZE` buffers of `MTK_WED_WO_CMD_LEN` bytes -/
def woRing : RxConf where
  ndesc := 256
  bufSize := 1504
  overhead := 320
  ndesc_pos := woRing_dims.1
  ndesc_le := woRing_dims.2.1
  overhead_pos := woRing_dims.2.2.1
  overhead_le := woRing_dims.2.2.2

def supplied (buffers : Nat) : List Supply :=
  (List.range buffers).map fun i => .mapped (BitVec.ofNat 32 (2048 * i))

/-- A poll that finds the slot 1 completed if `done`, and memory for one more buffer. -/
def onePoll (done : Bool) : RxEvent :=
  .poll 64 fun call =>
    { rounds := fun pass =>
        { completions := if done && call == 0 && pass == 0 then [⟨1, 0x40200000, 0⟩] else []
          built := true, kept := true }
      supplies := if call = 0 then [.mapped 0x100000] else [] }

/-- One slot of the ring was left empty: its refill wraps the head to 0 and writes -1; and a
buffer that is received is unmapped with 1184 bytes of the 1504 that were mapped. -/
theorem refill_wraps_and_receive_unmaps_short :
    ¬ RxSound woRing (run (rxStep woRing) (woifQInit woRing (supplied 255)) [onePoll false]) ∧
      ¬ RxSound woRing (run (rxStep woRing) (woifQInit woRing (supplied 256)) [onePoll true]) := by
  constructor
  · intro sound
    have written : (run (rxStep woRing) (woifQInit woRing (supplied 255)) [onePoll false]).kicks =
        [⟨0xffffffff, 0⟩] := by decide +kernel
    have kicked := (sound.kicked ⟨0xffffffff, 0⟩ (by simp [written])).1
    exact absurd kicked (by decide)
  · intro sound
    have ended : (run (rxStep woRing) (woifQInit woRing (supplied 256)) [onePoll true]).unmapped =
        [⟨0, 0, 1184⟩] := by decide +kernel
    have mapped := sound.unmapped ⟨0, 0, 1184⟩ (by simp [ended])
    exact absurd mapped (by decide +kernel)

end Filogic.Wed
