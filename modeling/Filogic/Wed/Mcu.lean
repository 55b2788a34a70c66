import Filogic.Lib.Runs

/-! The commands to the WED firmware: `mtk_wed_mcu_skb_send_and_get_msg` with `wo_mcu_send_message`
and `wo_mcu_parse_response`, `woif_q_tx_skb` below it, and the way of a response through
`woif_q_rx_skb`. -/

namespace Filogic.Wed
open Lib

/-- `struct wed_cmd_hdr`, as far as it is read. -/
structure WedCmdHdr where
  ver : BitVec 8
  cmdId : BitVec 8
  length : BitVec 16
  uniId : BitVec 16
  flag : BitVec 16
  deriving DecidableEq, Repr

/-- `sizeof(struct wed_cmd_hdr)` -/
def hdrSize : Nat := 32

def warpCmdFlagRsp : BitVec 16 := 1
def warpCmdFlagNeedRsp : BitVec 16 := 2
def warpCmdFlagFromToWo : BitVec 16 := 4

def mtkWedModuleIdWo : Nat := 1

/-- A received message: which buffer it lies in, its length and its header, and the command that
the firmware answers with it, which the code does not see. -/
structure Skb where
  buf : Nat
  len : Nat
  hdr : WedCmdHdr
  answers : Option Nat
  deriving DecidableEq, Repr

/-- `wo->q_tx`; `locked` tells that its lock is held while no caller is inside. -/
structure TxQueue where
  head : BitVec 16
  tail : BitVec 16
  ndesc : Nat
  dmaLen : Nat → Nat
  locked : Bool

structure Wo where
  msgSeq : BitVec 32
  timeout : Nat
  resQ : List Skb
  qTx : TxQueue

/-- `woif_q_tx_skb`, where `dmaIdx` is what the register holds; nothing is returned by a caller
that spins on the lock. -/
def woifQTxSkb (q : TxQueue) (dmaIdx : BitVec 32) (len : Nat) : TxQueue × Option Int :=
  if q.locked then (q, none)
  else
    let q := { q with
      tail := dmaIdx.setWidth 16, head := BitVec.ofNat 16 ((q.head.toNat + 1) % q.ndesc) }
    -- both exits to `error` pass over the unlock
    if q.tail = q.head then ({ q with locked := true }, some (-12))
    else if q.dmaLen q.head.toNat < len then ({ q with locked := true }, some (-12))
    else (q, some 0)

/-- What `wo_mcu_send_message` leaves: `ret` is nothing when it does not return. -/
structure Sending where
  wo : Wo
  hdr : WedCmdHdr
  seq : BitVec 8
  ret : Option Int

/-- `wo_mcu_send_message` for a message with `len` bytes behind its header, whose memory
`mtk_wed_mcu_msg_alloc` has cleared. -/
def woMcuSendMessage (hz : Nat) (wo : Wo) (toId cmd len : Nat) (waitResp : Bool)
    (dmaIdx : BitVec 32) : Sending :=
  let seq : BitVec 8 := if waitResp then wo.msgSeq.setWidth 8 else 0
  let hdr : WedCmdHdr :=
    { ver := 0, cmdId := BitVec.ofNat 8 cmd, length := BitVec.ofNat 16 (len + hdrSize)
      uniId := seq.setWidth 16
      flag := (if toId = mtkWedModuleIdWo then warpCmdFlagFromToWo else 0) |||
        (if waitResp then warpCmdFlagNeedRsp else 0) }
  let sent := woifQTxSkb wo.qTx dmaIdx (len + hdrSize)
  { wo := { wo with
      timeout := 20 * hz, msgSeq := if waitResp then wo.msgSeq + 1 else wo.msgSeq, qTx := sent.1 }
    hdr := hdr, seq := seq, ret := sent.2 }

/-- `wo_mcu_parse_response`: `-ETIMEDOUT`, `-EAGAIN` or 0 -/
def woMcuParseResponse (skb : Option Skb) (seq : BitVec 8) : Int :=
  match skb with
  | none => -110
  | some skb => if seq.setWidth 16 = skb.hdr.uniId then 0 else -11

/-- `mtk_wed_mcu_cmd_sanity_check` -/
def mtkWedMcuCmdSanityCheck (skb : Skb) : Int :=
  if skb.hdr.ver ≠ 0 then -4
  else if skb.len < hdrSize then -4
  else if skb.len ≠ skb.hdr.length.toNat then -4
  else 0

/-- `woif_q_rx_skb`, and whether it frees the message: `mtk_wed_mcu_rx_unsolicited_event` does so
too. -/
def woifQRxSkb (wo : Wo) (skb : Skb) : Wo × Bool :=
  if mtkWedMcuCmdSanityCheck skb ≠ 0 then (wo, true)
  else if skb.hdr.flag &&& warpCmdFlagRsp ≠ 0 then ({ wo with resQ := wo.resQ ++ [skb] }, false)
  else (wo, true)

/-- A call in the loop of `mtk_wed_mcu_skb_send_and_get_msg`, counted by `command`; it is `asleep`
once `mtk_wed_mcu_get_response` has found that there is time left. -/
structure Waiter where
  command : Nat
  seq : BitVec 8
  expires : Nat
  retSkb : Bool
  asleep : Bool
  deriving DecidableEq, Repr

/-- Who holds `wo->mcu.mutex`. -/
inductive Holder where
  | free | waiting (w : Waiter) | spinning
  deriving DecidableEq, Repr

/-- A call that has returned; `reply` is the response that its last round took. -/
structure Call where
  command : Nat
  waitResp : Bool
  seq : BitVec 8
  ret : Int
  reply : Option Skb
  deriving DecidableEq, Repr

/-- The driver and the firmware: the headers of the commands in the order of their calls, if
they were handed to the firmware; the calls that have returned; how many messages have arrived,
which of them were taken from the queue, and which were freed or handed to a caller. -/
structure Mcu where
  wo : Wo
  jiffies : Nat
  holder : Holder
  sent : List (Option WedCmdHdr)
  calls : List Call
  arrived : Nat
  taken : List Nat
  freed : List Nat
  handed : List Nat

/-- What a message of the firmware may hold. -/
structure Message where
  len : Nat
  ver : BitVec 8
  cmdId : BitVec 8
  length : BitVec 16
  flag : BitVec 16

inductive Event where
  | send (toId cmd len : Nat) (waitResp retSkb : Bool) (dmaIdx : BitVec 32)
  | respond (command : Nat) (m : Message)
  | notify (uniId : BitVec 16) (m : Message)
  | wake
  | tick

/-- The first part of `mtk_wed_mcu_skb_send_and_get_msg`, with the mutex taken. -/
def Mcu.send (hz : Nat) (s : Mcu) (toId cmd len : Nat) (waitResp retSkb : Bool)
    (dmaIdx : BitVec 32) : Mcu :=
  let sending := woMcuSendMessage hz s.wo toId cmd len waitResp dmaIdx
  let s := { s with wo := sending.wo }
  let command := s.sent.length
  match sending.ret with
  | none => { s with sent := s.sent ++ [none], holder := .spinning }
  | some ret =>
    if ret < 0 then
      { s with
        sent := s.sent ++ [none]
        calls := s.calls ++ [⟨command, waitResp, sending.seq, ret, none⟩] }
    else if !waitResp then
      { s with
        sent := s.sent ++ [some sending.hdr]
        calls := s.calls ++ [⟨command, waitResp, sending.seq, 0, none⟩] }
    else
      { s with
        sent := s.sent ++ [some sending.hdr]
        holder := .waiting
          { command := command, seq := sending.seq, expires := s.jiffies + sending.wo.timeout
            retSkb := retSkb, asleep := false } }

/-- The rest of a round of the loop, once `mtk_wed_mcu_get_response` has returned. -/
def Mcu.parse (s : Mcu) (w : Waiter) (skb : Option Skb) : Mcu :=
  let ret := woMcuParseResponse skb w.seq
  let s := { s with taken := s.taken ++ (skb.map Skb.buf).toList }
  let s :=
    if ret = 0 ∧ w.retSkb then { s with handed := s.handed ++ (skb.map Skb.buf).toList }
    else { s with freed := s.freed ++ (skb.map Skb.buf).toList }
  if ret = -11 then { s with holder := .waiting { w with asleep := false } }
  else
    { s with
      holder := .free, calls := s.calls ++ [⟨w.command, true, w.seq, ret, skb⟩] }

/-- The waiting call goes on as far as it can. -/
def Mcu.wake (s : Mcu) (w : Waiter) : Mcu :=
  if !w.asleep then
    if s.jiffies < w.expires then { s with holder := .waiting { w with asleep := true } }
    else s.parse w none
  else
    match s.wo.resQ with
    | [] => if s.jiffies < w.expires then s else s.parse w none
    | skb :: rest => { s with wo := { s.wo with resQ := rest } }.parse w (some skb)

/-- A message arrives. -/
def Mcu.arrive (s : Mcu) (skb : Skb) : Mcu :=
  let received := woifQRxSkb s.wo skb
  { s with
    wo := received.1, arrived := s.arrived + 1
    freed := if received.2 then s.freed ++ [skb.buf] else s.freed }

/-- The message comes in a new buffer. -/
def Mcu.receive (s : Mcu) (m : Message) (uniId flag : BitVec 16) (answers : Option Nat) : Mcu :=
  s.arrive
    { buf := s.arrived, len := m.len, answers := answers
      hdr := { ver := m.ver, cmdId := m.cmdId, length := m.length, uniId := uniId, flag := flag } }

/-- The firmware answers a command that it was handed, with the number in its header and as often
as it likes; a message that answers none is not marked as a response. -/
def step (hz : Nat) (s : Mcu) : Event → Mcu
  | .send toId cmd len waitResp retSkb dmaIdx =>
    if s.holder = .free then s.send hz toId cmd len waitResp retSkb dmaIdx else s
  | .respond command m =>
    match s.sent[command]? with
    | some (some hdr) => s.receive m hdr.uniId m.flag (some command)
    | _ => s
  | .notify uniId m => s.receive m uniId (m.flag &&& ~~~warpCmdFlagRsp) none
  | .wake =>
    match s.holder with
    | .waiting w => s.wake w
    | _ => s
  | .tick => { s with jiffies := s.jiffies + 1 }

/-- Before the first command, with a transmit queue whose lock `woif_q_alloc` has set up. -/
def Mcu.initial (qTx : TxQueue) (jiffies : Nat) : Mcu :=
  { wo := { msgSeq := 0, timeout := 0, resQ := [], qTx := { qTx with locked := false } }
    jiffies := jiffies, holder := .free, sent := [], calls := [], arrived := 0, taken := []
    freed := [], handed := [] }

/-- A waiting call returns 0 with a response to its own command under its own number, and else an
error. -/
structure Call.Settled (call : Call) : Prop where
  own : call.waitResp → call.ret = 0 → ∃ skb, call.reply = some skb ∧
    skb.hdr.uniId = call.seq.setWidth 16 ∧ skb.answers = some call.command
  error : call.waitResp → call.ret ≠ 0 → call.ret < 0

/-- The calls that have returned are settled, a call does return once its time is over, and each
message that was taken from the queue was freed once or handed to one caller. -/
structure Matched (hz : Nat) (s : Mcu) : Prop where
  settled : ∀ call ∈ s.calls, call.Settled
  returns : s.holder ≠ .spinning
  ends : ∀ w, s.holder = .waiting w → w.expires ≤ s.jiffies →
    (run (step hz) s [.wake, .wake]).holder = .free
  once : ∀ buf ∈ s.taken, s.freed.count buf + s.handed.count buf = 1

/-- No call follows one that failed in the transmit queue; and a waiting call finds no response
with its number in the queue, and no other command's response with it arrives while it waits. -/
def Told (s : Mcu) : Event → Prop
  | .send _ _ _ waitResp _ _ =>
    s.holder = .free → s.wo.qTx.locked = false ∧
      (waitResp → ∀ skb ∈ s.wo.resQ, skb.hdr.uniId ≠ (s.wo.msgSeq.setWidth 8).setWidth 16)
  | .respond command _ =>
    ∀ w hdr, s.holder = .waiting w → s.sent[command]? = some (some hdr) →
      command = w.command ∨ hdr.uniId ≠ w.seq.setWidth 16
  | _ => True

theorem woifQTxSkb_returns {q : TxQueue} (unlocked : q.locked = false) (dmaIdx : BitVec 32)
    (len : Nat) : ∃ ret, (woifQTxSkb q dmaIdx len).2 = some ret ∧ (ret = 0 ∨ ret < 0) := by
  unfold woifQTxSkb
  rw [if_neg (by simp [unlocked])]
  dsimp only
  split_ifs
  · exact ⟨-12, rfl, Or.inr (by decide)⟩
  · exact ⟨-12, rfl, Or.inr (by decide)⟩
  · exact ⟨0, rfl, Or.inl rfl⟩

theorem woMcuParseResponse_zero {skb : Option Skb} {seq : BitVec 8}
    (zero : woMcuParseResponse skb seq = 0) :
    ∃ response, skb = some response ∧ response.hdr.uniId = seq.setWidth 16 := by
  cases skb with
  | none => exact absurd zero (show (-110 : Int) ≠ 0 by decide)
  | some response =>
    refine ⟨response, rfl, ?_⟩
    by_contra other
    rw [woMcuParseResponse, if_neg (fun same => other same.symm)] at zero
    exact absurd zero (by decide)

theorem woMcuParseResponse_error {skb : Option Skb} {seq : BitVec 8}
    (error : woMcuParseResponse skb seq ≠ 0) : woMcuParseResponse skb seq < 0 := by
  cases skb with
  | none => exact (show (-110 : Int) < 0 by decide)
  | some response =>
    by_cases same : seq.setWidth 16 = response.hdr.uniId
    · exact absurd (if_pos same) error
    · rw [woMcuParseResponse, if_neg same]
      decide

/-- What a guarded run keeps, with `hand` for the message that the waiting call has just taken:
every message that has arrived is freed, handed over, in the hand or in the queue. -/
structure Inv (s : Mcu) (hand : List Nat) : Prop where
  settled : ∀ call ∈ s.calls, call.Settled
  returns : s.holder ≠ .spinning
  queue : ∀ w, s.holder = .waiting w → ∀ skb ∈ s.wo.resQ,
    skb.hdr.uniId = w.seq.setWidth 16 → skb.answers = some w.command
  placed : (s.freed ++ s.handed ++ hand ++ s.wo.resQ.map Skb.buf).Perm (List.range s.arrived)
  gone : ∀ buf ∈ s.taken, buf < s.arrived ∧ buf ∉ hand ∧ buf ∉ s.wo.resQ.map Skb.buf

theorem Inv.once {s : Mcu} (inv : Inv s []) (buf : Nat) (mem : buf ∈ s.taken) :
    s.freed.count buf + s.handed.count buf = 1 := by
  obtain ⟨small, -, outside⟩ := inv.gone buf mem
  have total := inv.placed.count_eq buf
  rw [List.count_eq_one_of_mem List.nodup_range (List.mem_range.mpr small)] at total
  simpa [List.count_append, List.count_eq_zero_of_not_mem outside] using total

theorem inv_initial (qTx : TxQueue) (jiffies : Nat) : Inv (Mcu.initial qTx jiffies) [] where
  settled := by simp [Mcu.initial]
  returns := by simp [Mcu.initial]
  queue := by simp [Mcu.initial]
  placed := by simp [Mcu.initial]
  gone := by simp [Mcu.initial]

/-- A round by what it changes: a message is kept for the caller or freed, and the call goes to its
next round or returns. -/
theorem parse_eq (s : Mcu) (w : Waiter) (skb : Option Skb) :
    s.parse w skb =
      let ret := woMcuParseResponse skb w.seq
      let hand := (skb.map Skb.buf).toList
      { s with
        taken := s.taken ++ hand
        freed := if ret = 0 ∧ w.retSkb then s.freed else s.freed ++ hand
        handed := if ret = 0 ∧ w.retSkb then s.handed ++ hand else s.handed
        holder := if ret = -11 then .waiting { w with asleep := false } else .free
        calls :=
          if ret = -11 then s.calls else s.calls ++ [⟨w.command, true, w.seq, ret, skb⟩] } := by
  unfold Mcu.parse
  dsimp only
  split_ifs <;> rfl

/-- The end of a round: a response with the number of the call is one to its command. -/
theorem parse_keeps {s : Mcu} {w : Waiter} {skb : Option Skb}
    (inv : Inv s (skb.map Skb.buf).toList) (held : s.holder = .waiting w)
    (mine : ∀ response, skb = some response → response.hdr.uniId = w.seq.setWidth 16 →
      response.answers = some w.command) : Inv (s.parse w skb) [] := by
  have returned : (⟨w.command, true, w.seq, woMcuParseResponse skb w.seq, skb⟩ : Call).Settled := by
    refine ⟨fun _ zero => ?_, fun _ failed => woMcuParseResponse_error failed⟩
    obtain ⟨response, rfl, number⟩ := woMcuParseResponse_zero zero
    exact ⟨response, rfl, number, mine response rfl number⟩
  rw [parse_eq]
  refine ⟨?_, ?_, ?_, ?_, ?_⟩ <;> dsimp only
  · split_ifs
    · exact inv.settled
    · intro call mem
      rcases List.mem_append.mp mem with old | new
      · exact inv.settled call old
      · exact List.mem_singleton.mp new ▸ returned
  · split_ifs <;> simp
  · split_ifs
    · rintro _ ⟨⟩
      exact inv.queue w held
    · simp
  · refine List.Perm.trans ?_ inv.placed
    rw [List.append_nil]
    apply List.Perm.append_right
    split_ifs
    · rw [List.append_assoc]
    · rw [List.append_assoc, List.append_assoc]
      exact List.perm_append_comm.append_left s.freed
  · intro buf mem
    rcases List.mem_append.mp mem with old | new
    · exact ⟨(inv.gone buf old).1, List.not_mem_nil, (inv.gone buf old).2.2⟩
    · have nodup := inv.placed.nodup_iff.mpr List.nodup_range
      refine ⟨List.mem_range.mp (inv.placed.subset (by simp [new])), List.not_mem_nil, ?_⟩
      intro queued
      exact (List.nodup_append.mp nodup).2.2 buf (by simp [new]) buf queued rfl

theorem wake_keeps {s : Mcu} {w : Waiter} (inv : Inv s []) (held : s.holder = .waiting w) :
    Inv (s.wake w) [] := by
  unfold Mcu.wake
  have expire : Inv (s.parse w none) [] := parse_keeps inv held (by simp)
  by_cases asleep : w.asleep
  · rw [if_neg (by simp [asleep])]
    cases queue : s.wo.resQ with
    | nil =>
      dsimp only
      split_ifs
      · exact inv
      · exact expire
    | cons skb rest =>
      have taken : Inv { s with wo := { s.wo with resQ := rest } }
          ((some skb).map Skb.buf).toList := by
        refine ⟨inv.settled, inv.returns, ?_, ?_, ?_⟩
        · intro w' held' later mem
          exact inv.queue w' held' later (queue ▸ List.mem_cons_of_mem _ mem)
        · have placed := inv.placed
          rw [queue] at placed
          simpa using placed
        · intro buf mem
          have outside := (inv.gone buf mem).2.2
          rw [queue] at outside
          simp only [List.map_cons, List.mem_cons, not_or] at outside
          exact ⟨(inv.gone buf mem).1, by simpa using outside.1, outside.2⟩
      refine parse_keeps taken held ?_
      rintro _ ⟨⟩
      exact inv.queue w held skb (queue ▸ List.mem_cons_self)
  · rw [if_pos (by simp [asleep])]
    split_ifs
    · refine ⟨inv.settled, by simp, ?_, inv.placed, inv.gone⟩
      rintro _ ⟨⟩
      exact inv.queue w held
    · exact expire

/-- A message is freed at once, or it is a response and joins the queue. -/
theorem woifQRxSkb_cases (wo : Wo) (skb : Skb) :
    woifQRxSkb wo skb = (wo, true) ∨
      skb.hdr.flag &&& warpCmdFlagRsp ≠ 0 ∧
        woifQRxSkb wo skb = ({ wo with resQ := wo.resQ ++ [skb] }, false) := by
  unfold woifQRxSkb
  split_ifs with bad response
  · exact Or.inl rfl
  · exact Or.inr ⟨response, rfl⟩
  · exact Or.inl rfl

theorem arrive_keeps {s : Mcu} {skb : Skb} (inv : Inv s []) (new : skb.buf = s.arrived)
    (mine : skb.hdr.flag &&& warpCmdFlagRsp ≠ 0 → ∀ w, s.holder = .waiting w →
      skb.hdr.uniId = w.seq.setWidth 16 → skb.answers = some w.command) :
    Inv (s.arrive skb) [] := by
  unfold Mcu.arrive
  rcases woifQRxSkb_cases s.wo skb with dropped | ⟨response, kept⟩
  · rw [dropped]
    refine ⟨inv.settled, inv.returns, inv.queue, ?_, ?_⟩ <;> dsimp only
    · rw [if_pos rfl, List.range_succ, new]
      refine List.Perm.trans ?_ (inv.placed.append_right [s.arrived])
      simp only [List.append_nil, List.append_assoc]
      apply List.Perm.append_left
      rw [← List.append_assoc s.handed]
      exact List.perm_append_comm
    · intro buf mem
      obtain ⟨small, outside⟩ := inv.gone buf mem
      exact ⟨Nat.lt_succ_of_lt small, outside⟩
  · rw [kept]
    refine ⟨inv.settled, inv.returns, ?_, ?_, ?_⟩ <;> dsimp only
    · intro w held queued mem number
      rcases List.mem_append.mp mem with old | last
      · exact inv.queue w held queued old number
      · rw [List.mem_singleton.mp last] at number ⊢
        exact mine response w held number
    · rw [if_neg (by decide), List.range_succ, List.map_append, ← List.append_assoc]
      exact new ▸ inv.placed.append_right [skb.buf]
    · intro buf mem
      obtain ⟨small, hand, queued⟩ := inv.gone buf mem
      refine ⟨Nat.lt_succ_of_lt small, hand, ?_⟩
      rw [List.map_append, List.mem_append]
      rintro (old | last)
      · exact queued old
      · exact small.ne ((List.mem_singleton.mp last).trans new)

theorem send_keeps (hz : Nat) {s : Mcu} (toId cmd len : Nat) (waitResp retSkb : Bool)
    (dmaIdx : BitVec 32) (inv : Inv s []) (held : s.holder = .free)
    (unlocked : s.wo.qTx.locked = false)
    (unused : waitResp → ∀ skb ∈ s.wo.resQ,
      skb.hdr.uniId ≠ (s.wo.msgSeq.setWidth 8).setWidth 16) :
    Inv (s.send hz toId cmd len waitResp retSkb dmaIdx) [] := by
  obtain ⟨ret, returned, sign⟩ := woifQTxSkb_returns unlocked dmaIdx (len + hdrSize)
  unfold Mcu.send
  have value : (woMcuSendMessage hz s.wo toId cmd len waitResp dmaIdx).ret = some ret := returned
  dsimp only
  rw [value]
  dsimp only
  have settle : ∀ call : Call, call.Settled → ∀ old ∈ s.calls ++ [call], old.Settled := by
    intro call settled old mem
    rcases List.mem_append.mp mem with before | new
    · exact inv.settled old before
    · exact List.mem_singleton.mp new ▸ settled
  rcases sign with rfl | negative
  · rw [if_neg (by decide)]
    cases waitResp with
    | false =>
      refine ⟨settle _ ⟨by simp, by simp⟩, ?_, ?_, inv.placed, inv.gone⟩
      · exact inv.returns
      · intro w waits
        rw [show s.holder = .waiting w from waits] at held
        cases held
    | true =>
      refine ⟨inv.settled, by simp, ?_, inv.placed, inv.gone⟩
      rintro _ ⟨⟩ skb mem number
      exact absurd number (unused rfl skb mem)
  · rw [if_pos negative]
    refine ⟨settle _ ⟨fun _ zero => ?_, fun _ _ => negative⟩, inv.returns, ?_, inv.placed, inv.gone⟩
    · exact absurd zero negative.ne
    · intro w waits
      rw [show s.holder = .waiting w from waits] at held
      cases held

theorem step_keeps (hz : Nat) (s : Mcu) (event : Event) (inv : Inv s []) (told : Told s event) :
    Inv (step hz s event) [] := by
  cases event with
  | send toId cmd len waitResp retSkb dmaIdx =>
    unfold step
    dsimp only
    split_ifs with held
    · exact send_keeps hz toId cmd len waitResp retSkb dmaIdx inv held (told held).1 (told held).2
    · exact inv
  | respond command m =>
    unfold step
    dsimp only
    split
    · rename_i hdr sent
      apply arrive_keeps inv rfl
      intro _ w waits number
      rcases told w hdr waits sent with rfl | other
      · rfl
      · exact absurd number other
    · exact inv
  | notify uniId m =>
    apply arrive_keeps inv rfl
    intro response
    exact absurd (by simp [BitVec.and_assoc]) response
  | wake =>
    unfold step
    dsimp only
    split
    · rename_i w held
      exact wake_keeps inv held
    · exact inv
  | tick => exact ⟨inv.settled, inv.returns, inv.queue, inv.placed, inv.gone⟩

theorem parse_holder (s : Mcu) (w : Waiter) (skb : Option Skb) :
    (s.parse w skb).jiffies = s.jiffies ∧
      ((s.parse w skb).holder = .free ∨
        (s.parse w skb).holder = .waiting { w with asleep := false }) := by
  rw [parse_eq]
  refine ⟨rfl, ?_⟩
  dsimp only
  split_ifs
  · exact Or.inr rfl
  · exact Or.inl rfl

/-- Once its time is over, a call gives up at the head of its loop, or takes one more message and
then does. -/
theorem ends_of_expired (hz : Nat) {s : Mcu} {w : Waiter} (held : s.holder = .waiting w)
    (expired : w.expires ≤ s.jiffies) : (run (step hz) s [.wake, .wake]).holder = .free := by
  have woken : ∀ (s : Mcu) (w : Waiter), s.holder = .waiting w → step hz s .wake = s.wake w := by
    intro s w held
    simp [step, held]
  have rest : ∀ s : Mcu, s.holder = .free → (step hz s .wake).holder = .free := by
    intro s free
    simp [step, free]
  have awake : ∀ (s : Mcu) (w : Waiter), s.holder = .waiting w → w.asleep = false →
      w.expires ≤ s.jiffies → (step hz s .wake).holder = .free := by
    intro s w held awake expired
    rw [woken s w held, Mcu.wake, if_pos (by simp [awake]), if_neg expired.not_gt]
    rfl
  change (step hz (step hz s .wake) .wake).holder = .free
  cases asleep : w.asleep with
  | false => exact rest _ (awake s w held asleep expired)
  | true =>
    rw [woken s w held, Mcu.wake, if_neg (by simp [asleep])]
    cases s.wo.resQ with
    | nil =>
      dsimp only
      rw [if_neg expired.not_gt]
      exact rest _ rfl
    | cons skb left =>
      obtain ⟨jiffies, done | again⟩ :=
        parse_holder { s with wo := { s.wo with resQ := left } } w (some skb)
      · exact rest _ done
      · exact awake _ _ again rfl (le_of_le_of_eq expired jiffies.symm)

theorem matched_of_inv (hz : Nat) {s : Mcu} (inv : Inv s []) : Matched hz s where
  settled := inv.settled
  returns := inv.returns
  ends _ := ends_of_expired hz
  once := inv.once

/-- Every response reaches the call that it is for, and every buffer one owner, as long as no
response to another command with the same eight bits comes before a waiting call. -/
theorem matched_along (hz : Nat) (qTx : TxQueue) (jiffies : Nat) (events : List Event)
    (told : Along (step hz) Told (Mcu.initial qTx jiffies) events) :
    ∀ early late, events = early ++ late →
      Matched hz (run (step hz) (Mcu.initial qTx jiffies) early) := by
  rintro early late rfl
  have guarded := ((along_append _ _ _ early late).mp told).1
  exact matched_of_inv hz
    (run_invariant (step hz) Told (Inv · []) (step_keeps hz) _ _ (inv_initial qTx jiffies) guarded)

/-- `MTK_WED_WO_RING_SIZE` slots of `MTK_WED_WO_CMD_LEN` bytes -/
def woQueue : TxQueue :=
  { head := 0, tail := 0, ndesc := 256, dmaLen := fun _ => 1504, locked := false }

def response : Message := { len := 32, ver := 0, cmdId := 22, length := 32, flag := 1 }

/-- A waiting command that finds the transmit queue empty, and the answer that comes to it. -/
def answered (command answer : Nat) : List Event :=
  [.send 1 22 8 true true (BitVec.ofNat 32 (command % 256)), .respond answer response, .wake, .wake]

theorem answered_matched : Matched 250 (run (step 250) (Mcu.initial woQueue 0) (answered 0 0)) := by
  refine matched_along 250 woQueue 0 (answered 0 0) ?_ (answered 0 0) [] rfl
  refine ⟨fun _ => ⟨rfl, fun _ _ mem => absurd mem List.not_mem_nil⟩, ?_, trivial, trivial, trivial⟩
  intro w hdr held _
  exact Or.inl (congrArg Waiter.command (Holder.waiting.inj held))

/-- After 256 answered commands a second answer to the first one is taken for the next. -/
theorem late_answer_taken :
    ¬ Matched 250 (run (step 250) (Mcu.initial woQueue 0)
      ((List.range 256).flatMap (fun k => answered k k) ++ answered 256 0)) := by
  intro matched
  have last : ((run (step 250) (Mcu.initial woQueue 0)
      ((List.range 256).flatMap (fun k => answered k k) ++ answered 256 0)).calls.getLast?.any fun call =>
        call.waitResp && call.ret = 0 && call.command = 256 &&
          call.reply.bind Skb.answers = some 0) = true := by decide +kernel
  obtain ⟨call, found, right⟩ := (Option.any_eq_true _ _).mp last
  have mem := List.mem_of_getLast? found
  simp only [Bool.and_eq_true, decide_eq_true_eq] at right
  obtain ⟨⟨⟨waits, zero⟩, command⟩, early⟩ := right
  obtain ⟨skb, reply, -, own⟩ := (matched.settled call mem).own waits zero
  rw [reply] at early
  rw [command] at own
  have same : some 0 = some 256 := early.symm.trans own
  exact absurd same (by decide)

end Filogic.Wed
