import Filogic.Lib.Access
import Filogic.Lib.LittleEndian
import Filogic.Wed.RxQueue

/-! What the parsers of `mtk_wed_mcu.c` read of a message of the WED firmware: the check of its header,
`mtk_wed_mcu_rx_unsolicited_event` and `wo_mcu_parse_response`. -/

namespace Filogic.Wed.Parse
open Lib

/-- `MTK_WED_WO_CMD_LEN`, the size of the buffers that messages are received in -/
def mtkWedWoCmdLen : Nat := 1504

/-- `sizeof(struct wed_cmd_hdr)`, with the offsets of its fields below -/
def hdrSize : Nat := 32

/-- `sizeof(struct wed_wo_log)` -/
def logSize : Nat := 16

/-- `sizeof(struct mtk_wed_wo_rx_stats)` -/
def rxStatsSize : Nat := 20

def woEvtLogDump : Nat := 1
def woEvtProfiling : Nat := 2
def woEvtRxcntInfo : Nat := 3
def mtkWedWoCmdRxcntInfo : Nat := 22

/-- A received message: the memory from the start of its buffer on, and the word of the descriptor
that holds its length. -/
structure Skb where
  memory : List UInt8
  ctrl : BitVec 32
  mapped : mtkWedWoCmdLen ≤ memory.length

/-- `skb->len`, after `mtk_wed_wo_rx_process` -/
def Skb.len (skb : Skb) : Nat := getLen0 skb.ctrl

/-- The number in some bytes of the message -/
def Skb.field (skb : Skb) (a : Access) : Nat := ofLe ((skb.memory.drop a.start).take a.len)

def ver : Access := ⟨0, 1⟩
def cmdId : Access := ⟨1, 1⟩
def length : Access := ⟨2, 2⟩
def uniId : Access := ⟨4, 2⟩
def flag : Access := ⟨6, 2⟩

/-- The counter in front of the records -/
def count : Access := ⟨hdrSize, 4⟩

section Code

/-- `mtk_wed_mcu_cmd_sanity_check`, with what it reads -/
def mtkWedMcuCmdSanityCheck (skb : Skb) : List Access × Int :=
  if skb.field ver ≠ 0 then ([ver], -4)
  else if skb.len < hdrSize then ([ver], -4)
  else if skb.len ≠ skb.field length then ([ver, length], -4)
  else ([ver, length], 0)

/-- The loop over the counters' records, which both parsers have; a record that is handed to
`update_wo_rx_stats` is read as a whole. -/
def updateWoRxStats (callback : Bool) (skb : Skb) : List Access :=
  count :: if callback then row (hdrSize + 4) rxStatsSize (skb.field count) else []

/-- `mtk_wed_mcu_rx_unsolicited_event` -/
def mtkWedMcuRxUnsolicitedEvent (callback : Bool) (skb : Skb) : List Access :=
  let msgLen := (skb.len - hdrSize) % 2 ^ 16
  cmdId ::
    if skb.field cmdId = woEvtLogDump then [stringAt 0 skb.memory hdrSize]
    else if skb.field cmdId = woEvtProfiling then row hdrSize logSize (msgLen / logSize)
    else if skb.field cmdId = woEvtRxcntInfo then updateWoRxStats callback skb
    else []

/-- `wo_mcu_parse_response`, for the command and the number that a caller waits with -/
def woMcuParseResponse (callback : Bool) (cmd seq : Nat) (skb : Skb) : List Access :=
  uniId ::
    if seq ≠ skb.field uniId then []
    else if cmd = mtkWedWoCmdRxcntInfo then updateWoRxStats callback skb
    else []

/-- `woif_q_rx_skb`, and for a response the parser that it is queued for -/
def woifQRxSkb (callback : Bool) (cmd seq : Nat) (skb : Skb) : List Access :=
  let checked := mtkWedMcuCmdSanityCheck skb
  if checked.2 ≠ 0 then checked.1
  else checked.1 ++ flag ::
    if skb.field flag % 2 = 1 then woMcuParseResponse callback cmd seq skb
    else mtkWedMcuRxUnsolicitedEvent callback skb

end Code

section Spec

/-- The bytes that were received: as many as the descriptor says, and no more than the buffer has. -/
def Skb.size (skb : Skb) : Nat := min skb.len mtkWedWoCmdLen

/-- The header is read only of a message that has one, and every byte read was received; so a record
that is taken is there as a whole. -/
structure Bounded (skb : Skb) (reads : List Access) : Prop where
  header : (∃ a ∈ reads, a.start < hdrSize) → hdrSize ≤ skb.len
  inside : ∀ a ∈ reads, a.Within skb.size

/-- The counter is there, and as many records as it says where they are handed on. -/
def StatsFit (callback : Bool) (skb : Skb) : Prop :=
  hdrSize + 4 ≤ skb.size ∧
    (callback = true → hdrSize + 4 + rxStatsSize * skb.field count ≤ skb.size)

/-- The payload that is parsed ends inside the message. -/
def PayloadFits (callback : Bool) (cmd seq : Nat) (skb : Skb) : Prop :=
  if skb.field flag % 2 = 1 then
    seq = skb.field uniId → cmd = mtkWedWoCmdRxcntInfo → StatsFit callback skb
  else
    (skb.field cmdId = woEvtLogDump → 0 ∈ (skb.memory.take skb.size).drop hdrSize) ∧
    (skb.field cmdId = woEvtProfiling →
      hdrSize + logSize * ((skb.len - hdrSize) / logSize) ≤ skb.size) ∧
    (skb.field cmdId = woEvtRxcntInfo → StatsFit callback skb)

/-- The message has a header, and where that is accepted its payload fits. -/
def Fits (callback : Bool) (cmd seq : Nat) (skb : Skb) : Prop :=
  hdrSize ≤ skb.len ∧
    (skb.field ver = 0 → skb.len = skb.field length → PayloadFits callback cmd seq skb)

end Spec

section Reads

variable {callback : Bool} {cmd seq : Nat} {skb : Skb}

/-- A list of reads lies inside. -/
def Inside (skb : Skb) (reads : List Access) : Prop := ∀ a ∈ reads, a.Within skb.size

theorem len_lt (skb : Skb) : skb.len < 2 ^ 14 := by
  unfold Skb.len getLen0
  rw [BitVec.toNat_ushiftRight, Nat.shiftRight_eq_div_pow]
  have le : (skb.ctrl &&& 0x3fff0000).toNat ≤ 0x3fff0000 := by
    rw [BitVec.toNat_and]
    exact Nat.and_le_right
  omega

theorem size_le (skb : Skb) : skb.size ≤ skb.memory.length :=
  (Nat.min_le_right _ _).trans skb.mapped

theorem header_inside (whole : hdrSize ≤ skb.len) (a : Access) (field : a.start + a.len ≤ hdrSize) :
    a.Within skb.size :=
  field.trans (Nat.le_min.mpr ⟨whole, by decide⟩)

theorem stats_inside : Inside skb (updateWoRxStats callback skb) ↔ StatsFit callback skb := by
  unfold Inside updateWoRxStats StatsFit
  rw [List.forall_mem_cons]
  refine and_congr_right fun counted => ?_
  cases callback with
  | false => simp
  | true =>
    rw [if_pos rfl, row_within]
    have there : hdrSize + 4 ≤ skb.size := counted
    constructor
    · rintro (none_ | fits) -
      · rwa [none_, Nat.mul_zero]
      · exact fits
    · exact fun fits => .inr (fits rfl)

theorem event_inside (whole : hdrSize ≤ skb.len) (other : skb.field flag % 2 ≠ 1) :
    Inside skb (mtkWedMcuRxUnsolicitedEvent callback skb) ↔ PayloadFits callback cmd seq skb := by
  have short : (skb.len - hdrSize) % 2 ^ 16 = skb.len - hdrSize := by
    have below := len_lt skb
    omega
  have start : hdrSize ≤ skb.size := Nat.le_min.mpr ⟨whole, by decide⟩
  unfold PayloadFits mtkWedMcuRxUnsolicitedEvent
  dsimp only
  rw [if_neg other, short]
  unfold Inside
  rw [List.forall_mem_cons, and_iff_right (header_inside whole cmdId (by decide))]
  by_cases log : skb.field cmdId = woEvtLogDump
  · rw [if_pos log, List.forall_mem_singleton, stringAt_within 0 _ _ _ start (size_le skb), log]
    simp [woEvtLogDump, woEvtProfiling, woEvtRxcntInfo]
  rw [if_neg log]
  by_cases profiling : skb.field cmdId = woEvtProfiling
  · rw [if_pos profiling, row_within, profiling]
    simp only [woEvtLogDump, woEvtProfiling, woEvtRxcntInfo]
    constructor
    · rintro (none_ | fits)
      · exact ⟨by simp, fun _ => by rwa [none_, Nat.mul_zero], by simp⟩
      · exact ⟨by simp, fun _ => fits, by simp⟩
    · exact fun fits => .inr (fits.2.1 trivial)
  rw [if_neg profiling]
  by_cases rxcnt : skb.field cmdId = woEvtRxcntInfo
  · rw [if_pos rxcnt]
    exact stats_inside.trans ⟨fun fits => ⟨fun same => absurd same log,
      fun same => absurd same profiling, fun _ => fits⟩, fun fits => fits.2.2 rxcnt⟩
  · rw [if_neg rxcnt]
    simp [log, profiling, rxcnt]

theorem response_inside (whole : hdrSize ≤ skb.len) (response : skb.field flag % 2 = 1) :
    Inside skb (woMcuParseResponse callback cmd seq skb) ↔ PayloadFits callback cmd seq skb := by
  unfold PayloadFits woMcuParseResponse
  rw [if_pos response]
  unfold Inside
  rw [List.forall_mem_cons, and_iff_right (header_inside whole uniId (by decide))]
  by_cases mine : seq = skb.field uniId
  · rw [if_neg (not_not.mpr mine)]
    by_cases rxcnt : cmd = mtkWedWoCmdRxcntInfo
    · rw [if_pos rxcnt]
      exact stats_inside.trans ⟨fun fits _ _ => fits, fun fits => fits mine rxcnt⟩
    · rw [if_neg rxcnt]
      simp [rxcnt]
  · rw [if_pos mine]
    simp [mine]

/-- The check reads the version first, and fields of the header only. -/
theorem check_reads (skb : Skb) : ver ∈ (mtkWedMcuCmdSanityCheck skb).1 ∧
    ∀ a ∈ (mtkWedMcuCmdSanityCheck skb).1, a.start + a.len ≤ hdrSize := by
  unfold mtkWedMcuCmdSanityCheck
  split_ifs <;> simp [ver, length, hdrSize]

theorem check_passes (skb : Skb) : (mtkWedMcuCmdSanityCheck skb).2 = 0 ↔
    skb.field ver = 0 ∧ hdrSize ≤ skb.len ∧ skb.len = skb.field length := by
  unfold mtkWedMcuCmdSanityCheck
  split_ifs with version short declared
  · simp [version]
  · simp [Nat.not_le_of_lt short]
  · simp [declared]
  · simpa using ⟨not_not.mp version, Nat.le_of_not_lt short, not_not.mp declared⟩

theorem receive_inside (whole : hdrSize ≤ skb.len) :
    Inside skb (woifQRxSkb callback cmd seq skb) ↔
      (skb.field ver = 0 → skb.len = skb.field length → PayloadFits callback cmd seq skb) := by
  have checked : Inside skb (mtkWedMcuCmdSanityCheck skb).1 := fun a member =>
    header_inside whole a ((check_reads skb).2 a member)
  unfold woifQRxSkb
  dsimp only
  by_cases passes : (mtkWedMcuCmdSanityCheck skb).2 = 0
  · obtain ⟨version, -, declared⟩ := (check_passes skb).mp passes
    have payload : (skb.field ver = 0 → skb.len = skb.field length →
        PayloadFits callback cmd seq skb) ↔ PayloadFits callback cmd seq skb :=
      ⟨fun fits => fits version declared, fun fits _ _ => fits⟩
    rw [if_neg (not_not.mpr passes), payload]
    unfold Inside at checked ⊢
    rw [List.forall_mem_append, and_iff_right checked, List.forall_mem_cons,
      and_iff_right (header_inside whole flag (by decide))]
    split_ifs with response
    · exact response_inside whole response
    · exact event_inside whole response
  · rw [if_pos passes]
    refine ⟨fun _ version declared => ?_, fun _ => checked⟩
    exact absurd ((check_passes skb).mpr ⟨version, whole, declared⟩) passes

end Reads

/-- What is read of a message lies inside just when the message has a header and, if that is
accepted, its payload ends where it should. -/
theorem reads_bounded_iff (callback : Bool) (cmd seq : Nat) (skb : Skb) :
    Bounded skb (woifQRxSkb callback cmd seq skb) ↔ Fits callback cmd seq skb := by
  have first : ver ∈ woifQRxSkb callback cmd seq skb := by
    unfold woifQRxSkb
    dsimp only
    split_ifs
    · exact (check_reads skb).1
    · exact List.mem_append_left _ (check_reads skb).1
    · exact List.mem_append_left _ (check_reads skb).1
  constructor
  · intro bounded
    have whole := bounded.header ⟨ver, first, by decide⟩
    exact ⟨whole, (receive_inside whole).mp bounded.inside⟩
  · intro fits
    exact ⟨fun _ => fits.1, (receive_inside fits.1).mpr fits.2⟩

/-- An event with one record announced and none there -/
def emptyCounters : Skb where
  memory := [0, 3, 36, 0, 0, 0, 0, 0] ++ List.replicate 24 0 ++ [1, 0, 0, 0] ++
    List.replicate 1468 0
  ctrl := 36 <<< 16
  mapped := by decide +kernel

theorem record_behind_message : ¬ ∀ (callback : Bool) (cmd seq : Nat) (skb : Skb),
    Bounded skb (woifQRxSkb callback cmd seq skb) := by
  intro all
  have bounded := all true 0 0 emptyCounters
  have member : (⟨36, 20⟩ : Access) ∈ woifQRxSkb true 0 0 emptyCounters := by decide +kernel
  exact absurd (bounded.inside _ member) (by decide +kernel)

end Filogic.Wed.Parse
