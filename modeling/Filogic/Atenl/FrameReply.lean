import Filogic.Atenl.FrameBounds

/-! The frames that are answered within the buffer. The data has 1574 bytes behind the headers, but the
handlers take the 2048 bytes that are declared for the bound of their loops. -/

namespace Filogic.Atenl
open Lib

/-- A field of `hdr->data`. -/
def field (m : Bytes) (off len : Nat) : Nat := ofBytes (m.slice (26 + off) len)

section Fits

variable (env : Env) (m : Bytes)

/-- Registers that are read into the reply end before the buffer does, or one of those that fit, or the
one behind them, cannot be read. -/
def ReadsFit (num : Nat) : Prop := num ≤ 393 ∨ ∃ i ≤ 393, env.regRead i = none

def WritesFit (num : Nat) : Prop := num ≤ 390 ∨ ∃ i < 390, env.regWrite i = false

/-- The bytes of a bulk are refused, or they end within the buffer. -/
def BulkFits (room : Nat) : Prop :=
  env.eepromSize ≤ field m 0 2 ∨ 2046 < field m 2 2 ∨ field m 2 2 ≤ room

/-- A request whose loop has a count ends within the buffer. -/
def CommandFits (id : Nat) : Prop :=
  if id = 0x1302 then 32767 < field m 4 2 ∨ ReadsFit env (field m 4 2)
  else if id = 0x1303 then ReadsFit env (field m 8 4)
  else if id = 0x1304 then WritesFit env (field m 8 4)
  else if id = 0x1307 then BulkFits env m 1572
  else if id = 0x1306 ∨ id = 0x1308 then BulkFits env m 1570
  else True

end Fits

section Counted

variable (env : Env) (m : Bytes)

theorem isSome_bind_total {α β : Type} (x : Option (α × Bytes)) (f : α → Run β)
    (rest : ∀ a, (f a).Total) :
    (x.bind fun result => f result.1 result.2).isSome ↔ x.isSome := by
  cases x with
  | none => simp
  | some result => simpa using rest result.1 result.2

theorem be32_inside (off : Nat) (inside : 30 + off ≤ 1600) :
    be32 off m = some (field m off 4, m) := by
  simp only [be32, bind_apply]
  rw [fetch_inside _ _ _ (by omega)]
  rfl

theorem be16_inside (off : Nat) (inside : 28 + off ≤ 1600) :
    be16 off m = some (field m off 2, m) := by
  simp only [be16, bind_apply]
  rw [fetch_inside _ _ _ (by omega)]
  rfl

theorem setLen_apply (len : Nat) :
    setLen len m = some ((), m.splice 22 [UInt8.ofNat (len / 256), UInt8.ofNat len]) := rfl

theorem hqaReadMacBbpReg_isSome_iff :
    (hqaReadMacBbpReg env m).isSome ↔ 32767 < field m 4 2 ∨ ReadsFit env (field m 4 2) := by
  simp only [hqaReadMacBbpReg, bind_apply, be32_inside m 0 (by decide),
    be16_inside m 4 (by decide), Option.bind_some]
  split
  · rename_i large
    simp [total_zeroStatus einval m, large]
  · rename_i small
    have count : min (field m 4 2) (declaredSize / 4) ≤ 393 ↔ field m 4 2 ≤ 393 := by
      simp only [declaredSize]
      omega
    simp only [bind_apply, setLen_apply, Option.bind_some]
    rw [isSome_bind_total _ _ total_zeroStatus, readRegs_isSome_iff, count, ReadsFit,
      or_iff_right small]

theorem hqaReadRfReg_isSome_iff :
    (hqaReadRfReg env m).isSome ↔ ReadsFit env (field m 8 4) := by
  have count : min (field m 8 4) (declaredSize / 4) ≤ 393 ↔ field m 8 4 ≤ 393 := by
    simp only [declaredSize]
    omega
  simp only [hqaReadRfReg, bind_apply, be32_inside m 0 (by decide), be32_inside m 4 (by decide),
    be32_inside m 8 (by decide), setLen_apply, Option.bind_some]
  rw [isSome_bind_total _ _ total_zeroStatus, readRegs_isSome_iff, count, ReadsFit]

theorem hqaWriteRfReg_isSome_iff :
    (hqaWriteRfReg env m).isSome ↔ WritesFit env (field m 8 4) := by
  have count : min (field m 8 4) (declaredSize / 4) ≤ 390 ↔ field m 8 4 ≤ 390 := by
    simp only [declaredSize]
    omega
  simp only [hqaWriteRfReg, bind_apply, be32_inside m 0 (by decide), be32_inside m 4 (by decide),
    be32_inside m 8 (by decide), Option.bind_some]
  rw [isSome_bind_total _ _ total_zeroStatus, writeRegs_isSome_iff, count, WritesFit]

theorem hqaEepromBulk_isSome_iff (reads : Bool) :
    (hqaEepromBulk env reads m).isSome ↔ BulkFits env m (if reads then 1572 else 1570) := by
  simp only [hqaEepromBulk, bind_apply, be16_inside m 0 (by decide), be16_inside m 2 (by decide),
    Option.bind_some, BulkFits]
  split
  · rename_i refused
    simp only [declaredSize] at refused
    simp only [pure_apply, Option.isSome_some, true_iff]
    omega
  · rename_i taken
    simp only [declaredSize, not_or, not_le, not_lt] at taken
    have bound : ∀ room, (env.eepromSize ≤ field m 0 2 ∨ 2046 < field m 2 2 ∨ field m 2 2 ≤ room) ↔
        field m 2 2 ≤ room := by
      intro room
      omega
    rw [bound]
    cases reads with
    | true =>
      simp only [if_true, bind_apply, setLen_apply, Option.bind_some]
      rw [isSome_bind_total _ (fun _ => pure 0) fun _ => total_pure 0, readPairs_isSome_iff]
      omega
    | false =>
      simp only [Bool.false_eq_true, if_false, bind_apply]
      rw [isSome_bind_total _ (fun _ => pure 0) fun _ => total_pure 0, writePairs_isSome_iff]
      omega

end Counted

section Table

variable (env : Env)

theorem hqaOps_sorted : hqaOps.Pairwise (Ops.cmdId · < Ops.cmdId ·) := by
  have ids : (hqaOps.map Ops.cmdId).Pairwise (· < ·) := by decide +kernel
  exact List.pairwise_map.mp ids

theorem hqaOpsExt_sorted : hqaOpsExt.Pairwise (Ops.cmdId · < Ops.cmdId ·) := by
  have ids : (hqaOpsExt.map Ops.cmdId).Pairwise (· < ·) := by decide +kernel
  exact List.pairwise_map.mp ids

/-- The tables are in order, so that a command is found whenever it is there. -/
theorem search_hqaOps (id : Nat) : search hqaOps id = hqaOps.find? (fun ops => ops.cmdId = id) :=
  bisect_eq_find hqaOps_sorted

theorem search_hqaOpsExt (id : Nat) :
    search hqaOpsExt id = hqaOpsExt.find? (fun ops => ops.cmdId = id) :=
  bisect_eq_find hqaOpsExt_sorted

/-- What `runOps` does after a handler stays in the buffer. -/
theorem runOps_served (cmdId respLen : Nat) (ops : Env → Run (BitVec 16)) (m : Bytes) :
    (runOps env (some (served cmdId respLen ops)) m).isSome ↔ (ops env m).isSome := by
  have tail : ∀ status : BitVec 16, Run.Total (do
      if respLen ≠ 0 then setLen respLen
      return status) := by
    intro status
    grind
  exact isSome_bind_total _ _ tail

@[simp]
theorem total_served (cmdId respLen : Nat) (ops : Env → Run (BitVec 16)) (total : (ops env).Total) :
    (runOps env (some (served cmdId respLen ops))).Total :=
  fun m => (runOps_served env cmdId respLen ops m).mpr (total m)

@[simp]
theorem total_skipped (cmdId respLen : Nat) : (runOps env (some (skipped cmdId respLen))).Total :=
  fun _ => rfl

@[simp]
theorem total_unserved (cmdId : Nat) : (runOps env (some (unserved cmdId))).Total :=
  fun _ => rfl

@[simp]
theorem total_hqaUntouched : (hqaUntouched env).Total := total_pure 0

@[simp]
theorem served_cmdId (cmdId respLen : Nat) (ops : Env → Run (BitVec 16)) :
    (served cmdId respLen ops).cmdId = cmdId := rfl

@[simp]
theorem skipped_cmdId (cmdId respLen : Nat) : (skipped cmdId respLen).cmdId = cmdId := rfl

@[simp]
theorem unserved_cmdId (cmdId : Nat) : (unserved cmdId).cmdId = cmdId := rfl

/-- The commands whose loop has a count from the request. -/
def counted : List Nat := [0x1302, 0x1303, 0x1304, 0x1306, 0x1307, 0x1308]

theorem hqaOps_total : ∀ ops ∈ hqaOps, ops.cmdId ∈ counted ∨ (runOps env (some ops)).Total := by
  simp [hqaOps, counted, total_nl, total_hqaFixed]

theorem hqaOpsExt_total : ∀ ops ∈ hqaOpsExt, (runOps env (some ops)).Total := by
  simp [hqaOpsExt, total_nl]

theorem fits_of_not_counted (m : Bytes) (id : Nat) (other : id ∉ counted) : CommandFits env m id := by
  simp only [counted, List.mem_cons, List.not_mem_nil, or_false, not_or] at other
  simp [CommandFits, other]

theorem runOps_search_isSome_iff (m : Bytes) (id : Nat) :
    (runOps env (search hqaOps id) m).isSome ↔ CommandFits env m id := by
  rw [search_hqaOps]
  by_cases member : id ∈ counted
  · simp only [counted, List.mem_cons, List.not_mem_nil, or_false] at member
    rcases member with rfl | rfl | rfl | rfl | rfl | rfl
    · have found : hqaOps.find? (fun ops => ops.cmdId = 0x1302) =
          some (served 0x1302 0 hqaReadMacBbpReg) := rfl
      rw [found, runOps_served, hqaReadMacBbpReg_isSome_iff]
      simp [CommandFits]
    · have found : hqaOps.find? (fun ops => ops.cmdId = 0x1303) =
          some (served 0x1303 0 hqaReadRfReg) := rfl
      rw [found, runOps_served, hqaReadRfReg_isSome_iff]
      simp [CommandFits]
    · have found : hqaOps.find? (fun ops => ops.cmdId = 0x1304) =
          some (served 0x1304 2 hqaWriteRfReg) := rfl
      rw [found, runOps_served, hqaWriteRfReg_isSome_iff]
      simp [CommandFits]
    · have found : hqaOps.find? (fun ops => ops.cmdId = 0x1306) =
          some (served 0x1306 2 fun env => hqaEepromBulk env false) := rfl
      rw [found, runOps_served, hqaEepromBulk_isSome_iff]
      simp [CommandFits]
    · have found : hqaOps.find? (fun ops => ops.cmdId = 0x1307) =
          some (served 0x1307 0 fun env => hqaEepromBulk env true) := rfl
      rw [found, runOps_served, hqaEepromBulk_isSome_iff]
      simp [CommandFits]
    · have found : hqaOps.find? (fun ops => ops.cmdId = 0x1308) =
          some (served 0x1308 2 fun env => hqaEepromBulk env false) := rfl
      rw [found, runOps_served, hqaEepromBulk_isSome_iff]
      simp [CommandFits]
  · rw [iff_true_right (fits_of_not_counted env m id member)]
    cases found : hqaOps.find? (fun ops => ops.cmdId = id) with
    | none => rfl
    | some ops =>
      have same : ops.cmdId = id := by simpa using List.find?_some found
      rcases hqaOps_total env ops (List.mem_of_find?_eq_some found) with listed | total
      · exact absurd (same ▸ listed) member
      · exact total m

theorem runOps_searchExt_total (id : Nat) : (runOps env (search hqaOpsExt id)).Total := by
  rw [search_hqaOpsExt]
  cases found : hqaOpsExt.find? (fun ops => ops.cmdId = id) with
  | none => exact total_pure 0
  | some ops => exact hqaOpsExt_total env ops (List.mem_of_find?_eq_some found)

end Table

section Reply

variable (env : Env)

theorem total_finish (status : BitVec 16) : (finish status).Total := by
  unfold finish
  apply total_bind
  · apply total_store
    exact (by decide : 26 + 0 + 2 ≤ 1600)
  · exact fun _ _ => rfl

theorem hqaHandler_isSome_iff (m : Bytes) :
    (hqaHandler env m).isSome ↔ CommandFits env m (cmdIdOf m) := by
  simp only [hqaHandler, bind_apply, getOps]
  split
  · rename_i ext
    rw [ext, iff_true_right (fits_of_not_counted env m 0x1600 (by decide))]
    simp only [be32_inside m 0 (by decide), Option.bind_some, pure_apply]
    rw [isSome_bind_total _ _ total_finish]
    exact runOps_searchExt_total env _ m
  · rw [Option.bind_some, isSome_bind_total _ _ total_finish]
    exact runOps_search_isSome_iff env m (cmdIdOf m)

theorem ethSend_bounded (m : Bytes) (len : Nat) : (ethSend env m len).Bounded := by
  simp only [ethSend]
  split
  · exact ⟨Nat.le_refl 60, by decide, by decide⟩
  split
  · trivial
  · simp only [Reply.Bounded, frameSize]
    omega

/-- A frame is handled within the buffer and answered within a packet, or not answered, just when its
count fits. -/
theorem hqaProcCmd_bounded_iff (frame : List UInt8) :
    (hqaProcCmd env frame).Bounded ↔
      ∀ m, ethRecv env frame = some m → isRequest m → CommandFits env m (cmdIdOf m) := by
  rw [hqaProcCmd]
  cases received : ethRecv env frame with
  | none => simp [Reply.Bounded]
  | some m =>
    cases request : isRequest m with
    | false => simp [Reply.Bounded, request]
    | true =>
      simp only [Bool.not_true, Bool.false_eq_true, if_false, Option.some.injEq, forall_eq',
        request, forall_const, ← hqaHandler_isSome_iff env m]
      cases handled : hqaHandler env m with
      | none => simp [Reply.Bounded]
      | some result => simp [ethSend_bounded]

/-- A chip that answers every read with `0`. -/
def readable : Env where
  macAddr := List.replicate 6 2
  macAddr_length := rfl
  unicast := false
  chipId := 0x7986
  subChipId := 0
  curBand := 0
  chainmask := fun _ => 15
  cap := fun _ => 3
  rfTest := fun _ => true
  flashMode := true
  eepromSize := 4096
  eeprom := fun _ => 0
  answers := fun _ => ⟨true, true, true, true⟩
  refusal := -1
  regRead := fun _ => some 0
  regWrite := fun _ => true
  temperature := some 40000
  channelFound := true
  txDone := 0
  testdata := true
  stats := fun _ => 0

/-- `HQA_CMD_READ_MAC_BBP_REG` for 394 registers. -/
def manyRegisters : List UInt8 :=
  List.replicate 6 0xff ++ List.replicate 6 4 ++ [0x28, 0x80] ++
    [0x18, 0x14, 0x28, 0x80, 0, 8, 0x13, 0x02, 0, 6, 0, 0] ++ [0, 0, 0, 0, 0x01, 0x8a]

/-- The last of 394 registers lies right behind the buffer. -/
theorem many_registers_leave_buffer : ¬ (hqaProcCmd readable manyRegisters).Bounded := by
  have received : ethRecv readable manyRegisters =
      some (Bytes.splice (fun _ => 0) 0 (manyRegisters.take frameSize)) := by
    rw [ethRecv, if_neg (by decide), if_neg (by decide), if_neg (by decide)]
  have request : isRequest (Bytes.splice (fun _ => 0) 0 (manyRegisters.take frameSize)) := by decide
  have handled : hqaHandler readable
      (Bytes.splice (fun _ => 0) 0 (manyRegisters.take frameSize)) = none := by
    have id : cmdIdOf (Bytes.splice (fun _ => 0) 0 (manyRegisters.take frameSize)) = 0x1302 := by
      decide
    have num : field (Bytes.splice (fun _ => 0) 0 (manyRegisters.take frameSize)) 4 2 = 394 := by
      decide
    rw [← Option.not_isSome_iff_eq_none, hqaHandler_isSome_iff, id]
    simp [CommandFits, ReadsFit, num, readable]
  simp [hqaProcCmd, received, request, handled, Reply.Bounded]

end Reply

end Filogic.Atenl
