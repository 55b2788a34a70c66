import Filogic.Lib.Bisect
import Filogic.Atenl.Frame

/-! One frame from the socket to the reply: the table of the commands, and the checks on both ends. -/

namespace Filogic.Atenl
open Lib

/-- `struct atenl_ops`, without the command that the handlers are told apart by. -/
structure Ops where
  cmdId : Nat
  respLen : Nat
  legacy : Bool
  skip : Bool
  ops : Option (Env → Run (BitVec 16))

section Table

def served (cmdId respLen : Nat) (ops : Env → Run (BitVec 16)) : Ops :=
  ⟨cmdId, respLen, false, false, ops⟩

/-- `ATENL_OPS_FLAG_SKIP` -/
def skipped (cmdId respLen : Nat) : Ops := ⟨cmdId, respLen, false, true, none⟩

/-- `ATENL_OPS_FLAG_LEGACY` -/
def unserved (cmdId : Nat) : Ops := ⟨cmdId, 0, true, false, none⟩

/-- `atenl_hqa_adapter` and `atenl_hqa_reset_counter`, which leave the buffer alone. -/
def hqaUntouched (_ : Env) : Run (BitVec 16) := pure 0

/-- A command of `nl_ops`. -/
def nl (ops : Env → Run (BitVec 16)) (env : Env) : Run (BitVec 16) := nlProcessAt env (ops env)

/-- `hqa_ops` -/
def hqaOps : List Ops :=
  [served 0x1000 2 hqaUntouched,
    served 0x1001 2 hqaUntouched,
    served 0x100b 2 (nl fun env => nlSetAttr env false),
    served 0x100c 2 (nl fun env => nlSetAttr env false),
    skipped 0x100d 2,
    served 0x1011 2 (nl fun env => nlSetAttr env true),
    skipped 0x1018 2,
    skipped 0x1101 2,
    skipped 0x1102 2,
    skipped 0x1104 2,
    skipped 0x1105 2,
    skipped 0x1106 2,
    served 0x1107 2 (nl fun env => nlSetAttr env false),
    served 0x1109 2 (nl nlSetCfg),
    skipped 0x110c 2,
    skipped 0x110d 6,
    served 0x1200 2 hqaUntouched,
    served 0x1300 6 hqaReadMacBbpRegQa,
    served 0x1301 2 hqaWriteMacBbpReg,
    served 0x1302 0 hqaReadMacBbpReg,
    served 0x1303 0 hqaReadRfReg,
    served 0x1304 2 hqaWriteRfReg,
    served 0x1306 2 fun env => hqaEepromBulk env false,
    served 0x1307 0 fun env => hqaEepromBulk env true,
    served 0x1308 2 fun env => hqaEepromBulk env false,
    served 0x1309 6 fun env => hqaCheckEfuseMode env 0 1,
    served 0x130a 6 fun _ => hqaFixed 2 0x14,
    served 0x130d 10 fun _ => hqaFixed 6 28,
    served 0x130e 2 (nl nlSetCfg),
    served 0x130f 6 fun _ => hqaFixed 2 10,
    served 0x1311 6 (nl nlContinuousTxAt),
    skipped 0x1312 2,
    served 0x1313 10 (nl nlDumpAttr),
    served 0x1314 6 fun _ => hqaFixed 2 1,
    skipped 0x131a 6,
    skipped 0x131f 1024,
    served 0x1401 6 hqaReadTemperature,
    skipped 0x1500 32,
    unserved 0x1502,
    served 0x1505 2 (nl nlSetCfg),
    served 0x1509 2 fun _ => hqaSetRfModeAt,
    unserved 0x150b,
    served 0x1511 2 fun _ => hqaWriteBufferDone,
    served 0x1514 6 hqaGetChipId,
    served 0x151b 6 hqaGetSubChipId,
    served 0x151c 0 (nl nlGetRxInfo),
    served 0x151e 10 hqaGetRfCap,
    served 0x1522 6 fun env => hqaCheckEfuseMode env 2 4,
    served 0x1523 6 fun env => hqaCheckEfuseMode env 2 1,
    served 0x152d 6 hqaGetBand,
    served 0x1594 2 nlSetRuAt]

/-- `hqa_ops_ext`, whose handlers see their `ext_id`. -/
def hqaOpsExt : List Ops :=
  [served 0x01 6 fun env => hqaSetChannelAt env 0x01,
    served 0x02 6 (nl fun env => nlSetTx env 0x02),
    served 0x03 6 (nl fun env => nlTxAt env false 0x03),
    served 0x04 6 (nl fun env => nlRxAt env false 0x04),
    served 0x05 6 (nl fun env => nlTxAt env true 0x05),
    served 0x06 6 (nl fun env => nlRxAt env true 0x06),
    served 0x08 6 (nl fun env => nlIbfSetValAt env 0x08),
    served 0x09 10 (nl fun _ => nlIbfGetStatus 0x09),
    served 0x0c 6 (nl fun env => nlIbfProfileUpdateAll env 0x0c),
    served 0x26 6 fun _ => hqaTxTimeOption 0x26,
    served 0x27 6 (nl fun env => offChScan env 0x27)]

end Table

section Proc

/-- `ntohs(hdr->cmd_id)` -/
def cmdIdOf (m : Bytes) : Nat := ofBytes (m.slice 20 2)

def search (group : List Ops) (id : Nat) : Option Ops :=
  bisect Ops.cmdId group id group.length 0 group.length

/-- `atenl_get_ops` -/
def getOps : Run (Option Ops) := fun m =>
  if cmdIdOf m = 0x1600 then
    (do
      let id ← be32 0
      return search hqaOpsExt (id % 65536)) m
  else some (search hqaOps (cmdIdOf m), m)

/-- The part of `atenl_hqa_handler` between the table and `done`. -/
def runOps (env : Env) (ops : Option Ops) : Run (BitVec 16) :=
  match ops with
  | none => pure 0
  | some ops =>
      if ops.ops.isNone && !ops.legacy && !ops.skip then pure 0
      else if ops.skip then pure 0
      else do
        let status ← match ops.ops with
          | none => pure 0
          | some run => run env
        if ops.respLen ≠ 0 then setLen ops.respLen
        return status

/-- `atenl_hqa_handler` from `done` on; it sets `data->len`. -/
def finish (status : BitVec 16) : Run Nat := do
  store 0 [UInt8.ofNat (status.toNat / 256), UInt8.ofNat status.toNat]
  fun m => some (ofBytes (m.slice 22 2) + hdrData, m.splice 18 [m 18 ||| 0x80])

/-- `atenl_hqa_handler` -/
def hqaHandler (env : Env) : Run Nat := do
  let ops ← getOps
  let status ← runOps env ops
  finish status

/-- `atenl_eth_recv`: a longer frame is cut by `recvfrom`. -/
def ethRecv (env : Env) (frame : List UInt8) : Option Bytes :=
  let m : Bytes := Bytes.splice (fun _ => 0) 0 (frame.take frameSize)
  if (frame.take frameSize).length < hdrData then none
  else if m.slice 12 2 ≠ [0x28, 0x80] then none
  else if m.slice 0 6 ≠ env.macAddr ∧ m.slice 0 6 ≠ List.replicate 6 0xff then none
  else some m

/-- The checks of `atenl_hqa_proc_cmd` on the magic number and on the type of the command. -/
def isRequest (m : Bytes) : Bool :=
  ofBytes (m.slice 14 4) = 0x18142880 &&
    (ofBytes (m.slice 18 2) % 32768 = 8 || ofBytes (m.slice 18 2) % 32768 = 24)

/-- What becomes of a frame: an access outside of the buffer, no reply, or a reply that consists of
the first bytes of the buffer. -/
inductive Reply
  | fault
  | quiet
  | sent (buf : Bytes) (len : Nat)

/-- `atenl_eth_send` -/
def ethSend (env : Env) (m : Bytes) (len : Nat) : Reply :=
  let m := m.splice 0 (if env.unicast then m.slice 6 6 else List.replicate 6 0xff)
  let m := m.splice 6 env.macAddr
  let m := m.splice 12 [0x28, 0x80]
  if len < 60 then .sent m 60
  else if len > 1514 then .quiet
  else .sent m len

/-- `atenl_hqa_proc_cmd` -/
def hqaProcCmd (env : Env) (frame : List UInt8) : Reply :=
  match ethRecv env frame with
  | none => .quiet
  | some m =>
      if !isRequest m then .quiet
      else
        match hqaHandler env m with
        | none => .fault
        | some (len, m) => ethSend env m len

/-- Every access through `hdr->data` is inside of the buffer, and so is what is sent. -/
def Reply.Bounded : Reply → Prop
  | .fault => False
  | .quiet => True
  | .sent _ len => 60 ≤ len ∧ len ≤ 1514 ∧ len ≤ frameSize

end Proc

end Filogic.Atenl
