import Filogic.Atenl.Commands
import Filogic.Atenl.Precal

/-! The buffer of an HQA frame, and what the command handlers read and write of it. Answers of the kernel
are left open, also where they could be known from earlier commands. -/

namespace Filogic.Atenl
open Lib

/-- `RACFG_PKT_MAX_SIZE`, the size of `data->buf`. -/
def frameSize : Nat := 1600

/-- Where `hdr->data` starts in the buffer. -/
def hdrData : Nat := 26

/-- `sizeof(hdr->data)` as it is declared. -/
def declaredSize : Nat := 2048

/-- A program on the buffer; `none` stands for an access through `hdr->data` outside of it. -/
def Run (α : Type) := Bytes → Option (α × Bytes)

instance : Monad Run where
  pure a := fun m => some (a, m)
  bind x f := fun m => (x m).bind fun result => f result.1 result.2

section Access

/-- The bytes at an offset of `hdr->data`. -/
def fetch (off len : Nat) : Run (List UInt8) := fun m =>
  if hdrData + off + len ≤ frameSize then some (m.slice (hdrData + off) len, m) else none

def store (off : Nat) (bytes : List UInt8) : Run Unit := fun m =>
  if hdrData + off + bytes.length ≤ frameSize then some ((), m.splice (hdrData + off) bytes)
  else none

/-- A number whose highest byte comes first. -/
def ofBytes (bytes : List UInt8) : Nat := bytes.foldl (fun high low => high * 256 + low.toNat) 0

/-- `ntohl(*(u32 *)(hdr->data + off))` -/
def be32 (off : Nat) : Run Nat := do return ofBytes (← fetch off 4)

/-- `ntohs(*(u16 *)(hdr->data + off))` -/
def be16 (off : Nat) : Run Nat := do return ofBytes (← fetch off 2)

/-- `*(u32 *)(hdr->data + off) = htonl(val)` -/
def putBe32 (off : Nat) (val : BitVec 32) : Run Unit := store off (wordBytes val).reverse

/-- `*(u32 *)(hdr->data + off) = val` -/
def put32 (off : Nat) (val : BitVec 32) : Run Unit := store off (wordBytes val)

/-- `hdr->len = htons(len)` -/
def setLen (len : Nat) : Run Unit := fun m =>
  some ((), m.splice 22 [UInt8.ofNat (len / 256), UInt8.ofNat len])

end Access

/-- `-EINVAL`, `-ENOMEM`, `-1` and `2` as a status. -/
def einval : BitVec 16 := -22

def enomem : BitVec 16 := -12

/-- What `an` holds and what the kernel answers while one frame is handled. -/
structure Env where
  macAddr : List UInt8
  macAddr_length : macAddr.length = 6
  unicast : Bool
  chipId : BitVec 16
  subChipId : BitVec 8
  curBand : BitVec 8
  chainmask : Nat → BitVec 8
  cap : Nat → BitVec 8
  rfTest : Nat → Bool
  flashMode : Bool
  eepromSize : Nat
  eeprom : Bytes
  /-- One answer for each message. -/
  answers : Nat → Answer
  /-- The status of a request that fails. -/
  refusal : BitVec 16
  /-- The values of one register after another, as far as they can be read. -/
  regRead : Nat → Option (BitVec 32)
  regWrite : Nat → Bool
  temperature : Option (BitVec 32)
  channelFound : Bool
  txDone : BitVec 32
  testdata : Bool
  stats : Nat → BitVec 32

section Hqa

variable (env : Env)

def Env.connac3 : Bool := env.chipId = 0x7990 || env.chipId = 0x7992

/-- `unl_genl_request` for a message. -/
def Env.request (i : Nat) : BitVec 16 := if (env.answers i).acks then 0 else env.refusal

/-- `atenl_hqa_set_rf_mode` -/
def hqaSetRfModeAt : Run (BitVec 16) := do
  let _ ← be32 0
  let _ ← be32 0
  return 0

/-- `atenl_hqa_get_chip_id` -/
def hqaGetChipId : Run (BitVec 16) := do
  putBe32 2 (env.chipId.setWidth 32)
  return 0

/-- `atenl_hqa_get_sub_chip_id` -/
def hqaGetSubChipId : Run (BitVec 16) := do
  putBe32 2 (env.subChipId.setWidth 32)
  return 0

/-- `__builtin_popcount` of a byte. -/
def popcount (byte : BitVec 8) : Nat := ((List.range 8).filter fun i => byte.getLsbD i).length

/-- `atenl_hqa_get_rf_cap` -/
def hqaGetRfCap : Run (BitVec 16) := do
  let band ← be32 0
  if band ≥ 3 then return einval
  putBe32 2 (BitVec.ofNat 32 (popcount (env.chainmask band)))
  let ant ← fetch 2 4
  store 6 ant
  return 0

/-- The loop that reads registers into the reply. -/
def readRegs (reads : Nat → Option (BitVec 32)) (refusal : BitVec 16) : Nat → Nat → Run (BitVec 16)
  | _, 0 => pure 0
  | i, n + 1 =>
      match reads i with
      | none => pure refusal
      | some res => do
          putBe32 (2 + 4 * i) res
          readRegs reads refusal (i + 1) n

/-- `memset(hdr->data, 0, 2)`, at the end of both register handlers. -/
def zeroStatus (status : BitVec 16) : Run (BitVec 16) := do
  store 0 [0, 0]
  return status

/-- `atenl_hqa_mac_bbp_reg` for `HQA_CMD_READ_MAC_BBP_REG` -/
def hqaReadMacBbpReg : Run (BitVec 16) := do
  let _ ← be32 0
  let num ← be16 4
  if num > 32767 then zeroStatus einval
  else
    setLen (2 + num * 4)
    zeroStatus (← readRegs env.regRead env.refusal 0 (min num (declaredSize / 4)))

/-- `atenl_hqa_mac_bbp_reg` for `HQA_CMD_READ_MAC_BBP_REG_QA` -/
def hqaReadMacBbpRegQa : Run (BitVec 16) := do
  let _ ← be32 0
  match env.regRead 0 with
  | none => zeroStatus env.refusal
  | some res =>
      putBe32 2 res
      zeroStatus 0

/-- `atenl_hqa_mac_bbp_reg` for `HQA_CMD_WRITE_MAC_BBP_REG` -/
def hqaWriteMacBbpReg : Run (BitVec 16) := do
  let _ ← be32 0
  let _ ← be32 4
  zeroStatus (if env.regWrite 0 then 0 else env.refusal)

/-- `atenl_hqa_rf_reg` for `HQA_CMD_READ_RF_REG` -/
def hqaReadRfReg : Run (BitVec 16) := do
  let _ ← be32 0
  let _ ← be32 4
  let num ← be32 8
  setLen (2 + num * 4)
  zeroStatus (← readRegs env.regRead env.refusal 0 (min num (declaredSize / 4)))

/-- The loop that writes registers from the request. -/
def writeRegs (writes : Nat → Bool) (refusal : BitVec 16) : Nat → Nat → Run (BitVec 16)
  | _, 0 => pure 0
  | i, n + 1 => do
      let _ ← be32 (12 + 4 * i)
      if writes i then writeRegs writes refusal (i + 1) n else return refusal

/-- `atenl_hqa_rf_reg` for `HQA_CMD_WRITE_RF_REG` -/
def hqaWriteRfReg : Run (BitVec 16) := do
  let _ ← be32 0
  let _ ← be32 4
  let num ← be32 8
  zeroStatus (← writeRegs env.regWrite env.refusal 0 (min num (declaredSize / 4)))

/-- The loop of `HQA_CMD_READ_EEPROM_BULK`, from the `i`-th pair of bytes on. -/
def readPairs (offset : Nat) : Nat → Nat → Run Unit
  | _, 0 => pure ()
  | i, n + 1 => do
      store (2 + 2 * i)
        (if offset + 2 * i ≥ env.eepromSize then [0, 0]
          else [env.eeprom (offset + 2 * i + 1), env.eeprom (offset + 2 * i)])
      readPairs offset (i + 1) n

/-- The loop of `HQA_CMD_WRITE_EEPROM_BULK`; the bytes go to the EEPROM image. -/
def writePairs : Nat → Nat → Run Unit
  | _, 0 => pure ()
  | i, n + 1 => do
      let _ ← be16 (4 + 2 * i)
      writePairs (i + 1) n

/-- `atenl_hqa_eeprom_bulk` for `HQA_CMD_WRITE_BUFFER_DONE` -/
def hqaWriteBufferDone : Run (BitVec 16) := do
  let _ ← be32 0
  return 0

/-- `atenl_hqa_eeprom_bulk` for the two commands that move bytes. -/
def hqaEepromBulk (reads : Bool) : Run (BitVec 16) := do
  let offset ← be16 0
  let len ← be16 2
  if offset ≥ env.eepromSize ∨ len > declaredSize - 2 then return einval
  else if reads then
    setLen (len + 2)
    readPairs env offset 0 ((len + 1) / 2)
    return 0
  else
    writePairs 0 ((len + 1) / 2)
    return 0

/-- `atenl_hqa_get_efuse_free_block`, `atenl_hqa_get_freq_offset`, `atenl_hqa_get_cfg` and
`atenl_hqa_get_tx_power`: a fixed word at a fixed offset. -/
def hqaFixed (off : Nat) (val : BitVec 32) : Run (BitVec 16) := do
  putBe32 off val
  return 0

/-- `atenl_hqa_get_band` -/
def hqaGetBand : Run (BitVec 16) := do
  let band ← be32 0
  if band ≥ 3 then return einval
  putBe32 2 ((env.cap band).setWidth 32)
  return 0

/-- `atenl_hqa_read_temperature` -/
def hqaReadTemperature : Run (BitVec 16) :=
  match env.temperature with
  | none => pure env.refusal
  | some temp => do
      putBe32 2 (temp / 1000)
      return 0

/-- `atenl_hqa_check_efuse_mode`, with the modes of the command in flash mode and out of it. -/
def hqaCheckEfuseMode (flash other : BitVec 32) : Run (BitVec 16) := do
  putBe32 2 (if env.flashMode then flash else other)
  return 0

/-- `*(u32 *)(hdr->data + 2) = data->ext_id` -/
def putExtId (extId : BitVec 8) : Run Unit := put32 2 (extId.setWidth 32)

/-- `atenl_hqa_set_channel` -/
def hqaSetChannelAt (extId : BitVec 8) : Run (BitVec 16) := do
  let band ← be32 8
  let _ ← be32 12
  let _ ← be32 16
  let bw ← be32 20
  let priSel ← be32 28
  let _ ← be32 36
  let priSel := priSel % 256
  if band % 256 ≥ 3 then return einval
  else if (bw % 256 = 12 ∧ priSel > 15) ∨ (bw % 256 = 5 ∧ priSel > 7) ∨
      (bw % 256 = 2 ∧ priSel > 3) ∨ (bw % 256 = 1 ∧ priSel > 1) then return einval
  else if !env.channelFound then return einval
  else
    putExtId extId
    return 0

/-- `atenl_hqa_tx_time_option` -/
def hqaTxTimeOption (extId : BitVec 8) : Run (BitVec 16) := do
  let band ← be32 4
  let _ ← be32 8
  if band % 256 ≥ 3 then return einval
  putExtId extId
  return 0

end Hqa

section Nl

variable (env : Env)

/-- `atenl_nl_set_attr`, which opens a nest for `MT76_TM_ATTR_TX_POWER`. -/
def nlSetAttr (nests : Bool) : Run (BitVec 16) := do
  let _ ← be32 0
  if !(env.answers 0).room then return enomem
  else if nests && !(env.answers 0).roomInside then return enomem
  else return env.request 0

/-- `atenl_nl_set_cfg` -/
def nlSetCfg : Run (BitVec 16) := do
  let _ ← be32 0
  let _ ← be32 4
  if !(env.answers 0).room then return enomem
  else if !(env.answers 0).roomInside then return enomem
  else return env.request 0

/-- `atenl_nl_set_tx` -/
def nlSetTx (extId : BitVec 8) : Run (BitVec 16) := do
  let _ ← be32 28
  if !(env.answers 0).room then return enomem
  else if !(env.answers 0).roomInside then return enomem
  else
    let _ ← fetch 36 6
    let _ ← fetch 42 6
    let _ ← fetch 48 6
    putExtId extId
    return env.request 0

/-- `atenl_nl_tx` -/
def nlTxAt (stops : Bool) (extId : BitVec 8) : Run (BitVec 16) := do
  let band ← be32 8
  if band % 256 ≥ 3 then return einval
  else if !(env.answers 0).room then return enomem
  else if stops then
    if env.request 0 ≠ 0 then return env.request 0
    putExtId extId
    return 0
  else
    let _ ← be32 12
    let phyType ← be32 16
    let _ ← be32 44
    let sgi ← be32 52
    let _ ← be32 56
    if sgi % 256 > 5 then return einval
    let _ ← be32 48
    let _ ← be32 20
    let _ ← be32 28
    let _ ← be32 32
    let _ ← be32 60
    let mode := phyTypeToAttr (phyType % 256)
    if !env.connac3 ∧ mode ≥ 4 ∧
        heSgiGroups.findIdx (· = mode) + sgi % 256 ≥ heSgiGroups.length then return einval
    if !(env.answers 0).roomInside then return enomem
    let _ ← be32 24
    if env.request 0 ≠ 0 then return env.request 0
    putExtId extId
    return 0

/-- `atenl_nl_rx` -/
def nlRxAt (stops : Bool) (extId : BitVec 8) : Run (BitVec 16) := do
  let band ← be32 8
  if band % 256 ≥ 3 then return einval
  else if !(env.answers 0).room then return enomem
  else
    if !stops then
      let _ ← be32 18
      if env.connac3 then
        let _ ← be32 26
        let _ ← be32 30
        let _ ← be32 34
      else
        let _ ← be32 22
    putExtId extId
    return env.request 0

/-- `atenl_off_ch_scan` -/
def offChScan (extId : BitVec 8) : Run (BitVec 16) := do
  let _ ← be32 8
  let _ ← be32 16
  let _ ← be32 20
  let _ ← be32 24
  if !(env.answers 0).room then return enomem
  putExtId extId
  return 0

/-- `atenl_nl_dump_attr` -/
def nlDumpAttr : Run (BitVec 16) := do
  if !(env.answers 0).room then return enomem
  putBe32 (2 + 4 * env.curBand.toNat) env.txDone
  return 0

/-- `atenl_nl_continuous_tx` -/
def nlContinuousTxAt : Run (BitVec 16) := do
  let band ← be32 0
  let enable ← be32 4
  if !(env.answers 0).room then return enomem
  else if band % 256 ≥ 3 then return einval
  else if enable = 0 then return 0
  else if !env.rfTest (band % 256) then return 0
  else
    let _ ← be32 8
    let _ ← be32 12
    let _ ← be32 24
    return env.request 0

/-- `RX_PUT_HDR` -/
def putRxHdr (off : Nat) (type val size : BitVec 32) : Run Unit := do
  putBe32 off type
  putBe32 (off + 8) val
  putBe32 (off + 12) size

/-- Words of the statistics, one behind the other. -/
def putStats (off : Nat) : Nat → Nat → Run Unit
  | _, 0 => pure ()
  | i, n + 1 => do
      putBe32 (off + 4 * i) (env.stats i)
      putStats off (i + 1) n

/-- The words of one `struct atenl_rx_info_path` for each of the four paths. -/
def putPaths (off : Nat) : Nat → Nat → Run Unit
  | _, 0 => pure ()
  | i, n + 1 => do
      putStats env (off + 24 * i) 0 4
      putPaths off (i + 1) n

/-- `atenl_nl_get_rx_info_cb` -/
def nlGetRxInfoCb : Run Unit := do
  let pathNum := popcount (env.chainmask env.curBand.toNat)
  put32 2 0x04000000
  putRxHdr 6 0 ((1 : BitVec 32) <<< env.curBand.toNat) 56
  let rxBand := 22
  let rxPath := rxBand + 56 + 16
  putRxHdr (rxBand + 56) 1 ((env.chainmask env.curBand.toNat).setWidth 32)
    (BitVec.ofNat 32 (pathNum * 24))
  let rxUser := rxPath + pathNum * 24 + 16
  putRxHdr (rxPath + pathNum * 24) 2 0xffff 192
  putRxHdr (rxUser + 192) 3 1 28
  setLen (rxUser + 192 + 16 + 28)
  if !env.testdata then return ()
  putStats env rxBand 0 4
  putStats env rxUser 0 3
  putPaths env rxPath 0 4

/-- `atenl_nl_get_rx_info` -/
def nlGetRxInfo : Run (BitVec 16) := do
  if !(env.answers 0).room then return enomem
  if (env.answers 0).acks then nlGetRxInfoCb env
  return env.request 0

/-- The words that `atenl_nl_set_ru` reads for one unit. -/
def ruWords (off : Nat) : Run Unit := do
  let _ ← be32 (off + 4)
  let _ ← be32 (off + 8)
  let _ ← be32 (off + 12)
  let _ ← be32 (off + 16)
  let _ ← be32 (off + 20)
  let _ ← be32 (off + 24)
  let _ ← be32 (off + 32)

/-- The loop of `atenl_nl_set_ru`. -/
def ruLoopAt : Nat → Nat → Run (BitVec 16)
  | _, 0 => pure 0
  | i, n + 1 => do
      ruWords (12 + 44 * i)
      if !(env.answers i).connects then return 2
      else if !(env.answers i).room then return enomem
      else ruLoopAt (i + 1) n

/-- `atenl_nl_set_ru` -/
def nlSetRuAt : Run (BitVec 16) := do
  let seg0Num ← be32 4
  if seg0Num > 8 then return einval
  ruLoopAt env 0 seg0Num

/-- The loop that reads the eight values of `atenl_nl_ibf_set_val`. -/
def readWords (off : Nat) : Nat → Nat → Run Unit
  | _, 0 => pure ()
  | i, n + 1 => do
      let _ ← be32 (off + 4 * i)
      readWords off (i + 1) n

/-- `atenl_nl_ibf_set_val` -/
def nlIbfSetValAt (extId : BitVec 8) : Run (BitVec 16) := do
  let action ← be32 4
  readWords 8 0 8
  if !(env.answers 0).room then return enomem
  else if action ∈ [2, 9, 10, 11, 12, 13, 16] ∧ !(env.answers 0).roomInside then return enomem
  else
    putExtId extId
    return env.request 0

/-- `atenl_nl_ibf_get_status` -/
def nlIbfGetStatus (extId : BitVec 8) : Run (BitVec 16) := do
  putExtId extId
  putBe32 6 1
  return 0

/-- The loop of `atenl_nl_ibf_profile_update_all`. -/
def profileLoop : Nat → Nat → Run (Option (BitVec 16))
  | _, 0 => pure none
  | i, n + 1 => do
      if !(env.answers i).connects then return some 2
      else if !(env.answers i).room ∨ !(env.answers i).roomInside then return some enomem
      else
        readWords (24 + 20 * i) 0 5
        profileLoop (i + 1) n

/-- `atenl_nl_ibf_profile_update_all` -/
def nlIbfProfileUpdateAll (extId : BitVec 8) : Run (BitVec 16) := do
  let _ ← be32 4
  match ← profileLoop env 0 64 with
  | some status => return status
  | none =>
      putExtId extId
      return 0

/-- `atenl_nl_process` around one of its operations. -/
def nlProcessAt (ops : Run (BitVec 16)) : Run (BitVec 16) := do
  if !(env.answers 0).connects then return -1
  ops

end Nl

end Filogic.Atenl
