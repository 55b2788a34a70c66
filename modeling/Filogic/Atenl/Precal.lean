import Filogic.Lib.Bytes
import Filogic.Lib.Runs

/-! The pre-calibration data behind the EEPROM image: how they are fetched from the driver, and how parts
of them are cleaned. -/

namespace Filogic.Atenl
open Lib

/-- What a chip family has: the size of its EEPROM and the offset of its calibration indicator. -/
structure PrecalChip where
  connac3 : Bool
  eepromSize : Nat
  prekOffs : Nat
  offs_lt : prekOffs < eepromSize

theorem offs_lt_7915 : 0x62 < 3584 := by decide

theorem offs_lt_7916 : 0x19a < 4096 := by decide

theorem offs_lt_7996 : 0x1a5 < 7680 := by decide

/-- `atenl_eeprom_init_max_size` -/
def precalChip (chipId : BitVec 16) : Option PrecalChip :=
  if chipId = 0x7915 then some ⟨false, 3584, 0x62, offs_lt_7915⟩
  else if chipId = 0x7906 ∨ chipId = 0x7916 ∨ chipId = 0x7981 ∨ chipId = 0x7986 then
    some ⟨false, 4096, 0x19a, offs_lt_7916⟩
  else if chipId = 0x7990 ∨ chipId = 0x7992 then some ⟨true, 7680, 0x1a5, offs_lt_7996⟩
  else none

/-- `an->cal_info` -/
structure CalInfo where
  groupSize : BitVec 32
  dpdSize : BitVec 32
  dpdInfo : BitVec 32
  transmitSize : BitVec 32
  calIndicator : BitVec 32
  deriving DecidableEq, Repr

/-- The buffer of `an->cal` and the size it was allocated with. -/
structure CalBuffer where
  bytes : Bytes
  size : Nat

/-- A process of `atenl` and the EEPROM file that it maps. -/
structure Precal where
  eeprom : Bytes
  cal : Option CalBuffer
  calInfo : CalInfo

/-- What the driver answers to a request for the header. -/
inductive Info
  | refused
  | nothing
  | header (c : CalInfo)

/-- The answers of the driver to one operation; a chunk that is refused is `none`. -/
structure Delivery where
  connects : Bool
  info : Info
  chunks : Nat → Option (List UInt8)

/-- `EEPROM_PART_SIZE` -/
def partSize : Nat := 0xFF000

/-- `PRE_CAL_INFO` -/
def preCalInfo : Nat := 16

section Header

/-- The bytes of a word in the memory of the host. -/
def wordBytes (w : BitVec 32) : List UInt8 :=
  (List.range 4).map fun k => UInt8.ofBitVec (w.extractLsb' (8 * k) 8)

/-- The four words of `cal_info` that are kept with the data. -/
def infoBytes (c : CalInfo) : List UInt8 :=
  [c.groupSize, c.dpdSize, c.dpdInfo, c.transmitSize].flatMap wordBytes

end Header

section Functions

variable (chip : PrecalChip)

/-- The requests for the data: each chunk is put behind those before it. The flag is false when one was
refused; `none` stands for a write behind the buffer. -/
def receive (chunks : Nat → Option (List UInt8)) (transmit : Nat) :
    Nat → Nat → CalBuffer → Option (CalBuffer × Bool)
  | _, 0, buf => some (buf, true)
  | i, n + 1, buf =>
      match chunks i with
      | none => some (buf, false)
      | some bytes =>
          if i * transmit + bytes.length > buf.size then none
          else
            receive chunks transmit (i + 1) n
              { buf with bytes := buf.bytes.splice (i * transmit) bytes }

/-- `atenl_eeprom_update_precal`; `none` stands for an access outside of the image or of the buffer. -/
def updatePrecal (s : Precal) (writeOffs size : Nat) : Option Precal :=
  let preCal := chip.eepromSize
  let eeprom := (s.eeprom.splice chip.prekOffs
    [UInt8.ofBitVec (s.calInfo.calIndicator.setWidth 8)]).splice preCal (infoBytes s.calInfo)
  if preCal + preCalInfo + writeOffs + size > partSize then none
  else
    match s.cal with
    | some buf =>
        if size > buf.size then none
        else
          some { s with eeprom := eeprom.memcpy (preCal + preCalInfo + writeOffs) buf.bytes 0 size }
    | none => some { s with eeprom := eeprom.memset (preCal + preCalInfo + writeOffs) 0 size }

/-- An operation that cleans a part. -/
def clean (s : Precal) (mask : BitVec 8) (writeOffs size : Nat) : Option (Precal × Bool) :=
  let indicator := (s.eeprom chip.prekOffs).toBitVec
  if indicator &&& mask = 0 then some (s, true)
  else
    let s := { s with calInfo := { s.calInfo with calIndicator := (indicator &&& mask).setWidth 32 } }
    (updatePrecal chip s writeOffs size).map fun s => (s, true)

end Functions

end Filogic.Atenl
