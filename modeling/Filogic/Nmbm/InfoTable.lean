import Filogic.Nmbm.BlockState

/-! The structures on flash: encoding, checksums, and the image of the info table. -/

namespace Filogic.Nmbm
open Lib

/-- A 32-bit word as the little-endian CPU stores it. -/
def le32 (w : UInt32) (k : Nat) : UInt8 := (w >>> UInt32.ofNat (8 * (k % 4))).toUInt8

/-- The word at an offset of a buffer. -/
def word32 (buf : Bytes) (off : Nat) : UInt32 :=
  (buf off).toUInt32 ||| ((buf (off + 1)).toUInt32 <<< 8) |||
    ((buf (off + 2)).toUInt32 <<< 16) ||| ((buf (off + 3)).toUInt32 <<< 24)

/-- An array of words as memory has it. -/
def wordBytes (words : Nat → UInt32) : Bytes := fun k => le32 (words (k / 4)) k

/-- The array of words at an offset of a buffer. -/
def wordsAt (buf : Bytes) (off : Nat) : Nat → UInt32 := fun k => word32 buf (off + 4 * k)

/-- `NMBM_MAGIC_SIGNATURE`, `NMBM_MAGIC_INFO_TABLE` and `NMBM_VER` -/
def magicSignature : UInt32 := 0x304d4d4e
def magicInfoTable : UInt32 := 0x314d4d4e
def nmbmVer : UInt32 := 1

/-- `sizeof(struct nmbm_header)`, `sizeof(struct nmbm_info_table_header)` and
`sizeof(struct nmbm_signature)` -/
def headerSize : Nat := 16
def infoTableHeaderSize : Nat := 32
def signatureSize : Nat := 48

namespace InfoTableHeader

def words (h : InfoTableHeader) : Nat → UInt32
  | 0 => h.magic
  | 1 => h.version
  | 2 => h.size
  | 3 => h.checksum
  | 4 => h.writeCount
  | 5 => h.stateTableOff
  | 6 => h.mappingTableOff
  | _ => h.padding

/-- The header at the start of a buffer. -/
def read (buf : Bytes) : InfoTableHeader where
  magic := word32 buf 0
  version := word32 buf 4
  size := word32 buf 8
  checksum := word32 buf 12
  writeCount := word32 buf 16
  stateTableOff := word32 buf 20
  mappingTableOff := word32 buf 24
  padding := word32 buf 28

end InfoTableHeader

namespace Signature

def words (s : Signature) : Nat → UInt32
  | 0 => s.magic
  | 1 => s.version
  | 2 => s.size
  | 3 => s.checksum
  | 4 => s.nandSize.toUInt32
  | 5 => (s.nandSize >>> 32).toUInt32
  | 6 => s.blockSize
  | 7 => s.pageSize
  | 8 => s.spareSize
  | 9 => s.mgmtStartPb
  | 10 => s.maxTryCount.toUInt32
  | _ => 0

/-- The signature at the start of a buffer. -/
def read (buf : Bytes) : Signature where
  magic := word32 buf 0
  version := word32 buf 4
  size := word32 buf 8
  checksum := word32 buf 12
  nandSize := (word32 buf 16).toUInt64 ||| ((word32 buf 20).toUInt64 <<< 32)
  blockSize := word32 buf 24
  pageSize := word32 buf 28
  spareSize := word32 buf 32
  mgmtStartPb := word32 buf 36
  maxTryCount := buf 40

end Signature

section

variable (env : Env)

/-- `nmbm_crc32` -/
def crc32 (crc : UInt32) (bytes : List UInt8) : UInt32 := bytes.foldl env.crcByte crc

/-- `nmbm_check_header` -/
def checkHeader (data : Bytes) (size : Nat) : Bool :=
  let hdrSize := (word32 data 8).toNat
  if size < hdrSize then false
  else
    let crc := crc32 env 0 ((data.memset 12 0 4).slice 0 headerSize)
    let crc :=
      if headerSize < hdrSize then crc32 env crc (data.slice headerSize (hdrSize - headerSize))
      else crc
    word32 data 12 = crc

/-- `nmbm_update_checksum` -/
def updateChecksum (data : Bytes) : Bytes :=
  let cleared := data.memset 12 0 4
  let crc := crc32 env 0 (cleared.slice 0 (word32 data 8).toNat)
  cleared.memcpy 12 (le32 crc) 0 4

/-- The image of a header and the two tables. -/
def infoTableImage (h : InfoTableHeader) (blockState blockMapping : Nat → UInt32) : Bytes :=
  let geo := env.geo
  let cache := Bytes.memset (fun _ => 0) 0 0xff geo.infoTableSize
  let cache := cache.memcpy h.stateTableOff.toNat (wordBytes blockState) 0 geo.stateTableSize
  let cache := cache.memcpy h.mappingTableOff.toNat (wordBytes blockMapping) 0 geo.mappingTableSize
  updateChecksum env (cache.memcpy 0 (wordBytes h.words) 0 infoTableHeaderSize)

end

namespace Instance

/-- There are changes that no info table on flash has. -/
def changed (i : Instance) : Bool := i.blockStateChanged ≠ 0 ∨ i.blockMappingChanged ≠ 0

/-- The header that `nmbm_generate_info_table_cache` makes. -/
def nextHeader (geo : Geometry) (i : Instance) : InfoTableHeader :=
  { i.infoTable with
    magic := magicInfoTable
    version := nmbmVer
    size := UInt32.ofNat geo.infoTableSize
    writeCount := if i.changed then i.infoTable.writeCount + 1 else i.infoTable.writeCount }

end Instance

variable (env : Env)

/-- `nmbm_generate_info_table_cache` -/
def generateInfoTableCache : Routine Bool := do
  let i ← ni
  setNi fun i =>
    let h := i.nextHeader env.geo
    { i with
      infoTable := h
      infoTableCache := infoTableImage env h i.blockState i.blockMapping }
  Prog.modify fun w => { w with generated := w.ni :: w.generated }
  return i.changed

/-- `nmbm_write_info_table` -/
def writeInfoTable (ba limit : Nat) : Routine (Option (Nat × Nat)) := do
  let i ← ni
  asTableWriter (writeMgmtRange env ba limit i.infoTableCache env.geo.infoTableSize)

/-- `nmbm_mark_tables_clean` -/
def markTablesClean : Routine Unit :=
  setNi fun i => { i with blockStateChanged := 0, blockMappingChanged := 0 }

end Filogic.Nmbm
