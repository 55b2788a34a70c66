import Filogic.Lib.Prog
import Filogic.Lib.Bytes

/-! The NAND mapped-block manager, `nmbm-core.c`: the lower device with everything that can go
wrong on it, the structures on flash, and the instance in memory. -/

namespace Filogic.Nmbm
open Lib

def eio : Int := 5
def enodev : Int := 19
def einval : Int := 22
def erofs : Int := 30
def ebadmsg : Int := 74
def enotsupp : Int := 524

/-- `NMBM_ALIGN`, for an alignment that is a power of two. -/
def align (v a : Nat) : Nat := (v + a - 1) / a * a

/-- Sizes of the tables of a chip of `2 ^ blockBits` blocks with pages of `2 ^ pageShift`
bytes, as `nmbm_init_structure` computes them. -/
def stateTableBytes (blockBits : Nat) : Nat := (2 ^ blockBits + 15) / 16 * 4

def mappingTableBytes (blockBits : Nat) : Nat := 2 ^ blockBits * 4

def infoTableBytes (pageShift blockBits : Nat) : Nat :=
  align 32 (2 ^ pageShift) + align (stateTableBytes blockBits) (2 ^ pageShift) +
    align (mappingTableBytes blockBits) (2 ^ pageShift)

/-- A chip: size, block size and page size are the powers of two that
`nmbm_check_lower_members` asks for, pages make up blocks and blocks the chip. The size of the
tables, 32 bits in the source, is one that memory was allocated for. -/
structure Geometry where
  pageShift : Nat
  blockShift : Nat
  chipShift : Nat
  oobsize : Nat
  page_le : pageShift ≤ blockShift
  block_le : blockShift ≤ chipShift
  fits : infoTableBytes pageShift (chipShift - blockShift) < 2 ^ 32

namespace Geometry

variable (geo : Geometry)

def writesize : Nat := 2 ^ geo.pageShift
def erasesize : Nat := 2 ^ geo.blockShift
def size : Nat := 2 ^ geo.chipShift

/-- `ni->block_count` -/
def blockCount : Nat := 2 ^ (geo.chipShift - geo.blockShift)

def stateTableSize : Nat := stateTableBytes (geo.chipShift - geo.blockShift)
def mappingTableSize : Nat := mappingTableBytes (geo.chipShift - geo.blockShift)
def infoTableSize : Nat := infoTableBytes geo.pageShift (geo.chipShift - geo.blockShift)

/-- The offsets that `nmbm_init_structure` gives the two tables. -/
def stateTableOff : Nat := align 32 geo.writesize
def mappingTableOff : Nat := geo.stateTableOff + align geo.stateTableSize geo.writesize

/-- `addr2ba` -/
def addr2ba (addr : Nat) : Nat := addr / geo.erasesize

/-- `ba2addr` -/
def ba2addr (ba : Nat) : Nat := ba * geo.erasesize

/-- `size2blk` -/
def size2blk (size : Nat) : Nat := (size + geo.erasesize - 1) / geo.erasesize

/-- `nmbm_get_spare_block_count` -/
def getSpareBlockCount (blockCount : Nat) : Nat := max ((blockCount + 1) / 2) 2

/-- `ni->info_table_spare_blocks` -/
def infoTableSpareBlocks : Nat := getSpareBlockCount (geo.size2blk geo.infoTableSize)

end Geometry

/-- The tunable members of `struct nmbm_lower_device`: ratios, flags, and which of the optional
callbacks are there. -/
structure Options where
  maxRatio : Nat
  maxReservedBlocks : Nat
  create : Bool
  emptyPageEccOk : Bool
  readOnly : Bool
  isBadBlock : Bool
  markBadBlock : Bool
  panicWritePage : Bool
  deriving DecidableEq, Repr

/-- `enum nmbm_oob_mode` -/
inductive OobMode where
  | placeOob | autoOob | raw
  deriving DecidableEq, Repr

/-- A call of the lower device. -/
inductive LowerCall where
  | resetChip
  | readPage (addr : Nat)
  | writePage (addr : Nat)
  | panicWritePage (addr : Nat)
  | eraseBlock (addr : Nat)
  | isBadBlock (addr : Nat)
  | markBadBlock (addr : Nat)
  deriving DecidableEq, Repr

namespace LowerCall

/-- The call changes flash: an erase, a program or a bad block mark. -/
def writes : LowerCall → Bool
  | .writePage _ | .panicWritePage _ | .eraseBlock _ | .markBadBlock _ => true
  | _ => false

def addr : LowerCall → Nat
  | .resetChip => 0
  | .readPage addr | .writePage addr | .panicWritePage addr | .eraseBlock addr
  | .isBadBlock addr | .markBadBlock addr => addr

end LowerCall

/-- How one call ends: its return code, what a failing call leaves in the page or block (or
hands back), and whether a good block is reported bad. -/
structure Fate where
  ret : Int
  main : Bytes
  oob : Bytes
  flag : Bool

/-- The flash array: main area by linear address, spare area by page and offset, and the bad
block marks. -/
structure Chip where
  main : Bytes
  oob : Nat → Bytes
  marked : Nat → Bool

/-- The device below: its geometry, how its calls end, and the byte step of `crc32_le`. -/
structure Env where
  geo : Geometry
  fate : Nat → LowerCall → Fate
  crcByte : UInt32 → UInt8 → UInt32

/-- `struct nmbm_header` and the words behind it in `struct nmbm_info_table_header`. -/
structure InfoTableHeader where
  magic : UInt32
  version : UInt32
  size : UInt32
  checksum : UInt32
  writeCount : UInt32
  stateTableOff : UInt32
  mappingTableOff : UInt32
  padding : UInt32
  deriving DecidableEq, Repr

/-- `struct nmbm_signature` -/
structure Signature where
  magic : UInt32
  version : UInt32
  size : UInt32
  checksum : UInt32
  nandSize : UInt64
  blockSize : UInt32
  pageSize : UInt32
  spareSize : UInt32
  mgmtStartPb : UInt32
  maxTryCount : UInt8
  deriving DecidableEq, Repr

/-- `struct nmbm_instance`. `pageCache` has the spare bytes of the page behind its data. -/
structure Instance where
  lower : Options
  signature : Signature
  infoTableCache : Bytes
  infoTable : InfoTableHeader
  blockState : Nat → UInt32
  blockStateChanged : Nat
  blockMapping : Nat → UInt32
  blockMappingChanged : Nat
  pageCache : Bytes
  protectedMode : Bool
  dataBlockCount : Nat
  mgmtStartBa : Nat
  mainTableBa : Nat
  backupTableBa : Nat
  mappingBlocksBa : Nat
  mappingBlocksTopBa : Nat
  signatureBa : Nat

/-- The memory that the caller of `nmbm_attach` provides, cleared. -/
def Instance.zero (lower : Options) : Instance where
  lower := lower
  signature := ⟨0, 0, 0, 0, 0, 0, 0, 0, 0, 0⟩
  infoTableCache := fun _ => 0
  infoTable := ⟨0, 0, 0, 0, 0, 0, 0, 0⟩
  blockState := fun _ => 0
  blockStateChanged := 0
  blockMapping := fun _ => 0
  blockMappingChanged := 0
  pageCache := fun _ => 0
  protectedMode := false
  dataBlockCount := 0
  mgmtStartBa := 0
  mainTableBa := 0
  backupTableBa := 0
  mappingBlocksBa := 0
  mappingBlocksTopBa := 0
  signatureBa := 0

/-- Who issues a call of the lower device: the writers of the info tables, or the rest. -/
inductive Issuer where
  | tables | other
  deriving DecidableEq, Repr

/-- What happened, with the instance and the flash that it came to. Besides the calls of the
lower device the trace has the calls of `nmbm_map_block`. -/
inductive Happening where
  | lower (call : LowerCall)
  | mapBlock

structure Event where
  what : Happening
  issuer : Issuer
  ni : Instance
  chip : Chip

/-- The instance over its chip. `tick` counts the calls of the lower device. The rest is
history: who issues calls now, the instance each time an info table was generated from it, and
the events so far, newest first. -/
structure World where
  ni : Instance
  chip : Chip
  tick : Nat
  issuer : Issuer
  generated : List Instance
  trace : List Event

/-- A routine of the driver. -/
abbrev Routine := Prog World

namespace World

def modifyNi (w : World) (f : Instance → Instance) : World := { w with ni := f w.ni }

/-- The world after an event was noted. -/
def note (w : World) (what : Happening) : World :=
  { w with trace := { what := what, issuer := w.issuer, ni := w.ni, chip := w.chip } :: w.trace }

end World

/-- The instance as it is now. -/
def ni : Routine Instance := Prog.gets World.ni

def setNi (f : Instance → Instance) : Routine Unit := Prog.modify fun w => w.modifyNi f

/-- Note a call of `nmbm_map_block`. -/
def noteMapBlock : Routine Unit := Prog.modify fun w => w.note .mapBlock

/-- Run a routine whose calls count as those of the info table writers. -/
def asTableWriter {α : Type} (routine : Routine α) : Routine α := do
  let w ← Prog.get
  Prog.modify fun w => { w with issuer := .tables }
  let result ← routine
  Prog.modify fun now => { now with issuer := w.issuer }
  return result

end Filogic.Nmbm
