import Filogic.Nmbm.Attach
import Filogic.Lib.Runs

/-! The operations on an attached instance, and runs of them. The caller of an operation keeps
`addr + size` within 64 bits. -/

namespace Filogic.Nmbm
open Lib

variable (env : Env)

/-- The physical block of a logic block has no mapping: the word is negative as `int32_t`. -/
def unmapped (pb : UInt32) : Bool := 2 ^ 31 ≤ pb.toNat

/-- `nmbm_erase_logic_block`. Each retry has taken a block from the top of the spare blocks, so
there are fewer than `fuel` of them when it starts above the top block. -/
def eraseLogicBlockTries (lb : Nat) : (fuel : Nat) → Routine Int
  | 0 => return -eio
  | fuel + 1 => do
    let i ← ni
    let pb := (i.blockMapping lb).toNat
    if unmapped (i.blockMapping lb) then return -eio
    else do
      -- A block that is known or found to be bad, or that fails to erase, has to be remapped.
      let erased ←
        if i.getBlockState pb = blockStBad ∨ i.getBlockState pb = blockStNeedRemap then
          pure false
        else do
          let bad ← checkBadPhysBlock env pb
          if bad then do
            setState pb blockStBad
            pure false
          else do
            let success ← eraseBlockAndCheck env pb
            if success then pure true
            else do
              retireBlock env pb
              pure false
      if erased then return 0
      else do
        let mapped ← mapBlock env lb
        if !mapped then
          setNi fun i => { i with blockMapping := Function.update i.blockMapping lb 0xffffffff }
        setNi fun i =>
          if i.getBlockState pb = blockStNeedRemap then i else i.setBlockState pb blockStBad
        let _ ← updateInfoTable env
        if mapped then eraseLogicBlockTries lb fuel
        else return -eio

/-- `nmbm_erase_logic_block` -/
def eraseLogicBlock (lb : Nat) : Routine Int := do
  let i ← ni
  eraseLogicBlockTries env lb (i.mappingBlocksTopBa + 1)

/-- The loop of `nmbm_erase_block_range`, with `left` blocks to go. -/
def eraseBlocksFrom : (left lb : Nat) → Routine Int
  | 0, _ => return 0
  | left + 1, lb => do
    let ret ← eraseLogicBlock env lb
    if ret = 0 then eraseBlocksFrom left (lb + 1)
    else return ret

/-- The checks at the start of an operation that writes. -/
def refuseWrite (i : Instance) (addr size : Nat) : Option Int :=
  if i.protectedMode ∨ i.lower.readOnly then some (-erofs)
  else if env.geo.ba2addr i.dataBlockCount ≤ addr then some (-einval)
  else if env.geo.ba2addr i.dataBlockCount < addr + size then some (-einval)
  else none

/-- The checks at the start of an operation that reads. -/
def refuseRead (i : Instance) (addr size : Nat) : Option Int :=
  if i.protectedMode then some (-erofs)
  else if env.geo.ba2addr i.dataBlockCount ≤ addr then some (-einval)
  else if env.geo.ba2addr i.dataBlockCount < addr + size then some (-einval)
  else none

/-- What an operation hands back: its code, the caller's buffers, and `retlen` if it was
written. -/
structure Reply where
  ret : Int
  data : Bytes
  oob : Bytes
  retlen : Option Nat

/-- A reply with buffers as they were. -/
def Reply.code (ret : Int) (data oob : Bytes) : Reply := ⟨ret, data, oob, none⟩

/-- An operation without buffers. -/
def Reply.plain (ret : Int) : Reply := .code ret (fun _ => 0) (fun _ => 0)

/-- `nmbm_erase_block_range` -/
def eraseBlockRange (addr size : Nat) : Routine Reply := do
  let i ← ni
  match refuseWrite env i addr size with
  | some ret => return .plain ret
  | none =>
    if size = 0 then return .plain 0
    else do
      let start := env.geo.addr2ba addr
      let ret ← eraseBlocksFrom env (env.geo.addr2ba (addr + size - 1) + 1 - start) start
      return .plain ret

/-- The physical address of a logic one, unless its block is unmapped or bad. -/
def logicAddr (i : Instance) (addr : Nat) : Option Nat :=
  let pb := i.blockMapping (env.geo.addr2ba addr)
  if unmapped pb then none
  else if i.getBlockState pb.toNat = blockStBad then none
  else some (env.geo.ba2addr pb.toNat + addr % env.geo.erasesize)

/-- `nmbm_read_logic_page`: the code, and the page if it was read. -/
def readLogicPage (addr : Nat) : Routine (Int × Option (Bytes × Bytes)) := do
  let i ← ni
  match logicAddr env i addr with
  | none => return (-eio, none)
  | some paddr =>
    let got ← readPhysPage env paddr
    return (got.1, some got.2)

/-- `nmbm_read_single_page` into two buffers. -/
def readSinglePage (addr : Nat) (data oob : Bytes) : Routine Reply := do
  let i ← ni
  match refuseRead env i addr 0 with
  | some ret => return .code ret data oob
  | none =>
    match ← readLogicPage env addr with
    | (ret, none) => return .code ret data oob
    | (ret, some page) =>
      return .code ret (data.memcpy 0 page.1 0 env.geo.writesize)
        (oob.memcpy 0 page.2 0 env.geo.oobsize)

/-- How far `nmbm_read_range` has come. -/
structure ReadState where
  buf : Bytes
  remain : Nat
  eccError : Bool
  maxBitflips : Int
  ret : Int

/-- The loop of `nmbm_read_range`; `fuel` bounds the bytes that remain. -/
def readRangeFrom : (fuel off ptr : Nat) → ReadState → Routine ReadState
  | 0, _, _, s => return s
  | fuel + 1, off, ptr, s =>
    if s.remain = 0 then return s
    else do
      let (leading, chunksize) := env.geo.chunk off s.remain
      let (ret, page) ← readLogicPage env (off - leading)
      if chunksize ≠ env.geo.writesize then
        setNi fun i =>
          match page with
          | none => i
          | some page => { i with pageCache := i.pageCache.memcpy 0 page.1 0 env.geo.writesize }
      let i ← ni
      -- A full page is read into the buffer itself, any other through the page cache.
      let direct := if chunksize = env.geo.writesize then
          match page with
          | none => s.buf
          | some page => s.buf.memcpy ptr page.1 0 chunksize
        else s.buf
      if ret < 0 ∧ ret ≠ -ebadmsg then return { s with buf := direct, ret := ret }
      else do
        let buf := if chunksize = env.geo.writesize then direct
          else s.buf.memcpy ptr i.pageCache leading chunksize
        readRangeFrom fuel (off + chunksize) (ptr + chunksize)
          { buf := buf
            remain := s.remain - chunksize
            eccError := s.eccError || ret = -ebadmsg
            maxBitflips := max ret s.maxBitflips
            ret := ret }

/-- `nmbm_read_range` into a buffer. -/
def readRange (addr size : Nat) (buf : Bytes) : Routine Reply := do
  let i ← ni
  match refuseRead env i addr size with
  | some ret => return .code ret buf fun _ => 0
  | none =>
    if size = 0 then return .code 0 buf fun _ => 0
    else do
      let s ← readRangeFrom env size addr 0
        { buf := buf, remain := size, eccError := false, maxBitflips := 0, ret := 0 }
      let ret := if s.ret < 0 ∧ s.ret ≠ -ebadmsg then s.ret
        else if s.eccError then -ebadmsg else s.maxBitflips
      return { ret := ret, data := s.buf, oob := fun _ => 0, retlen := some (size - s.remain) }

/-- A block that fails to take a page is to be remapped when it is erased. -/
def needRemap (pb : Nat) : Routine Unit := do
  setState pb blockStNeedRemap
  let _ ← updateInfoTable env

/-- `nmbm_write_logic_page` and `nmbm_panic_write_logic_page`. -/
def writeLogicPage (panic : Bool) (addr : Nat) (data : Bytes) (oob : Option Bytes) :
    Routine Int := do
  let i ← ni
  match logicAddr env i addr with
  | none => return -eio
  | some paddr =>
    let success ←
      if panic then panicWritePhysPage env paddr data else writePhysPage env paddr data oob
    if success then return 0
    else do
      needRemap env (i.blockMapping (env.geo.addr2ba addr)).toNat
      return -eio

/-- `nmbm_write_single_page` -/
def writeSinglePage (addr : Nat) (data : Bytes) (oob : Option Bytes) : Routine Reply := do
  let i ← ni
  match refuseWrite env i addr 0 with
  | some ret => return .plain ret
  | none =>
    let ret ← writeLogicPage env false addr data oob
    return .plain ret

/-- `nmbm_panic_write_single_page` -/
def panicWriteSinglePage (addr : Nat) (data : Bytes) : Routine Reply := do
  let i ← ni
  match refuseWrite env i addr 0 with
  | some ret => return .plain ret
  | none =>
    if i.lower.panicWritePage then do
      let ret ← writeLogicPage env true addr data none
      return .plain ret
    else return .plain (-enotsupp)

/-- The loop of `nmbm_write_range`: the last code, and the bytes that remain. -/
def writeRangeFrom (data : Bytes) : (fuel off ptr remain : Nat) → Routine (Int × Nat)
  | 0, _, _, remain => return (0, remain)
  | fuel + 1, off, ptr, remain =>
    if remain = 0 then return (0, remain)
    else do
      let (leading, chunksize) := env.geo.chunk off remain
      let page ←
        if chunksize = env.geo.writesize then pure fun k => data (ptr + k)
        else do
          setNi fun i =>
            { i with
              pageCache := (i.pageCache.memset 0 0xff leading).memcpy leading data ptr chunksize }
          let i ← ni
          pure i.pageCache
      let ret ← writeLogicPage env false (off - leading) page none
      if ret = 0 then
        writeRangeFrom data fuel (off + chunksize) (ptr + chunksize) (remain - chunksize)
      else return (ret, remain)

/-- `nmbm_write_range` -/
def writeRange (addr size : Nat) (data : Bytes) : Routine Reply := do
  let i ← ni
  match refuseWrite env i addr size with
  | some ret => return .plain ret
  | none =>
    if size = 0 then return .plain 0
    else do
      let (ret, remain) ← writeRangeFrom env data size addr 0 size
      return { Reply.plain ret with retlen := some (size - remain) }

/-- `nmbm_check_bad_block` -/
def checkBadBlock (addr : Nat) : Routine Reply := do
  let i ← ni
  if env.geo.ba2addr i.dataBlockCount ≤ addr then return .plain (-einval)
  else return .plain (if logicAddr env i addr = none then 1 else 0)

/-- `nmbm_mark_bad_block` -/
def markBadBlock (addr : Nat) : Routine Reply := do
  let i ← ni
  match refuseWrite env i addr 0 with
  | some ret => return .plain ret
  | none =>
    let lb := env.geo.addr2ba addr
    let pb := i.blockMapping lb
    if unmapped pb then return .plain 0
    else do
      setNi fun i => { i with blockMapping := Function.update i.blockMapping lb 0xffffffff }
      retireBlock env pb.toNat
      let _ ← updateInfoTable env
      return .plain 0

/-- `nmbm_get_avail_size` -/
def getAvailSize (geo : Geometry) (i : Instance) : Nat := geo.ba2addr i.dataBlockCount

/-- An operation on an attached instance. -/
inductive Op where
  | eraseBlockRange (addr size : Nat)
  | readSinglePage (addr : Nat) (data oob : Bytes)
  | readRange (addr size : Nat) (buf : Bytes)
  | writeSinglePage (addr : Nat) (data : Bytes) (oob : Option Bytes)
  | panicWriteSinglePage (addr : Nat) (data : Bytes)
  | writeRange (addr size : Nat) (data : Bytes)
  | checkBadBlock (addr : Nat)
  | markBadBlock (addr : Nat)
  | detach

/-- Carry out an operation. -/
def perform : Op → Routine Reply
  | .eraseBlockRange addr size => eraseBlockRange env addr size
  | .readSinglePage addr data oob => readSinglePage env addr data oob
  | .readRange addr size buf => readRange env addr size buf
  | .writeSinglePage addr data oob => writeSinglePage env addr data oob
  | .panicWriteSinglePage addr data => panicWriteSinglePage env addr data
  | .writeRange addr size data => writeRange env addr size data
  | .checkBadBlock addr => checkBadBlock env addr
  | .markBadBlock addr => markBadBlock env addr
  | .detach => do
    detach env
    return .plain 0

/-- The world, and whether the last attachment succeeded. -/
structure Mount where
  world : World
  attached : Bool

/-- An attachment or an operation. A detached instance may be attached again, with other
options. -/
inductive Request where
  | attach (lower : Options)
  | op (op : Op)

namespace Mount

/-- A chip with nothing attached to it. -/
def start (chip : Chip) : Mount where
  world :=
    { ni := Instance.zero ⟨0, 0, false, false, false, false, false, false⟩, chip := chip, tick := 0
      issuer := .other, generated := [], trace := [] }
  attached := false

def step (m : Mount) : Request → Mount
  | .attach lower =>
    let w := { m.world with ni := Instance.zero lower }
    { world := (attach env lower).after w
      attached := (attach env lower).value w = some 0 }
  | .op op => if m.attached then { m with world := (perform env op).after m.world } else m

end Mount

/-- Carry out a list of operations. -/
def performAll (w : World) (ops : List Op) : World :=
  Lib.run (fun w op => (perform env op).after w) w ops

section Sample

/-- 16 blocks of four small pages; an info table takes one block. -/
def sampleGeometry : Geometry where
  pageShift := 6
  blockShift := 8
  chipShift := 12
  oobsize := 8
  page_le := by decide
  block_le := by decide
  fits := by decide

/-- Six blocks for data, ten for the management area. -/
def sampleOptions : Options where
  maxRatio := 10
  maxReservedBlocks := 0
  create := true
  emptyPageEccOk := false
  readOnly := false
  isBadBlock := true
  markBadBlock := true
  panicWritePage := false

/-- The byte step of `crc32_le`. -/
def crc32Bits : Nat → UInt32 → UInt32
  | 0, crc => crc
  | bits + 1, crc => crc32Bits bits ((crc >>> 1) ^^^ if crc &&& 1 = 1 then 0xedb88320 else 0)

/-- A lower device on which the calls fail that `fails` picks, with cleared pages. -/
def sampleEnv (fails : Nat → LowerCall → Bool) : Env where
  geo := sampleGeometry
  fate tick call :=
    { ret := if fails tick call then -eio else 0
      main := fun _ => 0
      oob := fun _ => 0
      flag := false }
  crcByte crc byte := crc32Bits 8 (crc ^^^ byte.toUInt32)

example : crc32 (sampleEnv fun _ _ => false) 0xffffffff
    [0x31, 0x32, 0x33, 0x34, 0x35, 0x36, 0x37, 0x38, 0x39] = ~~~0xcbf43926 := by decide +kernel

/-- An erased chip with some blocks marked bad. -/
def blankChip (bad : List Nat) : Chip where
  main := fun _ => 0xff
  oob := fun _ _ => 0xff
  marked ba := ba ∈ bad

end Sample

end Filogic.Nmbm
