import Filogic.Nmbm.Lower

/-! The packed block states of an instance, the walks over them, and the routines that erase
blocks and write into them. -/

namespace Filogic.Nmbm
open Lib

/-- `BLOCK_ST_BAD`, `BLOCK_ST_NEED_REMAP` and `BLOCK_ST_GOOD` -/
def blockStBad : UInt32 := 0
def blockStNeedRemap : UInt32 := 2
def blockStGood : UInt32 := 3
def blockStMask : UInt32 := 3

/-- The shift of a block's two bits in its unit. -/
def stateShift (ba : Nat) : UInt32 := UInt32.ofNat (ba % 16 * 2)

/-- `nmbm_get_block_state_raw` -/
def getBlockStateRaw (blockState : Nat → UInt32) (ba : Nat) : UInt32 :=
  (blockState (ba / 16) >>> stateShift ba) &&& blockStMask

namespace Instance

/-- `nmbm_get_block_state` -/
def getBlockState (i : Instance) (ba : Nat) : UInt32 := getBlockStateRaw i.blockState ba

/-- `nmbm_set_block_state` -/
def setBlockState (i : Instance) (ba : Nat) (state : UInt32) : Instance :=
  let orig := i.getBlockState ba
  let state := state &&& blockStMask
  let uv := (i.blockState (ba / 16) &&& ~~~(blockStMask <<< stateShift ba)) |||
    (state <<< stateShift ba)
  { i with
    blockState := Function.update i.blockState (ba / 16) uv
    blockStateChanged :=
      if orig = state then i.blockStateChanged else i.blockStateChanged + 1 }

/-- The block is good in the state table. -/
def good (i : Instance) (ba : Nat) : Bool := i.getBlockState ba = blockStGood

/-- `nmbm_block_walk_asc` from block `ba`, with `left` blocks to go: the good block behind
`count` others. -/
def blockWalkAsc (i : Instance) : (left ba count : Nat) → Option Nat
  | 0, _, _ => none
  | left + 1, ba, count =>
    if i.good ba then
      match count with
      | 0 => some ba
      | count + 1 => blockWalkAsc i left (ba + 1) count
    else blockWalkAsc i left (ba + 1) count

/-- `nmbm_block_walk_desc`, likewise. -/
def blockWalkDesc (i : Instance) : (left ba count : Nat) → Option Nat
  | 0, _, _ => none
  | left + 1, ba, count =>
    if i.good ba then
      match count with
      | 0 => some ba
      | count + 1 => blockWalkDesc i left (ba - 1) count
    else blockWalkDesc i left (ba - 1) count

end Instance

/-- A 32-bit subtraction. -/
def sub32 (a b : Nat) : Nat := (a + 2 ^ 32 - b % 2 ^ 32) % 2 ^ 32

section

variable (geo : Geometry) (i : Instance)

/-- The limit that a walk uses. -/
def walkLimit (limit : Nat) : Nat := if geo.blockCount ≤ limit then geo.blockCount - 1 else limit

/-- `nmbm_block_walk`, ascending -/
def blockWalkUp (ba count limit : Nat) : Option Nat :=
  i.blockWalkAsc (walkLimit geo limit - ba) ba count

/-- `nmbm_block_walk`, descending -/
def blockWalkDown (ba count limit : Nat) : Option Nat :=
  i.blockWalkDesc (ba - walkLimit geo limit) ba count

/-- `nmbm_try_reserve_blocks` with a minimum of none: as many good blocks are skipped as there
are, `count` at most. -/
def tryReserveBlocks (ba limit : Nat) : (count : Nat) → Option Nat
  | 0 => blockWalkUp geo i ba 0 limit
  | count + 1 =>
    match blockWalkUp geo i ba (count + 1) limit with
    | some nba => some nba
    | none => tryReserveBlocks ba limit count

end

variable (env : Env)

def setState (ba : Nat) (state : UInt32) : Routine Unit := setNi fun i => i.setBlockState ba state

/-- The loop of `nmbm_scan_badblocks` from block `ba`. -/
def scanBadblocksFrom : (left ba : Nat) → Routine Unit
  | 0, _ => return ()
  | left + 1, ba => do
    let bad ← checkBadPhysBlock env ba
    if bad then setState ba blockStBad
    scanBadblocksFrom left (ba + 1)

/-- `nmbm_scan_badblocks` -/
def scanBadblocks : Routine Unit := scanBadblocksFrom env env.geo.blockCount 0

/-- The page loop of `nmbm_erase_block_and_check`: no page of the erased block has an ECC
error. -/
def checkErasedPages : (pages addr : Nat) → Routine Bool
  | 0, _ => return true
  | pages + 1, addr => do
    let ret ← readToPageCache env addr
    if ret = -ebadmsg then return false
    else checkErasedPages pages (addr + env.geo.writesize)

/-- Pages of a block. -/
def Geometry.pagesPerBlock (geo : Geometry) : Nat := geo.erasesize / geo.writesize

/-- `nmbm_erase_block_and_check` -/
def eraseBlockAndCheck (ba : Nat) : Routine Bool := do
  let success ← erasePhysBlock env (env.geo.ba2addr ba)
  if success then do
    let i ← ni
    if i.lower.emptyPageEccOk then
      checkErasedPages env env.geo.pagesPerBlock (env.geo.ba2addr ba)
    else return true
  else return false

/-- A block that failed is marked bad on the chip and in the state table. -/
def retireBlock (ba : Nat) : Routine Unit := do
  markPhysBadBlock env ba
  setState ba blockStBad

/-- One round of `nmbm_erase_range`. -/
def eraseRangeBlock (ba : Nat) : Routine Unit := do
  let i ← ni
  if i.good ba then do
    let bad ← checkBadPhysBlock env ba
    if bad then setState ba blockStBad
    else do
      let success ← eraseBlockAndCheck env ba
      if success then return ()
      else retireBlock env ba
  else return ()

/-- The loop of `nmbm_erase_range`, with `left` blocks to go. -/
def eraseRangeFrom : (left ba : Nat) → Routine Unit
  | 0, _ => return ()
  | left + 1, ba => do
    eraseRangeBlock env ba
    eraseRangeFrom left (ba + 1)

/-- `nmbm_erase_range` -/
def eraseRange (ba limit : Nat) : Routine Unit :=
  asTableWriter (eraseRangeFrom env (limit - ba) ba)

/-- Write the page cache to a page and read it back. -/
def writeCachedPage (addr : Nat) : Routine Bool := do
  let i ← ni
  let success ← writePhysPage env addr i.pageCache none
  if success then do
    let ret ← readToPageCache env addr
    return 0 ≤ ret
  else return false

/-- The page loop of `nmbm_write_repeated_data`. -/
def writeRepeatedPages (data : Bytes) (size : Nat) : (pages addr : Nat) → Routine Bool
  | 0, _ => return true
  | pages + 1, addr => do
    let rawpageSize := env.geo.writesize + env.geo.oobsize
    setNi fun i =>
      { i with pageCache := (i.pageCache.memcpy 0 data 0 size).memset size 0xff (rawpageSize - size) }
    let success ← writeCachedPage env addr
    let i ← ni
    if success && i.pageCache.slice 0 size = data.slice 0 size then
      writeRepeatedPages data size pages (addr + env.geo.writesize)
    else return false

/-- `nmbm_write_repeated_data` -/
def writeRepeatedData (ba : Nat) (data : Bytes) (size : Nat) : Routine Bool :=
  if env.geo.writesize < size then return false
  else writeRepeatedPages env data size env.geo.pagesPerBlock (env.geo.ba2addr ba)

/-- The bytes of the next page that a transfer of `remain` bytes from offset `off` covers: the
offset in the page, and the length. -/
def Geometry.chunk (geo : Geometry) (off remain : Nat) : Nat × Nat :=
  let leading := off % geo.writesize
  (leading, min (geo.writesize - leading) remain)

/-- The loop of `nmbn_read_data` into the info table cache from offset `ptr`; `fuel` bounds
the bytes that remain. A page that is read in full does not go through the page cache. -/
def readDataFrom : (fuel off ptr remain : Nat) → Bytes → Routine (Int × Bytes)
  | 0, _, _, _, buf => return (0, buf)
  | fuel + 1, off, ptr, remain, buf =>
    if remain = 0 then return (0, buf)
    else do
      let (leading, chunksize) := env.geo.chunk off remain
      if chunksize = env.geo.writesize then do
        let got ← readPhysPage env (off - leading)
        let buf := buf.memcpy ptr got.2.1 0 chunksize
        if got.1 < 0 then return (got.1, buf)
        else readDataFrom fuel (off + chunksize) (ptr + chunksize) (remain - chunksize) buf
      else do
        let ret ← readToPageCache env (off - leading)
        if ret < 0 then return (ret, buf)
        else do
          let i ← ni
          readDataFrom fuel (off + chunksize) (ptr + chunksize) (remain - chunksize)
            (buf.memcpy ptr i.pageCache leading chunksize)

/-- `nmbn_read_data` into a buffer at offset `ptr`: the code, and the buffer after it. -/
def readData (addr : Nat) (buf : Bytes) (ptr size : Nat) : Routine (Int × Bytes) :=
  readDataFrom env size addr ptr size buf

/-- The loop of `nmbn_write_verify_data`. -/
def writeVerifyFrom (data : Bytes) : (fuel off ptr remain : Nat) → Routine Bool
  | 0, _, _, _ => return true
  | fuel + 1, off, ptr, remain =>
    if remain = 0 then return true
    else do
      let (leading, chunksize) := env.geo.chunk off remain
      let rawpageSize := env.geo.writesize + env.geo.oobsize
      setNi fun i =>
        { i with
          pageCache := (i.pageCache.memset 0 0xff rawpageSize).memcpy leading data ptr chunksize }
      let success ← writeCachedPage env (off - leading)
      let i ← ni
      if success && i.pageCache.slice leading chunksize = data.slice ptr chunksize then
        writeVerifyFrom data fuel (off + chunksize) (ptr + chunksize) (remain - chunksize)
      else return false

/-- `nmbn_write_verify_data` of `size` bytes at offset `ptr`. -/
def writeVerifyData (addr : Nat) (data : Bytes) (ptr size : Nat) : Routine Bool :=
  writeVerifyFrom env data size addr ptr size

/-- One round of `nmbm_write_mgmt_range`: whether the chunk went into the block. A block that
fails is retired. -/
def writeMgmtBlock (data : Bytes) (ba ptr chunksize : Nat) : Routine Bool := do
  let i ← ni
  if i.good ba then do
    let bad ← checkBadPhysBlock env ba
    if bad then do
      setState ba blockStBad
      return false
    else do
      let erased ← eraseBlockAndCheck env ba
      let written ←
        if erased then writeVerifyData env (env.geo.ba2addr ba) data ptr chunksize
        else pure false
      if written then return true
      else do
        retireBlock env ba
        return false
  else return false

/-- The loop of `nmbm_write_mgmt_range`, with `left` blocks to go and `size - ptr` bytes to
write: the first block that took data, and the block behind the last. -/
def writeMgmtFrom (data : Bytes) (size : Nat) :
    (left ba ptr : Nat) → (start : Nat) → Routine (Option (Nat × Nat))
  | 0, ba, ptr, start => return if size ≤ ptr then some (start, ba) else none
  | left + 1, ba, ptr, start =>
    if size ≤ ptr then return some (start, ba)
    else do
      let chunksize := min (size - ptr) env.geo.erasesize
      let done ← writeMgmtBlock env data ba ptr chunksize
      if done then
        writeMgmtFrom data size left (ba + 1) (ptr + chunksize) (if ptr = 0 then ba else start)
      else writeMgmtFrom data size left (ba + 1) ptr start

/-- `nmbm_write_mgmt_range` -/
def writeMgmtRange (ba limit : Nat) (data : Bytes) (size : Nat) : Routine (Option (Nat × Nat)) :=
  writeMgmtFrom env data size (limit - ba) ba 0 ba

end Filogic.Nmbm
