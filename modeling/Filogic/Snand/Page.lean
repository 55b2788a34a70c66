import Filogic.Snand.Ecc

/-! Page read and write of `mtk-snand.c`, in the hardware's auto-format mode and in raw mode,
and the bad-block operations on top of them. -/

namespace Filogic.Snand
open Lib

namespace Geometry

/-- The early return of the four swap functions. -/
def swaps (g : Geometry) : Bool := g.soc.bbmSwap && g.eccSteps != 1

end Geometry

/-- `mtk_snand_bm_swap_raw` -/
def bmSwapRaw (g : Geometry) (cache : Bytes) : Bytes :=
  if g.swaps then
    cache.exchange ((g.eccSteps - 1) * g.rawSectorSize + g.soc.sectorSize) g.writesize
  else cache

/-- `mtk_snand_bm_swap` -/
def bmSwap (g : Geometry) (cache : Bytes) : Bytes :=
  if g.swaps then
    cache.exchange (g.writesize + (g.eccSteps - 1) * g.soc.fdmSize)
      (g.writesize - (g.eccSteps - 1) * g.sparePerSector)
  else cache

/-- `mtk_snand_fdm_bm_swap_raw` -/
def fdmBmSwapRaw (g : Geometry) (cache : Bytes) : Bytes :=
  if g.swaps then
    cache.exchange g.soc.sectorSize ((g.eccSteps - 1) * g.rawSectorSize + g.soc.sectorSize)
  else cache

/-- `mtk_snand_fdm_bm_swap` -/
def fdmBmSwap (g : Geometry) (cache : Bytes) : Bytes :=
  if g.swaps then
    cache.exchange g.writesize (g.writesize + (g.eccSteps - 1) * g.soc.fdmSize)
  else cache

/-- The pair of caller buffers; a null pointer is `none`. -/
structure Buffers where
  buf : Option Bytes
  oob : Option Bytes

/-- One round of `mtk_snand_from_raw_page`, for sector `i`. -/
def fromRawSector (g : Geometry) (cache : Bytes) (i : Nat) (out : Buffers) : Buffers where
  buf := out.buf.map fun buf =>
    buf.memcpy (i * g.soc.sectorSize) cache (i * g.rawSectorSize) g.soc.sectorSize
  oob := out.oob.map fun oob =>
    (oob.memcpy (i * g.soc.fdmSize) cache (i * g.rawSectorSize + g.soc.sectorSize)
      g.soc.fdmSize).memcpy
      (g.eccSteps * g.soc.fdmSize + i * g.eccBytes) cache
      (i * g.rawSectorSize + g.soc.sectorSize + g.soc.fdmSize) g.eccBytes

/-- `mtk_snand_from_raw_page` -/
def fromRawPage (g : Geometry) (cache : Bytes) (out : Buffers) : Buffers :=
  forRange (fromRawSector g cache) g.eccSteps out

/-- One round of `mtk_snand_to_raw_page`, for sector `i`. -/
def toRawSector (g : Geometry) (src : Buffers) (emptyEcc : Bool) (i : Nat) (cache : Bytes) :
    Bytes :=
  let raw := i * g.rawSectorSize
  let ecc := raw + (g.soc.sectorSize + g.soc.fdmSize)
  let cache := (cache.memcpyOpt raw src.buf (i * g.soc.sectorSize) g.soc.sectorSize).memcpyOpt
    (raw + g.soc.sectorSize) src.oob (i * g.soc.fdmSize) g.soc.fdmSize
  if src.oob.isSome ∧ emptyEcc then
    cache.memset ecc 0xff g.eccBytes
  else
    cache.memcpyOpt ecc src.oob (g.eccSteps * g.soc.fdmSize + i * g.eccBytes) g.eccBytes

/-- `mtk_snand_to_raw_page` -/
def toRawPage (g : Geometry) (src : Buffers) (emptyEcc : Bool) (cache : Bytes) : Bytes :=
  forRange (toRawSector g src emptyEcc) g.eccSteps
    (cache.memset 0 0xff (g.writesize + g.oobsize))

/-- `mtk_snand_is_empty_page`: data and protected FDM bytes are all 0xff. -/
def isEmptyPage (g : Geometry) (src : Buffers) : Bool :=
  (src.buf.all fun buf => (List.range g.writesize).all fun i => buf i == 0xff) &&
  (src.oob.all fun oob => (List.range g.eccSteps).all fun j =>
    (List.range g.soc.fdmEccSize).all fun i => oob (j * g.soc.fdmSize + i) == 0xff)

/-- The page cache `mtk_snand_do_write_page` prepares for a raw write. -/
def rawImage (g : Geometry) (src : Buffers) (emptyEcc format : Bool) (cache : Bytes) : Bytes :=
  if format then
    bmSwapRaw g (fdmBmSwapRaw g (toRawPage g src emptyEcc cache))
  else
    ((cache.memset 0 0xff (g.writesize + g.oobsize)).memcpyOpt 0 src.buf 0 g.writesize).memcpyOpt
      g.writesize src.oob 0 (g.eccSteps * g.sparePerSector)

/-- The page cache it prepares for the auto-format mode, before the swaps. -/
def formatImage (g : Geometry) (src : Buffers) (cache : Bytes) : Bytes :=
  ((cache.memset 0 0xff (g.writesize + g.oobsize)).memcpyOpt 0 src.buf 0 g.writesize).memcpyOpt
    g.writesize src.oob 0 (g.eccSteps * g.soc.fdmSize)

def eccImage (g : Geometry) (src : Buffers) (cache : Bytes) : Bytes :=
  bmSwap g (fdmBmSwap g (formatImage g src cache))

/-- `mtk_snand_write_fdm`: each sector's FDM register pair, filled up with 0xff. -/
def writeFdm (g : Geometry) (cache : Bytes) (fdmRegs : Nat → Nat → UInt8) : Nat → Nat → UInt8 :=
  fun i j =>
    if i < g.eccSteps ∧ j < 8 then
      if j < g.soc.fdmSize then cache (g.writesize + i * g.soc.fdmSize + j) else 0xff
    else fdmRegs i j

/-- `mtk_snand_read_fdm` -/
def readFdm (g : Geometry) (fdmRegs : Nat → Nat → UInt8) (cache : Bytes) : Bytes :=
  forRange (fun i m => m.memcpy (g.writesize + i * g.soc.fdmSize) (fdmRegs i) 0 g.soc.fdmSize)
    g.eccSteps cache

/-- One sector as the hardware lays it out on the page: data, FDM, parity. -/
def encodeSector (g : Geometry) (ecc : EccEngine g) (cache : Bytes) (fdmRegs : Nat → Nat → UInt8)
    (i : Nat) (raw : Bytes) : Bytes :=
  let data := cache.slice (i * g.soc.sectorSize) g.soc.sectorSize
  ((raw.memcpy (i * g.rawSectorSize) cache (i * g.soc.sectorSize) g.soc.sectorSize).memcpy
    (i * g.rawSectorSize + g.soc.sectorSize) (fdmRegs i) 0 g.soc.fdmSize).splice
    (i * g.rawSectorSize + (g.soc.sectorSize + g.soc.fdmSize))
    (ecc.parity data (Bytes.slice (fdmRegs i) 0 g.soc.fdmEccSize))

/-- `mtk_snand_program_load`: the chip's cache register, cleared to 0xff and loaded either with
the page cache as it is or through the encoder. -/
def programLoad (g : Geometry) (ecc : EccEngine g) (raw : Bool) : Prog World Int := fun w =>
  let c := w.cycle
  let fdmRegs := if raw then w.fdmRegs else writeFdm g w.pageCache w.fdmRegs
  let loaded :=
    if raw then Bytes.memcpy (fun _ => 0xff) 0 w.pageCache 0 (g.eccSteps * g.rawSectorSize)
    else forRange (encodeSector g ecc w.pageCache fdmRegs) g.eccSteps (fun _ => 0xff)
  (c.ret, { w with
    fdmRegs := fdmRegs
    cacheReg := if c.ret = 0 then loaded else c.torn 0
    tick := w.tick + 1 })

/-- The parts of sector `i` of a raw page that take part in ECC. -/
def sectorData (g : Geometry) (raw : Bytes) (i : Nat) : List UInt8 :=
  raw.slice (i * g.rawSectorSize) g.soc.sectorSize
def sectorFdm (g : Geometry) (raw : Bytes) (i : Nat) : List UInt8 :=
  raw.slice (i * g.rawSectorSize + g.soc.sectorSize) g.soc.fdmEccSize
def sectorParity (g : Geometry) (raw : Bytes) (i : Nat) : List UInt8 :=
  raw.slice (i * g.rawSectorSize + (g.soc.sectorSize + g.soc.fdmSize)) g.eccBytes

/-- What the decoder delivers for sector `i` of a raw page. -/
def decodeSector (g : Geometry) (ecc : EccEngine g) (raw : Bytes) (i : Nat) : Decoded :=
  ecc.decode (sectorData g raw i) (sectorFdm g raw i) (sectorParity g raw i)

/-- The FDM registers after an auto-format read: protected bytes come from the decoder. -/
def loadFdmRegs (g : Geometry) (ecc : EccEngine g) (raw : Bytes) (fdmRegs : Nat → Nat → UInt8) :
    Nat → Nat → UInt8 := fun i j =>
  if i < g.eccSteps ∧ j < g.soc.fdmSize then
    if j < g.soc.fdmEccSize then (decodeSector g ecc raw i).fdm.getD j 0
    else raw (i * g.rawSectorSize + g.soc.sectorSize + j)
  else fdmRegs i j

/-- `mtk_snand_read_ecc_parity` -/
def readEccParity (g : Geometry) (sect : Nat) : Prog World Int := do
  if 4 + g.eccBytes > 0xa0 then
    pure (-enotsupp)
  else do
    let (ret, parity) ← macIo g (.readFromCache
      (sect * g.rawSectorSize + (g.soc.sectorSize + g.soc.fdmSize)) g.eccBytes)
    if ret = 0 then
      Prog.modify fun w => { w with pageCache := w.pageCache.splice (g.eccPtr sect) parity }
    pure ret

/-- The loop of `mtk_snand_check_ecc_result` from sector `i`, with `left` sectors to go. -/
def checkEccFrom (g : Geometry) : (left i : Nat) → (ret maxBitflips : Int) → Prog World Int
  | 0, _, ret, maxBitflips => pure (if ret ≠ 0 then ret else maxBitflips)
  | left + 1, i, ret, maxBitflips => do
    let w ← Prog.get
    if 0 ≤ w.sectBf i then
      checkEccFrom g left (i + 1) ret (max maxBitflips (w.sectBf i))
    else do
      let rc ← readEccParity g i
      if rc ≠ 0 then
        pure rc
      else do
        let w ← Prog.get
        let (rc, cache) := fixupEmptySector g i w.pageCache
        if rc < 0 then do
          Prog.modify fun w => { w with pageCache := cache }
          checkEccFrom g left (i + 1) (-ebadmsg) maxBitflips
        else do
          Prog.modify fun w =>
            { w with pageCache := cache, sectBf := Function.update w.sectBf i rc }
          checkEccFrom g left (i + 1) ret (max maxBitflips rc)

/-- `mtk_snand_check_ecc_result` -/
def checkEccResult (g : Geometry) : Prog World Int := checkEccFrom g g.eccSteps 0 0 0

/-- The DMA part of `mtk_snand_read_cache`, up to the return code of the transfer. -/
def transferCache (g : Geometry) (ecc : EccEngine g) (raw : Bool) : Prog World Int := fun w =>
  let c := w.cycle
  let data : Bytes := fun k =>
    if k < g.writesize then
      (decodeSector g ecc w.cacheReg (k / g.soc.sectorSize)).data.getD (k % g.soc.sectorSize) 0
    else w.pageCache k
  let w' := { w with tick := w.tick + 1 }
  if c.ret ≠ 0 then
    (c.ret, { w' with pageCache := c.torn 0 })
  else if raw then
    (0, { w' with
      pageCache := w.pageCache.memcpy 0 w.cacheReg 0 (g.eccSteps * g.rawSectorSize) })
  else
    let regs := loadFdmRegs g ecc w.cacheReg w.fdmRegs
    let decEnum := fun i => (decodeSector g ecc w.cacheReg i).errnum
    (0, { w' with
      fdmRegs := regs
      decEnum := decEnum
      pageCache := readFdm g regs data
      sectBf := checkDecodeError g decEnum w.sectBf })

/-- `mtk_snand_read_cache` -/
def readCache (g : Geometry) (ecc : EccEngine g) (raw : Bool) : Prog World Int := do
  let ret ← transferCache g ecc raw
  if ret ≠ 0 then
    pure ret
  else if raw then
    pure 0
  else
    checkEccResult g

/-- The retry loop of `mtk_snand_do_read_page` over the sample delays that are left. -/
def readCacheRetry (g : Geometry) (ecc : EccEngine g) (raw : Bool) : Nat → Prog World Int
  | 0 => readCache g ecc raw
  | retries + 1 => do
    let ret ← readCache g ecc raw
    if ret = -ebadmsg then
      readCacheRetry g ecc raw retries
    else
      pure ret

/-- The tail of `mtk_snand_do_read_page`: from the page cache to the caller's buffers. -/
def deliver (g : Geometry) (raw format : Bool) (out : Buffers) : Prog World Buffers := do
  if raw then
    if format then do
      Prog.modify fun w => { w with pageCache := fdmBmSwapRaw g (bmSwapRaw g w.pageCache) }
      let w ← Prog.get
      pure (fromRawPage g w.pageCache out)
    else do
      let w ← Prog.get
      pure
        { buf := out.buf.map fun buf => buf.memcpy 0 w.pageCache 0 g.writesize
          oob := out.oob.map fun oob => (oob.memset 0 0xff g.oobsize).memcpy 0 w.pageCache
            g.writesize (g.eccSteps * g.sparePerSector) }
  else do
    Prog.modify fun w => { w with pageCache := fdmBmSwap g (bmSwap g w.pageCache) }
    let w ← Prog.get
    pure
      { buf := out.buf.map fun buf => buf.memcpy 0 w.pageCache 0 g.writesize
        oob := out.oob.map fun oob => (oob.memset 0 0xff g.oobsize).memcpy 0 w.pageCache
          g.writesize (g.eccSteps * g.soc.fdmSize) }

/-- The bus part of `mtk_snand_do_read_page`: from the array to the page cache. -/
def fetchPage (g : Geometry) (ecc : EccEngine g) (page : Nat) (raw : Bool) :
    Prog World (Int × Bool) := do
  let ret ← pageOp g (.readToCache page)
  if ret ≠ 0 then
    pure (ret, false)
  else do
    let ret ← pollStatus g
    if ret < 0 then
      pure (ret, false)
    else do
      let ret ← readCacheRetry g ecc raw 16
      pure (ret, decide (0 ≤ ret ∨ ret = -ebadmsg))

/-- `mtk_snand_do_read_page`: the return code and what the caller's buffers then hold. -/
def doReadPage (g : Geometry) (ecc : EccEngine g) (addr : Nat) (out : Buffers)
    (raw format : Bool) : Prog World (Int × Buffers) := do
  let dieAddr ← selectDieAddress g addr
  let fetched ← fetchPage g ecc (dieAddr >>> g.writesizeShift) raw
  if fetched.2 then do
    let out ← deliver g raw format out
    pure (fetched.1, out)
  else
    pure (fetched.1, out)

/-- `mtk_snand_read_page` -/
def readPage (g : Geometry) (ecc : EccEngine g) (addr : Nat) (out : Buffers) (raw : Bool) :
    Prog World (Int × Buffers) :=
  if (out.buf.isNone ∧ out.oob.isNone) ∨ g.size ≤ addr then
    pure (-einval, out)
  else
    doReadPage g ecc addr out raw true

/-- The page cache of `mtk_snand_do_write_page` and the mode it is programmed in: a page whose
protected bytes are all 0xff is written raw, with an erased parity area. -/
def writeImage (g : Geometry) (src : Buffers) (raw format : Bool) (cache : Bytes) :
    Bytes × Bool :=
  if raw then
    (rawImage g src false format cache, true)
  else if isEmptyPage g src then
    (rawImage g src true true cache, true)
  else
    (eccImage g src cache, false)

/-- The bus part of `mtk_snand_do_write_page`: load, execute and wait. -/
def programPage (g : Geometry) (ecc : EccEngine g) (page : Nat) (raw : Bool) :
    Prog World Int := do
  let ret ← writeEnable g
  if ret ≠ 0 then
    pure ret
  else do
    let ret ← programLoad g ecc raw
    if ret ≠ 0 then
      pure ret
    else do
      let ret ← pageOp g (.programExecute page)
      if ret ≠ 0 then
        pure ret
      else do
        let ret ← pollStatus g
        if ret < 0 then
          pure ret
        else if ret / 8 % 2 = 1 then
          pure (-eio)
        else
          pure 0

/-- `mtk_snand_do_write_page` -/
def doWritePage (g : Geometry) (ecc : EccEngine g) (addr : Nat) (src : Buffers)
    (raw format : Bool) : Prog World Int := do
  let dieAddr ← selectDieAddress g addr
  let w ← Prog.get
  let image := writeImage g src raw format w.pageCache
  Prog.modify fun w => { w with pageCache := image.1 }
  programPage g ecc (dieAddr >>> g.writesizeShift) image.2

/-- `mtk_snand_write_page` -/
def writePage (g : Geometry) (ecc : EccEngine g) (addr : Nat) (src : Buffers) (raw : Bool) :
    Prog World Int :=
  if (src.buf.isNone ∧ src.oob.isNone) ∨ g.size ≤ addr then
    pure (-einval)
  else
    doWritePage g ecc addr src raw true

/-- `mtk_snand_erase_block` -/
def eraseBlock (g : Geometry) (addr : Nat) : Prog World Int :=
  if g.size ≤ addr then
    pure (-einval)
  else do
    let dieAddr ← selectDieAddress g addr
    let block := dieAddr >>> g.erasesizeShift
    let page := block <<< (g.erasesizeShift - g.writesizeShift)
    let ret ← writeEnable g
    if ret ≠ 0 then
      pure ret
    else do
      let ret ← pageOp g (.blockErase page)
      if ret ≠ 0 then
        pure ret
      else do
        let ret ← pollStatus g
        if ret < 0 then
          pure ret
        else if ret / 4 % 2 = 1 then
          pure (-eio)
        else
          pure 0

/-- `addr & ~erasesize_mask`, the mask being a 32-bit value. -/
def blockStart (g : Geometry) (addr : Nat) : Nat :=
  addr &&& (2 ^ 32 - 1 - g.erasesizeMask)

/-- `mtk_snand_block_isbad_std`, `mtk_snand_block_isbad_mtk`: a raw read of the OOB into
`buf_cache`, unformatted for the first and formatted for the second. -/
def blockIsbadRaw (g : Geometry) (ecc : EccEngine g) (addr : Nat) (format : Bool) :
    Prog World Int := do
  let w ← Prog.get
  let (ret, out) ← doReadPage g ecc addr { buf := none, oob := some w.bufCache } true format
  Prog.modify fun w => { w with bufCache := out.oob.getD w.bufCache }
  if ret ≠ 0 ∧ ret ≠ -ebadmsg then
    pure ret
  else do
    let w ← Prog.get
    pure (if w.bufCache 0 ≠ 0xff then 1 else 0)

def blockIsbadStd (g : Geometry) (ecc : EccEngine g) (addr : Nat) : Prog World Int :=
  blockIsbadRaw g ecc addr false

def blockIsbadMtk (g : Geometry) (ecc : EccEngine g) (addr : Nat) : Prog World Int :=
  blockIsbadRaw g ecc addr true

/-- `mtk_snand_block_isbad` -/
def blockIsbad (g : Geometry) (ecc : EccEngine g) (addr : Nat) : Prog World Int :=
  if g.size ≤ addr then
    pure (-einval)
  else if g.soc.bbmSwap then
    blockIsbadStd g ecc (blockStart g addr)
  else
    blockIsbadMtk g ecc (blockStart g addr)

/-- `mtk_snand_block_markbad_std` -/
def blockMarkbadStd (g : Geometry) (ecc : EccEngine g) (addr : Nat) : Prog World Int := do
  Prog.modify fun w =>
    { w with bufCache := Function.update (w.bufCache.memset 0 0xff g.oobsize) 0 0 }
  let w ← Prog.get
  doWritePage g ecc addr { buf := none, oob := some w.bufCache } true false

/-- `mtk_snand_block_markbad_mtk` -/
def blockMarkbadMtk (g : Geometry) (ecc : EccEngine g) (addr : Nat) : Prog World Int := do
  Prog.modify fun w => { w with bufCache := w.bufCache.memset 0 0 (g.writesize + g.oobsize) }
  let w ← Prog.get
  doWritePage g ecc addr
    { buf := some w.bufCache, oob := some fun k => w.bufCache (g.writesize + k) } true true

/-- `mtk_snand_block_markbad` -/
def blockMarkbad (g : Geometry) (ecc : EccEngine g) (addr : Nat) : Prog World Int :=
  if g.size ≤ addr then
    pure (-einval)
  else if g.soc.bbmSwap then
    blockMarkbadStd g ecc (blockStart g addr)
  else
    blockMarkbadMtk g ecc (blockStart g addr)

/-- The loop of `mtk_snand_mtd_erase` over the `blocks` that are left. `ret` is the variable of
that name, which the C code leaves unset until the first block. -/
def mtdEraseFrom (g : Geometry) (ecc : EccEngine g) : (blocks addr : Nat) → (ret : Int) →
    Prog World (Int × Option Nat)
  | 0, _, ret => pure (ret, none)
  | blocks + 1, addr, _ => do
    let bad ← blockIsbad g ecc addr
    if bad ≠ 0 then
      pure (-eio, some addr)
    else do
      let ret ← eraseBlock g addr
      if ret ≠ 0 then
        pure (ret, some addr)
      else
        mtdEraseFrom g ecc blocks (addr + g.erasesize) ret

/-- `mtk_snand_mtd_erase`: the return code and the `fail_addr` it stored, if any. -/
def mtdErase (g : Geometry) (ecc : EccEngine g) (addr len : Nat) (unset : Int) :
    Prog World (Int × Option Nat) :=
  if g.size < addr + len then
    pure (-einval, none)
  else
    let start := blockStart g addr
    let stop := addr + len
    let stop :=
      if stop &&& g.erasesizeMask ≠ 0 then blockStart g (stop + g.erasesizeMask) else stop
    mtdEraseFrom g ecc ((stop - start + g.erasesizeMask) / g.erasesize) start unset

end Filogic.Snand
