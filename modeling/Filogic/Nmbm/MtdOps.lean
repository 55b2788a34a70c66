import Filogic.Nmbm.Writing
import Filogic.Lib.PagedIo

/-! Data and spare bytes together, `nmbm-mtd.c`: the MTD device over an instance. -/

namespace Filogic.Nmbm
open Lib

/-- What the lower MTD device says of its spare area: the bytes that are free for the caller, and
where the layout puts them. -/
structure LowerMtd (geo : Geometry) where
  oobavail : Nat
  freeByte : Nat → Nat
  avail_le : oobavail ≤ geo.oobsize
  free_apart : ∀ i < oobavail, ∀ j < oobavail, freeByte i = freeByte j → i = j

/-- The buffers and the mode of a `struct mtd_oob_ops`. -/
structure MtdOobOps where
  mode : OobMode
  datbuf : Option Bytes
  oobbuf : Option Bytes
  len : Nat
  ooblen : Nat
  ooboffs : Nat

namespace LowerMtd

variable {geo : Geometry} (lower : LowerMtd geo)

/-- `mtd_oobavail` -/
def mtdOobavail : OobMode → Nat
  | .autoOob => lower.oobavail
  | _ => geo.oobsize

/-- The spare area of a page once the bytes of a caller were put in. -/
def putSpare (mode : OobMode) (spare oob : Bytes) : Bytes :=
  match mode with
  | .autoOob => fun p =>
      ((List.range lower.oobavail).find? fun j => lower.freeByte j = p).elim (spare p) oob
  | _ => oob

/-- The bytes of a spare area as a caller gets them. -/
def getSpare (mode : OobMode) (spare : Bytes) : Bytes :=
  match mode with
  | .autoOob => fun j => spare (lower.freeByte j)
  | _ => spare

/-- The sizes that the loops of the MTD device go by. -/
def sizes (mode : OobMode) : Paged.Sizes where
  writesize := geo.writesize
  oobsize := geo.oobsize
  maxooblen := lower.mtdOobavail mode

theorem mtdOobavail_le (mode : OobMode) : lower.mtdOobavail mode ≤ geo.oobsize := by
  cases mode
  · exact le_rfl
  · exact lower.avail_le
  · exact le_rfl

end LowerMtd

section Device

variable (env : Env) (lower : LowerMtd env.geo) (mode : OobMode)

/-- `nmbm_lower_write_page`, whose buffers may be null. A program that fails leaves anything in the
page. -/
def lowerWriteBuffers (addr : Nat) (data oob : Option Bytes) : Routine Int := do
  let fate ← lowerCall env (.writePage addr)
  if fate.ret = 0 then
    setChip fun chip =>
      { chip with
        main := chip.main.memcpyOpt (env.geo.pageStart addr) data 0 env.geo.writesize
        oob := match oob with
          | none => chip.oob
          | some oob => Function.update chip.oob (env.geo.pageOf addr)
              (lower.putSpare mode (chip.oob (env.geo.pageOf addr)) oob) }
  else setChip fun chip => chip.setPage env.geo addr fate.main (some fate.oob)
  return fate.ret

/-- `nmbm_write_phys_page` -/
def writePhysBuffers (addr : Nat) (data oob : Option Bytes) : Routine Bool := do
  let i ← ni
  if i.lower.readOnly then return false
  else retry env (lowerWriteBuffers env lower mode addr data oob) tryCount

/-- `nmbm_write_logic_page` -/
def writeLogicBuffers (addr : Nat) (data oob : Option Bytes) : Routine Int := do
  let i ← ni
  match logicAddr env i addr with
  | none => return -eio
  | some paddr =>
    let success ← writePhysBuffers env lower mode paddr data oob
    if success then return 0
    else do
      needRemap env (i.blockMapping (env.geo.addr2ba addr)).toNat
      return -eio

/-- `nmbm_write_single_page` -/
def writeSingleBuffers (addr : Nat) (data oob : Option Bytes) : Routine Int := do
  let i ← ni
  match refuseWrite env i addr 0 with
  | some ret => return ret
  | none => writeLogicBuffers env lower mode addr data oob

/-- `nmbm_read_single_page` into the cache of the MTD device: the data at its start, the spare bytes
behind them. -/
def readSingleBuffers (data oob : Bool) (addr : Nat) (cache : Bytes) : Routine (Int × Bytes) := do
  let i ← ni
  match refuseRead env i addr 0 with
  | some ret => return (ret, cache)
  | none =>
    match ← readLogicPage env addr with
    | (ret, none) => return (ret, cache)
    | (ret, some page) =>
      let cache := if data then cache.memcpy 0 page.1 0 env.geo.writesize else cache
      return (ret,
        if oob then
          cache.memcpy env.geo.writesize (lower.getSpare mode page.2) 0 (lower.mtdOobavail mode)
        else cache)

section Cases

theorem run_ni (w : World) : ni.run w = (w.ni, w) := rfl

theorem readLogicPage_mapped {addr paddr : Nat} {w : World}
    (place : logicAddr env w.ni addr = some paddr) :
    (readLogicPage env addr).run w =
      ((((readPhysPage env paddr).run w).1.1, some ((readPhysPage env paddr).run w).1.2),
        ((readPhysPage env paddr).run w).2) := by
  simp only [readLogicPage, Prog.run_bind, run_ni, place]
  rfl

variable {addr : Nat} {data oob : Option Bytes} {w : World}

theorem writeSingleBuffers_accepted (accepted : refuseWrite env w.ni addr 0 = none) :
    (writeSingleBuffers env lower mode addr data oob).run w =
      (writeLogicBuffers env lower mode addr data oob).run w := by
  simp only [writeSingleBuffers, Prog.run_bind, run_ni, accepted]

theorem readSingleBuffers_refused {data oob : Bool} {cache : Bytes} {ret : Int}
    (refused : refuseRead env w.ni addr 0 = some ret) :
    (readSingleBuffers env lower mode data oob addr cache).run w = ((ret, cache), w) := by
  simp only [readSingleBuffers, Prog.run_bind, run_ni, refused]
  rfl

theorem readSingleBuffers_unmapped {data oob : Bool} {cache : Bytes}
    (accepted : refuseRead env w.ni addr 0 = none) (place : logicAddr env w.ni addr = none) :
    (readSingleBuffers env lower mode data oob addr cache).run w = ((-eio, cache), w) := by
  have page : (readLogicPage env addr).run w = ((-eio, none), w) := by
    simp only [readLogicPage, Prog.run_bind, run_ni, place]
    rfl
  simp only [readSingleBuffers, Prog.run_bind, run_ni, accepted, page]
  rfl

/-- What a page is read into: the data at the start of the cache, the spare bytes behind them. -/
theorem readSingleBuffers_mapped {data oob : Bool} {cache : Bytes} {paddr : Nat}
    (accepted : refuseRead env w.ni addr 0 = none) (place : logicAddr env w.ni addr = some paddr) :
    (readSingleBuffers env lower mode data oob addr cache).run w =
      ((((readPhysPage env paddr).run w).1.1,
        (if oob then
          (if data then cache.memcpy 0 ((readPhysPage env paddr).run w).1.2.1 0 env.geo.writesize
            else cache).memcpy env.geo.writesize
            (lower.getSpare mode ((readPhysPage env paddr).run w).1.2.2) 0 (lower.mtdOobavail mode)
        else if data then cache.memcpy 0 ((readPhysPage env paddr).run w).1.2.1 0 env.geo.writesize
          else cache)),
        ((readPhysPage env paddr).run w).2) := by
  simp only [readSingleBuffers, Prog.run_bind, run_ni, accepted, readLogicPage_mapped env place]
  rfl

end Cases

/-- What `addr &= ~nm->lower->writesize_mask` leaves of an address, besides the start of the page: the
mask is an `unsigned int`, and its complement has 32 bits. -/
def maskedAddr (addr : Nat) : Nat := addr % 2 ^ 32

/-- `nmbm_mtd_write_data` -/
def mtdWriteData (ops : Paged.Request) (addr : Nat) (cache : Bytes) :
    Routine (Int × Paged.WriteState) :=
  Paged.writeData (lower.sizes mode) ops
    (fun page => writeSingleBuffers env lower mode page.addr page.data page.oob) (maskedAddr addr)
    cache

/-- `nmbm_mtd_read_data` -/
def mtdReadData (ops : Paged.Request) (addr : Nat) (cache : Bytes) :
    Routine (Int × Paged.ReadState) :=
  Paged.readData (lower.sizes mode) ops (-ebadmsg)
    (readSingleBuffers env lower mode (ops.len ≠ 0) (ops.ooblen ≠ 0)) (maskedAddr addr) cache

/-- The checks at the start of `nmbm_mtd_write_oob` and `nmbm_mtd_read_oob`, on a device of `size`
bytes; without spare bytes the request goes another way. -/
def refuseOob (size : Nat) (ops : MtdOobOps) (addr : Nat) : Option Int :=
  let maxooblen := lower.mtdOobavail ops.mode
  if ops.datbuf.isSome ∧ size < addr + ops.len then some (-einval)
  else if ops.oobbuf.isNone then none
  else if maxooblen ≤ ops.ooboffs then some (-einval)
  else if size ≤ addr ∨
      (size / env.geo.writesize - addr / env.geo.writesize) * maxooblen < ops.ooboffs + ops.ooblen then
    some (-einval)
  else none

/-- `nmbm_mtd_write_oob`, with what it programs page by page. -/
def mtdWriteOob (size : Nat) (ops : MtdOobOps) (addr : Nat) (cache : Bytes) :
    Routine (Int × Option Paged.WriteState) := do
  if ops.oobbuf.isNone ∧ ops.datbuf.isNone then
    return (if ops.ooblen ≠ 0 ∨ ops.len ≠ 0 then -einval else 0, none)
  else
    match refuseOob env lower size ops addr with
    | some ret => return (ret, none)
    | none =>
      match ops.oobbuf with
      | none => do
        let reply ← writeRange env addr ops.len (ops.datbuf.getD fun _ => 0)
        return (reply.ret, none)
      | some oobbuf => do
        let done ← mtdWriteData env lower ops.mode
          { datbuf := ops.datbuf.getD fun _ => 0
            oobbuf := oobbuf
            len := ops.len
            ooblen := ops.ooblen
            ooboffs := ops.ooboffs } addr cache
        return (done.1, some done.2)

end Device

end Filogic.Nmbm
