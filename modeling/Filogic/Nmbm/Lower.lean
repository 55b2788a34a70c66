import Filogic.Nmbm.Instance

/-! Access to the chip: the calls of the lower device, and the routines of `nmbm-core.c` that
make them with retries. -/

namespace Filogic.Nmbm
open Lib

variable (env : Env)

/-- `NMBM_TRY_COUNT` -/
def tryCount : Nat := 3

/-- Make a call, and learn how it ends. -/
def lowerCall (call : LowerCall) : Routine Fate := do
  let w ← Prog.get
  Prog.modify fun w => { w.note (.lower call) with tick := w.tick + 1 }
  return env.fate w.tick call

def setChip (f : Chip → Chip) : Routine Unit := Prog.modify fun w => { w with chip := f w.chip }

namespace Geometry

variable (geo : Geometry)

/-- The page that holds an address, and where it starts. -/
def pageOf (addr : Nat) : Nat := addr / geo.writesize
def pageStart (addr : Nat) : Nat := geo.pageOf addr * geo.writesize

/-- The pages of a block. -/
def inBlock (ba page : Nat) : Prop :=
  geo.ba2addr ba ≤ page * geo.writesize ∧ page * geo.writesize < geo.ba2addr (ba + 1)

instance (ba page : Nat) : Decidable (geo.inBlock ba page) :=
  inferInstanceAs (Decidable (_ ∧ _))

end Geometry

namespace Chip

variable (geo : Geometry)

/-- The page of an address gets new content; a null spare buffer leaves the spare area. -/
def setPage (chip : Chip) (addr : Nat) (main : Bytes) (oob : Option Bytes) : Chip :=
  { chip with
    main := chip.main.memcpy (geo.pageStart addr) main 0 geo.writesize
    oob := match oob with
      | none => chip.oob
      | some oob => Function.update chip.oob (geo.pageOf addr) oob }

/-- The block of an address gets new content. -/
def setBlock (chip : Chip) (addr : Nat) (main oob : Bytes) : Chip :=
  { chip with
    main := chip.main.memcpy (geo.ba2addr (geo.addr2ba addr)) main 0 geo.erasesize
    oob := fun page => if geo.inBlock (geo.addr2ba addr) page then oob else chip.oob page }

end Chip

/-- `lower.reset_chip` -/
def resetChip : Routine Unit := do
  let _ ← lowerCall env .resetChip

/-- `lower.read_page`: the code, the page and its spare bytes. A read that fails hands back
anything. -/
def lowerReadPage (addr : Nat) : Routine (Int × Bytes × Bytes) := do
  let fate ← lowerCall env (.readPage addr)
  let w ← Prog.get
  if 0 ≤ fate.ret then
    let start := env.geo.pageStart addr
    return (fate.ret, fun k => w.chip.main (start + k), w.chip.oob (env.geo.pageOf addr))
  else
    return (fate.ret, fate.main, fate.oob)

/-- `lower.write_page` and `lower.panic_write_page`. A program that fails leaves anything in
the page. -/
def lowerWritePage (panic : Bool) (addr : Nat) (data : Bytes) (oob : Option Bytes) :
    Routine Int := do
  let fate ← lowerCall env (if panic then .panicWritePage addr else .writePage addr)
  if fate.ret = 0 then setChip fun chip => chip.setPage env.geo addr data oob
  else setChip fun chip => chip.setPage env.geo addr fate.main (some fate.oob)
  return fate.ret

/-- `lower.erase_block`. An erase that fails leaves anything in the block. -/
def lowerEraseBlock (addr : Nat) : Routine Int := do
  let fate ← lowerCall env (.eraseBlock addr)
  if fate.ret = 0 then
    setChip fun chip => chip.setBlock env.geo addr (fun _ => 0xff) (fun _ => 0xff)
  else setChip fun chip => chip.setBlock env.geo addr fate.main fate.oob
  return fate.ret

/-- `lower.is_bad_block`: true for a marked block, and for a block that could not be looked
at. -/
def lowerIsBadBlock (addr : Nat) : Routine Bool := do
  let fate ← lowerCall env (.isBadBlock addr)
  let w ← Prog.get
  return w.chip.marked (env.geo.addr2ba addr) || fate.flag

/-- `lower.mark_bad_block` -/
def lowerMarkBadBlock (addr : Nat) : Routine Int := do
  let fate ← lowerCall env (.markBadBlock addr)
  if fate.ret = 0 then
    setChip fun chip =>
      { chip with marked := Function.update chip.marked (env.geo.addr2ba addr) true }
  return fate.ret

/-- The loop of `nmbm_read_phys_page`; `last` is what the try before returned. -/
def readPhysPageTries (addr : Nat) :
    (tries : Nat) → (last : Int × Bytes × Bytes) → Routine (Int × Bytes × Bytes)
  | 0, last => return last
  | tries + 1, _ => do
    let got ← lowerReadPage env addr
    if 0 ≤ got.1 then return got
    else do
      resetChip env
      readPhysPageTries addr tries got

/-- `nmbm_read_phys_page`. The caller copies what it asked for. -/
def readPhysPage (addr : Nat) : Routine (Int × Bytes × Bytes) :=
  readPhysPageTries env addr tryCount (0, fun _ => 0, fun _ => 0)

/-- Try a call that returns zero on success, and reset the chip each time it fails. -/
def retry (call : Routine Int) : (tries : Nat) → Routine Bool
  | 0 => return false
  | tries + 1 => do
    let ret ← call
    if ret = 0 then return true
    else do
      resetChip env
      retry call tries

/-- `nmbm_write_phys_page` -/
def writePhysPage (addr : Nat) (data : Bytes) (oob : Option Bytes) : Routine Bool := do
  let i ← ni
  if i.lower.readOnly then return false
  else retry env (lowerWritePage env false addr data oob) tryCount

/-- `nmbm_panic_write_phys_page` -/
def panicWritePhysPage (addr : Nat) (data : Bytes) : Routine Bool := do
  let i ← ni
  if i.lower.readOnly then return false
  else retry env (lowerWritePage env true addr data none) tryCount

/-- `nmbm_erase_phys_block` -/
def erasePhysBlock (addr : Nat) : Routine Bool := do
  let i ← ni
  if i.lower.readOnly then return false
  else retry env (lowerEraseBlock env addr) tryCount

/-- Read a page into the page cache. -/
def readToPageCache (addr : Nat) : Routine Int := do
  let got ← readPhysPage env addr
  setNi fun i => { i with pageCache := i.pageCache.memcpy 0 got.2.1 0 env.geo.writesize }
  return got.1

/-- `nmbm_check_bad_phys_block` -/
def checkBadPhysBlock (ba : Nat) : Routine Bool := do
  let addr := env.geo.ba2addr ba
  let i ← ni
  if i.lower.isBadBlock then lowerIsBadBlock env addr
  else do
    let got ← readPhysPage env addr
    setNi fun i =>
      { i with pageCache := i.pageCache.memcpy env.geo.writesize got.2.2 0 env.geo.oobsize }
    let i ← ni
    return (got.1 < 0 && got.1 != -ebadmsg) || i.pageCache env.geo.writesize != 0xff

/-- The loop of `nmbm_mark_phys_bad_block` over the pages from address `addr`. -/
def writeZeroPages (addr : Nat) : (pages : Nat) → Routine Unit
  | 0 => return ()
  | pages + 1 => do
    let i ← ni
    let cache := i.pageCache
    let _ ← writePhysPage env addr cache (some fun k => cache (env.geo.writesize + k))
    writeZeroPages (addr + env.geo.writesize) pages

/-- `nmbm_mark_phys_bad_block`. No caller looks at its code. -/
def markPhysBadBlock (ba : Nat) : Routine Unit := do
  let addr := env.geo.ba2addr ba
  let i ← ni
  if i.lower.readOnly then return ()
  else if i.lower.markBadBlock then do
    let _ ← lowerMarkBadBlock env addr
  else do
    let rawpageSize := env.geo.writesize + env.geo.oobsize
    setNi fun i => { i with pageCache := i.pageCache.memset 0 0 rawpageSize }
    writeZeroPages env addr (env.geo.erasesize / env.geo.writesize)

end Filogic.Nmbm
