import Filogic.Snand.Agreement
import Filogic.Snand.Frame
import Filogic.Lib.PagedIo

/-! Data and spare bytes together, `mtk-snand-mtd.c`: the three modes of the spare bytes, and the
loops over pages. -/

namespace Filogic.Snand
open Lib

/-- `MTD_OPS_PLACE_OOB`, `MTD_OPS_AUTO_OOB` and `MTD_OPS_RAW` -/
inductive OobMode where
  | placeOob | autoOob | raw
  deriving DecidableEq, Repr

variable (g : Geometry) (ecc : EccEngine g)

/-- The loop of `mtk_snand_fill_oob`: the free bytes of each sector take the next bytes. The second
result is what is left of `ooblen`. -/
def fillOobFrom (oob : Bytes) : (steps step len ptr : Nat) → Bytes → Bytes × Nat
  | 0, _, len, _, oobraw => (oobraw, len)
  | steps + 1, step, len, ptr, oobraw =>
    if len = 0 then (oobraw, len)
    else
      let sectFdmLen := min (g.soc.fdmSize - 1) len
      fillOobFrom oob steps (step + 1) (len - sectFdmLen) (ptr + sectFdmLen)
        (oobraw.memcpy (step * g.soc.fdmSize + 1) oob ptr sectFdmLen)

/-- `mtk_snand_fill_oob` -/
def fillOob (oobraw oob : Bytes) (ooblen : Nat) : Bytes × Nat :=
  fillOobFrom g oob g.eccSteps 0 ooblen 0 oobraw

/-- The loop of `mtk_snand_transfer_oob`. -/
def transferOobFrom (oobraw : Bytes) : (steps step len ptr : Nat) → Bytes → Bytes × Nat
  | 0, _, len, _, oob => (oob, len)
  | steps + 1, step, len, ptr, oob =>
    if len = 0 then (oob, len)
    else
      let sectFdmLen := min (g.soc.fdmSize - 1) len
      transferOobFrom oobraw steps (step + 1) (len - sectFdmLen) (ptr + sectFdmLen)
        (oob.memcpy ptr oobraw (step * g.soc.fdmSize + 1) sectFdmLen)

/-- `mtk_snand_transfer_oob` -/
def transferOob (oob : Bytes) (ooblen : Nat) (oobraw : Bytes) : Bytes × Nat :=
  transferOobFrom g oobraw g.eccSteps 0 ooblen 0 oob

/-- `mtk_snand_write_page_auto_oob` without `actualooblen` -/
def writePageAutoOob (addr : Nat) (src : Buffers) (ooblen : Nat) (raw : Bool) : Prog World Int :=
  match src.oob with
  | none => writePage g ecc addr src raw
  | some oob => do
    Prog.modify fun w =>
      { w with bufCache := (fillOob g (w.bufCache.memset 0 0xff g.oobsize) oob ooblen).1 }
    let w ← Prog.get
    writePage g ecc addr { src with oob := some w.bufCache } raw

/-- `mtk_snand_read_page_auto_oob` without `actualooblen` -/
def readPageAutoOob (addr : Nat) (out : Buffers) (ooblen : Nat) (raw : Bool) :
    Prog World (Int × Buffers) :=
  match out.oob with
  | none => readPage g ecc addr out raw
  | some oob => do
    let w ← Prog.get
    let (ret, got) ← readPage g ecc addr { out with oob := some w.bufCache } raw
    Prog.modify fun w => { w with bufCache := got.oob.getD w.bufCache }
    if ret ≠ 0 ∧ ret ≠ -ebadmsg then
      pure (ret, { got with oob := some oob })
    else do
      let w ← Prog.get
      pure (ret, { got with oob := some (transferOob g oob ooblen w.bufCache).1 })

/-- `mtd_oobavail` -/
def mtdOobavail : OobMode → Nat
  | .autoOob => g.eccSteps * (g.soc.fdmSize - 1)
  | _ => g.oobsize

/-- The sizes that the loops go by. -/
def mtdSizes (mode : OobMode) : Paged.Sizes where
  writesize := g.writesize
  oobsize := g.oobsize
  maxooblen := mtdOobavail g mode

/-- The write of one page in `mtk_snand_mtd_write_data`. -/
def writeMtdPage (mode : OobMode) (page : Paged.PageWrite) : Prog World Int :=
  match mode with
  | .autoOob => writePageAutoOob g ecc page.addr ⟨page.data, page.oob⟩ page.oobwrlen false
  | .placeOob => writePage g ecc page.addr ⟨page.data, page.oob⟩ false
  | .raw => writePage g ecc page.addr ⟨page.data, page.oob⟩ true

/-- The cache of the MTD device with the buffers of a page in it: the data at its start, the spare
bytes behind them. -/
def putBuffers (cache : Bytes) (got : Buffers) : Bytes :=
  (cache.memcpyOpt 0 got.buf 0 g.writesize).memcpyOpt g.writesize got.oob 0 g.oobsize

/-- The read of one page in `mtk_snand_mtd_read_data`, into the cache of the MTD device. -/
def readMtdPage (mode : OobMode) (data oob : Bool) (addr : Nat) (cache : Bytes) :
    Prog World (Int × Bytes) := do
  let out : Buffers :=
    { buf := if data then some cache else none
      oob := if oob then some fun k => cache (g.writesize + k) else none }
  let (ret, got) ←
    match mode with
    | .autoOob => readPageAutoOob g ecc addr out (mtdOobavail g mode) false
    | .placeOob => readPage g ecc addr out false
    | .raw => readPage g ecc addr out true
  pure (ret, putBuffers g cache got)

/-- `mtk_snand_mtd_write_data` -/
def mtdWriteData (mode : OobMode) (ops : Paged.Request) (addr : Nat) (cache : Bytes) :
    Prog World (Int × Paged.WriteState) :=
  Paged.writeData (mtdSizes g mode) ops (writeMtdPage g ecc mode) addr cache

/-- `mtk_snand_mtd_read_data` -/
def mtdReadData (mode : OobMode) (ops : Paged.Request) (addr : Nat) (cache : Bytes) :
    Prog World (Int × Paged.ReadState) :=
  Paged.readData (mtdSizes g mode) ops (-ebadmsg)
    (readMtdPage g ecc mode (ops.len ≠ 0) (ops.ooblen ≠ 0)) addr cache

/-- The checks at the start of `mtk_snand_mtd_write_oob` and `mtk_snand_mtd_read_oob`, on buffers of
which at least one is there. -/
def refuseOob (mode : OobMode) (ops : Paged.Request) (datbuf : Bool) (addr : Nat) : Option Int :=
  if datbuf ∧ g.size < addr + ops.len then some (-einval)
  else if mtdOobavail g mode ≤ ops.ooboffs then some (-einval)
  else if g.size ≤ addr ∨ (g.size / g.writesize - addr / g.writesize) * mtdOobavail g mode <
      ops.ooboffs + ops.ooblen then some (-einval)
  else none

/-- `mtk_snand_mtd_write_oob` with what it programs page by page; a missing buffer has no bytes. -/
def mtdWriteOob (mode : OobMode) (ops : Paged.Request) (datbuf oobbuf : Bool) (addr : Nat)
    (cache : Bytes) : Prog World (Int × Option Paged.WriteState) :=
  if oobbuf = false ∧ datbuf = false then
    pure (if ops.ooblen ≠ 0 ∨ ops.len ≠ 0 then -einval else 0, none)
  else
    match refuseOob g mode ops datbuf addr with
    | some ret => pure (ret, none)
    | none => do
      let done ← mtdWriteData g ecc mode ops addr cache
      pure (done.1, some done.2)

variable {g}

theorem mtdOobavail_le (mode : OobMode) : mtdOobavail g mode ≤ g.oobsize := by
  have free : g.eccSteps * (g.soc.fdmSize - 1) ≤ g.oobsize :=
    (Nat.mul_le_mul_left _ ((Nat.sub_le _ _).trans g.spareHoldsFdm)).trans g.oobHoldsSpare
  cases mode
  · exact le_rfl
  · exact free
  · exact le_rfl

end Filogic.Snand
