import Filogic.Lib.Prog
import Filogic.Lib.Bytes

/-! The SPI-NAND chip behind the NFI/SNFI controller: page geometry, the bus with everything
that can go wrong on it, the cell array, and the sector ECC engine. -/

namespace Filogic.Snand
open Lib

def eio : Int := 5
def einval : Int := 22
def ebadmsg : Int := 74
def etimedout : Int := 110
def enotsupp : Int := 524

/-- `struct mtk_snand_soc_data`, as far as page layout depends on it. -/
structure SocData where
  sectorSize : Nat
  fdmSize : Nat
  fdmEccSize : Nat
  bbmSwap : Bool
  deriving DecidableEq, Repr

inductive Soc where
  | mt7622 | mt7629 | mt7981 | mt7986 | mt7988
  deriving DecidableEq, Repr

/-- `mtk_snand_socs` -/
def socs : Soc → SocData
  | .mt7622 => { sectorSize := 512, fdmSize := 8, fdmEccSize := 1, bbmSwap := false }
  | .mt7629 => { sectorSize := 512, fdmSize := 8, fdmEccSize := 1, bbmSwap := true }
  | .mt7981 | .mt7986 | .mt7988 =>
      { sectorSize := 1024, fdmSize := 8, fdmEccSize := 1, bbmSwap := true }

/-- `snand_info->select_die` -/
inductive DieSelect where
  | winbond | micron
  deriving DecidableEq, Repr

/-- The part of `struct mtk_snand` that `mtk_snand_setup` fixes. The bounds are those every
entry of the chip table and of the SoC table meets. -/
structure Geometry where
  soc : SocData
  writesizeShift : Nat
  erasesizeShift : Nat
  dieShift : Nat
  size : Nat
  oobsize : Nat
  sparePerSector : Nat
  eccSteps : Nat
  eccStrength : Nat
  selectDie : Option DieSelect
  /-- Address of `page_cache`; only its alignment is ever looked at. -/
  pageCacheAddr : Nat
  pageSectors : eccSteps * soc.sectorSize = 2 ^ writesizeShift
  someSector : 0 < eccSteps
  someFdm : 1 ≤ soc.fdmEccSize
  fdmProtected : soc.fdmEccSize ≤ soc.fdmSize
  fdmRegisters : soc.fdmSize ≤ 8
  spareHoldsFdm : soc.fdmSize ≤ sparePerSector
  oobHoldsSpare : eccSteps * sparePerSector ≤ oobsize
  parityFitsSpare : (eccStrength * (soc.sectorSize * 8).size + 7) / 8 ≤ sparePerSector - soc.fdmSize
  parityFitsGpram : 4 + (sparePerSector - soc.fdmSize) ≤ 0xa0
  errnumFits : eccStrength < 31
  pageInBlock : writesizeShift ≤ erasesizeShift
  blockInDie : erasesizeShift ≤ dieShift
  blockFits : erasesizeShift < 32
  blockRow : erasesizeShift ≤ writesizeShift + 24
  addressable : size ≤ 2 ^ 32
  twoDies : selectDie.isSome → size ≤ 2 ^ (dieShift + 1)

namespace Geometry

def writesize (g : Geometry) : Nat := 2 ^ g.writesizeShift
def erasesize (g : Geometry) : Nat := 2 ^ g.erasesizeShift
def erasesizeMask (g : Geometry) : Nat := g.erasesize - 1
def dieMask (g : Geometry) : Nat := 2 ^ g.dieShift - 1
def rawSectorSize (g : Geometry) : Nat := g.soc.sectorSize + g.sparePerSector
def pagesPerBlock (g : Geometry) : Nat := 2 ^ (g.erasesizeShift - g.writesizeShift)

/-- `spare_per_sector - fdm_size`: the parity area of a sector. -/
def eccBytes (g : Geometry) : Nat := g.sparePerSector - g.soc.fdmSize

end Geometry

/-- What the decoder makes of one sector. `errnum` is the ECC_DECENUM field. -/
structure Decoded where
  data : List UInt8
  fdm : List UInt8
  errnum : Nat
  deriving DecidableEq

/-- The ECC engine: encoder and decoder over a sector's data, its protected FDM bytes and its
parity area. A sector that carries its own parity decodes to itself; an erased one is reported
as correct or as uncorrectable and is delivered as it was read. -/
structure EccEngine (g : Geometry) where
  parity : List UInt8 → List UInt8 → List UInt8
  decode : List UInt8 → List UInt8 → List UInt8 → Decoded
  parity_length : ∀ data fdm, (parity data fdm).length = g.eccBytes
  decode_data_length : ∀ data fdm code, (decode data fdm code).data.length = data.length
  decode_fdm_length : ∀ data fdm code, (decode data fdm code).fdm.length = fdm.length
  decode_encoded : ∀ data fdm, decode data fdm (parity data fdm) = ⟨data, fdm, 0⟩
  decode_erased : ∀ data fdm code,
    (∀ b ∈ data ++ fdm ++ code, b = 0xff) →
    (decode data fdm code).data = data ∧ (decode data fdm code).fdm = fdm ∧
    ((decode data fdm code).errnum = 0 ∨ (decode data fdm code).errnum = 31)

/-- What the outside world does to one bus transaction. -/
structure Cycle where
  /-- Return code of the transfer; 0 when the controller saw it complete. -/
  ret : Int
  /-- The command never reached the chip. -/
  lost : Bool
  /-- The byte a feature read delivers in place of the chip's register. -/
  feature : Option UInt8
  /-- The array operation the command starts ends with a fail bit. -/
  fails : Bool
  /-- What a failing operation or a broken transfer leaves, page by page. -/
  torn : Nat → Bytes
  /-- Status reads during which the operation still runs. -/
  busy : Nat
  /-- Further status reads before the poll timer expires. -/
  polls : Nat

/-- The commands of SPI-NAND opcodes the driver sends through the GPRAM. -/
inductive Command where
  | writeEnable
  | getFeature (addr : Nat)
  | setFeature (addr value : Nat)
  | selectDie (die : Nat)
  | readToCache (page : Nat)
  | programExecute (page : Nat)
  | blockErase (page : Nat)
  | readFromCache (column len : Nat)
  deriving DecidableEq, Repr

/-- A finished transaction: the command, its return code and the bytes it delivered. -/
structure Transaction where
  command : Command
  ret : Int
  reply : List UInt8
  deriving DecidableEq, Repr

def featureStatusAddr : Nat := 0xc0
def featureMicronDieAddr : Nat := 0xd0

/-- The driver's buffers and the hardware they are exchanged with. -/
structure World where
  pageCache : Bytes
  bufCache : Bytes
  sectBf : Nat → Int
  /-- The NFI_FDML/NFI_FDMM pair of each sector, by byte lane. -/
  fdmRegs : Nat → Nat → UInt8
  decEnum : Nat → Nat
  /-- The array: die, page, byte of the raw page. -/
  cells : Nat → Nat → Bytes
  die : Nat
  cacheReg : Bytes
  wel : Bool
  failBits : Nat
  busy : Nat
  bus : Nat → Cycle
  tick : Nat
  trace : List Transaction

/-- Programming a page only clears bits of its cells. -/
def programCells (cells : Nat → Nat → Bytes) (die page : Nat) (image : Bytes) :
    Nat → Nat → Bytes := fun d p k =>
  if d = die ∧ p = page then cells d p k &&& image k else cells d p k

/-- Erasing gives every page of the block new contents. -/
def eraseCells (g : Geometry) (cells : Nat → Nat → Bytes) (die page : Nat)
    (image : Nat → Bytes) : Nat → Nat → Bytes := fun d p k =>
  if d = die ∧ p / g.pagesPerBlock = page / g.pagesPerBlock then image p k else cells d p k

namespace World

def cycle (w : World) : Cycle := w.bus w.tick

/-- The chip's own status register: OIP, WEL and the two fail bits. -/
def status (w : World) : UInt8 :=
  UInt8.ofNat ((if w.busy = 0 then 0 else 1) + (if w.wel then 2 else 0) + w.failBits)

/-- The chip's answer to a command that reached it. Row addresses are 24 bits wide. -/
def execute (g : Geometry) (w : World) : Command → World
  | .writeEnable => { w with wel := true }
  | .getFeature addr =>
      if addr = featureStatusAddr then { w with busy := w.busy - 1 } else w
  | .setFeature addr value =>
      if addr = featureMicronDieAddr then { w with die := value / 64 % 2 } else w
  | .selectDie die => { w with die := die }
  | .readToCache page =>
      { w with cacheReg := w.cells w.die (page % 2 ^ 24), busy := w.cycle.busy }
  | .programExecute page =>
      if w.wel then
        { w with
          cells := programCells w.cells w.die (page % 2 ^ 24)
            (if w.cycle.fails then w.cycle.torn (page % 2 ^ 24) else w.cacheReg),
          failBits := if w.cycle.fails then 8 else 0, wel := false, busy := w.cycle.busy }
      else w
  | .blockErase page =>
      if w.wel then
        { w with
          cells := eraseCells g w.cells w.die (page % 2 ^ 24)
            (if w.cycle.fails then w.cycle.torn else fun _ _ => 0xff),
          failBits := if w.cycle.fails then 4 else 0, wel := false, busy := w.cycle.busy }
      else w
  | .readFromCache _ _ => w

def reply (w : World) : Command → List UInt8
  | .getFeature addr =>
      [w.cycle.feature.getD (if addr = featureStatusAddr then w.status else 0)]
  | .readFromCache column len => w.cacheReg.slice column len
  | _ => []

end World

/-- `mtk_snand_mac_io` -/
def macIo (g : Geometry) (command : Command) : Prog World (Int × List UInt8) := fun w =>
  let sent := if w.cycle.lost then w else w.execute g command
  let answer := w.reply command
  ((w.cycle.ret, answer),
    { sent with tick := w.tick + 1, trace := ⟨command, w.cycle.ret, answer⟩ :: w.trace })

/-- `mtk_snand_get_feature` -/
def getFeature (g : Geometry) (addr : Nat) : Prog World Int := do
  let (ret, answer) ← macIo g (.getFeature addr)
  if ret ≠ 0 then
    pure ret
  else
    pure (answer.headD 0).toNat

/-- `mtk_snand_set_feature` -/
def setFeature (g : Geometry) (addr value : Nat) : Prog World Int := do
  let (ret, _) ← macIo g (.setFeature addr value)
  pure ret

/-- One round of the `do … while` loop of `mtk_snand_poll_status`. The C code masks the `int`
it got from the feature read without looking at its sign. -/
def pollRound (g : Geometry) (next : Prog World Int) : Prog World Int := do
  let val ← getFeature g featureStatusAddr
  if val % 2 = 0 then
    pure (val / 4 % 4 * 4)
  else
    next

/-- The loop, with the number of further rounds the timer allows. -/
def pollLoop (g : Geometry) : Nat → Prog World Int
  | 0 => pollRound g (pure (-etimedout))
  | polls + 1 => pollRound g (pollLoop g polls)

/-- `mtk_snand_poll_status` -/
def pollStatus (g : Geometry) : Prog World Int := do
  let w ← Prog.get
  pollLoop g w.cycle.polls

/-- `mtk_snand_write_enable`. A status read that fails is answered with the return code of the
write-enable command itself. -/
def writeEnable (g : Geometry) : Prog World Int := do
  let (ret, _) ← macIo g .writeEnable
  if ret ≠ 0 then
    pure ret
  else do
    let val ← getFeature g featureStatusAddr
    if val < 0 then
      pure ret
    else if val / 2 % 2 = 1 then
      pure 0
    else
      pure (-enotsupp)

/-- `mtk_snand_winbond_select_die`, `mtk_snand_micron_select_die`: the latter sends the same
feature value for every die. -/
def selectDie (g : Geometry) (dieidx : Nat) : Prog World Int :=
  match g.selectDie with
  | none => pure 0
  | some .winbond =>
      if dieidx > 1 then
        pure (-einval)
      else do
        let (ret, _) ← macIo g (.selectDie dieidx)
        pure ret
  | some .micron =>
      if dieidx > 1 then
        pure (-einval)
      else
        setFeature g featureMicronDieAddr 64

/-- `mtk_snand_select_die_address`; the return code of the selection is not looked at. -/
def selectDieAddress (g : Geometry) (addr : Nat) : Prog World Nat :=
  match g.selectDie with
  | none => pure addr
  | some _ => do
      let _ ← selectDie g (addr >>> g.dieShift % 2 ^ 32)
      pure (addr &&& g.dieMask)

/-- `mtk_snand_page_op` -/
def pageOp (g : Geometry) (command : Command) : Prog World Int := do
  let (ret, _) ← macIo g command
  pure ret

end Filogic.Snand
