import Filogic.Snand.Layout

/-! How the page geometry is chosen, `mtk_snand_setup`: the spare size of a sector and the ECC strength,
each the last fitting one of a table that is searched from its end. -/

namespace Filogic.Snand
open Lib

def ebusy : Int := 16

/-- `struct mtk_snand_soc_data` and `struct mtk_ecc_soc_data`, as far as the geometry depends on them.
The sizes of the tables are 32-bit numbers, that of the spare sizes one that an `int` can count. -/
structure SocCaps where
  sectorSize : UInt16
  maxSectors : UInt16
  fdmSize : UInt16
  fdmEccSize : UInt16
  spareSizes : List UInt8
  eccCaps : List UInt8
  modeShift : Nat
  spareSizesCount : spareSizes.length < 2 ^ 31
  eccCapsCount : eccCaps.length < 2 ^ 32

/-- `struct snand_mem_org`, as far as the page geometry depends on it. -/
structure MemOrg where
  pagesize : UInt16
  sparesize : UInt16
  deriving DecidableEq, Repr

/-- How a call ends that brings no result: with a return code, or in code that has no meaning, a division
by zero or an index behind the end of a table. -/
inductive Stop where
  | code (ret : Int)
  | divisionByZero
  | outOfRange
  deriving DecidableEq, Repr

/-- What the calls around the choice of the geometry come to: whether the opcodes that the chip and the
controller have in common suffice, whether the ECC engine is idle in time, and the return code of the
commands to the dies. Those are too short to be refused with -ENOTSUPP. -/
structure Surroundings where
  opcodes : Bool
  encoderIdle : Bool
  decoderIdle : Bool
  dies : Int
  diesCode : dies ≠ -enotsupp

/-- The part of `struct mtk_snand` that the choice is about, and the registers it is written to. -/
structure Snf where
  writesize : Nat
  oobsize : Nat
  eccSteps : Nat
  sparePerSector : Nat
  rawSectorSize : Nat
  eccStrength : Nat
  eccBytes : Nat
  eccParityBits : Nat
  pagefmt : Nat
  enccnfg : Nat
  deccnfg : Nat
  deriving DecidableEq, Repr

/-- `struct mtk_snand` as `mtk_snand_init` gets it: zeroed, with the sizes of the chip. -/
def Snf.fresh (memorg : MemOrg) : Snf where
  writesize := memorg.pagesize.toNat
  oobsize := memorg.sparesize.toNat
  eccSteps := 0
  sparePerSector := 0
  rawSectorSize := 0
  eccStrength := 0
  eccBytes := 0
  eccParityBits := 0
  pagefmt := 0
  enccnfg := 0
  deccnfg := 0

variable (soc : SocCaps)

/-- With the 1 KiB sector size the hardware doubles the spare size. -/
def SocCaps.mul : Nat := if soc.sectorSize = 1024 then 2 else 1

section Tables

end Tables

section Choice

variable (memorg : MemOrg)

def SocCaps.eccSteps : Nat := memorg.pagesize.toNat / soc.sectorSize.toNat

theorem mul_pos : 0 < soc.mul := by
  unfold SocCaps.mul
  split_ifs <;> decide

end Choice

section Known

/-- Opcodes, an ECC engine and dies that give no trouble. -/
def calm : Surroundings where
  opcodes := true
  encoderIdle := true
  decoderIdle := true
  dies := 0
  diesCode := by decide

end Known

end Filogic.Snand
