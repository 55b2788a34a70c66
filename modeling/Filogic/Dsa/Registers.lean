import Mathlib

/-! The registers of the AN8855 switch as words, and masks of its ports. -/

namespace Filogic.Dsa

/-- A port below `AN8855_NUM_PORTS`. -/
abbrev PortNum := Fin 6

/-- `AN8855_CPU_PORT` -/
def cpuPort : PortNum := 5

-- the first two of the others
def lan0 : PortNum := 0
def lan1 : PortNum := 1

/-- `BIT(port)` -/
def bit (port : PortNum) : BitVec 32 := 1#32 <<< port.val

/-- `an8855_rmw`: what it writes back for the value it reads. -/
def rmw (val mask set : BitVec 32) : BitVec 32 := (val &&& ~~~mask) ||| set

/-- `an8855_set` -/
def setBits (val set : BitVec 32) : BitVec 32 := rmw val 0 set

/-- `an8855_clear` -/
def clearBits (val mask : BitVec 32) : BitVec 32 := rmw val mask 0

@[simp] theorem bit_getLsbD (port : PortNum) (i : Nat) :
    (bit port).getLsbD i = decide (i = port.val) := by
  have bound := port.isLt
  unfold bit
  simp only [BitVec.getLsbD_shiftLeft, BitVec.getLsbD_one]
  grind

@[simp] theorem rmw_getLsbD (val mask set : BitVec 32) (i : Nat) :
    (rmw val mask set).getLsbD i = (val.getLsbD i && !mask.getLsbD i || set.getLsbD i) := by
  unfold rmw
  simp only [BitVec.getLsbD_or, BitVec.getLsbD_and, BitVec.getLsbD_not]
  by_cases inside : i < 32
  · simp [inside]
  · simp [BitVec.getLsbD_of_ge val i (by omega)]

@[simp] theorem setBits_getLsbD (val set : BitVec 32) (i : Nat) :
    (setBits val set).getLsbD i = (val.getLsbD i || set.getLsbD i) := by
  simp [setBits]

@[simp] theorem clearBits_getLsbD (val mask : BitVec 32) (i : Nat) :
    (clearBits val mask).getLsbD i = (val.getLsbD i && !mask.getLsbD i) := by
  simp [clearBits]

end Filogic.Dsa
