import Filogic.SwitchTool.Registers
import Filogic.Lib.Fields

/-! The commands of the switch tool that take numbers: a number is parsed as an `unsigned long`, stored
in a variable of eight bits, and compared with its limit only then. -/

namespace Filogic.SwitchTool
open Lib

section Commands

def qosSchSelect (argv : Argv) : Tool Unit := do
  if argv.length < 7 then refuse
  let port ← strtoulInto 8 10 (· > maxPort) (← string argv 3)
  let queue ← strtoulInto 8 10 (· > 7) (← string argv 4)
  let type ← strtoulInto 8 10 (· > 2) (← string argv 6)
  let sharper ← string argv 5
  if sharper = ['m', 'i', 'n'] then
    if type = 0 then regWrite (gswMmscr0Q queue + 0x100 * port) 0
    else if type = 1 then regWrite (gswMmscr0Q queue + 0x100 * port) (1#32 <<< 31)
    else refuse
  else if sharper = ['m', 'a', 'x'] then
    if type = 1 then regWrite (gswMmscr1Q queue + 0x100 * port) (1#32 <<< 31)
    else if type = 2 then regWrite (gswMmscr1Q queue + 0x100 * port) 0
    else refuse
  else refuse

/-- The six fields of a `GSW_UPW` register at 7 for the chosen source and at 2 for the others. -/
def getUpw (value : BitVec 32) (base : Nat) : BitVec 32 :=
  let value := value &&& ~~~((0x7#32 <<< 0) ||| (0x7#32 <<< 4) ||| (0x7#32 <<< 8) |||
    (0x7#32 <<< 12) ||| (0x7#32 <<< 16) ||| (0x7#32 <<< 20))
  match base with
  | 0 => value ||| ((0x2#32 <<< 0) ||| (0x2#32 <<< 4) ||| (0x2#32 <<< 8) |||
      (0x2#32 <<< 12) ||| (0x7#32 <<< 16) ||| (0x2#32 <<< 20))
  | 1 => value ||| ((0x2#32 <<< 0) ||| (0x2#32 <<< 4) ||| (0x7#32 <<< 8) |||
      (0x2#32 <<< 12) ||| (0x2#32 <<< 16) ||| (0x2#32 <<< 20))
  | 2 => value ||| ((0x2#32 <<< 0) ||| (0x2#32 <<< 4) ||| (0x2#32 <<< 8) |||
      (0x7#32 <<< 12) ||| (0x2#32 <<< 16) ||| (0x2#32 <<< 20))
  | 3 => value ||| ((0x7#32 <<< 0) ||| (0x2#32 <<< 4) ||| (0x2#32 <<< 8) |||
      (0x2#32 <<< 12) ||| (0x2#32 <<< 16) ||| (0x2#32 <<< 20))
  | 4 => value ||| ((0x2#32 <<< 0) ||| (0x2#32 <<< 4) ||| (0x2#32 <<< 8) |||
      (0x2#32 <<< 12) ||| (0x2#32 <<< 16) ||| (0x7#32 <<< 20))
  | 5 => value ||| ((0x2#32 <<< 0) ||| (0x7#32 <<< 4) ||| (0x2#32 <<< 8) |||
      (0x2#32 <<< 12) ||| (0x2#32 <<< 16) ||| (0x2#32 <<< 20))
  | _ => value

def qosSetBase (chipName : Nat) (argv : Argv) : Tool Unit := do
  if argv.length < 5 then refuse
  let port ← strtoulInto 8 10 (· > maxPort) (← string argv 3)
  let base ← strtoulInto 8 10 (· > 5) (← string argv 4)
  if chipName = 0x7530 then
    regWrite 0x44 (getUpw (← regRead 0x44) base)
  else if chipName = 0x7531 ∨ chipName = 0x7988 then
    regWrite (gswUpw port) (getUpw (← regRead (gswUpw port)) base)
  else refuse

/-- `weight[i] = atoi(argv[i + 4])` for the eight queues. -/
def weights (argv : Argv) : Nat → Tool (List Int)
  | 0 => pure []
  | n + 1 => do
      let before ← weights argv n
      return before ++ [atoi (← string argv (n + 4))]

/-- The loop over the queues from one on, with the weights that are left. -/
def writeWeights (port : Nat) : Nat → List Int → Tool Unit
  | _, [] => pure ()
  | queue, weight :: rest => do
      let reg := gswMmscr1Q queue + 0x100 * port
      let value ← regRead reg
      regWrite reg ((value &&& ~~~(0xf#32 <<< 24)) |||
        ((BitVec.ofInt 32 (weight - 1) &&& 0xf#32) <<< 24))
      writeWeights port (queue + 1) rest

def qosWfqSetWeight (argv : Argv) : Tool Unit := do
  let port := atoi (← string argv 3)
  let weight ← weights argv 8
  if port < 0 ∨ port > 6 then refuse
  if weight.any fun w => w < 1 ∨ w > 16 then refuse
  writeWeights port.toNat 0 weight

def qosSetPortpri (argv : Argv) : Tool Unit := do
  let port ← strtoulInto 8 10 (· > maxPort) (← string argv 3)
  let prio ← strtoulInto 8 10 (· > 7) (← string argv 4)
  let value ← regRead (gswPcr port)
  regWrite (gswPcr port) ((value &&& ~~~(0x7#32 <<< 24)) ||| (BitVec.ofNat 32 prio <<< 24))

def qosSetDscppri (argv : Argv) : Tool Unit := do
  let dscp ← strtoulInto 8 10 (· > 63) (← string argv 3)
  let prio ← strtoulInto 8 10 (· > 7) (← string argv 4)
  let pimN := dscp / 10
  let pimOffset := (dscp - pimN * 10) * 3
  let reg := 0x0058 + pimN * 4
  let value ← regRead reg
  regWrite reg ((value &&& ~~~(0x7#32 <<< pimOffset)) |||
    ((BitVec.ofNat 32 prio &&& 0x7#32) <<< pimOffset))

def qosPriMappingQueue (chipName : Nat) (argv : Argv) : Tool Unit := do
  if argv.length < 6 then refuse
  let port ← strtoulInto 8 10 (· > maxPort) (← string argv 3)
  let prio ← strtoulInto 8 10 (· > 7) (← string argv 4)
  let queue ← strtoulInto 8 10 (· > 7) (← string argv 5)
  let pemN := prio / 2
  if chipName = 0x7530 then
    let reg := pemN * 0x4 + 0x48
    let value ← regRead reg
    regWrite reg (if prio % 2 = 1 then
        (value &&& ~~~(0x7#32 <<< 24)) ||| ((BitVec.ofNat 32 queue &&& 0x7#32) <<< 24)
      else (value &&& ~~~(0x7#32 <<< 8)) ||| ((BitVec.ofNat 32 queue &&& 0x7#32) <<< 8))
  else if chipName = 0x7531 ∨ chipName = 0x7988 then
    let reg := gswPem pemN + 0x100 * port
    let value ← regRead reg
    regWrite reg (if prio % 2 = 1 then
        (value &&& ~~~(0x7#32 <<< 25)) ||| ((BitVec.ofNat 32 queue &&& 0x7#32) <<< 25)
      else (value &&& ~~~(0x7#32 <<< 9)) ||| ((BitVec.ofNat 32 queue &&& 0x7#32) <<< 9))
  else refuse

end Commands

/-- The commands with a table index, a port, a queue, a type, a DSCP value or a priority. -/
inductive Numbered where
  | aclTableAdd
  | aclMaskTableAdd
  | aclRuleTableAdd
  | aclRateTableAdd
  | aclPortEnable
  | qosSchSelect
  | qosSetBase
  | qosWfqSetWeight
  | qosSetPortpri
  | qosSetDscppri
  | qosPriMappingQueue
deriving DecidableEq, Repr

namespace Numbered

def run (chipName : Nat) (argv : Argv) : Numbered → Tool Unit
  | aclTableAdd => SwitchTool.aclTableAdd chipName argv
  | aclMaskTableAdd => SwitchTool.aclMaskTableAdd chipName argv
  | aclRuleTableAdd => SwitchTool.aclRuleTableAdd chipName argv
  | aclRateTableAdd => SwitchTool.aclRateTableAdd argv
  | aclPortEnable => SwitchTool.aclPortEnable argv
  | qosSchSelect => SwitchTool.qosSchSelect argv
  | qosSetBase => SwitchTool.qosSetBase chipName argv
  | qosWfqSetWeight => SwitchTool.qosWfqSetWeight argv
  | qosSetPortpri => SwitchTool.qosSetPortpri argv
  | qosSetDscppri => SwitchTool.qosSetDscppri argv
  | qosPriMappingQueue => SwitchTool.qosPriMappingQueue chipName argv

/-- The documented range of each numeric argument: its place, and the first number beyond it. -/
def ranges (chipName : Nat) : Numbered → List (Nat × Nat)
  | aclTableAdd => [(3, if isLarge chipName then 256 else 64)]
  | aclMaskTableAdd => [(3, if isLarge chipName then 128 else 32)]
  | aclRuleTableAdd => [(3, if isLarge chipName then 128 else 32)]
  | aclRateTableAdd => [(3, 32)]
  | aclPortEnable => [(3, 7), (4, 2)]
  | qosSchSelect => [(3, 7), (4, 8), (6, 3)]
  | qosSetBase => [(3, 7), (4, 6)]
  | qosWfqSetWeight => [(3, 7)]
  | qosSetPortpri => [(3, 7), (4, 8)]
  | qosSetDscppri => [(3, 64), (4, 8)]
  | qosPriMappingQueue => [(3, 7), (4, 8), (5, 8)]

/-- The length of the argument vector with all arguments. -/
def argc : Numbered → Nat
  | aclTableAdd | aclMaskTableAdd | aclRuleTableAdd | aclRateTableAdd => 6
  | aclPortEnable | qosSetBase | qosSetPortpri | qosSetDscppri => 5
  | qosSchSelect => 7
  | qosWfqSetWeight => 12
  | qosPriMappingQueue => 6

end Numbered

def hexWord (s : List Char) : BitVec 32 := BitVec.ofNat 32 (strtoul 16 s).value

/-- An argument that is there. -/
def arg (argv : Argv) (i : Nat) : List Char := argv.getD i []

namespace Numbered

/-- The rest of the arguments and the chip are such that the command acts, for these numbers. -/
def Acts (chipName : Nat) (argv : Argv) (n : Nat → Nat) : Numbered → Prop
  | aclTableAdd | aclMaskTableAdd | aclRuleTableAdd | aclRateTableAdd =>
      Hex (arg argv 4) ∧ Hex (arg argv 5)
  | aclPortEnable | qosSetPortpri | qosSetDscppri => True
  | qosSchSelect =>
      (arg argv 5 = ['m', 'i', 'n'] ∧ n 6 < 2) ∨ (arg argv 5 = ['m', 'a', 'x'] ∧ 1 ≤ n 6)
  | qosSetBase | qosPriMappingQueue => chipName = 0x7530 ∨ chipName = 0x7531 ∨ chipName = 0x7988
  | qosWfqSetWeight => ∀ q < 8, 1 ≤ atoi (arg argv (q + 4)) ∧ atoi (arg argv (q + 4)) ≤ 16

/-- Where the priority source of a number stands in the `GSW_UPW` registers. -/
def upwOffset (base : Nat) : Nat := [16, 8, 12, 0, 20, 4].getD base 0

/-- The registers and fields of the numbers, with what the command is to write to them. -/
def asked (chipName : Nat) (regs : Regs) (argv : Argv) (n : Nat → Nat) : Numbered → List Write
  | aclTableAdd => entry 0x5
  | aclMaskTableAdd => entry 0x9
  | aclRuleTableAdd => entry 0xB
  | aclRateTableAdd => entry 0xD
  | aclPortEnable =>
      [⟨0x2004 + 0x100 * n 3, setField (regs (0x2004 + 0x100 * n 3)) 10 1 (n 4)⟩]
  | qosSchSelect =>
      [⟨0x1000 + 0x100 * n 3 + 8 * n 4 + (if arg argv 5 = ['m', 'i', 'n'] then 0 else 4),
        if n 6 = 1 then 0x80000000 else 0⟩]
  | qosSetBase =>
      let reg := if chipName = 0x7530 then 0x44 else 0x2040 + 0x100 * n 3
      [⟨reg, [0, 4, 8, 12, 16, 20].foldl (fun value offset =>
        setField value offset 3 (if offset = upwOffset (n 4) then 7 else 2)) (regs reg)⟩]
  | qosWfqSetWeight =>
      (List.range 8).map fun q =>
        ⟨0x1004 + 0x100 * n 3 + 8 * q, setField (regs (0x1004 + 0x100 * n 3 + 8 * q)) 24 4
          (atoi (arg argv (q + 4)) - 1).toNat⟩
  | qosSetPortpri =>
      [⟨0x2004 + 0x100 * n 3, setField (regs (0x2004 + 0x100 * n 3)) 24 3 (n 4)⟩]
  | qosSetDscppri =>
      [⟨0x58 + 4 * (n 3 / 10), setField (regs (0x58 + 4 * (n 3 / 10))) (3 * (n 3 % 10)) 3 (n 4)⟩]
  | qosPriMappingQueue =>
      let reg := if chipName = 0x7530 then 0x48 + 4 * (n 4 / 2) else 0x2044 + 0x100 * n 3 + 4 * (n 4 / 2)
      [⟨reg, setField (regs reg) ((if chipName = 0x7530 then 8 else 9) + 16 * (n 4 % 2)) 3 (n 5)⟩]
where
  entry (func : Nat) : List Write :=
    [⟨0x94, hexWord (arg argv 4)⟩, ⟨0x98, hexWord (arg argv 5)⟩,
      ⟨0x90, BitVec.ofNat 32 (0x80000000 + 0x1000 * func + n 3)⟩]

/-- The numbers that are given all lie in their ranges. -/
def InRange (chipName : Nat) (n : Nat → Nat) (op : Numbered) : Prop :=
  ∀ x ∈ op.ranges chipName, n x.1 < x.2

/-- The command acts on the registers and fields of the numbers, if these pass and the rest does too,
and refuses its arguments without a write if not. -/
structure Does (chipName : Nat) (regs : Regs) (argv : Argv) (op : Numbered) (passes : Prop)
    (n : Nat → Nat) : Prop where
  acts : passes → op.Acts chipName argv n →
    op.run chipName argv regs = (.ok (), op.asked chipName regs argv n)
  refuses : ¬(passes ∧ op.Acts chipName argv n) → op.run chipName argv regs = (.error .refused, [])

/-- The command acts exactly if the numbers that its strings denote are in range, and then on the
registers and fields of these numbers. -/
def Exact (chipName : Nat) (regs : Regs) (argv : Argv) (op : Numbered) : Prop :=
  op.Does chipName regs argv (op.InRange chipName fun i => denoted (arg argv i))
    fun i => denoted (arg argv i)

/-- What is left of a number in the variable of the command. -/
def wrapped (n : Nat) : Numbered → Nat
  | qosWfqSetWeight => n % 2 ^ 32
  | _ => n % 256

/-- A number that the conversion itself can hold. -/
def Held (n : Nat) : Numbered → Prop
  | qosWfqSetWeight => n < 2 ^ 63
  | _ => n < 2 ^ 64

/-- The tests of the command pass for the numbers. -/
def Taken (chipName : Nat) (n : Nat → Nat) (op : Numbered) : Prop :=
  ∀ x ∈ op.ranges chipName, op.Held (n x.1) ∧ op.wrapped (n x.1) < x.2

end Numbered

section Arguments

variable (regs : Regs) (argv : Argv)

theorem string_eq (i : Nat) (inside : i < argv.length) : string argv i = pure (arg argv i) := by
  simp only [string, arg, List.getElem?_eq_getElem inside, List.getD_eq_getElem?_getD, Option.getD_some]

/-- A decimal argument: its test, and the command goes on with what is left of the number. -/
theorem strtoulInto_bind {β : Type} {s : List Char} (decimal : Decimal s) (wrong : Nat → Bool)
    (limit : Nat) (f : Nat → Tool β) (others : Prop) [Decidable others]
    (result : Except Stop β × List Write) (same : ∀ v, wrong v = false ↔ v < limit)
    (rest : denoted s % 256 < limit →
      f (denoted s % 256) regs = if others then result else (.error .refused, [])) :
    (strtoulInto 8 10 wrong s >>= f) regs =
      if (denoted s < 2 ^ 64 ∧ denoted s % 256 < limit) ∧ others then result
      else (.error .refused, []) := by
  rw [strtoulInto_run]
  by_cases held : denoted s < 2 ^ 64
  · have parsed : strtoul 10 s = ⟨denoted s, [], false⟩ := by
      rw [strtoul_decimal decimal, if_pos held]
    have passes : Passes 8 10 wrong s ↔ denoted s % 256 < limit := by
      simp only [Passes, parsed, true_and, ← same, show 2 ^ 8 = 256 from rfl]
    by_cases inside : denoted s % 256 < limit
    · simp only [if_pos (passes.2 inside), parsed, held, inside, true_and,
        show 2 ^ 8 = 256 from rfl, rest inside]
    · simp only [if_neg (mt passes.1 inside), inside, and_false, false_and, if_false]
  · have fails : ¬Passes 8 10 wrong s := by
      simp only [Passes, strtoul_decimal decimal, if_neg held, Bool.true_eq_false, false_and,
        not_false_iff]
    simp only [if_neg fails, held, false_and, if_false]

/-- A word in hex: its test. -/
theorem strtoulInto_hex_bind {β : Type} (s : List Char) (f : Nat → Tool β) :
    (strtoulInto 32 16 (fun _ => false) s >>= f) regs =
      if Hex s then f ((strtoul 16 s).value % 2 ^ 32) regs else (.error .refused, []) :=
  strtoulInto_run 32 16 (fun _ => false) s f regs

end Arguments

namespace Numbered

variable (chipName : Nat) (regs : Regs) (argv : Argv)

/-- How a command comes to an end with its numbers as they are left in its variables. -/
def Ran (op : Numbered) : Prop :=
  op.Does chipName regs argv (op.Taken chipName fun i => denoted (arg argv i))
    fun i => op.wrapped (denoted (arg argv i))

variable {chipName regs argv}

theorem does_of_ite {op : Numbered} {passes : Prop} {n : Nat → Nat} (c : Prop) [Decidable c]
    (same : c ↔ passes ∧ op.Acts chipName argv n)
    (ends : op.run chipName argv regs =
      if c then (.ok (), op.asked chipName regs argv n) else (.error .refused, [])) :
    op.Does chipName regs argv passes n :=
  ⟨fun passes acts => ends.trans (if_pos (same.2 ⟨passes, acts⟩)),
    fun no => ends.trans (if_neg fun holds => no (same.1 holds))⟩

theorem aclPortEnable_ran (long : 5 ≤ argv.length) (first : Decimal (arg argv 3))
    (second : Decimal (arg argv 4)) : Ran chipName regs argv aclPortEnable := by
  apply does_of_ite ((denoted (arg argv 3) < 2 ^ 64 ∧ denoted (arg argv 3) % 256 < 7) ∧
    (denoted (arg argv 4) < 2 ^ 64 ∧ denoted (arg argv 4) % 256 < 2) ∧ True)
  · simp only [Taken, ranges, Held, wrapped, Acts, List.forall_mem_cons, List.not_mem_nil,
      false_imp_iff, implies_true, and_true]
  · simp only [run, SwitchTool.aclPortEnable, string_eq argv 3 (by omega), pure_bind]
    apply strtoulInto_bind regs first _ 7 _ _ _ (by simp [maxPort]; omega)
    intro port
    simp only [string_eq argv 4 (by omega), pure_bind]
    apply strtoulInto_bind regs second _ 2 _ _ _ (by simp)
    intro en
    simp only [regRead_bind, regWrite_apply, if_true, asked, wrapped, regPcrP0Addr]
    rw [← rmw_eq_setField _ _ _ _ en]
    rfl

/-- The mask behind the conversion changes nothing. -/
theorem masked_three {n : Nat} (small : n < 8) :
    BitVec.ofNat 32 n &&& 0x7#32 = BitVec.ofNat 32 n := by
  interval_cases n <;> rfl

/-- The table of `get_upw`: the chosen source's field is 7 and the others are 2. -/
theorem getUpw_eq (old : BitVec 32) (base : Nat) (known : base < 6) :
    getUpw old base = [0, 4, 8, 12, 16, 20].foldl (fun value offset =>
      setField value offset 3 (if offset = upwOffset base then 7 else 2)) old := by
  have small : ∀ offset, (if offset = upwOffset base then 7 else 2) < 2 ^ 3 := by
    intro offset
    split_ifs <;> decide
  simp only [List.foldl_cons, List.foldl_nil, ← rmw_eq_setField _ _ _ _ (small _), rmw_rmw]
  interval_cases base <;> (simp only [getUpw]; rfl)

theorem hexWord_eq (s : List Char) :
    BitVec.ofNat 32 ((strtoul 16 s).value % 2 ^ 32) = hexWord s := by
  apply BitVec.eq_of_toNat_eq
  simp [hexWord]

/-- The parts of a command to the table do not overlap. -/
theorem vtcr_entry (func idx : Nat) (small : func < 16) (inside : idx < 256) :
    (1#32 <<< 31) ||| (BitVec.ofNat 32 func <<< 12) ||| BitVec.ofNat 32 idx =
      BitVec.ofNat 32 (0x80000000 + 0x1000 * func + idx) := by
  apply BitVec.eq_of_toNat_eq
  have low : func * 2 ^ 12 ||| idx = 2 ^ 12 * func + idx := by
    rw [Nat.two_pow_add_eq_or_of_lt (by omega), Nat.mul_comm]
  have high : 2 ^ 31 * 1 ||| (2 ^ 12 * func + idx) = 2 ^ 31 * 1 + (2 ^ 12 * func + idx) :=
    (Nat.two_pow_add_eq_or_of_lt (by omega) 1).symm
  have shifted : func <<< 12 % 2 ^ 32 = func * 2 ^ 12 := by
    rw [Nat.shiftLeft_eq, Nat.mod_eq_of_lt (by omega)]
  simp only [BitVec.toNat_or, BitVec.toNat_shiftLeft, BitVec.toNat_ofNat, Nat.or_assoc,
    Nat.mod_eq_of_lt (show func < 2 ^ 32 by omega), Nat.mod_eq_of_lt (show idx < 2 ^ 32 by omega),
    shifted, low, show 1 % 2 ^ 32 = 1 by decide, show 1 <<< 31 % 2 ^ 32 = 2 ^ 31 * 1 by decide, high]
  omega

/-- The commands for an entry of a table, each with its limit and its function. -/
theorem tableAddOf_apply (maxIndex : Nat) (func : Nat) (small : func < 16)
    (long : 6 ≤ argv.length) (index : Decimal (arg argv 3)) :
    tableAddOf maxIndex (writeTable (BitVec.ofNat 32 func) maxIndex) argv regs =
      if (denoted (arg argv 3) < 2 ^ 64 ∧ denoted (arg argv 3) % 256 < maxIndex) ∧
          Hex (arg argv 4) ∧ Hex (arg argv 5) then
        (.ok (), asked.entry argv (fun i => denoted (arg argv i) % 256) func)
      else (.error .refused, []) := by
  simp only [tableAddOf, string_eq argv 3 (by omega), pure_bind]
  apply strtoulInto_bind regs index _ maxIndex _ _ _ (by simp)
  intro inside
  have command := vtcr_entry func (denoted (arg argv 3) % 256) small (by omega)
  simp only [string_eq argv 4 (by omega), pure_bind, strtoulInto_hex_bind, ite_and,
    string_eq argv 5 (by omega), writeTable_apply _ _ _ _ _ _ inside, asked.entry, ← command,
    hexWord_eq]

theorem qosSetPortpri_ran (long : 5 ≤ argv.length) (first : Decimal (arg argv 3))
    (second : Decimal (arg argv 4)) : Ran chipName regs argv qosSetPortpri := by
  apply does_of_ite ((denoted (arg argv 3) < 2 ^ 64 ∧ denoted (arg argv 3) % 256 < 7) ∧
    (denoted (arg argv 4) < 2 ^ 64 ∧ denoted (arg argv 4) % 256 < 8) ∧ True)
  · simp only [Taken, ranges, Held, wrapped, Acts, List.forall_mem_cons, List.not_mem_nil,
      false_imp_iff, implies_true, and_true]
  · simp only [run, SwitchTool.qosSetPortpri, string_eq argv 3 (by omega), pure_bind]
    apply strtoulInto_bind regs first _ 7 _ _ _ (by simp [maxPort]; omega)
    intro port
    simp only [string_eq argv 4 (by omega), pure_bind]
    apply strtoulInto_bind regs second _ 8 _ _ _ (by simp; omega)
    intro prio
    have place : gswPcr (denoted (arg argv 3) % 256) = 0x2004 + 0x100 * (denoted (arg argv 3) % 256) := by
      simp only [gswPcr, gswPortBase]
      omega
    simp only [regRead_bind, regWrite_apply, if_true, asked, wrapped, place]
    rw [← rmw_eq_setField _ _ _ _ prio]
    rfl

theorem qosSetDscppri_ran (long : 5 ≤ argv.length) (first : Decimal (arg argv 3))
    (second : Decimal (arg argv 4)) : Ran chipName regs argv qosSetDscppri := by
  apply does_of_ite ((denoted (arg argv 3) < 2 ^ 64 ∧ denoted (arg argv 3) % 256 < 64) ∧
    (denoted (arg argv 4) < 2 ^ 64 ∧ denoted (arg argv 4) % 256 < 8) ∧ True)
  · simp only [Taken, ranges, Held, wrapped, Acts, List.forall_mem_cons, List.not_mem_nil,
      false_imp_iff, implies_true, and_true]
  · simp only [run, SwitchTool.qosSetDscppri, string_eq argv 3 (by omega), pure_bind]
    apply strtoulInto_bind regs first _ 64 _ _ _ (by simp; omega)
    intro dscp
    simp only [string_eq argv 4 (by omega), pure_bind]
    apply strtoulInto_bind regs second _ 8 _ _ _ (by simp; omega)
    intro prio
    simp only [regRead_bind, regWrite_apply, if_true, asked, wrapped, masked_three prio]
    generalize denoted (arg argv 3) % 256 = n at dscp
    have place : 0x0058 + n / 10 * 4 = 0x58 + 4 * (n / 10) := by omega
    have shift : (n - n / 10 * 10) * 3 = 3 * (n % 10) := by omega
    rw [place, shift, ← rmw_eq_setField _ _ _ _ prio]
    rfl

theorem qosSetBase_ran (long : 5 ≤ argv.length) (first : Decimal (arg argv 3))
    (second : Decimal (arg argv 4)) : Ran chipName regs argv qosSetBase := by
  apply does_of_ite ((denoted (arg argv 3) < 2 ^ 64 ∧ denoted (arg argv 3) % 256 < 7) ∧
    (denoted (arg argv 4) < 2 ^ 64 ∧ denoted (arg argv 4) % 256 < 6) ∧
    (chipName = 0x7530 ∨ chipName = 0x7531 ∨ chipName = 0x7988))
  · simp only [Taken, ranges, Held, wrapped, Acts, List.forall_mem_cons, List.not_mem_nil,
      false_imp_iff, implies_true, and_true]
    tauto
  · simp only [run, SwitchTool.qosSetBase, if_neg (show ¬argv.length < 5 by omega),
      string_eq argv 3 (by omega), pure_bind]
    apply strtoulInto_bind regs first _ 7 _ _ _ (by simp [maxPort]; omega)
    intro port
    simp only [string_eq argv 4 (by omega), pure_bind]
    apply strtoulInto_bind regs second _ 6 _ _ _ (by simp; omega)
    intro base
    have place : gswUpw (denoted (arg argv 3) % 256) =
        0x2040 + 0x100 * (denoted (arg argv 3) % 256) := by
      simp only [gswUpw, gswPortBase]
      omega
    simp only [asked, wrapped, place]
    by_cases old : chipName = 0x7530
    · simp only [if_pos old, if_pos (Or.inl old), regRead_bind, regWrite_apply, getUpw_eq _ _ base]
      rfl
    · by_cases large : chipName = 0x7531 ∨ chipName = 0x7988
      · simp only [if_neg old, if_pos large, if_pos (Or.inr large), regRead_bind, regWrite_apply,
          getUpw_eq _ _ base]
        rfl
      · simp only [if_neg old, if_neg large, if_neg (not_or.2 ⟨old, large⟩), refuse_apply]

theorem qosPriMappingQueue_ran (long : 6 ≤ argv.length) (first : Decimal (arg argv 3))
    (second : Decimal (arg argv 4)) (third : Decimal (arg argv 5)) :
    Ran chipName regs argv qosPriMappingQueue := by
  apply does_of_ite ((denoted (arg argv 3) < 2 ^ 64 ∧ denoted (arg argv 3) % 256 < 7) ∧
    (denoted (arg argv 4) < 2 ^ 64 ∧ denoted (arg argv 4) % 256 < 8) ∧
    (denoted (arg argv 5) < 2 ^ 64 ∧ denoted (arg argv 5) % 256 < 8) ∧
    (chipName = 0x7530 ∨ chipName = 0x7531 ∨ chipName = 0x7988))
  · simp only [Taken, ranges, Held, wrapped, Acts, List.forall_mem_cons, List.not_mem_nil,
      false_imp_iff, implies_true, and_true, and_assoc]
  · simp only [run, SwitchTool.qosPriMappingQueue, if_neg (show ¬argv.length < 6 by omega),
      string_eq argv 3 (by omega), pure_bind]
    apply strtoulInto_bind regs first _ 7 _ _ _ (by simp [maxPort]; omega)
    intro port
    simp only [string_eq argv 4 (by omega), pure_bind]
    apply strtoulInto_bind regs second _ 8 _ _ _ (by simp; omega)
    intro prio
    simp only [string_eq argv 5 (by omega), pure_bind]
    apply strtoulInto_bind regs third _ 8 _ _ _ (by simp; omega)
    intro queue
    simp only [asked, wrapped, gswPem, gswPortBase, masked_three queue]
    generalize denoted (arg argv 3) % 256 = n at port
    generalize denoted (arg argv 4) % 256 = p at prio
    generalize denoted (arg argv 5) % 256 = q at queue
    have oldPlace : p / 2 * 0x4 + 0x48 = 0x48 + 4 * (p / 2) := by omega
    have newPlace : 0x2000 + p / 2 * 0x4 + 0x44 + 0x100 * n = 0x2044 + 0x100 * n + 4 * (p / 2) := by
      omega
    have parity : p % 2 = 0 ∨ p % 2 = 1 := by omega
    have seven : 0x7#32 = BitVec.ofNat 32 (2 ^ 3 - 1) := rfl
    by_cases old : chipName = 0x7530
    · simp only [if_pos old, if_pos (Or.inl old), regRead_bind, regWrite_apply, oldPlace, seven,
        rmw_eq_setField _ _ 3 _ queue]
      rcases parity with even | odd
      · simp only [even, Nat.zero_ne_one, if_false]
      · simp only [odd, if_true]
    · by_cases large : chipName = 0x7531 ∨ chipName = 0x7988
      · simp only [if_neg old, if_pos large, if_pos (Or.inr large), regRead_bind, regWrite_apply,
          newPlace, seven, rmw_eq_setField _ _ 3 _ queue]
        rcases parity with even | odd
        · simp only [even, Nat.zero_ne_one, if_false]
        · simp only [odd, if_true]
      · simp only [if_neg old, if_neg large, if_neg (not_or.2 ⟨old, large⟩), refuse_apply]

theorem qosSchSelect_ran (long : 7 ≤ argv.length) (first : Decimal (arg argv 3))
    (second : Decimal (arg argv 4)) (third : Decimal (arg argv 6)) :
    Ran chipName regs argv qosSchSelect := by
  apply does_of_ite ((denoted (arg argv 3) < 2 ^ 64 ∧ denoted (arg argv 3) % 256 < 7) ∧
    (denoted (arg argv 4) < 2 ^ 64 ∧ denoted (arg argv 4) % 256 < 8) ∧
    (denoted (arg argv 6) < 2 ^ 64 ∧ denoted (arg argv 6) % 256 < 3) ∧
    ((arg argv 5 = ['m', 'i', 'n'] ∧ denoted (arg argv 6) % 256 < 2) ∨
      (arg argv 5 = ['m', 'a', 'x'] ∧ 1 ≤ denoted (arg argv 6) % 256)))
  · simp only [Taken, ranges, Held, wrapped, Acts, List.forall_mem_cons, List.not_mem_nil,
      false_imp_iff, implies_true, and_true, and_assoc]
  · simp only [run, SwitchTool.qosSchSelect, if_neg (show ¬argv.length < 7 by omega),
      string_eq argv 3 (by omega), pure_bind]
    apply strtoulInto_bind regs first _ 7 _ _ _ (by simp [maxPort]; omega)
    intro port
    simp only [string_eq argv 4 (by omega), pure_bind]
    apply strtoulInto_bind regs second _ 8 _ _ _ (by simp; omega)
    intro queue
    simp only [string_eq argv 6 (by omega), pure_bind]
    apply strtoulInto_bind regs third _ 3 _ _ _ (by simp; omega)
    intro type
    simp only [string_eq argv 5 (by omega), pure_bind, asked, wrapped, gswMmscr0Q, gswMmscr1Q,
      gswBmuBase, ite_run, regWrite_apply, refuse_apply]
    generalize denoted (arg argv 3) % 256 = n at port
    generalize denoted (arg argv 4) % 256 = q at queue
    have least : 0x1000 + q * 8 + 0x100 * n = 0x1000 + 0x100 * n + 8 * q + 0 := by omega
    have most : 0x1000 + q * 8 + 0x04 + 0x100 * n = 0x1000 + 0x100 * n + 8 * q + 4 := by omega
    have types : denoted (arg argv 6) % 256 = 0 ∨ denoted (arg argv 6) % 256 = 1 ∨
        denoted (arg argv 6) % 256 = 2 := by omega
    by_cases min : arg argv 5 = ['m', 'i', 'n']
    · rcases types with rr | sp | wfq
      · simp [min, least, rr]
      · simp [min, least, sp]
      · simp [min, wfq]
    · by_cases max : arg argv 5 = ['m', 'a', 'x']
      · rcases types with rr | sp | wfq
        · simp [max, rr]
        · simp [max, most, sp]
        · simp [max, most, wfq]
      · simp only [min, max, false_and, or_self, if_false]

/-- An `int` that passes for a port is what the conversion leaves of the number. -/
theorem atoi_port {s : List Char} (decimal : Decimal s) :
    (¬(atoi s < 0 ∨ atoi s > 6) ↔ denoted s < 2 ^ 63 ∧ denoted s % 2 ^ 32 < 7) ∧
      (¬(atoi s < 0 ∨ atoi s > 6) → (atoi s).toNat = denoted s % 2 ^ 32) := by
  rw [atoi_decimal decimal, Int.bmod_def]
  constructor
  · split_ifs <;> omega
  · split_ifs <;> omega

theorem weights_apply (n : Nat) (long : n + 4 ≤ argv.length) :
    weights argv n regs = (.ok ((List.range n).map fun q => atoi (arg argv (q + 4))), []) := by
  induction n with
  | zero => rfl
  | succ n ih =>
    rw [weights, bind_ok regs _ _ _ _ (ih (by omega)), string_eq argv (n + 4) (by omega), pure_bind,
      pure_apply, List.range_succ, List.map_append]
    rfl

/-- Each queue's weight goes to its own register. -/
theorem writeWeights_apply (port first n : Nat) (weight : Nat → Int)
    (good : ∀ q, first ≤ q → q < first + n → 1 ≤ weight q ∧ weight q ≤ 16) :
    writeWeights port first ((List.range' first n).map weight) regs =
      (.ok (), (List.range' first n).map fun q =>
        ⟨0x1004 + 0x100 * port + 8 * q, setField (regs (0x1004 + 0x100 * port + 8 * q)) 24 4
          (weight q - 1).toNat⟩) := by
  induction n generalizing first with
  | zero => rfl
  | succ n ih =>
    have here := good first (le_refl first) (by omega)
    have place : gswMmscr1Q first + 0x100 * port = 0x1004 + 0x100 * port + 8 * first := by
      simp only [gswMmscr1Q, gswBmuBase]
      omega
    have number : BitVec.ofInt 32 (weight first - 1) &&& 0xf#32 =
        BitVec.ofNat 32 (weight first - 1).toNat := by
      obtain ⟨w, same⟩ := Int.eq_ofNat_of_zero_le (show 0 ≤ weight first - 1 by omega)
      have small : w < 16 := by omega
      rw [same]
      interval_cases w <;> rfl
    simp only [List.range'_succ, List.map_cons, writeWeights, place, number, regRead_bind,
      regWrite_bind, ih (first + 1) fun q lower upper => good q (by omega) (by omega)]
    rw [← rmw_eq_setField _ _ 4 _ (show (weight first - 1).toNat < 2 ^ 4 by omega)]
    rfl

theorem qosWfqSetWeight_ran (long : 12 ≤ argv.length) (first : Decimal (arg argv 3)) :
    Ran chipName regs argv qosWfqSetWeight := by
  apply does_of_ite ((denoted (arg argv 3) < 2 ^ 63 ∧ denoted (arg argv 3) % 2 ^ 32 < 7) ∧
    ∀ q < 8, 1 ≤ atoi (arg argv (q + 4)) ∧ atoi (arg argv (q + 4)) ≤ 16)
  · simp only [Taken, ranges, Held, wrapped, Acts, List.forall_mem_cons, List.not_mem_nil,
      false_imp_iff, implies_true, and_true]
  · have port := atoi_port first
    simp only [run, SwitchTool.qosWfqSetWeight, string_eq argv 3 (by omega), pure_bind]
    rw [bind_ok regs _ _ _ _ (weights_apply 8 (by omega))]
    by_cases inside : denoted (arg argv 3) < 2 ^ 63 ∧ denoted (arg argv 3) % 2 ^ 32 < 7
    · have bad : ¬((List.range 8).map fun q => atoi (arg argv (q + 4))).any
          (fun w => w < 1 ∨ w > 16) = true ↔
          ∀ q < 8, 1 ≤ atoi (arg argv (q + 4)) ∧ atoi (arg argv (q + 4)) ≤ 16 := by
        simp [List.any_eq_true]
      simp only [if_neg (port.1.2 inside), inside, true_and, List.nil_append]
      by_cases good : ∀ q < 8, 1 ≤ atoi (arg argv (q + 4)) ∧ atoi (arg argv (q + 4)) ≤ 16
      · rw [if_neg (bad.2 good), if_pos good, port.2 (port.1.2 inside), List.range_eq_range',
          writeWeights_apply _ 0 8 _ fun q _ upper => good q (by omega)]
        rfl
      · rw [if_pos (not_not.1 (mt bad.1 good)), if_neg good, refuse_bind]
    · have out : atoi (arg argv 3) < 0 ∨ atoi (arg argv 3) > 6 := by
        by_contra fine
        exact inside (port.1.1 fine)
      simp only [if_pos out, inside, false_and, if_false, refuse_bind, List.nil_append]

theorem table_ran {op : Numbered} (maxIndex func : Nat) (small : func < 16)
    (long : 6 ≤ argv.length) (index : Decimal (arg argv 3))
    (passes : (denoted (arg argv 3) < 2 ^ 64 ∧ denoted (arg argv 3) % 256 < maxIndex) ∧
        Hex (arg argv 4) ∧ Hex (arg argv 5) ↔
      op.Taken chipName (fun i => denoted (arg argv i)) ∧
        op.Acts chipName argv (fun i => op.wrapped (denoted (arg argv i))))
    (runs : op.run chipName argv =
      tableAddOf maxIndex (writeTable (BitVec.ofNat 32 func) maxIndex) argv)
    (asks : op.asked chipName regs argv (fun i => op.wrapped (denoted (arg argv i))) =
      asked.entry argv (fun i => denoted (arg argv i) % 256) func) : Ran chipName regs argv op := by
  apply does_of_ite _ passes
  rw [runs, asks]
  exact tableAddOf_apply maxIndex func small long index

theorem ran (op : Numbered) (long : op.argc ≤ argv.length)
    (decimal : ∀ x ∈ op.ranges chipName, Decimal (arg argv x.1)) : Ran chipName regs argv op := by
  cases op <;> simp only [ranges, List.forall_mem_cons, List.not_mem_nil, false_imp_iff,
    implies_true, and_true] at decimal
  case aclTableAdd =>
    exact table_ran (aclEntries chipName) 0x5 (by decide) long decimal
      (by simp [Taken, ranges, Held, wrapped, Acts, aclEntries]) rfl rfl
  case aclMaskTableAdd =>
    exact table_ran (maskEntries chipName) 0x9 (by decide) long decimal
      (by simp [Taken, ranges, Held, wrapped, Acts, maskEntries]) rfl rfl
  case aclRuleTableAdd =>
    exact table_ran (maskEntries chipName) 0xB (by decide) long decimal
      (by simp [Taken, ranges, Held, wrapped, Acts, maskEntries]) rfl rfl
  case aclRateTableAdd =>
    exact table_ran rateEntries 0xD (by decide) long decimal
      (by simp [Taken, ranges, Held, wrapped, Acts, rateEntries]) rfl rfl
  case aclPortEnable => exact aclPortEnable_ran long decimal.1 decimal.2
  case qosSchSelect => exact qosSchSelect_ran long decimal.1 decimal.2.1 decimal.2.2
  case qosSetBase => exact qosSetBase_ran long decimal.1 decimal.2
  case qosWfqSetWeight => exact qosWfqSetWeight_ran long decimal
  case qosSetPortpri => exact qosSetPortpri_ran long decimal.1 decimal.2
  case qosSetDscppri => exact qosSetDscppri_ran long decimal.1 decimal.2
  case qosPriMappingQueue =>
    exact qosPriMappingQueue_ran long decimal.1 decimal.2.1 decimal.2.2

theorem small_ranges (op : Numbered) : ∀ x ∈ op.ranges chipName, x.2 ≤ 256 := by
  cases op <;> simp only [ranges, List.forall_mem_cons, List.not_mem_nil, false_imp_iff, implies_true,
    and_true] <;> (try split_ifs) <;> decide

/-- Only the numbers that the command takes count. -/
theorem asked_congr (op : Numbered) (n n' : Nat → Nat)
    (same : ∀ x ∈ op.ranges chipName, n x.1 = n' x.1) :
    op.asked chipName regs argv n = op.asked chipName regs argv n' ∧
      (op.Acts chipName argv n ↔ op.Acts chipName argv n') := by
  cases op <;> simp only [ranges, List.forall_mem_cons, List.not_mem_nil, false_imp_iff,
    implies_true, and_true] at same <;> simp [asked, asked.entry, Acts, same]

/-- Numbers in their ranges pass, and the variables hold them. -/
theorem InRange.taken {op : Numbered} {n : Nat → Nat} (inRange : op.InRange chipName n) :
    op.Taken chipName n ∧ ∀ x ∈ op.ranges chipName, op.wrapped (n x.1) = n x.1 := by
  have each : ∀ x ∈ op.ranges chipName, op.Held (n x.1) ∧ op.wrapped (n x.1) = n x.1 := by
    intro x member
    have below := inRange x member
    have small := small_ranges op x member
    cases op <;> exact ⟨by simp only [Held]; omega, Nat.mod_eq_of_lt (by omega)⟩
  refine ⟨fun x member => ⟨(each x member).1, ?_⟩, fun x member => (each x member).2⟩
  rw [(each x member).2]
  exact inRange x member

/-- The commands with decimal strings for their numbers are exact unless a number that is out of its
range passes for another one in what its variable holds of it, and the rest of the arguments is fine. -/
theorem exact_iff (op : Numbered) (long : op.argc ≤ argv.length)
    (decimal : ∀ x ∈ op.ranges chipName, Decimal (arg argv x.1)) :
    op.Exact chipName regs argv ↔
      op.InRange chipName (fun i => denoted (arg argv i)) ∨
        ¬(op.Taken chipName (fun i => denoted (arg argv i)) ∧
          op.Acts chipName argv fun i => op.wrapped (denoted (arg argv i))) := by
  have ran : Ran chipName regs argv op := ran op long decimal
  constructor
  · intro exact_
    by_contra out
    push Not at out
    obtain ⟨outside, taken, acts⟩ := out
    have done := ran.acts taken acts
    rw [exact_.refuses fun both => outside both.1] at done
    simp at done
  · rintro (inRange | refused)
    · obtain ⟨taken, kept⟩ := inRange.taken
      obtain ⟨sameAsked, sameActs⟩ := @asked_congr chipName regs argv op
        (fun i => op.wrapped (denoted (arg argv i))) (fun i => denoted (arg argv i)) kept
      refine ⟨fun _ acts => ?_, fun no => ran.refuses fun both => no ⟨inRange, sameActs.1 both.2⟩⟩
      rw [← sameAsked]
      exact ran.acts taken (sameActs.2 acts)
    · refine ⟨fun inRange acts => ?_, fun _ => ran.refuses refused⟩
      obtain ⟨taken, kept⟩ := inRange.taken
      have sameActs := (@asked_congr chipName regs argv op
        (fun i => op.wrapped (denoted (arg argv i))) (fun i => denoted (arg argv i)) kept).2
      exact absurd ⟨taken, sameActs.2 acts⟩ refused

/-- `switch acl enable 3 1` -/
def enableThree : Argv :=
  [['s', 'w', 'i', 't', 'c', 'h'], ['a', 'c', 'l'], ['e', 'n', 'a', 'b', 'l', 'e'], ['3'], ['1']]

theorem enableThree_exact : Exact 0x7531 (fun _ => 0) enableThree aclPortEnable :=
  (exact_iff aclPortEnable (by decide) (by decide)).2 (Or.inl (by
    unfold InRange
    decide))

/-- `switch acl acltbl-add 262 1 2` -/
def addEntry262 : Argv :=
  [['s', 'w', 'i', 't', 'c', 'h'], ['a', 'c', 'l'],
    ['a', 'c', 'l', 't', 'b', 'l', '-', 'a', 'd', 'd'], ['2', '6', '2'], ['1'], ['2']]

/-- Entry 6 of the table is written. -/
theorem addEntry262_not_exact : ¬Exact 0x7531 (fun _ => 0) addEntry262 aclTableAdd := by
  intro exact_
  have outside : ¬InRange 0x7531 (fun i => denoted (arg addEntry262 i)) aclTableAdd := by
    unfold InRange
    decide
  have none_ := congrArg (fun result => result.2.length) (exact_.refuses fun both => outside both.1)
  exact absurd none_ (by decide)

end Numbered

end Filogic.SwitchTool
