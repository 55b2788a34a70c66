import Filogic.SwitchTool.Strings

/-! What a command of the switch tool does to the registers: it reads them, writes some in order, and
ends when it is through or when it refuses its arguments. The waits for a register's busy bit and the
messages are left out. -/

namespace Filogic.SwitchTool

/-- A command that refuses its arguments, or that reads a string through a null pointer. -/
inductive Stop where
  | refused
  | crashed
deriving DecidableEq, Repr

structure Write where
  addr : Nat
  value : BitVec 32
deriving DecidableEq, Repr

/-- The registers as a command finds them; none reads a register that it has written before. -/
abbrev Regs := Nat → BitVec 32

/-- A command, with what it has written when it ends. -/
def Tool (α : Type) := Regs → Except Stop α × List Write

instance : Monad Tool where
  pure a := fun _ => (.ok a, [])
  bind x f := fun regs =>
    match x regs with
    | (.ok a, ws) => ((f a regs).1, ws ++ (f a regs).2)
    | (.error e, ws) => (.error e, ws)

def regRead (addr : Nat) : Tool (BitVec 32) := fun regs => (.ok (regs addr), [])

def regWrite (addr : Nat) (value : BitVec 32) : Tool Unit := fun _ => (.ok (), [⟨addr, value⟩])

def refuse {α : Type} : Tool α := fun _ => (.error .refused, [])

def crash {α : Type} : Tool α := fun _ => (.error .crashed, [])

section Runs

variable {α β : Type} (regs : Regs)

theorem bind_ok (x : Tool α) (f : α → Tool β) (a : α) (ws : List Write) (run : x regs = (.ok a, ws)) :
    (x >>= f) regs = ((f a regs).1, ws ++ (f a regs).2) := by
  change (match x regs with
    | (.ok a, ws) => ((f a regs).1, ws ++ (f a regs).2)
    | (.error e, ws) => (.error e, ws)) = _
  rw [run]

theorem bind_error (x : Tool α) (f : α → Tool β) (e : Stop) (ws : List Write)
    (run : x regs = (.error e, ws)) : (x >>= f) regs = (.error e, ws) := by
  change (match x regs with
    | (.ok a, ws) => ((f a regs).1, ws ++ (f a regs).2)
    | (.error e, ws) => (.error e, ws)) = _
  rw [run]

@[simp] theorem pure_bind (a : α) (f : α → Tool β) : ((pure a : Tool α) >>= f) regs = f a regs := by
  rw [bind_ok regs (pure a : Tool α) f a [] rfl]
  rfl

@[simp] theorem regRead_bind (addr : Nat) (f : BitVec 32 → Tool β) :
    (regRead addr >>= f) regs = f (regs addr) regs := by
  rw [bind_ok regs (regRead addr) f (regs addr) [] rfl]
  rfl

@[simp] theorem regWrite_bind (addr : Nat) (value : BitVec 32) (f : Unit → Tool β) :
    (regWrite addr value >>= f) regs = ((f () regs).1, ⟨addr, value⟩ :: (f () regs).2) := by
  rw [bind_ok regs (regWrite addr value) f () _ rfl]
  rfl

@[simp] theorem refuse_bind (f : α → Tool β) : (refuse >>= f) regs = (.error .refused, []) :=
  bind_error regs refuse f .refused [] rfl

@[simp] theorem crash_bind (f : α → Tool β) : (crash >>= f) regs = (.error .crashed, []) :=
  bind_error regs crash f .crashed [] rfl

@[simp] theorem pure_apply (a : α) : (pure a : Tool α) regs = (.ok a, []) := rfl
@[simp] theorem refuse_apply : (refuse : Tool α) regs = (.error .refused, []) := rfl
@[simp] theorem crash_apply : (crash : Tool α) regs = (.error .crashed, []) := rfl
@[simp] theorem regWrite_apply (addr : Nat) (value : BitVec 32) :
    regWrite addr value regs = (.ok (), [⟨addr, value⟩]) := rfl

@[simp] theorem ite_run (c : Prop) [Decidable c] (x y : Tool α) :
    (if c then x else y) regs = if c then x regs else y regs := by
  split_ifs <;> rfl

end Runs

/-- The argument vector; a place behind its end holds the null pointer. -/
abbrev Argv := List (List Char)

/-- A string that the command reads without a look at the pointer. -/
def string (argv : Argv) (i : Nat) : Tool (List Char) :=
  match argv[i]? with
  | some s => pure s
  | none => crash

/-- `strtoul` into a variable of so many bits, with the tests of `errno` and `*endptr` and that of the
value in the variable. -/
def strtoulInto (width base : Nat) (wrong : Nat → Bool) (s : List Char) : Tool Nat :=
  let parsed := strtoul base s
  let value := parsed.value % 2 ^ width
  if parsed.erange ∨ parsed.endptr ≠ [] ∨ wrong value then refuse else pure value

/-- What such a conversion accepts. -/
def Passes (width base : Nat) (wrong : Nat → Bool) (s : List Char) : Prop :=
  (strtoul base s).erange = false ∧ (strtoul base s).endptr = [] ∧
    wrong ((strtoul base s).value % 2 ^ width) = false

instance (width base : Nat) (wrong : Nat → Bool) (s : List Char) :
    Decidable (Passes width base wrong s) :=
  inferInstanceAs (Decidable ((strtoul base s).erange = false ∧ (strtoul base s).endptr = [] ∧
    wrong ((strtoul base s).value % 2 ^ width) = false))

theorem strtoulInto_eq (width base : Nat) (wrong : Nat → Bool) (s : List Char) :
    strtoulInto width base wrong s =
      if Passes width base wrong s then pure ((strtoul base s).value % 2 ^ width) else refuse := by
  by_cases passes : Passes width base wrong s
  · obtain ⟨fits, whole, right⟩ := passes
    rw [if_pos ⟨fits, whole, right⟩]
    simp only [strtoulInto, fits, whole, right, Bool.false_eq_true, ne_eq, not_true_eq_false,
      or_self, if_false]
  · have bad : (strtoul base s).erange = true ∨ (strtoul base s).endptr ≠ [] ∨
        wrong ((strtoul base s).value % 2 ^ width) = true := by
      by_contra fine
      simp only [not_or, Bool.not_eq_true, ne_eq, not_not] at fine
      exact passes fine
    rw [if_neg passes]
    simp only [strtoulInto, if_pos bad]

/-- The command goes on with what the conversion leaves. -/
theorem strtoulInto_run {β : Type} (width base : Nat) (wrong : Nat → Bool) (s : List Char)
    (f : Nat → Tool β) (regs : Regs) :
    (strtoulInto width base wrong s >>= f) regs =
      if Passes width base wrong s then f ((strtoul base s).value % 2 ^ width) regs
      else (.error .refused, []) := by
  rw [strtoulInto_eq]
  by_cases passes : Passes width base wrong s
  · simp only [if_pos passes, pure_bind]
  · simp only [if_neg passes, refuse_bind]

/-- A word in hex. -/
def Hex (s : List Char) : Prop := Passes 32 16 (fun _ => false) s

instance (s : List Char) : Decidable (Hex s) :=
  inferInstanceAs (Decidable (Passes 32 16 (fun _ => false) s))

/-- `strtoul(s, NULL, base)` into an `unsigned int`. -/
def strtoulUnchecked (base : Nat) (s : List Char) : Nat := (strtoul base s).value % 2 ^ 32

def regAta1Addr : Nat := 0x0074
def regAta2Addr : Nat := 0x0078
def regAtwdAddr : Nat := 0x007C
def regAtcAddr : Nat := 0x0080
def regVtcrAddr : Nat := 0x0090
def regVawd1Addr : Nat := 0x0094
def regVawd2Addr : Nat := 0x0098
def regPcrP0Addr : Nat := 0x2004
def gswBmuBase : Nat := 0x1000
def gswPortBase : Nat := 0x2000
def gswPcr (n : Nat) : Nat := gswPortBase + n * 0x100 + 0x04
def gswUpw (n : Nat) : Nat := gswPortBase + n * 0x100 + 0x40
def gswPem (n : Nat) : Nat := gswPortBase + n * 0x4 + 0x44
def gswMmscr0Q (n : Nat) : Nat := gswBmuBase + n * 0x8
def gswMmscr1Q (n : Nat) : Nat := gswBmuBase + n * 0x8 + 0x04

def maxPort : Nat := 6

/-- The chips with the larger tables. -/
def isLarge (chipName : Nat) : Bool := chipName = 0x7531 || chipName = 0x7988

def aclEntries (chipName : Nat) : Nat := if isLarge chipName then 256 else 64

def maskEntries (chipName : Nat) : Nat := if isLarge chipName then 128 else 32

def rateEntries : Nat := 32

/-- The functions that write an entry of one of the tables behind `REG_VTCR_ADDR`. -/
def writeTable (func : BitVec 32) (maxIndex tblIdx : Nat) (vawd1 vawd2 : BitVec 32) : Tool Unit := do
  if tblIdx ≥ maxIndex then return ()
  regWrite regVawd1Addr vawd1
  regWrite regVawd2Addr vawd2
  regWrite regVtcrAddr ((1#32 <<< 31) ||| (func <<< 12) ||| BitVec.ofNat 32 tblIdx)

def writeAclTable (chipName : Nat) := writeTable 0x05 (aclEntries chipName)

def writeAclMaskTable (chipName : Nat) := writeTable 0x09 (maskEntries chipName)

def writeAclRuleTable (chipName : Nat) := writeTable 0x0B (maskEntries chipName)

def writeRateTable := writeTable 0x0D rateEntries

def writeTrTcmTable := writeTable 0x07 rateEntries

/-- The commands that write an entry as it is given: an index in decimal and two words in hex. -/
def tableAddOf (maxIndex : Nat) (write : Nat → BitVec 32 → BitVec 32 → Tool Unit) (argv : Argv) :
    Tool Unit := do
  let tblIdx ← strtoulInto 8 10 (· ≥ maxIndex) (← string argv 3)
  let vawd1 ← strtoulInto 32 16 (fun _ => false) (← string argv 4)
  let vawd2 ← strtoulInto 32 16 (fun _ => false) (← string argv 5)
  write tblIdx (BitVec.ofNat 32 vawd1) (BitVec.ofNat 32 vawd2)

def aclTableAdd (chipName : Nat) := tableAddOf (aclEntries chipName) (writeAclTable chipName)

def aclMaskTableAdd (chipName : Nat) :=
  tableAddOf (maskEntries chipName) (writeAclMaskTable chipName)

def aclRuleTableAdd (chipName : Nat) :=
  tableAddOf (maskEntries chipName) (writeAclRuleTable chipName)

def aclRateTableAdd := tableAddOf rateEntries writeRateTable

def aclPortEnable (argv : Argv) : Tool Unit := do
  let aclPort ← strtoulInto 8 10 (· > maxPort) (← string argv 3)
  let aclEn ← strtoulInto 8 10 (· > 1) (← string argv 4)
  let reg := regPcrP0Addr + 0x100 * aclPort
  let value ← regRead reg
  regWrite reg ((value &&& ~~~(1#32 <<< 10)) ||| (BitVec.ofNat 32 aclEn <<< 10))

/-- An index below the limit is written under its number. -/
theorem writeTable_apply (func : BitVec 32) (maxIndex tblIdx : Nat) (vawd1 vawd2 : BitVec 32)
    (regs : Regs) (inside : tblIdx < maxIndex) :
    writeTable func maxIndex tblIdx vawd1 vawd2 regs = (.ok (), [⟨0x0094, vawd1⟩, ⟨0x0098, vawd2⟩,
      ⟨0x0090, (1#32 <<< 31) ||| (func <<< 12) ||| BitVec.ofNat 32 tblIdx⟩]) := by
  simp [writeTable, regVtcrAddr, regVawd1Addr, regVawd2Addr, if_neg (show ¬tblIdx ≥ maxIndex by omega)]

end Filogic.SwitchTool
