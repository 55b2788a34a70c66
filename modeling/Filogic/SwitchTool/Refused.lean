import Filogic.SwitchTool.Numbered

/-! The commands of the switch tool on the ACL, on the DIP and SIP tables and on the MAC table. They
parse and write in turn, so that some refuse an argument after the first registers are written. -/

namespace Filogic.SwitchTool

section Strings

/-- `getnext` for a separator that is a dot. -/
def getnext (s : List Char) : Option (List Char × List Char) :=
  if '.' ∈ s then some (s.takeWhile (· ≠ '.'), (s.dropWhile (· ≠ '.')).tail) else none

/-- `atoi` into an `unsigned char`. -/
def octet (s : List Char) : Nat := (atoi s % 256).toNat

/-- `str_to_ip`, whose result no caller looks at: without three dots the address stays as it was. -/
def strToIp (ip : Nat) (s : Option (List Char)) : Nat :=
  (do
    let (c0, s) ← getnext (← s)
    let (c1, s) ← getnext s
    let (c2, s) ← getnext s
    return octet c0 * 2 ^ 24 + octet c1 * 2 ^ 16 + octet c2 * 2 ^ 8 + octet s).getD ip

/-- The loop over the seven ports of a map. -/
def portLoop (s : List Char) : Nat → Nat → Nat → Tool Nat
  | _, 0, port => pure port
  | i, n + 1, port =>
      if s.getD i ' ' ≠ '0' ∧ s.getD i ' ' ≠ '1' then refuse
      else portLoop s (i + 1) n (port + ((s.getD i ' ').toNat - 48) * 2 ^ i)

/-- A port map has eight characters, of which seven count. -/
def portMap (s : Option (List Char)) : Tool Nat :=
  match s with
  | none => refuse
  | some s => if s.length ≠ 8 then refuse else portLoop s 0 7 0

end Strings

section Acl

/-- `acl_parameters_pre_del` -/
def aclParametersPreDel (len1 : Nat) (len2 : Int) (argv : Argv) : Tool Nat := do
  if argv.length < len1 then refuse
  if len2 = 12 then
    match argv[4]? with
    | none => refuse
    | some s => if s.length ≠ 12 then refuse
  portMap argv[5]?

/-- `acl_compare_pattern` -/
def aclComparePattern (chipName ports comparion base word tableIndex : Nat) : Tool Unit :=
  writeAclTable chipName tableIndex (BitVec.ofNat 32 comparion ||| 0xffff0000#32)
    ((BitVec.ofNat 32 ports <<< 8) ||| (0x1#32 <<< 19) ||| (BitVec.ofNat 32 base <<< 16) |||
      (BitVec.ofNat 32 word <<< 1))

def aclMacAdd (chipName : Nat) (argv : Argv) : Tool Unit := do
  let ports ← aclParametersPreDel 6 12 argv
  let mac ← string argv 4
  let value ← strtoulInto 32 16 (fun _ => false) (mac.take 4)
  aclComparePattern chipName ports value 0x0 0 0
  let value ← strtoulInto 32 16 (fun _ => false) ((mac.drop 4).take 4)
  aclComparePattern chipName ports value 0x0 1 1
  let value ← strtoulInto 32 16 (fun _ => false) ((mac.drop 8).take 4)
  aclComparePattern chipName ports value 0x0 2 2
  writeAclMaskTable chipName 0 0x7 0
  writeAclRuleTable chipName 0 (0x7#32 ||| (1#32 <<< 28) ||| (1#32 <<< 27) ||| (2#32 <<< 24)) 0

/-- The two patterns for a destination address. -/
def aclDipPatterns (chipName ports : Nat) (argv : Argv) : Tool Unit := do
  let ipValue := strToIp 0 argv[4]?
  aclComparePattern chipName ports (ipValue / 2 ^ 16) 0x2 0x8 0
  aclComparePattern chipName ports (ipValue % 2 ^ 16) 0x2 0x9 1

/-- The rates in kbps that a chip does not take. -/
def meterIllegal (chipName meter : Nat) : Prop :=
  (chipName = 0x7530 ∧ meter > 1000000) ∨ (chipName = 0x7531 ∧ meter > 2500000) ∨
    (chipName = 0x7988 ∧ meter > 4000000)

instance (chipName meter : Nat) : Decidable (meterIllegal chipName meter) :=
  inferInstanceAs (Decidable (_ ∨ _ ∨ _))

def aclDipMeter (chipName : Nat) (argv : Argv) : Tool Unit := do
  let ports ← aclParametersPreDel 7 (-1) argv
  aclDipPatterns chipName ports argv
  writeAclMaskTable chipName 0 0x3 0
  let meter := strtoulUnchecked 0 (← string argv 6)
  if meterIllegal chipName meter then refuse
  let value ← regRead 0xc
  if isLarge chipName ∧ meter > 1000000 then
    regWrite 0xc (value ||| (0x1#32 <<< 30))
    writeRateTable 0 (BitVec.ofNat 32 (meter / 1000) ||| (0x1#32 <<< 15)) 0
  else
    regWrite 0xc (value &&& ~~~(0x1#32 <<< 30))
    writeRateTable 0 (BitVec.ofNat 32 (meter / 2 ^ 6) ||| (0x1#32 <<< 15)) 0

/-- The parameters of the two rates that the command does not take. -/
def trtcmIllegal (cir cbs pir pbs : Nat) : Prop :=
  cir > 65535 * 64 ∨ cbs > 65535 ∨ pir > 65535 * 64 ∨ pbs > 65535

instance (cir cbs pir pbs : Nat) : Decidable (trtcmIllegal cir cbs pir pbs) :=
  inferInstanceAs (Decidable (_ ∨ _ ∨ _ ∨ _))

def aclDipTrtcm (chipName : Nat) (argv : Argv) : Tool Unit := do
  let ports ← aclParametersPreDel 10 (-1) argv
  aclDipPatterns chipName ports argv
  let cir := strtoulUnchecked 0 (← string argv 6)
  let cbs := strtoulUnchecked 0 (← string argv 7)
  let pir := strtoulUnchecked 0 (← string argv 8)
  let pbs := strtoulUnchecked 0 (← string argv 9)
  if trtcmIllegal cir cbs pir pbs then refuse
  writeTrTcmTable 0 ((BitVec.ofNat 32 cbs <<< 16) ||| BitVec.ofNat 32 pbs)
    ((BitVec.ofNat 32 (cir / 2 ^ 6) <<< 16) ||| BitVec.ofNat 32 (pir / 2 ^ 6))
  writeAclMaskTable chipName 0 0x3 0
  writeAclRuleTable chipName 0 0
    ((0x1#32 <<< 12) ||| (0x2#32 <<< 9) ||| (0x3#32 <<< 6) ||| (0x1#32 <<< 0))

def aclEthertype (chipName : Nat) (argv : Argv) : Tool Unit := do
  let ports ← aclParametersPreDel 6 (-1) argv
  let ethertype := strtoulUnchecked 16 (← string argv 4)
  aclComparePattern chipName ports ethertype 0x0 0x6 0
  writeAclMaskTable chipName 0 0x1 0
  writeAclRuleTable chipName 0 (0x7#32 ||| (1#32 <<< 28) ||| (1#32 <<< 27)) 0

def aclDipModify (chipName : Nat) (argv : Argv) : Tool Unit := do
  let priority := BitVec.ofNat 32 (strtoulUnchecked 16 (← string argv 6))
  if priority.toInt < 0 ∨ priority.toInt > 7 then refuse
  let ports ← aclParametersPreDel 6 (-1) argv
  aclDipPatterns chipName ports argv
  writeAclMaskTable chipName 0 0x3 0
  writeAclRuleTable chipName 0 ((1#32 <<< 28) ||| (1#32 <<< 27) ||| (priority <<< 4)) 0

def aclDipPppoe (chipName : Nat) (argv : Argv) : Tool Unit := do
  let ports ← aclParametersPreDel 6 (-1) argv
  aclDipPatterns chipName ports argv
  writeAclMaskTable chipName 0 0x3 0
  writeAclRuleTable chipName 0
    ((1#32 <<< 28) ||| (1#32 <<< 27) ||| (1#32 <<< 20) ||| (1#32 <<< 21) ||| (1#32 <<< 22)) 7

def aclDipAdd (chipName : Nat) (argv : Argv) : Tool Unit := do
  let ports ← aclParametersPreDel 6 (-1) argv
  aclDipPatterns chipName ports argv
  writeAclMaskTable chipName 0 0x3 0
  writeAclRuleTable chipName 0 (0x7#32 ||| (1#32 <<< 28) ||| (1#32 <<< 27) ||| (2#32 <<< 24)) 0

def aclL4Add (chipName : Nat) (argv : Argv) : Tool Unit := do
  let ports ← aclParametersPreDel 6 (-1) argv
  aclComparePattern chipName ports (strtoulUnchecked 16 (← string argv 4)) 0x5 0x0 0
  writeAclMaskTable chipName 0 0x1 0
  writeAclRuleTable chipName 0 0x7 0

def aclSpAdd (chipName : Nat) (argv : Argv) : Tool Unit := do
  let ports ← aclParametersPreDel 6 (-1) argv
  aclComparePattern chipName ports (strtoulUnchecked 0 (← string argv 4)) 0x4 0x0 0
  writeAclMaskTable chipName 0 0x1 0
  writeAclRuleTable chipName 0 0x7 0

end Acl

section Tables

def dipAdd (argv : Argv) : Tool Unit := do
  regWrite regAta1Addr (BitVec.ofNat 32 (strToIp 0 argv[3]?))
  let j ← portMap argv[4]?
  regWrite regAtwdAddr ((BitVec.ofNat 32 j <<< 4) ||| (0x3#32 <<< 2))
  regWrite regAtcAddr 0x8011

def dipDel (argv : Argv) : Tool Unit := do
  regWrite regAta1Addr (BitVec.ofNat 32 (strToIp 0 argv[3]?))
  regWrite regAta2Addr 0
  regWrite regAtwdAddr 0
  regWrite regAtcAddr 0x8011

def sipAdd (argv : Argv) : Tool Unit := do
  regWrite regAta2Addr (BitVec.ofNat 32 (strToIp 0 argv[3]?))
  regWrite regAta1Addr (BitVec.ofNat 32 (strToIp 0 argv[4]?))
  let j ← portMap argv[5]?
  regWrite regAtwdAddr ((BitVec.ofNat 32 j <<< 4) ||| (0x3#32 <<< 2))
  regWrite regAtcAddr 0x8021

def sipDel (argv : Argv) : Tool Unit := do
  let value := strToIp 0 argv[3]?
  regWrite regAta2Addr (BitVec.ofNat 32 value)
  regWrite regAta1Addr (BitVec.ofNat 32 (strToIp value argv[4]?))
  regWrite regAtwdAddr 0
  regWrite regAtcAddr 0x8021

/-- A MAC address is twelve characters. -/
def macString (s : Option (List Char)) : Tool (List Char) :=
  match s with
  | none => refuse
  | some s => if s.length ≠ 12 then refuse else pure s

/-- The first eight characters of a MAC address go to a register before the other four are parsed. -/
def macHigh (mac : List Char) : Tool Nat := do
  let value ← strtoulInto 32 16 (fun _ => false) (mac.take 8)
  regWrite regAta1Addr (BitVec.ofNat 32 value)
  strtoulInto 32 16 (fun _ => false) ((mac.drop 8).take 4)

/-- A further argument, if it is there. -/
def optional (argv : Argv) (i : Nat) (wrong : Nat → Bool) (absent : Nat) : Tool Nat :=
  match argv[i]? with
  | none => pure absent
  | some s => strtoulInto 32 10 wrong s

def tableAdd (argv : Argv) : Tool Unit := do
  let command ← string argv 1
  let isFilter := command.head? = some 'f'
  let isMymac := command.head? = some 'm'
  let mac ← macString argv[2]?
  let value ← macHigh mac
  let vid ← optional argv 4 (· > 4095) 0
  regWrite regAta2Addr ((BitVec.ofNat 32 value <<< 16) ||| (1#32 <<< 15) ||| BitVec.ofNat 32 vid)
  let given := argv[3]?.filter fun s => s.length = 8
  let j ← portMap (if isFilter then some (given.getD ['1', '1', '1', '1', '1', '1', '1', '1']) else given)
  let age ← optional argv 5 (fun age => age < 1 ∨ 255 < age) 0xff
  let tag ← optional argv 6 (· > 7) 0
  regWrite regAtwdAddr ((BitVec.ofNat 32 j <<< 4) ||| (BitVec.ofNat 32 age <<< 24) |||
    (if argv.length > 5 then 0x1#32 <<< 2 else 0x3#32 <<< 2) ||| (BitVec.ofNat 32 tag <<< 13) |||
    (if isFilter then 7#32 <<< 20 else 0) ||| (if isMymac then 1#32 <<< 23 else 0))
  regWrite regAtcAddr 0x8001

def tableSearchMacVid (argv : Argv) : Tool Unit := do
  let mac ← macString argv[3]?
  let value ← macHigh mac
  let j ← strtoulInto 32 10 (· > 4095) (← string argv 5)
  regWrite regAta2Addr ((BitVec.ofNat 32 value <<< 16) ||| (1#32 <<< 15) ||| BitVec.ofNat 32 j)
  regWrite regAtcAddr 0x8000

def tableSearchMacFid (argv : Argv) : Tool Unit := do
  let mac ← macString argv[3]?
  let value ← macHigh mac
  let j ← strtoulInto 32 10 (· > 7) (← string argv 5)
  regWrite regAta2Addr
    (((BitVec.ofNat 32 value <<< 16) &&& ~~~(1#32 <<< 15)) ||| (BitVec.ofNat 32 j <<< 12))
  regWrite regAtcAddr 0x8000

def tableDelFid (argv : Argv) : Tool Unit := do
  let mac ← macString argv[3]?
  let value ← macHigh mac
  let j ← optional argv 5 (· > 7) 0
  regWrite regAta2Addr ((BitVec.ofNat 32 value <<< 16) ||| (BitVec.ofNat 32 j <<< 12))
  regWrite regAtwdAddr 0
  regWrite regAtcAddr 0x8001

def tableDelVid (argv : Argv) : Tool Unit := do
  let mac ← macString argv[3]?
  let value ← macHigh mac
  let j ← strtoulInto 32 10 (· > 4095) (← string argv 5)
  regWrite regAta2Addr ((BitVec.ofNat 32 value <<< 16) ||| BitVec.ofNat 32 j ||| (1#32 <<< 15))
  regWrite regAtwdAddr 0
  regWrite regAtcAddr 0x8001

end Tables

/-- The commands that take arguments. -/
inductive Command where
  | aclTableAdd
  | aclMaskTableAdd
  | aclRuleTableAdd
  | aclRateTableAdd
  | aclPortEnable
  | aclMacAdd
  | aclDipMeter
  | aclDipTrtcm
  | aclEthertype
  | aclDipModify
  | aclDipPppoe
  | aclDipAdd
  | aclL4Add
  | aclSpAdd
  | dipAdd
  | dipDel
  | sipAdd
  | sipDel
  | tableAdd
  | tableSearchMacVid
  | tableSearchMacFid
  | tableDelFid
  | tableDelVid
deriving DecidableEq, Repr

def Command.run (chipName : Nat) (argv : Argv) : Command → Tool Unit
  | aclTableAdd => SwitchTool.aclTableAdd chipName argv
  | aclMaskTableAdd => SwitchTool.aclMaskTableAdd chipName argv
  | aclRuleTableAdd => SwitchTool.aclRuleTableAdd chipName argv
  | aclRateTableAdd => SwitchTool.aclRateTableAdd argv
  | aclPortEnable => SwitchTool.aclPortEnable argv
  | aclMacAdd => SwitchTool.aclMacAdd chipName argv
  | aclDipMeter => SwitchTool.aclDipMeter chipName argv
  | aclDipTrtcm => SwitchTool.aclDipTrtcm chipName argv
  | aclEthertype => SwitchTool.aclEthertype chipName argv
  | aclDipModify => SwitchTool.aclDipModify chipName argv
  | aclDipPppoe => SwitchTool.aclDipPppoe chipName argv
  | aclDipAdd => SwitchTool.aclDipAdd chipName argv
  | aclL4Add => SwitchTool.aclL4Add chipName argv
  | aclSpAdd => SwitchTool.aclSpAdd chipName argv
  | dipAdd => SwitchTool.dipAdd argv
  | dipDel => SwitchTool.dipDel argv
  | sipAdd => SwitchTool.sipAdd argv
  | sipDel => SwitchTool.sipDel argv
  | tableAdd => SwitchTool.tableAdd argv
  | tableSearchMacVid => SwitchTool.tableSearchMacVid argv
  | tableSearchMacFid => SwitchTool.tableSearchMacFid argv
  | tableDelFid => SwitchTool.tableDelFid argv
  | tableDelVid => SwitchTool.tableDelVid argv

section Rules

variable {α : Type}

/-- The command refuses its arguments. -/
def Refuses (x : Tool α) (regs : Regs) : Prop := (x regs).1 = .error .refused

/-- A refusal leaves the registers as they were. -/
def Quiet (x : Tool α) (regs : Regs) : Prop := Refuses x regs → (x regs).2 = []

variable (regs : Regs)

@[simp] theorem refuses_pure (a : α) : ¬Refuses (pure a : Tool α) regs := by simp [Refuses]
@[simp] theorem quiet_pure (a : α) : Quiet (pure a : Tool α) regs := by simp [Quiet]
@[simp] theorem refuses_refuse : Refuses (refuse : Tool α) regs := rfl
@[simp] theorem quiet_refuse : Quiet (refuse : Tool α) regs := fun _ => rfl
@[simp] theorem refuses_crash : ¬Refuses (crash : Tool α) regs := by simp [Refuses]
@[simp] theorem quiet_crash : Quiet (crash : Tool α) regs := by simp [Quiet]
@[simp] theorem refuses_regWrite (addr : Nat) (value : BitVec 32) :
    ¬Refuses (regWrite addr value) regs := by simp [Refuses]

@[simp] theorem refuses_ite (c : Prop) [Decidable c] (x y : Tool α) :
    Refuses (if c then x else y) regs ↔ if c then Refuses x regs else Refuses y regs := by
  split_ifs <;> rfl

@[simp] theorem quiet_ite (c : Prop) [Decidable c] (x y : Tool α) :
    Quiet (if c then x else y) regs ↔ if c then Quiet x regs else Quiet y regs := by
  split_ifs <;> rfl

theorem regRead_rule (addr : Nat) (f : BitVec 32 → Tool α) :
    Refuses (regRead addr >>= f) regs ↔ Refuses (f (regs addr)) regs := by
  rw [Refuses, Refuses, regRead_bind]

/-- What is refused after a write is not refused in time. -/
theorem writes_bind {x : Tool Unit} {ws : List Write} (run : x regs = (.ok (), ws)) (some_ : ws ≠ [])
    (f : Unit → Tool α) :
    (Refuses (x >>= f) regs ↔ Refuses (f ()) regs) ∧ (Quiet (x >>= f) regs ↔ ¬Refuses (f ()) regs) := by
  simp [Quiet, Refuses, bind_ok regs x f () ws run, some_]

/-- A check by a condition, which writes nothing. -/
structure Checks (x : Tool α) (c : Prop) : Prop where
  takes : c → ∃ a, x regs = (.ok a, [])
  refuses : ¬c → x regs = (.error .refused, [])

/-- The value that a check leaves. -/
def resultOf [Inhabited α] (x : Tool α) : α :=
  match (x regs).1 with
  | .ok a => a
  | .error _ => default

theorem Checks.bind [Inhabited α] {β : Type} {x : Tool α} {c : Prop} (checks : Checks regs x c)
    (f : α → Tool β) :
    (Refuses (x >>= f) regs ↔ (c → Refuses (f (resultOf regs x)) regs)) ∧
      (Quiet (x >>= f) regs ↔ (c → Quiet (f (resultOf regs x)) regs)) := by
  by_cases holds : c
  · obtain ⟨a, run⟩ := checks.takes holds
    have same : resultOf regs x = a := by
      simp only [resultOf, run]
    simp [Quiet, Refuses, bind_ok regs x f a [] run, holds, same]
  · simp [Quiet, Refuses, bind_error regs x f .refused [] (checks.refuses holds), holds]

end Rules

section Checked

/-- Seven ports that are zero or one, and one character more. -/
def PortMap (s : Option (List Char)) : Prop :=
  ∃ t, s = some t ∧ t.length = 8 ∧ ∀ i < 7, t.getD i ' ' = '0' ∨ t.getD i ' ' = '1'

/-- What `acl_parameters_pre_del` accepts. -/
def PreDel (len1 : Nat) (len2 : Int) (argv : Argv) : Prop :=
  len1 ≤ argv.length ∧ (len2 = 12 → ∃ s, argv[4]? = some s ∧ s.length = 12) ∧ PortMap argv[5]?

/-- A MAC address by its length. -/
def MacString (s : Option (List Char)) : Prop := ∃ t, s = some t ∧ t.length = 12

/-- A further argument that is not there, or that its conversion accepts. -/
def Optional (argv : Argv) (i : Nat) (wrong : Nat → Bool) : Prop :=
  ∀ s, argv[i]? = some s → Passes 32 10 wrong s

variable (regs : Regs)

theorem strtoulInto_checks (width base : Nat) (wrong : Nat → Bool) (s : List Char) :
    Checks regs (strtoulInto width base wrong s) (Passes width base wrong s) := by
  rw [strtoulInto_eq]
  exact ⟨fun passes => ⟨_, by rw [if_pos passes]; rfl⟩, fun fails => by rw [if_neg fails]; rfl⟩

theorem portLoop_checks (s : List Char) (i n port : Nat) :
    Checks regs (portLoop s i n port)
      (∀ k, i ≤ k → k < i + n → s.getD k ' ' = '0' ∨ s.getD k ' ' = '1') := by
  induction n generalizing i port with
  | zero => exact ⟨fun _ => ⟨port, rfl⟩, fun no => absurd (fun k lower upper => by omega) no⟩
  | succ n ih =>
    rw [portLoop]
    by_cases bad : s.getD i ' ' ≠ '0' ∧ s.getD i ' ' ≠ '1'
    · rw [if_pos bad]
      refine ⟨fun all => ?_, fun _ => rfl⟩
      rcases all i (le_refl i) (by omega) with zero | one
      · exact absurd zero bad.1
      · exact absurd one bad.2
    · rw [if_neg bad]
      have here : s.getD i ' ' = '0' ∨ s.getD i ' ' = '1' := by
        by_contra neither
        exact bad (not_or.1 neither)
      have rest := ih (i + 1) (port + ((s.getD i ' ').toNat - 48) * 2 ^ i)
      refine ⟨fun all => rest.takes fun k lower upper => all k (by omega) (by omega),
        fun no => rest.refuses fun all => no fun k lower upper => ?_⟩
      by_cases first : k = i
      · exact first ▸ here
      · exact all k (by omega) (by omega)

theorem portMap_checks (s : Option (List Char)) : Checks regs (portMap s) (PortMap s) := by
  cases s with
  | none =>
    refine ⟨?_, fun _ => rfl⟩
    rintro ⟨t, same, _⟩
    cases same
  | some t =>
    have loop := portLoop_checks regs t 0 7 0
    by_cases short : t.length = 8
    · simp only [portMap, ne_eq, short, not_true_eq_false, if_false]
      refine ⟨?_, fun no => loop.refuses fun all => no ⟨t, rfl, short, fun i upper =>
        all i (Nat.zero_le i) (by omega)⟩⟩
      rintro ⟨t', same, _, all⟩
      cases same
      exact loop.takes fun k _ upper => all k (by omega)
    · simp only [portMap, ne_eq, short, not_false_eq_true, if_true]
      refine ⟨?_, fun _ => rfl⟩
      rintro ⟨t', same, eight, _⟩
      cases same
      exact absurd eight short

theorem aclParametersPreDel_checks (len1 : Nat) (len2 : Int) (argv : Argv) :
    Checks regs (aclParametersPreDel len1 len2 argv) (PreDel len1 len2 argv) := by
  have map := portMap_checks regs argv[5]?
  by_cases few : argv.length < len1
  · refine ⟨fun all => absurd all.1 (by omega), fun _ => ?_⟩
    simp only [aclParametersPreDel, if_pos few, refuse_bind]
  · have enough : len1 ≤ argv.length := by omega
    by_cases long : len2 = 12
    · cases mac : argv[4]? with
      | none =>
        refine ⟨fun all => ?_, fun _ => ?_⟩
        · obtain ⟨s, same, _⟩ := all.2.1 long
          rw [mac] at same
          cases same
        · simp only [aclParametersPreDel, if_neg few, if_pos long, mac, refuse_bind]
      | some s =>
        by_cases twelve : s.length = 12
        · have same : aclParametersPreDel len1 len2 argv regs = portMap argv[5]? regs := by
            simp only [aclParametersPreDel, if_neg few, if_pos long, mac, ne_eq, twelve,
              not_true_eq_false, if_false]
          refine ⟨fun all => same ▸ map.takes all.2.2, fun no => same.trans (map.refuses fun ok => ?_)⟩
          exact no ⟨enough, fun _ => ⟨s, mac, twelve⟩, ok⟩
        · refine ⟨fun all => ?_, fun _ => ?_⟩
          · obtain ⟨s', same, twelve'⟩ := all.2.1 long
            rw [mac] at same
            cases same
            exact absurd twelve' twelve
          · simp only [aclParametersPreDel, if_neg few, if_pos long, mac, ne_eq, twelve,
              not_false_eq_true, if_true, refuse_bind]
    · have same : aclParametersPreDel len1 len2 argv regs = portMap argv[5]? regs := by
        simp only [aclParametersPreDel, if_neg few, if_neg long]
      refine ⟨fun all => same ▸ map.takes all.2.2, fun no => same.trans (map.refuses fun ok => ?_)⟩
      exact no ⟨enough, fun twelve => absurd twelve long, ok⟩

theorem macString_checks (s : Option (List Char)) : Checks regs (macString s) (MacString s) := by
  cases s with
  | none =>
    refine ⟨?_, fun _ => rfl⟩
    rintro ⟨t, same, _⟩
    cases same
  | some t =>
    by_cases twelve : t.length = 12
    · simp only [macString, ne_eq, twelve, not_true_eq_false, if_false]
      exact ⟨fun _ => ⟨t, rfl⟩, fun no => absurd ⟨t, rfl, twelve⟩ no⟩
    · simp only [macString, ne_eq, twelve, not_false_eq_true, if_true]
      refine ⟨?_, fun _ => rfl⟩
      rintro ⟨t', same, twelve'⟩
      cases same
      exact absurd twelve' twelve

theorem optional_checks (argv : Argv) (i : Nat) (wrong : Nat → Bool) (absent : Nat) :
    Checks regs (optional argv i wrong absent) (Optional argv i wrong) := by
  cases there : argv[i]? with
  | none =>
    simp only [optional, there]
    exact ⟨fun _ => ⟨absent, rfl⟩, fun no => absurd (fun s same => by rw [there] at same; cases same) no⟩
  | some s =>
    have number := strtoulInto_checks regs 32 10 wrong s
    simp only [optional, there]
    refine ⟨fun all => number.takes (all s there), fun no => number.refuses fun passes => no ?_⟩
    intro s' same
    rw [there] at same
    cases same
    exact passes

end Checked

section Binds

variable {α : Type} (regs : Regs)

omit regs in
theorem bind_bind {β γ : Type} (x : Tool β) (g : β → Tool γ) (f : γ → Tool α) :
    ((x >>= g) >>= f) = (x >>= fun b => g b >>= f) := by
  funext regs
  cases run : x regs with
  | mk r ws =>
    cases r with
    | error e =>
      rw [bind_error regs (x >>= g) f e ws (bind_error regs x g e ws run),
        bind_error regs x _ e ws run]
    | ok b =>
      rw [bind_ok regs x _ b ws run]
      have inner := bind_ok regs x g b ws run
      cases run' : g b regs with
      | mk r' ws' =>
        rw [run'] at inner
        cases r' with
        | error e =>
          rw [bind_error regs (x >>= g) f e (ws ++ ws') inner, bind_error regs (g b) f e ws' run']
        | ok c =>
          rw [bind_ok regs (x >>= g) f c (ws ++ ws') inner, bind_ok regs (g b) f c ws' run',
            List.append_assoc]

@[simp] theorem string_rules (argv : Argv) (i : Nat) (f : List Char → Tool α) :
    (Refuses (string argv i >>= f) regs ↔ i < argv.length ∧ Refuses (f (arg argv i)) regs) ∧
      (Quiet (string argv i >>= f) regs ↔ (i < argv.length → Quiet (f (arg argv i)) regs)) := by
  by_cases inside : i < argv.length
  · rw [string_eq argv i inside]
    simp [Refuses, Quiet, inside]
  · have absent : string argv i = crash := by
      simp only [string, List.getElem?_eq_none (Nat.le_of_not_lt inside)]
    rw [absent]
    simp [Refuses, Quiet, inside]

theorem macHigh_rules (mac : List Char) (f : Nat → Tool α) :
    (Refuses (macHigh mac >>= f) regs ↔ (Hex (mac.take 8) → Hex ((mac.drop 8).take 4) →
      Refuses (f (resultOf regs (strtoulInto 32 16 (fun _ => false) ((mac.drop 8).take 4)))) regs)) ∧
    (Quiet (macHigh mac >>= f) regs ↔ (Hex (mac.take 8) → Hex ((mac.drop 8).take 4) ∧
      ¬Refuses (f (resultOf regs (strtoulInto 32 16 (fun _ => false) ((mac.drop 8).take 4)))) regs)) := by
  have low := (strtoulInto_checks regs 32 16 (fun _ => false) ((mac.drop 8).take 4)).bind regs f
  have high := fun g : Nat → Tool α =>
    (strtoulInto_checks regs 32 16 (fun _ => false) (mac.take 8)).bind regs g
  have whole : (macHigh mac >>= f) = strtoulInto 32 16 (fun _ => false) (mac.take 8) >>= fun value =>
      regWrite regAta1Addr (BitVec.ofNat 32 value) >>= fun _ =>
        strtoulInto 32 16 (fun _ => false) ((mac.drop 8).take 4) >>= f := by
    simp only [macHigh, bind_bind]
  have written := fun value => writes_bind regs (regWrite_apply regs regAta1Addr
    (BitVec.ofNat 32 value)) (List.cons_ne_nil _ _) fun _ =>
      strtoulInto 32 16 (fun _ => false) ((mac.drop 8).take 4) >>= f
  rw [whole, (high _).1, (high _).2, (written _).1, (written _).2, low.1]
  simp only [Hex, Classical.not_imp, true_and, iff_self]

/-- A MAC address goes on as it is. -/
theorem macString_rules (argv : Argv) (i : Nat) (f : List Char → Tool α) :
    (Refuses (macString argv[i]? >>= f) regs ↔ (MacString argv[i]? → Refuses (f (arg argv i)) regs)) ∧
      (Quiet (macString argv[i]? >>= f) regs ↔ (MacString argv[i]? → Quiet (f (arg argv i)) regs)) := by
  have checks := (macString_checks regs argv[i]?).bind regs f
  by_cases mac : MacString argv[i]?
  · have same : resultOf regs (macString argv[i]?) = arg argv i := by
      obtain ⟨t, there, twelve⟩ := mac
      have inside : arg argv i = t := by
        rw [arg, List.getD_eq_getElem?_getD, there, Option.getD_some]
      simp [resultOf, macString, there, twelve, inside]
    rwa [same] at checks
  · simpa [mac] using checks

end Binds

/-- The arguments of a command of which it refuses one when registers are written already. -/
def Command.Late (chipName : Nat) (argv : Argv) : Command → Prop
  | aclMacAdd => PreDel 6 12 argv ∧ Hex ((arg argv 4).take 4) ∧
      ¬(Hex (((arg argv 4).drop 4).take 4) ∧ Hex (((arg argv 4).drop 8).take 4))
  | aclDipMeter => PreDel 7 (-1) argv ∧ meterIllegal chipName (strtoulUnchecked 0 (arg argv 6))
  | aclDipTrtcm => PreDel 10 (-1) argv ∧ trtcmIllegal (strtoulUnchecked 0 (arg argv 6))
      (strtoulUnchecked 0 (arg argv 7)) (strtoulUnchecked 0 (arg argv 8))
      (strtoulUnchecked 0 (arg argv 9))
  | dipAdd => ¬PortMap argv[4]?
  | sipAdd => ¬PortMap argv[5]?
  | tableAdd => 1 < argv.length ∧ MacString argv[2]? ∧ Hex ((arg argv 2).take 8) ∧
      ¬(Hex (((arg argv 2).drop 8).take 4) ∧ Optional argv 4 (· > 4095) ∧
        (PortMap argv[3]? ∨ (arg argv 1).head? = some 'f' ∧
          argv[3]?.filter (fun s => s.length = 8) = none) ∧
        Optional argv 5 (fun age => age < 1 ∨ 255 < age) ∧ Optional argv 6 (· > 7))
  | tableSearchMacVid => lateNumber (· > 4095)
  | tableSearchMacFid => lateNumber (· > 7)
  | tableDelVid => lateNumber (· > 4095)
  | tableDelFid => MacString argv[3]? ∧ Hex ((arg argv 3).take 8) ∧
      ¬(Hex (((arg argv 3).drop 8).take 4) ∧ Optional argv 5 (· > 7))
  | _ => False
where
  lateNumber (wrong : Nat → Bool) : Prop := MacString argv[3]? ∧ Hex ((arg argv 3).take 8) ∧
    ¬(Hex (((arg argv 3).drop 8).take 4) ∧ (5 < argv.length → Passes 32 10 wrong (arg argv 5)))

attribute [simp] Command.Late Command.Late.lateNumber

section Commands

variable {α : Type} (chipName : Nat) (argv : Argv) (regs : Regs)

/-- A command that ends as it should, with some register written. -/
def Through (x : Tool Unit) : Prop := ∃ ws, ws ≠ [] ∧ x regs = (.ok (), ws)

variable {regs}

theorem Through.refuses {x : Tool Unit} (through : Through regs x) : ¬Refuses x regs := by
  obtain ⟨ws, _, run⟩ := through
  simp [Refuses, run]

theorem Through.bind {x : Tool Unit} (through : Through regs x) (f : Unit → Tool α) :
    (Refuses (x >>= f) regs ↔ Refuses (f ()) regs) ∧ (Quiet (x >>= f) regs ↔ ¬Refuses (f ()) regs) := by
  obtain ⟨ws, some_, run⟩ := through
  exact writes_bind regs run some_ f

theorem Through.seq {x y : Tool Unit} (first : Through regs x) (second : Through regs y) :
    Through regs (x >>= fun _ => y) := by
  obtain ⟨ws, some_, run⟩ := first
  obtain ⟨ws', _, run'⟩ := second
  exact ⟨ws ++ ws', by simp [some_], by rw [bind_ok regs _ _ () ws run, run']⟩

variable (regs)

theorem regWrite_through (addr : Nat) (value : BitVec 32) : Through regs (regWrite addr value) :=
  ⟨_, List.cons_ne_nil _ _, rfl⟩

/-- The entries that the commands write are in their tables. -/
theorem writeTable_through (func : BitVec 32) (maxIndex idx : Nat) (vawd1 vawd2 : BitVec 32)
    (inside : idx < maxIndex) : Through regs (writeTable func maxIndex idx vawd1 vawd2) :=
  ⟨_, List.cons_ne_nil _ _, writeTable_apply func maxIndex idx vawd1 vawd2 regs inside⟩

theorem aclComparePattern_through (ports comparion base word tableIndex : Nat)
    (small : tableIndex < 64) :
    Through regs (aclComparePattern chipName ports comparion base word tableIndex) := by
  apply writeTable_through
  unfold aclEntries
  split_ifs <;> omega

theorem writeAclMaskTable_through (vawd1 vawd2 : BitVec 32) :
    Through regs (writeAclMaskTable chipName 0 vawd1 vawd2) := by
  apply writeTable_through
  unfold maskEntries
  split_ifs <;> decide

theorem writeAclRuleTable_through (vawd1 vawd2 : BitVec 32) :
    Through regs (writeAclRuleTable chipName 0 vawd1 vawd2) := by
  apply writeTable_through
  unfold maskEntries
  split_ifs <;> decide

/-- The mask and the rule at the end of most commands. -/
theorem maskAndRule_through (mask vawd1 vawd2 : BitVec 32) :
    Through regs (writeAclMaskTable chipName 0 mask 0 >>= fun _ =>
      writeAclRuleTable chipName 0 vawd1 vawd2) :=
  (writeAclMaskTable_through chipName regs mask 0).seq (writeAclRuleTable_through chipName regs vawd1 vawd2)

theorem aclDipPatterns_through (ports : Nat) : Through regs (aclDipPatterns chipName ports argv) :=
  (aclComparePattern_through chipName regs ports _ 0x2 0x8 0 (by decide)).seq
    (aclComparePattern_through chipName regs ports _ 0x2 0x9 1 (by decide))

/-- A test in between, after which nothing is refused. -/
theorem refuses_guard {β : Type} (c : Prop) [Decidable c] (x : β → Tool α) (y : Tool α)
    (passes : ¬c → ¬Refuses y regs) : Refuses (if c then refuse >>= x else y) regs ↔ c := by
  by_cases holds : c
  · simp [Refuses, holds]
  · simp [holds, passes holds]

/-- A test in front of everything. -/
theorem quiet_guard {β : Type} (c : Prop) [Decidable c] (x : β → Tool α) (y : Tool α)
    (rest : Quiet y regs) : Quiet (if c then refuse >>= x else y) regs := by
  by_cases holds : c
  · simp [Quiet, Refuses, holds]
  · simpa [holds] using rest

/-- Parameters that are checked first, and then writes only. -/
theorem preDel_quiet (len1 : Nat) (len2 : Int) (rest : Nat → Tool Unit)
    (fine : ∀ ports, ¬Refuses (rest ports) regs) :
    Quiet (aclParametersPreDel len1 len2 argv >>= rest) regs := by
  rw [((aclParametersPreDel_checks regs len1 len2 argv).bind regs rest).2]
  intro _ refuses
  exact absurd refuses (fine _)

theorem patternMaskRule_fine (ports base word : Nat) (comparion : List Char → Nat)
    (mask vawd1 vawd2 : BitVec 32) :
    ¬Refuses (string argv 4 >>= fun s =>
      aclComparePattern chipName ports (comparion s) base word 0 >>= fun _ =>
        writeAclMaskTable chipName 0 mask 0 >>= fun _ =>
          writeAclRuleTable chipName 0 vawd1 vawd2) regs := by
  rw [(string_rules regs argv 4 _).1]
  rintro ⟨_, refuses⟩
  exact absurd refuses ((aclComparePattern_through chipName regs _ _ _ _ 0 (by decide)).seq
    (maskAndRule_through chipName regs mask vawd1 vawd2)).refuses

theorem dipPatternsMaskRule_fine (ports : Nat) (mask vawd1 vawd2 : BitVec 32) :
    ¬Refuses (aclDipPatterns chipName ports argv >>= fun _ =>
      writeAclMaskTable chipName 0 mask 0 >>= fun _ =>
        writeAclRuleTable chipName 0 vawd1 vawd2) regs :=
  ((aclDipPatterns_through chipName argv regs ports).seq
    (maskAndRule_through chipName regs mask vawd1 vawd2)).refuses

theorem aclMacAdd_quiet_iff :
    Quiet (aclMacAdd chipName argv) regs ↔ ¬Command.aclMacAdd.Late chipName argv := by
  rw [aclMacAdd, ((aclParametersPreDel_checks regs 6 12 argv).bind regs _).2,
    (string_rules regs argv 4 _).2, ((strtoulInto_checks regs 32 16 _ _).bind regs _).2,
    ((aclComparePattern_through chipName regs _ _ 0x0 0 0 (by decide)).bind _).2,
    ((strtoulInto_checks regs 32 16 _ _).bind regs _).1,
    ((aclComparePattern_through chipName regs _ _ 0x0 1 1 (by decide)).bind _).1,
    ((strtoulInto_checks regs 32 16 _ _).bind regs _).1,
    ((aclComparePattern_through chipName regs _ _ 0x0 2 2 (by decide)).bind _).1]
  have last := (maskAndRule_through chipName regs 0x7
    (0x7#32 ||| (1#32 <<< 28) ||| (1#32 <<< 27) ||| (2#32 <<< 24)) 0).refuses
  have there : PreDel 6 12 argv → 4 < argv.length := fun pre => by
    have enough := pre.1
    omega
  simp only [last, Command.Late, Hex, imp_false, not_and, Classical.not_imp, not_not]
  exact forall_congr' fun pre => forall_prop_of_true (there pre)

theorem aclDipMeter_quiet_iff :
    Quiet (aclDipMeter chipName argv) regs ↔ ¬Command.aclDipMeter.Late chipName argv := by
  rw [aclDipMeter, ((aclParametersPreDel_checks regs 7 (-1) argv).bind regs _).2,
    ((aclDipPatterns_through chipName argv regs _).bind _).2,
    ((writeAclMaskTable_through chipName regs 0x3 0).bind _).1, (string_rules regs argv 6 _).1]
  have there : PreDel 7 (-1) argv → 6 < argv.length := fun pre => by
    have enough := pre.1
    omega
  rw [refuses_guard]
  · simp only [Command.Late, not_and]
    exact forall_congr' fun pre => forall_prop_of_true (there pre)
  · intro _
    rw [(regRead_rule regs 0xc _), refuses_ite]
    split_ifs
    · exact ((regWrite_through regs _ _).seq (writeTable_through regs _ _ _ _ _ (by decide))).refuses
    · exact ((regWrite_through regs _ _).seq (writeTable_through regs _ _ _ _ _ (by decide))).refuses

theorem aclDipTrtcm_quiet_iff :
    Quiet (aclDipTrtcm chipName argv) regs ↔ ¬Command.aclDipTrtcm.Late chipName argv := by
  rw [aclDipTrtcm, ((aclParametersPreDel_checks regs 10 (-1) argv).bind regs _).2,
    ((aclDipPatterns_through chipName argv regs _).bind _).2, (string_rules regs argv 6 _).1,
    (string_rules regs argv 7 _).1, (string_rules regs argv 8 _).1, (string_rules regs argv 9 _).1]
  have there : PreDel 10 (-1) argv → 9 < argv.length := fun pre => by
    have enough := pre.1
    omega
  rw [refuses_guard]
  · simp only [Command.Late, not_and]
    refine forall_congr' fun pre => ?_
    have last := there pre
    rw [forall_prop_of_true (show 6 < argv.length by omega),
      forall_prop_of_true (show 7 < argv.length by omega),
      forall_prop_of_true (show 8 < argv.length by omega), forall_prop_of_true last]
  · intro _
    exact ((writeTable_through regs _ _ _ _ _ (by decide)).seq
      (maskAndRule_through chipName regs _ _ _)).refuses

theorem dipAdd_quiet_iff : Quiet (dipAdd argv) regs ↔ ¬Command.dipAdd.Late chipName argv := by
  rw [dipAdd, ((regWrite_through regs _ _).bind _).2,
    ((portMap_checks regs argv[4]?).bind regs _).1]
  have last := fun value => ((regWrite_through regs regAtwdAddr value).seq
    (regWrite_through regs regAtcAddr 0x8011)).refuses
  simp only [last, Command.Late]

theorem sipAdd_quiet_iff : Quiet (sipAdd argv) regs ↔ ¬Command.sipAdd.Late chipName argv := by
  rw [sipAdd, ((regWrite_through regs _ _).bind _).2, ((regWrite_through regs _ _).bind _).1,
    ((portMap_checks regs argv[5]?).bind regs _).1]
  have last := fun value => ((regWrite_through regs regAtwdAddr value).seq
    (regWrite_through regs regAtcAddr 0x8021)).refuses
  simp only [last, Command.Late]

theorem tableAdd_quiet_iff : Quiet (tableAdd argv) regs ↔ ¬Command.tableAdd.Late chipName argv := by
  have there : MacString argv[2]? → 2 < argv.length := by
    rintro ⟨t, same, _⟩
    exact (List.getElem?_eq_some_iff.1 same).1
  have given : PortMap (if (arg argv 1).head? = some 'f' then
      some ((argv[3]?.filter fun s => s.length = 8).getD ['1', '1', '1', '1', '1', '1', '1', '1'])
      else argv[3]?.filter fun s => s.length = 8) ↔
      PortMap argv[3]? ∨ (arg argv 1).head? = some 'f' ∧
        argv[3]?.filter (fun s => s.length = 8) = none := by
    have eight : PortMap argv[3]? → argv[3]?.filter (fun s => s.length = 8) = argv[3]? := by
      rintro ⟨t, same, length, _⟩
      rw [same, Option.filter_some_pos]
      simpa using length
    have ones : PortMap (some ['1', '1', '1', '1', '1', '1', '1', '1']) :=
      ⟨_, rfl, rfl, by decide⟩
    cases kept : argv[3]?.filter fun s => s.length = 8 with
    | none =>
      have no : ¬PortMap argv[3]? := by
        intro map
        have same := (eight map).symm.trans kept
        obtain ⟨t, there, _⟩ := map
        rw [same] at there
        cases there
      by_cases filter : (arg argv 1).head? = some 'f'
      · simpa [filter] using ones
      · simp only [filter, if_false, false_and, or_false, no, iff_false]
        rintro ⟨t, there, _⟩
        cases there
    | some t =>
      have same : argv[3]? = some t := by
        obtain ⟨there, _⟩ := Option.filter_eq_some_iff.1 kept
        exact there
      simp [same]
  rw [tableAdd, (string_rules regs argv 1 _).2, (macString_rules regs argv 2 _).2,
    (macHigh_rules regs _ _).2, ((optional_checks regs argv 4 _ _).bind regs _).1,
    ((regWrite_through regs _ _).bind _).1, ((portMap_checks regs _).bind regs _).1,
    ((optional_checks regs argv 5 _ _).bind regs _).1,
    ((optional_checks regs argv 6 _ _).bind regs _).1]
  have last := fun value => ((regWrite_through regs regAtwdAddr value).seq
    (regWrite_through regs regAtcAddr 0x8001)).refuses
  simp only [last, Command.Late, given, imp_false, not_and, Classical.not_imp, not_not]

theorem tableSearchMacVid_quiet_iff :
    Quiet (tableSearchMacVid argv) regs ↔ ¬Command.tableSearchMacVid.Late chipName argv := by
  rw [tableSearchMacVid, (macString_rules regs argv 3 _).2, (macHigh_rules regs _ _).2,
    (string_rules regs argv 5 _).1, ((strtoulInto_checks regs 32 10 _ _).bind regs _).1]
  have last := fun value => ((regWrite_through regs regAta2Addr value).seq
    (regWrite_through regs regAtcAddr 0x8000)).refuses
  simp only [last, Command.Late, Command.Late.lateNumber, imp_false, not_and, Classical.not_imp,
    not_not]

theorem tableSearchMacFid_quiet_iff :
    Quiet (tableSearchMacFid argv) regs ↔ ¬Command.tableSearchMacFid.Late chipName argv := by
  rw [tableSearchMacFid, (macString_rules regs argv 3 _).2, (macHigh_rules regs _ _).2,
    (string_rules regs argv 5 _).1, ((strtoulInto_checks regs 32 10 _ _).bind regs _).1]
  have last := fun value => ((regWrite_through regs regAta2Addr value).seq
    (regWrite_through regs regAtcAddr 0x8000)).refuses
  simp only [last, Command.Late, Command.Late.lateNumber, imp_false, not_and, Classical.not_imp,
    not_not]

theorem tableDelVid_quiet_iff :
    Quiet (tableDelVid argv) regs ↔ ¬Command.tableDelVid.Late chipName argv := by
  rw [tableDelVid, (macString_rules regs argv 3 _).2, (macHigh_rules regs _ _).2,
    (string_rules regs argv 5 _).1, ((strtoulInto_checks regs 32 10 _ _).bind regs _).1]
  have last := fun value => ((regWrite_through regs regAta2Addr value).seq
    ((regWrite_through regs regAtwdAddr 0).seq (regWrite_through regs regAtcAddr 0x8001))).refuses
  simp only [last, Command.Late, Command.Late.lateNumber, imp_false, not_and, Classical.not_imp,
    not_not]

theorem tableDelFid_quiet_iff :
    Quiet (tableDelFid argv) regs ↔ ¬Command.tableDelFid.Late chipName argv := by
  rw [tableDelFid, (macString_rules regs argv 3 _).2, (macHigh_rules regs _ _).2,
    ((optional_checks regs argv 5 _ _).bind regs _).1]
  have last := fun value => ((regWrite_through regs regAta2Addr value).seq
    ((regWrite_through regs regAtwdAddr 0).seq (regWrite_through regs regAtcAddr 0x8001))).refuses
  simp only [last, Command.Late, imp_false, not_and, Classical.not_imp, not_not]

/-- The commands that write an entry as it is given parse everything first. -/
theorem tableAddOf_quiet (maxIndex : Nat) (write : Nat → BitVec 32 → BitVec 32 → Tool Unit)
    (writes : ∀ idx vawd1 vawd2, ¬Refuses (write idx vawd1 vawd2) regs) :
    Quiet (tableAddOf maxIndex write argv) regs := by
  rw [tableAddOf, (string_rules regs argv 3 _).2, ((strtoulInto_checks regs 8 10 _ _).bind regs _).2,
    (string_rules regs argv 4 _).2, ((strtoulInto_checks regs 32 16 _ _).bind regs _).2,
    (string_rules regs argv 5 _).2, ((strtoulInto_checks regs 32 16 _ _).bind regs _).2]
  intro _ _ _ _ _ _ refuses
  exact absurd refuses (writes _ _ _)

theorem writeTable_not_refuses (func : BitVec 32) (maxIndex idx : Nat) (vawd1 vawd2 : BitVec 32) :
    ¬Refuses (writeTable func maxIndex idx vawd1 vawd2) regs := by
  by_cases inside : idx < maxIndex
  · exact (writeTable_through regs func maxIndex idx vawd1 vawd2 inside).refuses
  · simp [Refuses, writeTable, show idx ≥ maxIndex by omega]

theorem aclPortEnable_quiet : Quiet (aclPortEnable argv) regs := by
  rw [aclPortEnable, (string_rules regs argv 3 _).2, ((strtoulInto_checks regs 8 10 _ _).bind regs _).2,
    (string_rules regs argv 4 _).2, ((strtoulInto_checks regs 8 10 _ _).bind regs _).2]
  intro _ _ _ _ refuses
  rw [regRead_rule] at refuses
  exact absurd refuses (regWrite_through regs _ _).refuses

theorem aclDipModify_quiet : Quiet (aclDipModify chipName argv) regs := by
  rw [aclDipModify, (string_rules regs argv 6 _).2]
  intro _
  apply quiet_guard
  exact preDel_quiet argv regs 6 (-1) _ fun ports =>
    dipPatternsMaskRule_fine chipName argv regs ports _ _ _

/-- A refusal leaves the registers as they were exactly if it does not come late. -/
theorem command_quiet_iff (command : Command) :
    Quiet (command.run chipName argv) regs ↔ ¬command.Late chipName argv := by
  cases command
  case aclMacAdd => exact aclMacAdd_quiet_iff chipName argv regs
  case aclDipMeter => exact aclDipMeter_quiet_iff chipName argv regs
  case aclDipTrtcm => exact aclDipTrtcm_quiet_iff chipName argv regs
  case dipAdd => exact dipAdd_quiet_iff chipName argv regs
  case sipAdd => exact sipAdd_quiet_iff chipName argv regs
  case tableAdd => exact tableAdd_quiet_iff chipName argv regs
  case tableSearchMacVid => exact tableSearchMacVid_quiet_iff chipName argv regs
  case tableSearchMacFid => exact tableSearchMacFid_quiet_iff chipName argv regs
  case tableDelFid => exact tableDelFid_quiet_iff chipName argv regs
  case tableDelVid => exact tableDelVid_quiet_iff chipName argv regs
  all_goals refine iff_of_true ?_ id
  case aclTableAdd =>
    exact tableAddOf_quiet argv regs _ _ fun _ _ _ => writeTable_not_refuses regs _ _ _ _ _
  case aclMaskTableAdd =>
    exact tableAddOf_quiet argv regs _ _ fun _ _ _ => writeTable_not_refuses regs _ _ _ _ _
  case aclRuleTableAdd =>
    exact tableAddOf_quiet argv regs _ _ fun _ _ _ => writeTable_not_refuses regs _ _ _ _ _
  case aclRateTableAdd =>
    exact tableAddOf_quiet argv regs _ _ fun _ _ _ => writeTable_not_refuses regs _ _ _ _ _
  case aclPortEnable => exact aclPortEnable_quiet argv regs
  case aclEthertype =>
    exact preDel_quiet argv regs 6 (-1) _ fun ports =>
      patternMaskRule_fine chipName argv regs ports 0x0 0x6 (strtoulUnchecked 16) _ _ _
  case aclDipModify => exact aclDipModify_quiet chipName argv regs
  case aclDipPppoe =>
    exact preDel_quiet argv regs 6 (-1) _ fun ports =>
      dipPatternsMaskRule_fine chipName argv regs ports _ _ _
  case aclDipAdd =>
    exact preDel_quiet argv regs 6 (-1) _ fun ports =>
      dipPatternsMaskRule_fine chipName argv regs ports _ _ _
  case aclL4Add =>
    exact preDel_quiet argv regs 6 (-1) _ fun ports =>
      patternMaskRule_fine chipName argv regs ports 0x5 0x0 (strtoulUnchecked 16) _ _ _
  case aclSpAdd =>
    exact preDel_quiet argv regs 6 (-1) _ fun ports =>
      patternMaskRule_fine chipName argv regs ports 0x4 0x0 (strtoulUnchecked 0) _ _ _
  case dipDel =>
    exact fun refuses => absurd refuses ((regWrite_through regs _ _).seq ((regWrite_through regs _ _).seq
      ((regWrite_through regs _ _).seq (regWrite_through regs _ _)))).refuses
  case sipDel =>
    exact fun refuses => absurd refuses ((regWrite_through regs _ _).seq ((regWrite_through regs _ _).seq
      ((regWrite_through regs _ _).seq (regWrite_through regs _ _)))).refuses

/-- `switch dip add 10.0.0.1 1111111` -/
def shortPortMap : Argv :=
  [['s', 'w', 'i', 't', 'c', 'h'], ['d', 'i', 'p'], ['a', 'd', 'd'],
    ['1', '0', '.', '0', '.', '0', '.', '1'], ['1', '1', '1', '1', '1', '1', '1']]

/-- The address is in its register when the port map is refused. -/
theorem shortPortMap_not_quiet : ¬Quiet (Command.dipAdd.run 0x7531 shortPortMap) fun _ => 0 := by
  intro quiet
  exact absurd (quiet rfl) (by decide)

end Commands

end Filogic.SwitchTool
