import Mathlib

/-! `mt753x_mdio.c`: the registers of the devices in a PHY, which are reached by an address that the
PHY keeps from one transaction to the next. -/

namespace Filogic.Mt753x.PhyAccess

/-- How a transaction ends: the access register is busy, the transaction does not get done in time,
though it may still take effect, or it is done. -/
inductive Outcome where
  | busy
  | stuck (lands : Bool)
  | done
  deriving DecidableEq

def Outcome.lands : Outcome → Bool
  | .busy => false
  | .stuck lands => lands
  | .done => true

/-- `MDIO_CMD_ADDR` and so on -/
inductive Cmd where
  | addr | write | read | readC45
  deriving DecidableEq

/-- `MDIO_ST_C45`, `MDIO_ST_C22` -/
inductive St where
  | c45 | c22
  deriving DecidableEq

/-- A register in a device of a PHY -/
structure MmdReg where
  phy : BitVec 5
  devad : BitVec 5
  reg : BitVec 16
  deriving DecidableEq

/-- What the registers hold at a time, those of clause 22 by the PHY and their number. -/
structure Contents where
  mmd : MmdReg → BitVec 16
  plain : BitVec 5 → BitVec 5 → BitVec 16

/-- The access control register of each PHY, the address that each device keeps, and the registers of
the devices that have been written. -/
structure Phys where
  ctl : BitVec 5 → BitVec 16
  latch : BitVec 5 → BitVec 5 → BitVec 16
  written : List MmdReg

section Hardware

def setLatch (phy devad : BitVec 5) (address : BitVec 16) (s : Phys) : Phys :=
  { s with
    latch := Function.update s.latch phy (Function.update (s.latch phy) devad address) }

/-- The register that a device's address selects -/
def selected (phy devad : BitVec 5) (s : Phys) : MmdReg := ⟨phy, devad, s.latch phy devad⟩

def writeMmd (phy devad : BitVec 5) (s : Phys) : Phys :=
  { s with written := selected phy devad s :: s.written }

/-- The function field and the device field of the access control register -/
def function (ctl : BitVec 16) : BitVec 2 := ctl.extractLsb' 14 2

def device (ctl : BitVec 16) : BitVec 5 := ctl.setWidth 5

/-- After an access with the functions 2 and 3 the address goes up. -/
def advance (phy : BitVec 5) (up : Bool) (s : Phys) : Phys :=
  let devad := device (s.ctl phy)
  if up then setLatch phy devad (s.latch phy devad + 1) s else s

def setCtl (phy : BitVec 5) (ctl : BitVec 16) (s : Phys) : Phys :=
  { s with ctl := Function.update s.ctl phy ctl }

/-- The address and data register: an address for the device with function 0, else its data. -/
def dataWrite (phy : BitVec 5) (data : BitVec 16) (s : Phys) : Phys :=
  let devad := device (s.ctl phy)
  if function (s.ctl phy) = 0 then setLatch phy devad data s
  else advance phy (2 ≤ function (s.ctl phy)) (writeMmd phy devad s)

def dataRead (now : Contents) (phy : BitVec 5) (s : Phys) : BitVec 16 × Phys :=
  let devad := device (s.ctl phy)
  if function (s.ctl phy) = 0 then (s.latch phy devad, s)
  else (now.mmd (selected phy devad s), advance phy (function (s.ctl phy) = 2) s)

/-- What a transaction does: the data that it reads, and the PHYs after it. -/
def effect (now : Contents) (st : St) (cmd : Cmd) (phy reg : BitVec 5) (data : BitVec 16)
    (s : Phys) : BitVec 16 × Phys :=
  match st, cmd with
  | .c45, .addr => (0, setLatch phy reg data s)
  | .c45, .write => (0, writeMmd phy reg s)
  | .c45, .read => (now.mmd (selected phy reg s), setLatch phy reg (s.latch phy reg + 1) s)
  | .c45, .readC45 => (now.mmd (selected phy reg s), s)
  | .c22, .write =>
      if reg = 0x0d then (0, setCtl phy data s)
      else if reg = 0x0e then (0, dataWrite phy data s)
      else (0, s)
  | .c22, .read =>
      if reg = 0x0d then (s.ctl phy, s)
      else if reg = 0x0e then dataRead now phy s
      else (now.plain phy reg, s)
  | .c22, .addr => (0, s)
  | .c22, .readC45 => (0, s)

end Hardware

section Code

/-- `mt753x_mii_rw`; the fields of `PHY_IAC` have 5 bits for the PHY and 5 for the register. -/
def miiRw (outcome : Outcome) (now : Contents) (phy reg : Nat) (data : BitVec 16) (cmd : Cmd)
    (st : St) (s : Phys) : Int × Phys :=
  let data := if cmd = .write ∨ cmd = .addr then data else 0
  let after := effect now st cmd (BitVec.ofNat 5 phy) (BitVec.ofNat 5 reg) data s
  match outcome with
  | .busy => (-110, s)
  | .stuck lands => (-110, if lands then after.2 else s)
  | .done => (if cmd = .read ∨ cmd = .readC45 then after.1.toNat else 0, after.2)

/-- The address of a PHY of the switch, or of another one -/
def phyAddr (phyBase addr : Nat) : Nat := if addr < 5 then (phyBase + addr) % 32 else addr

/-- `(MMD_ADDR << MMD_CMD_S) | ((devad << MMD_DEVAD_S) & MMD_DEVAD_M)` -/
def ctlAddr (devad : Nat) : BitVec 16 := (0#16 <<< 14) ||| (BitVec.ofNat 5 devad).setWidth 16

/-- `(MMD_DATA << MMD_CMD_S) | ((devad << MMD_DEVAD_S) & MMD_DEVAD_M)` -/
def ctlData (devad : Nat) : BitVec 16 := (1#16 <<< 14) ||| (BitVec.ofNat 5 devad).setWidth 16

variable (phyBase : Nat) (o : Nat → Outcome) (now : Nat → Contents) (addr devad : Nat)
  (reg val : BitVec 16)

/-- `mt753x_mmd_read` -/
def mmdRead (s : Phys) : Int × Phys :=
  let addr := phyAddr phyBase addr
  let (_, s) := miiRw (o 0) (now 0) addr devad reg .addr .c45 s
  miiRw (o 1) (now 1) addr devad 0 .readC45 .c45 s

/-- `mt753x_mmd_write` -/
def mmdWrite (s : Phys) : Phys :=
  let addr := phyAddr phyBase addr
  let (_, s) := miiRw (o 0) (now 0) addr devad reg .addr .c45 s
  (miiRw (o 1) (now 1) addr devad val .write .c45 s).2

/-- The first three transactions of `mt753x_mmd_ind_read` and `mt753x_mmd_ind_write` -/
def indSelect (addr : Nat) (s : Phys) : Phys :=
  let (_, s) := miiRw (o 0) (now 0) addr 0x0d (ctlAddr devad) .write .c22 s
  let (_, s) := miiRw (o 1) (now 1) addr 0x0e reg .write .c22 s
  (miiRw (o 2) (now 2) addr 0x0d (ctlData devad) .write .c22 s).2

/-- `mt753x_mmd_ind_read`, whose `val` is a `u16` -/
def mmdIndRead (s : Phys) : Int × Phys :=
  let addr := phyAddr phyBase addr
  let s := indSelect o now devad reg addr s
  let (val, s) := miiRw (o 3) (now 3) addr 0x0e 0 .read .c22 s
  (val % 2 ^ 16, s)

/-- `mt753x_mmd_ind_write` -/
def mmdIndWrite (s : Phys) : Phys :=
  let addr := phyAddr phyBase addr
  let s := indSelect o now devad reg addr s
  (miiRw (o 3) (now 3) addr 0x0e val .write .c22 s).2

/-- The register that the arguments of an access name -/
def target : MmdReg :=
  ⟨BitVec.ofNat 5 (phyAddr phyBase addr), BitVec.ofNat 5 devad, reg⟩

end Code

section Claims

variable (phyBase addr devad : Nat) (reg : BitVec 16)

/-- An error, or what the register holds at the time of the last transaction. -/
def Answer (target : MmdReg) (now : Contents) (ret : Int) : Prop :=
  ret < 0 ∨ ret = (now.mmd target).toNat

/-- No other register than the one is written. -/
def OnlyWrites (target : MmdReg) (s s' : Phys) : Prop :=
  ∀ w ∈ s'.written, w ∈ s.written ∨ w = target

/-- The accesses end right, whatever the PHYs keep and hold; each has its own pattern of outcomes. -/
structure Sound (read indRead write indWrite : Nat → Outcome) : Prop where
  read : ∀ now s, Answer (target phyBase addr devad reg) (now 1)
    (mmdRead phyBase read now addr devad reg s).1
  indRead : ∀ now s, Answer (target phyBase addr devad reg) (now 3)
    (mmdIndRead phyBase indRead now addr devad reg s).1
  write : ∀ now val s, OnlyWrites (target phyBase addr devad reg) s
    (mmdWrite phyBase write now addr devad reg val s)
  indWrite : ∀ now val s, OnlyWrites (target phyBase addr devad reg) s
    (mmdIndWrite phyBase indWrite now addr devad reg val s)

/-- The last transaction is not done, or has its address. An indirect read is always done, and an
indirect write does not go on without its first step, nor from the third without the second. -/
structure Followed (read indRead write indWrite : Nat → Outcome) : Prop where
  read : read 1 = .done → (read 0).lands = true
  indRead : (indRead 0).lands = true ∧ (indRead 1).lands = true ∧ (indRead 2).lands = true ∧
    indRead 3 = .done
  write : (write 1).lands = true → (write 0).lands = true
  indWrite : ((indWrite 1).lands = true → (indWrite 0).lands = true) ∧
    ((indWrite 3).lands = true → (indWrite 0).lands = true ∧
      ((indWrite 2).lands = true → (indWrite 1).lands = true))

end Claims

section Steps

variable (outcome : Outcome) (now : Contents) (phy reg : Nat) (data : BitVec 16)

theorem miiRw_state (cmd : Cmd) (st : St) (s : Phys) :
    (miiRw outcome now phy reg data cmd st s).2 =
      if outcome.lands = true then
        (effect now st cmd (BitVec.ofNat 5 phy) (BitVec.ofNat 5 reg)
          (if cmd = .write ∨ cmd = .addr then data else 0) s).2
      else s := by
  unfold miiRw
  cases outcome <;> rfl

theorem miiRw_not_done (cmd : Cmd) (st : St) (s : Phys) (late : outcome ≠ .done) :
    (miiRw outcome now phy reg data cmd st s).1 = -110 := by
  unfold miiRw
  cases outcome with
  | busy => rfl
  | stuck lands => rfl
  | done => exact absurd rfl late

@[simp] theorem setLatch_latch (phy devad : BitVec 5) (address : BitVec 16) (s : Phys) :
    (setLatch phy devad address s).latch phy devad = address := by
  simp [setLatch]

@[simp] theorem setLatch_ctl (phy devad : BitVec 5) (address : BitVec 16) (s : Phys) :
    (setLatch phy devad address s).ctl = s.ctl := rfl

@[simp] theorem setLatch_written (phy devad : BitVec 5) (address : BitVec 16) (s : Phys) :
    (setLatch phy devad address s).written = s.written := rfl

theorem advance_written (phy : BitVec 5) (up : Bool) (s : Phys) :
    (advance phy up s).written = s.written := by
  unfold advance
  cases up <;> rfl

theorem ctl_setCtl (phy : BitVec 5) (ctl : BitVec 16) (s : Phys) :
    (setCtl phy ctl s).ctl phy = ctl := by
  simp [setCtl]

theorem device_ctlAddr (devad : Nat) : device (ctlAddr devad) = BitVec.ofNat 5 devad := by
  unfold device ctlAddr
  generalize BitVec.ofNat 5 devad = d
  revert d
  decide

theorem function_ctlAddr (devad : Nat) : function (ctlAddr devad) = 0 := by
  unfold function ctlAddr
  generalize BitVec.ofNat 5 devad = d
  revert d
  decide

theorem device_ctlData (devad : Nat) : device (ctlData devad) = BitVec.ofNat 5 devad := by
  unfold device ctlData
  generalize BitVec.ofNat 5 devad = d
  revert d
  decide

theorem function_ctlData (devad : Nat) : function (ctlData devad) = 1 := by
  unfold function ctlData
  generalize BitVec.ofNat 5 devad = d
  revert d
  decide

end Steps

section Reads

variable {phyBase addr devad : Nat} {reg : BitVec 16}

/-- The PHYs keep another address of the device. -/
def stale (devad : Nat) (reg : BitVec 16) : Phys :=
  ⟨fun _ => ctlData devad, fun _ _ => reg + 1, []⟩

/-- Contents by which a register is told from others and from its address. -/
def probe (reg : BitVec 16) : Contents :=
  ⟨fun r => if r.reg = reg then reg + 2 else reg + 1, fun _ _ => 0⟩

theorem probe_told {target : MmdReg} (named : target.reg = reg) (x : BitVec 16)
    (answer : Answer target (probe reg) x.toNat) : x = reg + 2 := by
  rcases answer with negative | same
  · omega
  · have value : (probe reg).mmd target = reg + 2 := if_pos named
    rw [value] at same
    exact BitVec.eq_of_toNat_eq (by exact_mod_cast same)

theorem mmdRead_iff (o : Nat → Outcome) :
    (∀ now s, Answer (target phyBase addr devad reg) (now 1)
      (mmdRead phyBase o now addr devad reg s).1) ↔ (o 1 = .done → (o 0).lands = true) := by
  constructor
  · intro sound finished
    by_contra lost
    have wrong := sound (fun _ => probe reg) (stale devad reg)
    unfold mmdRead at wrong
    dsimp only at wrong
    rw [miiRw_state, if_neg lost, finished] at wrong
    have told : (probe reg).mmd _ = reg + 2 := probe_told rfl _ wrong
    have other : reg + 1 ≠ reg := by bv_omega
    simp only [probe, selected, stale, if_neg other] at told
    bv_omega
  · intro followed now s
    unfold mmdRead
    dsimp only
    by_cases finished : o 1 = .done
    · right
      rw [miiRw_state, if_pos (followed finished), finished]
      simp [miiRw, effect, selected, target]
    · left
      rw [miiRw_not_done _ _ _ _ _ _ _ _ finished]
      decide

/-- The three steps that select a register, as far as they take effect. -/
theorem indSelect_eq (o : Nat → Outcome) (now : Nat → Contents) (phy : Nat) (s : Phys) :
    indSelect o now devad reg phy s =
      let s := if (o 0).lands = true then setCtl (BitVec.ofNat 5 phy) (ctlAddr devad) s else s
      let s := if (o 1).lands = true then dataWrite (BitVec.ofNat 5 phy) reg s else s
      if (o 2).lands = true then setCtl (BitVec.ofNat 5 phy) (ctlData devad) s else s := by
  unfold indSelect
  dsimp only
  rw [miiRw_state, miiRw_state, miiRw_state]
  rfl

/-- With all three steps the register is selected. -/
theorem indSelect_all (o : Nat → Outcome) (now : Nat → Contents) (s : Phys)
    (address : (o 0).lands = true) (number : (o 1).lands = true) (data : (o 2).lands = true) :
    let s' := indSelect o now devad reg (phyAddr phyBase addr) s
    let phy := BitVec.ofNat 5 (phyAddr phyBase addr)
    s'.ctl phy = ctlData devad ∧
      selected phy (BitVec.ofNat 5 devad) s' = target phyBase addr devad reg ∧
      s'.written = s.written := by
  rw [indSelect_eq]
  simp [address, number, data, setCtl, dataWrite, function_ctlAddr, device_ctlAddr, selected,
    target]

/-- From the stale state a step that is lost leaves another register selected, or none. -/
theorem indSelect_lost (o : Nat → Outcome) (now : Nat → Contents) (phy : Nat)
    (lost : ¬ ((o 0).lands = true ∧ (o 1).lands = true ∧ (o 2).lands = true)) :
    (dataRead (probe reg) (BitVec.ofNat 5 phy)
      (indSelect o now devad reg phy (stale devad reg))).1 ≠ reg + 2 := by
  have next : reg + 1 ≠ reg := by bv_omega
  have first : reg + 1 ≠ reg + 2 := by bv_omega
  have second : reg ≠ reg + 2 := by bv_omega
  rw [indSelect_eq]
  cases address : (o 0).lands <;> cases number : (o 1).lands <;> cases data : (o 2).lands <;>
    simp_all [setCtl, dataWrite, dataRead, advance, writeMmd, selected, probe, stale,
      function_ctlAddr, function_ctlData, device_ctlAddr, device_ctlData]

theorem mmdIndRead_iff (o : Nat → Outcome) :
    (∀ now s, Answer (target phyBase addr devad reg) (now 3)
      (mmdIndRead phyBase o now addr devad reg s).1) ↔
      (o 0).lands = true ∧ (o 1).lands = true ∧ (o 2).lands = true ∧ o 3 = .done := by
  have read (now : Nat → Contents) (s : Phys) (finished : o 3 = .done) :
      (mmdIndRead phyBase o now addr devad reg s).1 =
        ((dataRead (now 3) (BitVec.ofNat 5 (phyAddr phyBase addr))
          (indSelect o now devad reg (phyAddr phyBase addr) s)).1.toNat : Int) := by
    unfold mmdIndRead
    dsimp only
    generalize indSelect o now devad reg (phyAddr phyBase addr) s = s'
    have small := (dataRead (now 3) (BitVec.ofNat 5 (phyAddr phyBase addr)) s').1.isLt
    have register : BitVec.ofNat 5 0x0e = (0x0e : BitVec 5) := rfl
    have other : (0x0e : BitVec 5) ≠ 0x0d := by decide
    rw [finished]
    simp only [miiRw, effect, register, if_neg other, true_or, if_true]
    omega
  constructor
  · intro sound
    have finished : o 3 = .done := by
      by_contra late
      have wrong := sound (fun _ => ⟨fun _ => 0, fun _ _ => 0⟩) (stale devad reg)
      unfold mmdIndRead at wrong
      dsimp only at wrong
      rw [miiRw_not_done _ _ _ _ _ _ _ _ late] at wrong
      rcases wrong with negative | same
      · exact absurd negative (by decide)
      · have value : (-110 : Int) % 2 ^ 16 = ((0 : BitVec 16).toNat : Int) := same
        exact absurd value (by decide)
    by_contra lost
    have wrong := sound (fun _ => probe reg) (stale devad reg)
    rw [read _ _ finished] at wrong
    have told := probe_told rfl _ wrong
    apply indSelect_lost o (fun _ => probe reg) (phyAddr phyBase addr) _ told
    exact fun all => lost ⟨all.1, all.2.1, all.2.2, finished⟩
  · rintro ⟨address, number, data, finished⟩ now s
    obtain ⟨ctl, named, -⟩ := @indSelect_all phyBase addr devad reg o now s address number data
    right
    rw [read now s finished]
    unfold dataRead
    dsimp only
    rw [ctl, function_ctlData, if_neg (by decide), device_ctlData, named]

end Reads

section Writes

variable {phyBase addr devad : Nat} {reg : BitVec 16}

theorem OnlyWrites.of_written {target : MmdReg} {s s' : Phys} (same : s'.written = s.written) :
    OnlyWrites target s s' := by
  intro w member
  rw [same] at member
  exact .inl member

/-- A register that is not the one is written. -/
theorem not_onlyWrites {target : MmdReg} {s s' : Phys} (w : MmdReg) (new : w ∈ s'.written)
    (fresh : s.written = []) (other : w.reg ≠ target.reg) : ¬ OnlyWrites target s s' := by
  intro only
  rcases only w new with old | same
  · rw [fresh] at old
    cases old
  · exact other (by rw [same])

theorem mmdWrite_iff (o : Nat → Outcome) :
    (∀ now val s, OnlyWrites (target phyBase addr devad reg) s
      (mmdWrite phyBase o now addr devad reg val s)) ↔
      ((o 1).lands = true → (o 0).lands = true) := by
  have next : reg + 1 ≠ reg := by bv_omega
  have state (now : Nat → Contents) (val : BitVec 16) (s : Phys) :
      mmdWrite phyBase o now addr devad reg val s =
        let phy := BitVec.ofNat 5 (phyAddr phyBase addr)
        let s := if (o 0).lands = true then setLatch phy (BitVec.ofNat 5 devad) reg s else s
        if (o 1).lands = true then writeMmd phy (BitVec.ofNat 5 devad) s else s := by
    unfold mmdWrite
    dsimp only
    rw [miiRw_state, miiRw_state]
    rfl
  constructor
  · intro sound written
    by_contra lost
    apply not_onlyWrites _ _ _ _ (sound (fun _ => probe reg) 0 (stale devad reg))
    · exact ⟨BitVec.ofNat 5 (phyAddr phyBase addr), BitVec.ofNat 5 devad, reg + 1⟩
    · rw [state]
      simp [written, lost, writeMmd, selected, stale]
    · rfl
    · exact next
  · intro followed now val s
    rw [state]
    dsimp only
    by_cases written : (o 1).lands = true
    · rw [if_pos written, if_pos (followed written)]
      intro w member
      rcases List.mem_cons.mp member with here | before
      · right
        rw [here, selected, setLatch_latch]
        rfl
      · exact .inl before
    · rw [if_neg written]
      apply OnlyWrites.of_written
      split_ifs <;> rfl

/-- While the function field is 0 the data register takes an address. -/
theorem dataWrite_address {phy : BitVec 5} {s : Phys} (ctl : s.ctl phy = ctlAddr devad)
    (val : BitVec 16) :
    dataWrite phy val s = setLatch phy (BitVec.ofNat 5 devad) val s := by
  unfold dataWrite
  dsimp only
  rw [ctl, function_ctlAddr, if_pos rfl, device_ctlAddr]

/-- With function 1 the selected register is written. -/
theorem dataWrite_data {phy : BitVec 5} {s : Phys} (ctl : s.ctl phy = ctlData devad)
    (val : BitVec 16) :
    (dataWrite phy val s).written = selected phy (BitVec.ofNat 5 devad) s :: s.written := by
  unfold dataWrite
  dsimp only
  rw [ctl, function_ctlData, if_neg (by decide), device_ctlData, advance_written]
  rfl

/-- The three steps write no register when the number is written behind the first. -/
theorem indSelect_written (o : Nat → Outcome) (now : Nat → Contents) (phy : Nat) (s : Phys)
    (early : (o 1).lands = true → (o 0).lands = true) :
    (indSelect o now devad reg phy s).written = s.written := by
  rw [indSelect_eq]
  dsimp only
  by_cases number : (o 1).lands = true
  · rw [if_pos number, if_pos (early number), dataWrite_address (ctl_setCtl _ _ _)]
    split_ifs <;> rfl
  · rw [if_neg number]
    split_ifs <;> rfl

/-- Without the third step the data register still takes an address. -/
theorem indSelect_ctl (o : Nat → Outcome) (now : Nat → Contents) (phy : Nat) (s : Phys)
    (address : (o 0).lands = true) (data : ¬ (o 2).lands = true) :
    (indSelect o now devad reg phy s).ctl (BitVec.ofNat 5 phy) = ctlAddr devad := by
  rw [indSelect_eq]
  dsimp only
  rw [if_pos address, if_neg data]
  by_cases number : (o 1).lands = true
  · rw [if_pos number, dataWrite_address (ctl_setCtl _ _ _)]
    simp [setCtl]
  · rw [if_neg number]
    simp [setCtl]

theorem dataWrite_keeps {w : MmdReg} {s : Phys} (phy : BitVec 5) (val : BitVec 16)
    (member : w ∈ s.written) : w ∈ (dataWrite phy val s).written := by
  unfold dataWrite
  dsimp only
  split_ifs
  · exact member
  · rw [advance_written]
    exact List.mem_cons_of_mem _ member

/-- In the stale state the number of the register is written into the register that is selected. -/
theorem indSelect_strays (o : Nat → Outcome) (now : Nat → Contents) (phy : Nat)
    (address : ¬ (o 0).lands = true) (number : (o 1).lands = true) :
    ⟨BitVec.ofNat 5 phy, BitVec.ofNat 5 devad, reg + 1⟩ ∈
      (indSelect o now devad reg phy (stale devad reg)).written := by
  have here : ⟨BitVec.ofNat 5 phy, BitVec.ofNat 5 devad, reg + 1⟩ ∈
      (dataWrite (BitVec.ofNat 5 phy) reg (stale devad reg)).written := by
    rw [dataWrite_data rfl]
    exact List.mem_cons_self
  rw [indSelect_eq]
  dsimp only
  rw [if_neg address, if_pos number]
  split_ifs
  · exact here
  · exact here

/-- Without the second step the stale register stays selected. -/
theorem indSelect_stale (o : Nat → Outcome) (now : Nat → Contents) (phy : Nat)
    (number : ¬ (o 1).lands = true) (data : (o 0).lands = true → (o 2).lands = true) :
    let s := indSelect o now devad reg phy (stale devad reg)
    s.ctl (BitVec.ofNat 5 phy) = ctlData devad ∧
      selected (BitVec.ofNat 5 phy) (BitVec.ofNat 5 devad) s =
        ⟨BitVec.ofNat 5 phy, BitVec.ofNat 5 devad, reg + 1⟩ := by
  rw [indSelect_eq]
  dsimp only
  rw [if_neg number]
  by_cases third : (o 2).lands = true
  · rw [if_pos third]
    refine ⟨ctl_setCtl _ _ _, ?_⟩
    split_ifs <;> rfl
  · rw [if_neg third, if_neg fun address => third (data address)]
    exact ⟨rfl, rfl⟩

theorem mmdIndWrite_iff (o : Nat → Outcome) :
    (∀ now val s, OnlyWrites (target phyBase addr devad reg) s
      (mmdIndWrite phyBase o now addr devad reg val s)) ↔
      ((o 1).lands = true → (o 0).lands = true) ∧ ((o 3).lands = true → (o 0).lands = true ∧
        ((o 2).lands = true → (o 1).lands = true)) := by
  have next : reg + 1 ≠ reg := by bv_omega
  have state (now : Nat → Contents) (val : BitVec 16) (s : Phys) :
      mmdIndWrite phyBase o now addr devad reg val s =
        let s := indSelect o now devad reg (phyAddr phyBase addr) s
        if (o 3).lands = true then dataWrite (BitVec.ofNat 5 (phyAddr phyBase addr)) val s
        else s := by
    unfold mmdIndWrite
    dsimp only
    rw [miiRw_state]
    rfl
  constructor
  · intro sound
    by_contra lost
    apply not_onlyWrites _ _ _ _ (sound (fun _ => probe reg) 0 (stale devad reg))
    · exact ⟨BitVec.ofNat 5 (phyAddr phyBase addr), BitVec.ofNat 5 devad, reg + 1⟩
    · rw [state]
      dsimp only
      by_cases early : (o 1).lands = true → (o 0).lands = true
      · obtain ⟨last, missed⟩ := Classical.not_imp.mp fun late => lost ⟨early, late⟩
        have number : ¬ (o 1).lands = true := fun number =>
          missed ⟨early number, fun _ => number⟩
        have data : (o 0).lands = true → (o 2).lands = true := fun address =>
          not_not.mp fun data => missed ⟨address, fun third => absurd third data⟩
        obtain ⟨ctl, old⟩ := indSelect_stale o (fun _ => probe reg) (phyAddr phyBase addr) number data
        rw [if_pos last, dataWrite_data ctl, old]
        exact List.mem_cons_self
      · obtain ⟨number, address⟩ := Classical.not_imp.mp early
        have strays := @indSelect_strays devad reg o (fun _ => probe reg) (phyAddr phyBase addr)
          address number
        split_ifs
        · exact dataWrite_keeps _ _ strays
        · exact strays
    · rfl
    · exact next
  · rintro ⟨early, late⟩ now val s
    rw [state]
    dsimp only
    by_cases last : (o 3).lands = true
    · obtain ⟨address, number⟩ := late last
      rw [if_pos last]
      by_cases data : (o 2).lands = true
      · obtain ⟨ctl, named, fresh⟩ :=
          @indSelect_all phyBase addr devad reg o now s address (number data) data
        intro w member
        rw [dataWrite_data ctl, fresh, named] at member
        exact (List.mem_cons.mp member).symm
      · apply OnlyWrites.of_written
        rw [dataWrite_address (indSelect_ctl o now _ s address data)]
        exact indSelect_written o now _ s early
    · rw [if_neg last]
      exact OnlyWrites.of_written (indSelect_written o now _ s early)

end Writes

section Settled

/-- The accesses end right exactly when each that is not refused has taken its address. -/
theorem accesses_sound_iff (phyBase addr devad : Nat) (reg : BitVec 16)
    (read indRead write indWrite : Nat → Outcome) :
    Sound phyBase addr devad reg read indRead write indWrite ↔
      Followed read indRead write indWrite := by
  constructor
  · intro sound
    exact ⟨(mmdRead_iff read).mp sound.read, (mmdIndRead_iff indRead).mp sound.indRead,
      (mmdWrite_iff write).mp sound.write, (mmdIndWrite_iff indWrite).mp sound.indWrite⟩
  · intro followed
    exact ⟨(mmdRead_iff read).mpr followed.read, (mmdIndRead_iff indRead).mpr followed.indRead,
      (mmdWrite_iff write).mpr followed.write, (mmdIndWrite_iff indWrite).mpr followed.indWrite⟩

/-- The last transaction of an indirect read is not done in time: the error is cut to a value that
the register does not hold. -/
theorem indRead_error_cut :
    let zero : Contents := ⟨fun _ => 0, fun _ _ => 0⟩
    let late : Nat → Outcome := fun i => if i = 3 then .stuck false else .done
    let ret := (mmdIndRead 0 late (fun _ => zero) 0 7 0x3c ⟨fun _ => 0, fun _ _ => 0, []⟩).1
    ret = 65426 ∧ ¬ Answer (target 0 0 7 0x3c) zero ret := by
  have ret : (mmdIndRead 0 (fun i => if i = 3 then .stuck false else .done)
      (fun _ => ⟨fun _ => 0, fun _ _ => 0⟩) 0 7 0x3c ⟨fun _ => 0, fun _ _ => 0, []⟩).1 = 65426 := by
    decide
  refine ⟨ret, ?_⟩
  rw [ret]
  rintro (negative | same)
  · exact absurd negative (by decide)
  · exact absurd same (by decide)

end Settled

end Filogic.Mt753x.PhyAccess
