import Filogic.Snand.Page

/-! Page operations on a bus that works: every command arrives, every transfer completes and
every array operation finishes before the poll timer does. Programs and erases may still end
with a fail bit, whenever they like. -/

namespace Filogic.Snand
open Lib

/-- A bus without faults of its own. -/
structure Reliable (bus : Nat → Cycle) : Prop where
  completes : ∀ t, (bus t).ret = 0
  arrives : ∀ t, (bus t).lost = false
  honest : ∀ t, (bus t).feature = none
  patient : ∀ t t', (bus t).busy ≤ (bus t').polls

/-- A world on such a bus whose status register holds at most one fail bit. -/
structure Steady (w : World) : Prop where
  reliable : Reliable w.bus
  failBits : w.failBits = 0 ∨ w.failBits = 4 ∨ w.failBits = 8

namespace World

/-- The world after bus traffic that neither the array nor the buffers took part in. -/
def waited (w : World) (busy tick : Nat) (trace : List Transaction) : World :=
  { w with busy := busy, tick := tick, trace := trace }

/-- The value of a status read. -/
def statusValue (w : World) : Int :=
  ((if w.busy = 0 then 0 else 1) + (if w.wel then 2 else 0) + w.failBits : Nat)

end World

theorem Steady.waited {w : World} (steady : Steady w) (busy tick : Nat)
    (trace : List Transaction) : Steady (w.waited busy tick trace) :=
  ⟨steady.reliable, steady.failBits⟩

theorem macIo_run (g : Geometry) (w : World) (reliable : Reliable w.bus) (command : Command) :
    ∃ trace, (macIo g command).run w =
      ((0, w.reply command), { w.execute g command with tick := w.tick + 1, trace := trace }) := by
  refine ⟨⟨command, 0, w.reply command⟩ :: w.trace, ?_⟩
  have ret : w.cycle.ret = 0 := reliable.completes w.tick
  have arrived : w.cycle.lost = false := reliable.arrives w.tick
  simp only [macIo, Prog.run, ret, arrived]
  rfl

theorem status_toNat (w : World) (steady : Steady w) : (w.status.toNat : Int) = w.statusValue := by
  have small : (if w.busy = 0 then 0 else 1) + (if w.wel then 2 else 0) + w.failBits < 2 ^ 8 := by
    have := steady.failBits
    split_ifs <;> omega
  rw [World.status, World.statusValue, UInt8.toNat_ofNat_of_lt' small]

theorem getFeature_run (g : Geometry) (w : World) (steady : Steady w) :
    ∃ tick trace, (getFeature g featureStatusAddr).run w =
      (w.statusValue, w.waited (w.busy - 1) tick trace) := by
  obtain ⟨trace, run⟩ := macIo_run g w steady.reliable (.getFeature featureStatusAddr)
  refine ⟨w.tick + 1, trace, ?_⟩
  have honest : w.cycle.feature = none := steady.reliable.honest w.tick
  have reply : w.reply (.getFeature featureStatusAddr) = [w.status] := by
    simp only [World.reply, honest, if_true, Option.getD_none]
  rw [getFeature, Prog.run_bind, run, reply]
  simp only [ne_eq, not_true_eq_false, if_false, List.headD_cons, Prog.run_pure,
    status_toNat w steady]
  rfl

theorem statusValue_ready (w : World) (steady : Steady w) (ready : w.busy = 0) :
    w.statusValue % 2 = 0 ∧ w.statusValue / 4 % 4 * 4 = w.failBits := by
  rw [World.statusValue, if_pos ready]
  rcases steady.failBits with h | h | h <;> rw [h] <;> split_ifs <;> decide

theorem statusValue_busy (w : World) (steady : Steady w) (running : w.busy ≠ 0) :
    w.statusValue % 2 = 1 := by
  rw [World.statusValue, if_neg running]
  rcases steady.failBits with h | h | h <;> rw [h] <;> split_ifs <;> decide

theorem pollLoop_run (g : Geometry) (polls : Nat) (w : World) (steady : Steady w)
    (inTime : w.busy ≤ polls) :
    ∃ busy tick trace, (pollLoop g polls).run w =
      ((w.failBits : Int), w.waited busy tick trace) := by
  induction polls generalizing w with
  | zero =>
    obtain ⟨tick, trace, run⟩ := getFeature_run g w steady
    obtain ⟨even, bits⟩ := statusValue_ready w steady (by omega)
    refine ⟨w.busy - 1, tick, trace, ?_⟩
    rw [pollLoop, pollRound, Prog.run_bind, run]
    simp only [even, if_true, Prog.run_pure, bits]
  | succ polls ih =>
    obtain ⟨tick, trace, run⟩ := getFeature_run g w steady
    by_cases ready : w.busy = 0
    · obtain ⟨even, bits⟩ := statusValue_ready w steady ready
      refine ⟨w.busy - 1, tick, trace, ?_⟩
      rw [pollLoop, pollRound, Prog.run_bind, run]
      simp only [even, if_true, Prog.run_pure, bits]
    · have odd := statusValue_busy w steady ready
      obtain ⟨busy, tick', trace', rest⟩ := ih (w.waited (w.busy - 1) tick trace)
        (steady.waited _ _ _) (by change w.busy - 1 ≤ polls; omega)
      refine ⟨busy, tick', trace', ?_⟩
      rw [pollLoop, pollRound, Prog.run_bind, run]
      simp only [odd, one_ne_zero, if_false]
      exact rest

/-- Polling after an array operation: the fail bits it left. -/
theorem pollStatus_run (g : Geometry) (w : World) (steady : Steady w)
    (inTime : ∀ t, w.busy ≤ (w.bus t).polls) :
    ∃ busy tick trace, (pollStatus g).run w =
      ((w.failBits : Int), w.waited busy tick trace) :=
  pollLoop_run g w.cycle.polls w steady (inTime w.tick)

theorem writeEnable_run (g : Geometry) (w : World) (steady : Steady w) :
    ∃ busy tick trace, (writeEnable g).run w =
      (0, { w with wel := true }.waited busy tick trace) := by
  obtain ⟨trace, sent⟩ := macIo_run g w steady.reliable .writeEnable
  let armed : World := { w with wel := true, tick := w.tick + 1, trace := trace }
  obtain ⟨tick, trace', read⟩ := getFeature_run g armed ⟨steady.reliable, steady.failBits⟩
  refine ⟨w.busy - 1, tick, trace', ?_⟩
  have positive : ¬ armed.statusValue < 0 := by
    rw [World.statusValue]; omega
  have latched : armed.statusValue / 2 % 2 = 1 := by
    change ((if w.busy = 0 then 0 else 1) + 2 + w.failBits : Nat) / 2 % 2 = (1 : Int)
    rcases steady.failBits with h | h | h <;> rw [h] <;> split_ifs <;> decide
  rw [writeEnable, Prog.run_bind, sent]
  change ((getFeature g featureStatusAddr >>= _).run armed) = _
  rw [Prog.run_bind, read]
  simp only [positive, latched, if_true, if_false, Prog.run_pure]
  rfl

/-- The die a page operation runs on, `old` being the one selected before. -/
def dieOf (g : Geometry) (old addr : Nat) : Nat :=
  match g.selectDie with
  | none => old
  | some .winbond => addr >>> g.dieShift
  | some .micron => 1

/-- The address within the die. -/
def dieAddr (g : Geometry) (addr : Nat) : Nat :=
  match g.selectDie with
  | none => addr
  | some _ => addr &&& g.dieMask

/-- The 24-bit row address of the page at `addr`. -/
def row (g : Geometry) (addr : Nat) : Nat := dieAddr g addr >>> g.writesizeShift % 2 ^ 24

theorem dieIndex_small (g : Geometry) (addr : Nat) (inside : addr < g.size)
    (dies : g.selectDie.isSome) : addr >>> g.dieShift < 2 := by
  rw [Nat.shiftRight_eq_div_pow, Nat.div_lt_iff_lt_mul (Nat.two_pow_pos _)]
  calc addr < g.size := inside
    _ ≤ 2 ^ (g.dieShift + 1) := g.twoDies dies
    _ = 2 * 2 ^ g.dieShift := by rw [Nat.pow_succ]; omega

theorem selectDieAddress_run (g : Geometry) (w : World) (reliable : Reliable w.bus) (addr : Nat)
    (inside : addr < g.size) :
    ∃ tick trace, (selectDieAddress g addr).run w =
      (dieAddr g addr,
        { w with die := dieOf g w.die addr, tick := tick, trace := trace }) := by
  cases chosen : g.selectDie with
  | none =>
    refine ⟨w.tick, w.trace, ?_⟩
    simp only [selectDieAddress, dieAddr, dieOf, chosen]
    rfl
  | some select =>
    have small := dieIndex_small g addr inside (by rw [chosen]; rfl)
    have index : addr >>> g.dieShift % 2 ^ 32 = addr >>> g.dieShift :=
      Nat.mod_eq_of_lt (by omega)
    have valid : ¬ addr >>> g.dieShift > 1 := by omega
    cases select with
    | winbond =>
      obtain ⟨trace, sent⟩ := macIo_run g w reliable (.selectDie (addr >>> g.dieShift))
      refine ⟨w.tick + 1, trace, ?_⟩
      simp only [selectDieAddress, selectDie, dieAddr, dieOf, chosen, index, valid, if_false,
        Prog.run_bind, sent, Prog.run_pure]
      rfl
    | micron =>
      obtain ⟨trace, sent⟩ := macIo_run g w reliable (.setFeature featureMicronDieAddr 64)
      refine ⟨w.tick + 1, trace, ?_⟩
      simp only [selectDieAddress, selectDie, setFeature, dieAddr, dieOf, chosen, index, valid,
        if_false, Prog.run_bind, sent, Prog.run_pure]
      rfl

/-- The raw page a page cache is programmed as. -/
def storedPage (g : Geometry) (ecc : EccEngine g) (image : Bytes × Bool)
    (fdmRegs : Nat → Nat → UInt8) : Bytes :=
  if image.2 then Bytes.memcpy (fun _ => 0xff) 0 image.1 0 (g.eccSteps * g.rawSectorSize)
  else forRange (encodeSector g ecc image.1 (writeFdm g image.1 fdmRegs)) g.eccSteps
    (fun _ => 0xff)

theorem programLoad_run (g : Geometry) (ecc : EccEngine g) (w : World) (reliable : Reliable w.bus)
    (raw : Bool) :
    ∃ fdmRegs, (programLoad g ecc raw).run w = (0, { w with
      fdmRegs := fdmRegs
      cacheReg := storedPage g ecc (w.pageCache, raw) w.fdmRegs
      tick := w.tick + 1 }) := by
  have ret : w.cycle.ret = 0 := reliable.completes _
  refine ⟨if raw then w.fdmRegs else writeFdm g w.pageCache w.fdmRegs, ?_⟩
  simp only [programLoad, Prog.run, ret, if_true, storedPage]
  cases raw <;> rfl

/-- What an array operation on row `page` leaves, when it ends in cycle `t`. -/
structure Ended (w w' : World) (ret : Int) (t : Nat) (cells : Nat → Nat → Bytes) : Prop where
  ret_eq : ret = if (w.bus t).fails then -eio else 0
  cells_eq : w'.cells = cells
  die_eq : w'.die = w.die
  bus_eq : w'.bus = w.bus
  bufCache_eq : w'.bufCache = w.bufCache
  steady : Steady w'

theorem programPage_run (g : Geometry) (ecc : EccEngine g) (w : World) (steady : Steady w)
    (page : Nat) (raw : Bool) :
    ∃ ret w' t, (programPage g ecc page raw).run w = (ret, w') ∧
      Ended w w' ret t (programCells w.cells w.die (page % 2 ^ 24)
        (if (w.bus t).fails then (w.bus t).torn (page % 2 ^ 24)
          else storedPage g ecc (w.pageCache, raw) w.fdmRegs)) := by
  obtain ⟨busy₁, tick₁, trace₁, enable⟩ := writeEnable_run g w steady
  let w₁ : World := { w with wel := true, busy := busy₁, tick := tick₁, trace := trace₁ }
  obtain ⟨fdmRegs, load⟩ := programLoad_run g ecc w₁ steady.reliable raw
  let w₂ : World := { w₁ with
    fdmRegs := fdmRegs
    cacheReg := storedPage g ecc (w.pageCache, raw) w.fdmRegs
    tick := tick₁ + 1 }
  obtain ⟨trace₃, execute⟩ := macIo_run g w₂ steady.reliable (.programExecute page)
  let t := tick₁ + 1
  let w₃ : World := { w₂ with
    cells := programCells w.cells w.die (page % 2 ^ 24)
      (if (w.bus t).fails then (w.bus t).torn (page % 2 ^ 24)
        else storedPage g ecc (w.pageCache, raw) w.fdmRegs)
    failBits := if (w.bus t).fails then 8 else 0
    wel := false, busy := (w.bus t).busy, tick := tick₁ + 2, trace := trace₃ }
  have bits : w₃.failBits = 0 ∨ w₃.failBits = 8 := by
    cases fails : (w.bus t).fails with
    | true => exact Or.inr (by change (if (w.bus t).fails then 8 else 0) = 8; rw [fails]; rfl)
    | false => exact Or.inl (by change (if (w.bus t).fails then 8 else 0) = 0; rw [fails]; rfl)
  have steady₃ : Steady w₃ := ⟨steady.reliable, by omega⟩
  obtain ⟨busy₄, tick₄, trace₄, poll⟩ := pollStatus_run g w₃ steady₃
    (fun t' => steady.reliable.patient t t')
  refine ⟨if (w.bus t).fails then -eio else 0, w₃.waited busy₄ tick₄ trace₄, t, ?_,
    rfl, rfl, rfl, rfl, rfl, steady₃.waited _ _ _⟩
  have executed : (pageOp g (.programExecute page)).run w₂ = (0, w₃) := by
    rw [pageOp, Prog.run_bind, execute]
    rfl
  rw [programPage, Prog.run_bind, enable]
  change (Prog.run (programLoad g ecc raw >>= _) w₁) = _
  rw [Prog.run_bind, load]
  change (Prog.run (pageOp g _ >>= _) w₂) = _
  rw [Prog.run_bind, executed]
  change (Prog.run (pollStatus g >>= _) w₃) = _
  rw [Prog.run_bind, poll]
  change Prog.run (if (w₃.failBits : Int) < 0 then pure (w₃.failBits : Int)
    else if (w₃.failBits : Int) / 8 % 2 = 1 then pure (-eio) else pure 0) _ = _
  have report : w₃.failBits = if (w.bus t).fails then 8 else 0 := rfl
  rw [report]
  cases (w.bus t).fails <;> rfl

theorem doWritePage_run (g : Geometry) (ecc : EccEngine g) (w : World) (steady : Steady w)
    (addr : Nat) (inside : addr < g.size) (src : Buffers) (raw format : Bool) :
    ∃ ret w' t, (doWritePage g ecc addr src raw format).run w = (ret, w') ∧
      Ended { w with die := dieOf g w.die addr } w' ret t
        (programCells w.cells (dieOf g w.die addr) (row g addr)
          (if (w.bus t).fails then (w.bus t).torn (row g addr)
            else storedPage g ecc (writeImage g src raw format w.pageCache) w.fdmRegs)) := by
  obtain ⟨tick, trace, select⟩ := selectDieAddress_run g w steady.reliable addr inside
  let w₁ : World := { w with
    die := dieOf g w.die addr, tick := tick, trace := trace
    pageCache := (writeImage g src raw format w.pageCache).1 }
  obtain ⟨ret, w', t, run, ended⟩ := programPage_run g ecc w₁ ⟨steady.reliable, steady.failBits⟩
    (dieAddr g addr >>> g.writesizeShift) (writeImage g src raw format w.pageCache).2
  refine ⟨ret, w', t, ?_, ended.ret_eq, ended.cells_eq, ended.die_eq, ended.bus_eq,
    ended.bufCache_eq, ended.steady⟩
  rw [doWritePage, Prog.run_bind, select]
  exact run

theorem eraseBlock_run (g : Geometry) (w : World) (steady : Steady w) (addr : Nat)
    (inside : addr < g.size) :
    ∃ ret w' t, (eraseBlock g addr).run w = (ret, w') ∧
      Ended { w with die := dieOf g w.die addr } w' ret t
        (eraseCells g w.cells (dieOf g w.die addr)
          (dieAddr g addr >>> g.erasesizeShift <<< (g.erasesizeShift - g.writesizeShift) % 2 ^ 24)
          (if (w.bus t).fails then (w.bus t).torn else fun _ _ => 0xff)) := by
  obtain ⟨tick, trace, select⟩ := selectDieAddress_run g w steady.reliable addr inside
  let page := dieAddr g addr >>> g.erasesizeShift <<< (g.erasesizeShift - g.writesizeShift)
  let w₀ : World := { w with die := dieOf g w.die addr, tick := tick, trace := trace }
  obtain ⟨busy₁, tick₁, trace₁, enable⟩ := writeEnable_run g w₀ ⟨steady.reliable, steady.failBits⟩
  let w₁ : World := { w₀ with wel := true, busy := busy₁, tick := tick₁, trace := trace₁ }
  obtain ⟨trace₂, execute⟩ := macIo_run g w₁ steady.reliable (.blockErase page)
  let t := tick₁
  let w₂ : World := { w₁ with
    cells := eraseCells g w.cells (dieOf g w.die addr) (page % 2 ^ 24)
      (if (w.bus t).fails then (w.bus t).torn else fun _ _ => 0xff)
    failBits := if (w.bus t).fails then 4 else 0
    wel := false, busy := (w.bus t).busy, tick := tick₁ + 1, trace := trace₂ }
  have bits : w₂.failBits = 0 ∨ w₂.failBits = 4 := by
    cases fails : (w.bus t).fails with
    | true => exact Or.inr (by change (if (w.bus t).fails then 4 else 0) = 4; rw [fails]; rfl)
    | false => exact Or.inl (by change (if (w.bus t).fails then 4 else 0) = 0; rw [fails]; rfl)
  have steady₂ : Steady w₂ := ⟨steady.reliable, by omega⟩
  obtain ⟨busy₃, tick₃, trace₃, poll⟩ := pollStatus_run g w₂ steady₂
    (fun t' => steady.reliable.patient t t')
  refine ⟨if (w.bus t).fails then -eio else 0, w₂.waited busy₃ tick₃ trace₃, t, ?_,
    rfl, rfl, rfl, rfl, rfl, steady₂.waited _ _ _⟩
  have executed : (pageOp g (.blockErase page)).run w₁ = (0, w₂) := by
    rw [pageOp, Prog.run_bind, execute]
    rfl
  rw [eraseBlock, if_neg (by omega), Prog.run_bind, select]
  change (Prog.run (writeEnable g >>= _) w₀) = _
  rw [Prog.run_bind, enable]
  change (Prog.run (pageOp g (.blockErase page) >>= _) w₁) = _
  rw [Prog.run_bind, executed]
  change (Prog.run (pollStatus g >>= _) w₂) = _
  rw [Prog.run_bind, poll]
  change Prog.run (if (w₂.failBits : Int) < 0 then pure (w₂.failBits : Int)
    else if (w₂.failBits : Int) / 4 % 2 = 1 then pure (-eio) else pure 0) _ = _
  have report : w₂.failBits = if (w.bus t).fails then 4 else 0 := rfl
  rw [report]
  cases (w.bus t).fails <;> rfl

end Filogic.Snand
