import Filogic.Snand.Page

/-! What a read keeps, whatever the bus does: the array, the fail bits and, on a chip with one
die, the selected die. -/

namespace Filogic.Snand
open Lib

variable {g : Geometry}

/-- Commands that leave the array alone; a die is selected only where there is a choice. -/
def Command.passive (g : Geometry) : Command → Prop
  | .programExecute _ | .blockErase _ => False
  | .selectDie _ | .setFeature _ _ => g.selectDie ≠ none
  | _ => True

/-- A relation of states that the steps of a page read keep: a passive command, the transfer into the
page cache, and a change of the buffers. -/
structure Frame (g : Geometry) (rel : World → World → Prop) : Prop where
  refl : ∀ w, rel w w
  trans : ∀ a b c, rel a b → rel b c → rel a c
  macIo : ∀ command, Command.passive g command → Moves rel (Snand.macIo g command)
  transfer : ∀ ecc raw, Moves rel (transferCache g ecc raw)
  buffers : ∀ w pageCache bufCache sectBf,
    rel w { w with pageCache := pageCache, bufCache := bufCache, sectBf := sectBf }

namespace Frame

variable {rel : World → World → Prop} (frame : Frame g rel)
include frame

theorem pure {α : Type} (a : α) : Moves rel (Pure.pure a : Prog World α) := Moves.pure frame.refl a

theorem bind {α β : Type} {x : Prog World α} {f : α → Prog World β} (first : Moves rel x)
    (rest : ∀ a, Moves rel (f a)) : Moves rel (x >>= f) := Moves.bind frame.trans first rest

theorem getFeature (addr : Nat) : Moves rel (Snand.getFeature g addr) :=
  frame.bind (frame.macIo _ trivial) fun _ => Moves.ite _ (fun _ => frame.pure _)
    fun _ => frame.pure _

theorem pollLoop (polls : Nat) : Moves rel (Snand.pollLoop g polls) := by
  induction polls with
  | zero =>
    exact frame.bind (frame.getFeature _) fun _ => Moves.ite _ (fun _ => frame.pure _)
      fun _ => frame.pure _
  | succ polls ih =>
    exact frame.bind (frame.getFeature _) fun _ => Moves.ite _ (fun _ => frame.pure _)
      fun _ => ih

theorem pollStatus : Moves rel (Snand.pollStatus g) :=
  frame.bind (Moves.get frame.refl) fun w => frame.pollLoop w.cycle.polls

theorem selectDieAddress (addr : Nat) : Moves rel (Snand.selectDieAddress g addr) := by
  cases chosen : g.selectDie with
  | none =>
    simp only [Snand.selectDieAddress, chosen]
    exact frame.pure _
  | some select =>
    have choice : g.selectDie ≠ none := by rw [chosen]; exact Option.some_ne_none _
    simp only [Snand.selectDieAddress, chosen]
    apply frame.bind
    · cases select with
      | winbond =>
        simp only [selectDie, chosen]
        exact Moves.ite _ (fun _ => frame.pure _)
          fun _ => frame.bind (frame.macIo _ choice) fun _ => frame.pure _
      | micron =>
        simp only [selectDie, chosen]
        exact Moves.ite _ (fun _ => frame.pure _)
          fun _ => frame.bind (frame.macIo _ choice) fun _ => frame.pure _
    · exact fun _ => frame.pure _

theorem readEccParity (sect : Nat) : Moves rel (Snand.readEccParity g sect) := by
  unfold Snand.readEccParity
  apply Moves.ite _ (fun _ => frame.pure _)
  intro fits
  refine frame.bind (frame.macIo _ trivial) ?_
  intro answer
  apply Moves.ite _ _ fun _ => frame.pure _
  intro passed
  exact frame.bind (Moves.modify _ fun w => frame.buffers w _ w.bufCache w.sectBf)
    fun _ => frame.pure _

theorem checkEccFrom (left i : Nat) (ret maxBitflips : Int) :
    Moves rel (Snand.checkEccFrom g left i ret maxBitflips) := by
  induction left generalizing i ret maxBitflips with
  | zero => exact frame.pure _
  | succ left ih =>
    apply frame.bind (Moves.get frame.refl)
    intro w
    apply Moves.ite _ (fun _ => ih _ _ _)
    intro failed
    apply frame.bind (frame.readEccParity i)
    intro rc
    apply Moves.ite _ (fun _ => frame.pure _)
    intro passed
    apply frame.bind (Moves.get frame.refl)
    intro w'
    apply Moves.ite
    · intro bad
      exact frame.bind (Moves.modify _ fun w => frame.buffers w _ w.bufCache w.sectBf) fun _ => ih _ _ _
    · intro good
      exact frame.bind (Moves.modify _ fun w => frame.buffers w _ w.bufCache _) fun _ => ih _ _ _

theorem readCache (ecc : EccEngine g) (raw : Bool) : Moves rel (Snand.readCache g ecc raw) :=
  frame.bind (frame.transfer ecc raw) fun _ => Moves.ite _ (fun _ => frame.pure _)
    fun _ => Moves.ite _ (fun _ => frame.pure _) fun _ => frame.checkEccFrom _ _ _ _

theorem readCacheRetry (ecc : EccEngine g) (raw : Bool) (retries : Nat) :
    Moves rel (Snand.readCacheRetry g ecc raw retries) := by
  induction retries with
  | zero => exact frame.readCache ecc raw
  | succ retries ih =>
    exact frame.bind (frame.readCache ecc raw) fun _ => Moves.ite _ (fun _ => ih)
      fun _ => frame.pure _

theorem fetchPage (ecc : EccEngine g) (page : Nat) (raw : Bool) :
    Moves rel (Snand.fetchPage g ecc page raw) := by
  have sent : Moves rel (pageOp g (.readToCache page)) :=
    frame.bind (frame.macIo _ trivial) fun _ => frame.pure _
  exact frame.bind sent fun _ => Moves.ite _ (fun _ => frame.pure _) fun _ =>
    frame.bind frame.pollStatus fun _ => Moves.ite _ (fun _ => frame.pure _) fun _ =>
      frame.bind (frame.readCacheRetry ecc raw 16) fun _ => frame.pure _

theorem deliver (raw format : Bool) (out : Buffers) :
    Moves rel (Snand.deliver g raw format out) := by
  apply Moves.ite
  · intro raw
    apply Moves.ite
    · intro format
      exact frame.bind (Moves.modify _ fun w => frame.buffers w _ w.bufCache w.sectBf) fun _ =>
        frame.bind (Moves.get frame.refl) fun _ => frame.pure _
    · intro plain
      exact frame.bind (Moves.get frame.refl) fun _ => frame.pure _
  · intro auto
    exact frame.bind (Moves.modify _ fun w => frame.buffers w _ w.bufCache w.sectBf) fun _ =>
      frame.bind (Moves.get frame.refl) fun _ => frame.pure _

/-- A page read keeps the relation, whatever the bus does. -/
theorem doReadPage (ecc : EccEngine g) (addr : Nat) (out : Buffers) (raw format : Bool) :
    Moves rel (Snand.doReadPage g ecc addr out raw format) :=
  frame.bind (frame.selectDieAddress addr) fun _ => frame.bind (frame.fetchPage ecc _ raw)
    fun _ => Moves.ite _ (fun _ => frame.bind (frame.deliver raw format out) fun _ => frame.pure _)
      fun _ => frame.pure _

theorem readPage (ecc : EccEngine g) (addr : Nat) (out : Buffers) (raw : Bool) :
    Moves rel (Snand.readPage g ecc addr out raw) :=
  Moves.ite _ (fun _ => frame.pure _) fun _ => frame.doReadPage ecc addr out raw true

theorem blockIsbad (ecc : EccEngine g) (addr : Nat) :
    Moves rel (Snand.blockIsbad g ecc addr) := by
  have probe (addr : Nat) (format : Bool) : Moves rel (blockIsbadRaw g ecc addr format) :=
    frame.bind (Moves.get frame.refl) fun _ => frame.bind (frame.doReadPage ecc _ _ _ _) fun _ =>
      frame.bind (Moves.modify _ fun w => frame.buffers w w.pageCache _ w.sectBf) fun _ =>
        Moves.ite _ (fun _ => frame.pure _)
          fun _ => frame.bind (Moves.get frame.refl) fun _ => frame.pure _
  exact Moves.ite _ (fun _ => frame.pure _) fun _ =>
    Moves.ite _ (fun _ => probe _ _) fun _ => probe _ _

end Frame

/-- What an operation without array access keeps. -/
structure Quiet (g : Geometry) (w w' : World) : Prop where
  cells_eq : w'.cells = w.cells
  bus_eq : w'.bus = w.bus
  failBits_eq : w'.failBits = w.failBits
  die_eq : g.selectDie = none → w'.die = w.die

namespace Quiet

theorem refl (w : World) : Quiet g w w := ⟨rfl, rfl, rfl, fun _ => rfl⟩

theorem trans (a b c : World) (one : Quiet g a b) (two : Quiet g b c) : Quiet g a c :=
  ⟨two.cells_eq.trans one.cells_eq, two.bus_eq.trans one.bus_eq,
    two.failBits_eq.trans one.failBits_eq,
    fun single => (two.die_eq single).trans (one.die_eq single)⟩

end Quiet

theorem macIo_quiet (command : Command) (passive : command.passive g) :
    Moves (Quiet g) (macIo g command) := by
  intro w
  have executed : Quiet g w (w.execute g command) := by
    cases command with
    | programExecute page => exact absurd passive id
    | blockErase page => exact absurd passive id
    | selectDie die => exact ⟨rfl, rfl, rfl, fun single => absurd single passive⟩
    | setFeature addr value =>
      refine ⟨?_, ?_, ?_, fun single => absurd single passive⟩
      all_goals
        unfold World.execute
        dsimp only
        split_ifs <;> rfl
    | getFeature addr =>
      refine ⟨?_, ?_, ?_, fun _ => ?_⟩
      all_goals
        unfold World.execute
        dsimp only
        split_ifs <;> rfl
    | writeEnable => exact ⟨rfl, rfl, rfl, fun _ => rfl⟩
    | readToCache page => exact ⟨rfl, rfl, rfl, fun _ => rfl⟩
    | readFromCache column len => exact ⟨rfl, rfl, rfl, fun _ => rfl⟩
  change Quiet g w { (if w.cycle.lost then w else w.execute g command) with
    tick := w.tick + 1, trace := _ }
  split_ifs
  · exact ⟨rfl, rfl, rfl, fun _ => rfl⟩
  · exact ⟨executed.cells_eq, executed.bus_eq, executed.failBits_eq, executed.die_eq⟩

/-- A page read leaves the array as it was. -/
theorem quiet_frame : Frame g (Quiet g) where
  refl := Quiet.refl
  trans := Quiet.trans
  macIo := macIo_quiet
  transfer := by
    intro ecc raw w
    unfold transferCache Prog.run
    dsimp only
    split_ifs <;> exact ⟨rfl, rfl, rfl, fun _ => rfl⟩
  buffers w _ _ _ := ⟨rfl, rfl, rfl, fun _ => rfl⟩

/-- A step on the buffers or the controller. -/
theorem modify_quiet (f : World → World) (same : ∀ w, Quiet g w (f w)) :
    Moves (Quiet g) (Prog.modify f : Prog World Unit) := Moves.modify f same

theorem pure_quiet {α : Type} (a : α) : Moves (Quiet g) (pure a : Prog World α) :=
  Moves.pure Quiet.refl a

theorem bind_quiet {α β : Type} {x : Prog World α} {f : α → Prog World β}
    (first : Moves (Quiet g) x) (rest : ∀ a, Moves (Quiet g) (f a)) :
    Moves (Quiet g) (x >>= f) := Moves.bind Quiet.trans first rest

theorem readPage_quiet (ecc : EccEngine g) (addr : Nat) (out : Buffers) (raw : Bool) :
    Moves (Quiet g) (readPage g ecc addr out raw) := quiet_frame.readPage ecc addr out raw

theorem blockIsbad_quiet (ecc : EccEngine g) (addr : Nat) :
    Moves (Quiet g) (blockIsbad g ecc addr) := quiet_frame.blockIsbad ecc addr

end Filogic.Snand
