import Filogic.Lib.Runs
import Filogic.Wed.Cleanup

/-! `mtk_wed_attach` in every run of attempts and detaches: which failures leave the WED as it was at
boot, and the lock released. -/

namespace Filogic.Wed.Attach
open Lib

section Failures

variable (ans : Answers) (dev : Dev) (amsdu wo : Ptr)

/-- The attempt fails, behind the DMA mask. -/
def Fails : Prop :=
  TxFails ans dev ∨ (3 ≤ dev.version ∧ AmsduFails ans) ∨
    (dev.rxCapa = true ∧ (RroFails ans ∨ ans.wo = false ∨ WoFails ans))

/-- It fails before there are pages for AMSDU or a WO object. -/
def Undone : Prop :=
  TxFails ans dev ∨ (3 ≤ dev.version ∧ AmsduFirst ans) ∨
    (dev.version < 3 ∧ dev.rxCapa = true ∧ (RroFails ans ∨ ans.wo = false))

/-- If the attempt fails, then early, and no pointer is left of an attempt before. -/
def GoodAttempt : Prop := Fails ans dev → wo = .null ∧ amsdu = .null ∧ Undone ans dev

variable {ans dev amsdu wo}

theorem AmsduFirst.fails (first : AmsduFirst ans) : AmsduFails ans :=
  first.imp_right fun page => ⟨0, by decide, .inl page⟩

theorem Ptr.dangle_null {p : Ptr} : p.dangle = .null ↔ p = .null := by
  cases p <;> decide

/-- The cleanup gives back what the pointers own, but it clears none of them. -/
theorem detach_boot (ring : dev.rroRing = true → dev.rxCapa = true) :
    (owning dev amsdu wo).detach = .boot dev.version ↔ wo = .null ∧ amsdu = .null := by
  constructor
  · intro same
    have pointers := detach_pointers (owning dev amsdu wo) (rfl : _ = some dev)
    rw [same] at pointers
    refine ⟨pointers.2 rfl, ?_⟩
    exact Ptr.dangle_null.mp pointers.1.symm
  · rintro ⟨rfl, rfl⟩
    rw [detach_owning (by decide) (fun _ => by decide) (fun _ => by decide) ring]
    split_ifs <;> rfl

/-- A failure without pages for AMSDU is undone if no pointer is left of an attempt before. -/
theorem early_iff (dev' : Dev) (same : dev'.version = dev.version)
    (ring : dev'.rroRing = true → dev'.rxCapa = true) {ret : Int} (error : ret ≠ 0)
    (fails : Fails ans dev) (undone : Undone ans dev) :
    (ret ≠ 0 → (owning dev' amsdu wo).detach = .boot dev.version) ↔ GoodAttempt ans dev amsdu wo := by
  rw [← same, imp_iff_right error, detach_boot ring, GoodAttempt, imp_iff_right fails,
    and_iff_left undone]

theorem late_iff {ret : Int} {hw : Hw} (error : ret ≠ 0) (fails : Fails ans dev)
    (undone : ¬Undone ans dev) (left : hw.detach ≠ .boot dev.version) :
    (ret ≠ 0 → hw.detach = .boot dev.version) ↔ GoodAttempt ans dev amsdu wo := by
  apply iff_of_false (fun all => left (all error))
  exact fun good => undone (good fails).2.2

/-- Behind the set-up for AMSDU a failure is undone only where that does nothing. -/
theorem behind_iff (dev' : Dev) (same : dev'.version = dev.version)
    (ring : dev'.rroRing = true → dev'.rxCapa = true) {ret : Int} (error : ret ≠ 0)
    (tx : ¬TxFails ans dev) (fine : 3 ≤ dev.version → ¬AmsduFails ans) (rx : dev.rxCapa = true)
    (fails : RroFails ans ∨ ans.wo = false) :
    (ret ≠ 0 → (owning dev' (amsduThen dev amsdu) wo).detach = .boot dev.version) ↔
      GoodAttempt ans dev amsdu wo := by
  have fails' : Fails ans dev := .inr (.inr ⟨rx, fails.imp_right .inl⟩)
  by_cases v3 : 3 ≤ dev.version
  · have pages : amsduThen dev amsdu = .live := if_pos v3
    apply late_iff error fails'
    · rintro (bad | ⟨_, first⟩ | ⟨old, _⟩)
      · exact tx bad
      · exact fine v3 first.fails
      · exact absurd v3 (not_le.mpr old)
    · rw [← same, Ne, detach_boot ring, pages]
      exact fun both => Ptr.noConfusion both.2
  · have pages : amsduThen dev amsdu = amsdu := if_neg v3
    rw [pages]
    exact early_iff dev' same ring error fails' (.inr (.inr ⟨not_le.mp v3, rx, fails⟩))

/-- Pages for AMSDU that were left to nobody stay. -/
theorem detach_late (dev' : Dev) (goods : Multiset Good) (left : .amsduPage 0 ∈ goods) (version : Nat) :
    (holding (owning dev' amsdu wo) goods).detach ≠ .boot version := by
  intro same
  have pointers := detach_pointers (holding (owning dev' amsdu wo) goods) (rfl : _ = some dev')
  have held : Good.amsduPage 0 ∈ (holding (owning dev' amsdu wo) goods).held.held :=
    Multiset.mem_add.mpr (.inl left)
  rw [same] at pointers
  have stays := detach_amsduPage _ (rfl : _ = some dev') (Ptr.dangle_null.mp pointers.1.symm)
    (pointers.2 rfl) held
  rw [same] at stays
  exact Multiset.notMem_zero _ stays

/-- An attempt that takes this course is undone, or does not fail, just if it is a good one. -/
theorem Course.undone_iff {ret : Int} {hw : Hw} (course : Course ans dev amsdu wo ret hw)
    (noRing : dev.rroRing = false) :
    (ret ≠ 0 → hw.detach = .boot dev.version) ↔ GoodAttempt ans dev amsdu wo := by
  have noRing' : ¬dev.rroRing = true := by simp [noRing]
  cases course with
  | @txFails _ pages desc error tx =>
    exact early_iff { dev with txPages := pages, txDesc := desc } rfl (fun has => absurd has noRing')
      error (.inl tx) (.inl tx)
  | @amsduFirst _ pages desc error tx v3 first =>
    exact early_iff { dev with txPages := pages, txDesc := desc } rfl (fun has => absurd has noRing')
      error (.inr (.inl ⟨v3, first.fails⟩)) (.inr (.inl ⟨v3, first⟩))
  | @amsduLate _ dev' goods error tx v3 fails notFirst left =>
    apply late_iff error (.inr (.inl ⟨v3, fails⟩))
    · rintro (bad | ⟨_, first⟩ | ⟨old, _⟩)
      · exact tx bad
      · exact notFirst first
      · exact absurd v3 (not_le.mpr old)
    · exact detach_late dev' goods left dev.version
  | @rroFails _ pages desc error tx fine rx rro =>
    exact behind_iff { dev with txPages := pages, txDesc := desc } rfl (fun has => absurd has noRing')
      error tx fine rx (.inl rro)
  | @woRefused _ pages desc error tx fine rx rro refused =>
    exact behind_iff { dev with txPages := pages, txDesc := desc, rroRing := true } rfl (fun _ => rx)
      error tx fine rx (.inr refused)
  | woFails error tx fine rx rro there fails has dangles =>
    apply late_iff error (.inr (.inr ⟨rx, .inr (.inr fails)⟩))
    · rintro (bad | ⟨v3, first⟩ | ⟨_, _, bad | refused⟩)
      · exact tx bad
      · exact fine v3 first.fails
      · exact rro bad
      · exact absurd (there.symm.trans refused) (by decide)
    · intro same
      have none := (detach_pointers hw has).2 (by rw [same]; rfl)
      exact Ptr.noConfusion (dangles.symm.trans none)
  | done tx fine object =>
    refine iff_of_true (fun error => absurd rfl error) ?_
    rintro (bad | ⟨v3, bad⟩ | ⟨rx, bad⟩)
    · exact absurd bad tx
    · exact absurd bad (fine v3)
    · obtain ⟨rro, there, good⟩ := object rx
      obtain bad | refused | bad := bad
      · exact absurd bad rro
      · exact absurd (there.symm.trans refused) (by decide)
      · exact absurd bad good

end Failures

section Runs

/-- The device at the beginning of an attempt. -/
def newDev (version : Nat) (wlan : Wlan) : Dev := ⟨version, wlan.nbuf, wlan.hwRro, none, false, false⟩

/-- The WED that an attempt is about. -/
def Driver.slot (d : Driver) (ans : Answers) : Option (Fin 3 × Hw) :=
  if ans.moduleGet then d.assign else none

/-- An attempt takes and releases the lock once. It leaves the WED that it was about as it was at boot:
free, holding nothing, nothing given back that was not held, no WO object used that is none, and no
pointer left, so that the next attempt is as a first one. -/
structure Cleaned (d : Driver) (wlan : Wlan) (ans : Answers) : Prop where
  locks : (mtkWedAttach d wlan ans).locks = if ans.moduleGet then [.lock, .unlock] else []
  state : step d (.attach wlan ans) =
    match d.slot ans with
    | none => d
    | some (i, hw) => { d with hwList := Function.update d.hwList i (some (.boot hw.version)) }

/-- If an attempt fails, then cleanly. -/
def Meets (d : Driver) : Event → Prop
  | .attach wlan ans => (mtkWedAttach d wlan ans).ret ≠ 0 → Cleaned d wlan ans
  | .detach _ => True

/-- The DMA mask is not refused, and the attempt does not fail late. -/
def Undoable (d : Driver) : Event → Prop
  | .attach wlan ans => ∀ i hw, d.slot ans = some (i, hw) →
      ans.dmaMask = 0 ∧ GoodAttempt ans (newDev hw.version wlan) hw.wedAmsdu hw.wedWo
  | .detach _ => True

/-- A WED between the calls: free, or with a device that owns what the pointers are to. -/
inductive Kept : Hw → Prop
  | idle (version : Nat) {amsdu wo : Ptr} (pages : amsdu ≠ .live) (object : wo ≠ .live)
      (old : version < 3 → amsdu = .null) : Kept (idle version amsdu wo)
  | owning (dev : Dev) {wo : Ptr} (object : dev.rxCapa = true → wo = .live)
      (other : dev.rxCapa = false → wo ≠ .live) (ring : dev.rroRing = true → dev.rxCapa = true) :
      Kept (owning dev (amsduThen dev .null) wo)

theorem Kept.boot (version : Nat) : Kept (.boot version) :=
  .idle version (by decide) (by decide) fun _ => rfl

theorem Kept.detach {hw : Hw} (kept : Kept hw) : Kept hw.detach := by
  cases kept with
  | idle version pages object old => exact .idle version pages object old
  | @owning dev wo object other ring =>
    have left : amsduThen dev .null ≠ .freed := by
      unfold amsduThen
      split_ifs <;> decide
    have live : dev.rxCapa = true → wo ≠ .freed := by
      intro rx
      rw [object rx]
      decide
    rw [detach_owning left live other ring]
    apply Kept.idle
    · cases amsduThen dev .null <;> decide
    · split_ifs with rx
      · cases wo <;> decide
      · exact other (by simpa using rx)
    · intro old
      rw [amsduThen, if_neg (not_le.mpr old)]
      rfl

/-- A free WED is the one of a first attempt, but for the pointers. -/
theorem Kept.free {hw : Hw} (kept : Kept hw) (free : hw.wedDev = none) :
    hw = Attach.idle hw.version hw.wedAmsdu hw.wedWo ∧ hw.wedAmsdu ≠ .live ∧ hw.wedWo ≠ .live ∧
      (hw.version < 3 → hw.wedAmsdu = .null) := by
  cases kept with
  | idle version pages object old => exact ⟨rfl, pages, object, old⟩
  | owning dev object other ring => cases free

/-- Between the calls the lock is free. -/
structure Ready (d : Driver) : Prop where
  unlocked : d.hwLock = false
  kept : ∀ i hw, d.hwList i = some hw → Kept hw

theorem assign_free {d : Driver} {i : Fin 3} {hw : Hw} (found : d.assign = some (i, hw)) :
    d.hwList i = some hw ∧ hw.wedDev = none := by
  obtain ⟨j, _, here⟩ := List.exists_of_findSome?_eq_some found
  obtain ⟨hw', at_j, free⟩ := Option.bind_eq_some_iff.mp here
  split_ifs at free with none
  cases free
  exact ⟨at_j, Option.isNone_iff_eq_none.mp none⟩

variable {d : Driver} (wlan : Wlan) (ans : Answers)

theorem attach_refused (none : d.slot ans = none) : (mtkWedAttach d wlan ans).hwList = d.hwList ∧
    (mtkWedAttach d wlan ans).locks = if ans.moduleGet then [.lock, .unlock] else [] := by
  unfold Driver.slot at none
  unfold mtkWedAttach
  by_cases module : ans.moduleGet = true
  · rw [if_pos module] at none ⊢
    rw [none, module]
    exact ⟨rfl, rfl⟩
  · rw [if_neg module, if_pos (by simpa using module)]
    exact ⟨rfl, rfl⟩

/-- What an attempt sets up is the WED's own. -/
theorem Course.kept {dev : Dev} {amsdu wo : Ptr} {ret : Int} {hw : Hw} {ans : Answers}
    (course : Course ans dev amsdu wo ret hw) (object : wo ≠ .live)
    (old : dev.version < 3 → amsdu = .null) (done : ret = 0) : Kept hw := by
  cases course with
  | @done pages desc =>
    have same : amsduThen dev amsdu = amsduThen dev .null := by
      unfold amsduThen
      split_ifs with v3
      · rfl
      · exact old (not_le.mp v3)
    rw [same]
    apply Kept.owning { dev with txPages := pages, txDesc := desc, rroRing := dev.rxCapa }
    · exact fun rx => if_pos rx
    · intro none
      have without : dev.rxCapa = false := none
      rw [without, if_neg Bool.false_ne_true]
      exact object
    · exact id
  | txFails error | amsduFirst error | amsduLate error | rroFails error | woRefused error
  | woFails error => exact absurd done error

variable {i : Fin 3} {hw : Hw}

theorem slot_found (found : d.slot ans = some (i, hw)) :
    ans.moduleGet = true ∧ d.assign = some (i, hw) := by
  unfold Driver.slot at found
  split_ifs at found with module
  exact ⟨module, found⟩

/-- The set-up of the WED of an attempt takes one of the courses. -/
theorem Ready.course (ready : Ready d) (found : d.slot ans = some (i, hw)) :
    { hw with wedDev := some (newDev hw.version wlan) } =
      Attach.owning (newDev hw.version wlan) hw.wedAmsdu hw.wedWo ∧
    hw.wedWo ≠ .live ∧ (hw.version < 3 → hw.wedAmsdu = .null) ∧
    Course ans (newDev hw.version wlan) hw.wedAmsdu hw.wedWo
      (({ hw with wedDev := some (newDev hw.version wlan) } : Hw).setUp ans (newDev hw.version wlan)).1
      (({ hw with wedDev := some (newDev hw.version wlan) } : Hw).setUp ans
        (newDev hw.version wlan)).2 := by
  obtain ⟨here, free⟩ := assign_free (slot_found ans found).2
  obtain ⟨same, pages, object, old⟩ := (ready.kept i hw here).free free
  have own : ({ hw with wedDev := some (newDev hw.version wlan) } : Hw) =
      Attach.owning (newDev hw.version wlan) hw.wedAmsdu hw.wedWo := by
    apply owning_eq rfl rfl rfl rfl _ _ _
    · rw [same]
      simp [amsduGoods, txGoods, newDev, ringGoods, woPart, Attach.idle, Ledger.empty, pages, object]
    · rw [same]
      rfl
    · rw [same]
      rfl
  refine ⟨own, object, old, ?_⟩
  rw [own]
  exact setUp_course rfl rfl rfl pages object

/-- With a WED and the DMA mask, an attempt is the set-up, and the detach if that fails. -/
theorem attach_slot (found : d.slot ans = some (i, hw)) (mask : ans.dmaMask = 0) {r : Int × Hw}
    (result : r = ({ hw with wedDev := some (newDev hw.version wlan) } : Hw).setUp ans
      (newDev hw.version wlan)) :
    mtkWedAttach d wlan ans =
      ⟨r.1, [.lock, .unlock],
        Function.update d.hwList i (some (if r.1 ≠ 0 then r.2.detach else r.2))⟩ := by
  obtain ⟨module, free⟩ := slot_found ans found
  rw [mtkWedAttach, if_neg (by simp [module]), free, result]
  dsimp only
  rw [if_neg (not_not.mpr mask)]
  rfl

theorem attach_masked (found : d.slot ans = some (i, hw)) (mask : ans.dmaMask ≠ 0) :
    (mtkWedAttach d wlan ans).ret ≠ 0 ∧ (mtkWedAttach d wlan ans).locks = [.lock] := by
  obtain ⟨module, free⟩ := slot_found ans found
  rw [mtkWedAttach, if_neg (by simp [module]), free]
  dsimp only
  rw [if_pos mask]
  exact ⟨mask, rfl⟩

theorem step_attach (ready : Ready d) : step d (.attach wlan ans) =
    ⟨(mtkWedAttach d wlan ans).locks.getLast? = some .lock, (mtkWedAttach d wlan ans).hwList⟩ := by
  rw [step, if_neg (by simp [ready.unlocked])]

theorem step_refused (ready : Ready d) (none : d.slot ans = none) :
    step d (.attach wlan ans) = d := by
  obtain ⟨same, locks⟩ := attach_refused wlan ans none
  rw [step_attach wlan ans ready, same, locks]
  have unlocked : decide ((if ans.moduleGet then [LockOp.lock, .unlock] else []).getLast? =
      some .lock) = d.hwLock := by
    rw [ready.unlocked]
    cases ans.moduleGet <;> rfl
  rw [unlocked]

theorem step_slot (ready : Ready d) (found : d.slot ans = some (i, hw)) (mask : ans.dmaMask = 0)
    {r : Int × Hw}
    (result : r = ({ hw with wedDev := some (newDev hw.version wlan) } : Hw).setUp ans
      (newDev hw.version wlan)) :
    step d (.attach wlan ans) =
      { d with hwList := Function.update d.hwList i (some (if r.1 ≠ 0 then r.2.detach else r.2)) } := by
  rw [step_attach wlan ans ready, attach_slot wlan ans found mask result, ready.unlocked]
  rfl

/-- A failure of an attempt is clean just if what it is about lets it. -/
theorem attach_meets (ready : Ready d) :
    Meets d (.attach wlan ans) ↔ Undoable d (.attach wlan ans) := by
  cases found : d.slot ans with
  | none =>
    have clean : Cleaned d wlan ans := by
      refine ⟨(attach_refused wlan ans found).2, ?_⟩
      rw [found, step_refused wlan ans ready found]
    refine iff_of_true (fun _ => clean) fun i hw here => ?_
    rw [found] at here
    cases here
  | some slot =>
    obtain ⟨i, hw⟩ := slot
    have about : Undoable d (.attach wlan ans) ↔
        ans.dmaMask = 0 ∧ GoodAttempt ans (newDev hw.version wlan) hw.wedAmsdu hw.wedWo := by
      constructor
      · exact fun all => all i hw found
      · intro good j hw' here
        cases found.symm.trans here
        exact good
    have module := (slot_found ans found).1
    rw [about]
    by_cases mask : ans.dmaMask = 0
    · obtain ⟨_, _, _, course⟩ := ready.course wlan ans found
      generalize result :
        ({ hw with wedDev := some (newDev hw.version wlan) } : Hw).setUp ans (newDev hw.version wlan) = r
        at course
      have attempt := attach_slot wlan ans found mask result.symm
      have after := step_slot wlan ans ready found mask result.symm
      rw [and_iff_right mask, ← course.undone_iff rfl]
      change ((mtkWedAttach d wlan ans).ret ≠ 0 → _) ↔ _
      rw [attempt]
      apply forall_congr'
      intro error
      rw [if_pos error] at after
      constructor
      · intro clean
        have same := clean.state
        rw [after, found] at same
        have slot : r.2.detach = .boot hw.version := by
          simpa using congrArg (fun d : Driver => d.hwList i) same
        exact slot
      · intro same
        refine ⟨?_, ?_⟩
        · rw [attempt, module]
          rfl
        · rw [after, found, same]
          rfl
    · obtain ⟨error, locks⟩ := attach_masked wlan ans found mask
      apply iff_of_false _ (fun both => mask both.1)
      intro all
      have clean := (all error).locks
      rw [locks, module] at clean
      exact absurd clean (by decide)

theorem Ready.update (ready : Ready d) (i : Fin 3) (slot : Option Hw)
    (kept : ∀ hw, slot = some hw → Kept hw) :
    Ready { d with hwList := Function.update d.hwList i slot } := by
  refine ⟨ready.unlocked, fun j hw here => ?_⟩
  change Function.update d.hwList i slot j = some hw at here
  by_cases same : j = i
  · subst same
    rw [Function.update_self] at here
    exact kept hw here
  · rw [Function.update_of_ne same] at here
    exact ready.kept j hw here

/-- Behind what fails cleanly or not at all, the lock is free and the WEDs own what they have. -/
theorem Ready.step (ready : Ready d) (event : Event) (meets : Meets d event) :
    Ready (step d event) := by
  cases event with
  | detach i =>
    rw [Attach.step, if_neg (by simp [ready.unlocked])]
    apply ready.update
    intro hw here
    obtain ⟨before, at_i, rfl⟩ := Option.map_eq_some_iff.mp here
    exact (ready.kept i before at_i).detach
  | attach wlan ans =>
    have good := (attach_meets wlan ans ready).mp meets
    cases found : d.slot ans with
    | none =>
      rw [step_refused wlan ans ready found]
      exact ready
    | some slot =>
      obtain ⟨i, hw⟩ := slot
      obtain ⟨mask, good⟩ := good i hw found
      obtain ⟨_, object, old, course⟩ := ready.course wlan ans found
      rw [step_slot wlan ans ready found mask rfl]
      apply ready.update
      rintro _ ⟨⟩
      split_ifs with error
      · rw [(course.undone_iff rfl).mpr good error]
        exact .boot _
      · exact course.kept object old (not_not.mp error)

/-- At boot no WED is taken. -/
theorem boot_ready (versions : Fin 3 → Option Nat) : Ready (.boot versions) := by
  refine ⟨rfl, fun i hw here => ?_⟩
  obtain ⟨version, _, rfl⟩ := Option.map_eq_some_iff.mp here
  exact .boot version

/-- In every run of attempts and detaches: each failure is undone, up to any step, just if each is of
the TX buffers, of the first page for AMSDU, or before version 3 of what comes before the WO object, with
no pointer left to pages or to a WO object of an attempt before. -/
theorem failures_undone_iff (versions : Fin 3 → Option Nat) (events : List Event) :
    Along step Meets (.boot versions) events ↔ Along step Undoable (.boot versions) events := by
  apply along_congr step Meets Undoable Ready _ _ _ events (boot_ready versions)
  · intro d event ready
    cases event with
    | attach wlan ans => exact attach_meets wlan ans ready
    | detach i => exact Iff.rfl
  · exact fun d event ready meets => ready.step event meets

/-- All is there, and all goes well. -/
def fine : Answers where
  moduleGet := true
  dmaMask := 0
  txList := true
  txDesc := true
  txPage _ := true
  txMap _ := true
  amsduList := true
  amsduPage _ := true
  amsduMap _ := true
  rroNode := true
  rroAddress := 0
  rroRing := true
  wo := true
  ccifNode := true
  ccifRegs := true
  irq := 0
  queueRegs _ := true
  queueDesc _ := true
  queueEntry _ := true
  regionNode _ := true
  regionAddress _ := 0
  firmware := 0
  boots := true
  log := true
  logMap := true
  exceptionMsg := 0

/-- The firmware of the WO of an MT7986 is not found: the object is freed, and then used and freed by the
detach. -/
theorem freed_object_used : ¬∀ versions events, Along step Meets (.boot versions) events := by
  intro all
  have meets := (all (fun _ => some 2) [.attach ⟨4, false⟩ { fine with firmware := -2 }]).1
  have clean := (meets (by decide)).state
  have used := congrArg (fun d : Driver => (d.hwList 0).map Hw.misused) clean
  revert used
  decide

end Runs

end Filogic.Wed.Attach
