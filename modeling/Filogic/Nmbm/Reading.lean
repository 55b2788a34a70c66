import Filogic.Nmbm.Api

/-! What the routines that only read keep: everything but the page cache. -/

namespace Filogic.Nmbm
open Lib

/-- The trace got longer by events of one kind. -/
def Grew (kind : Event → Prop) (w w' : World) : Prop :=
  ∃ events, w'.trace = events ++ w.trace ∧ ∀ event ∈ events, kind event

namespace Grew

variable {kind kind' : Event → Prop} {w w' : World}

theorem of_eq (same : w'.trace = w.trace) : Grew kind w w' := ⟨[], same, by simp⟩

theorem refl (w : World) : Grew kind w w := of_eq rfl

theorem trans {a b c : World} (one : Grew kind a b) (two : Grew kind b c) : Grew kind a c := by
  obtain ⟨early, grown, first⟩ := one
  obtain ⟨late, grown', second⟩ := two
  refine ⟨late ++ early, by rw [grown', grown, List.append_assoc], fun event member => ?_⟩
  rcases List.mem_append.mp member with new | old
  · exact second event new
  · exact first event old

theorem mono (grew : Grew kind w w') (weaker : ∀ event, kind event → kind' event) :
    Grew kind' w w' := by
  obtain ⟨events, grown, each⟩ := grew
  exact ⟨events, grown, fun event member => weaker event (each event member)⟩

end Grew

/-- The event is a call that changes flash. -/
def Event.writes (event : Event) : Prop :=
  ∃ call, event.what = .lower call ∧ call.writes = true

/-- The event is a call that does not change flash, made in the world `w` or in one that
differs from it in the page cache. -/
structure Event.Reads (w : World) (event : Event) : Prop where
  call : ∃ call, event.what = .lower call ∧ call.writes = false
  issuer_eq : event.issuer = w.issuer
  chip_eq : event.chip = w.chip
  ni_eq : ∃ cache, event.ni = { w.ni with pageCache := cache }

theorem Event.Reads.not_writes {w : World} {event : Event} (reads : event.Reads w) :
    ¬event.writes := by
  obtain ⟨call, what, reads⟩ := reads.call
  rintro ⟨call', what', writes⟩
  rw [what] at what'
  cases what'
  rw [reads] at writes
  exact Bool.noConfusion writes

/-- What a routine that only reads may change. -/
structure Reading (w w' : World) : Prop where
  ni_eq : ∃ cache, w'.ni = { w.ni with pageCache := cache }
  chip_eq : w'.chip = w.chip
  issuer_eq : w'.issuer = w.issuer
  generated_eq : w'.generated = w.generated
  trace_eq : Grew (Event.Reads w) w w'

namespace Reading

theorem refl (w : World) : Reading w w := ⟨⟨w.ni.pageCache, rfl⟩, rfl, rfl, rfl, Grew.refl w⟩

theorem trans (a b c : World) (one : Reading a b) (two : Reading b c) : Reading a c := by
  obtain ⟨cache, first⟩ := one.ni_eq
  obtain ⟨cache', second⟩ := two.ni_eq
  refine ⟨⟨cache', by rw [second, first]⟩, two.chip_eq.trans one.chip_eq,
    two.issuer_eq.trans one.issuer_eq, two.generated_eq.trans one.generated_eq,
    one.trace_eq.trans (two.trace_eq.mono fun event reads => ?_)⟩
  obtain ⟨call, issuer, chip, last, found⟩ := reads
  exact ⟨call, issuer.trans one.issuer_eq, chip.trans one.chip_eq, last, by rw [found, first]⟩

variable {α β : Type}

theorem pure (a : α) : Moves Reading (Pure.pure a : Routine α) := Moves.pure refl a

theorem get : Moves Reading (Prog.get : Routine World) := Moves.get refl

theorem ni : Moves Reading Nmbm.ni := Moves.gets refl _

theorem bind {x : Routine α} {f : α → Routine β} (first : Moves Reading x)
    (rest : ∀ a, Moves Reading (f a)) : Moves Reading (x >>= f) := Moves.bind trans first rest

/-- A step on the page cache. -/
theorem setCache (f : Instance → Bytes) :
    Moves Reading (setNi fun i => { i with pageCache := f i }) :=
  fun w => ⟨⟨f w.ni, rfl⟩, rfl, rfl, rfl, Grew.refl w⟩

end Reading

variable (env : Env)

theorem lowerCall_reading (call : LowerCall) (reads : call.writes = false) :
    Moves Reading (lowerCall env call) := by
  intro w
  refine ⟨⟨w.ni.pageCache, rfl⟩, rfl, rfl, rfl, [_], rfl, fun event member => ?_⟩
  rw [List.mem_singleton] at member
  rw [member]
  exact ⟨⟨call, rfl, reads⟩, rfl, rfl, w.ni.pageCache, rfl⟩

theorem resetChip_reading : Moves Reading (resetChip env) :=
  Reading.bind (lowerCall_reading env _ rfl) fun _ => Reading.pure _

/-- What every try keeps. -/
theorem retry_moves {rel : World → World → Prop} (refl : ∀ w, rel w w)
    (trans : ∀ a b c, rel a b → rel b c → rel a c) (reset : Moves rel (resetChip env))
    (call : Routine Int) (kept : Moves rel call) (tries : Nat) :
    Moves rel (retry env call tries) := by
  induction tries with
  | zero => exact Moves.pure refl _
  | succ tries ih =>
    apply Moves.bind trans kept
    intro ret
    apply Moves.ite _ (fun _ => Moves.pure refl _)
    intro failed
    exact Moves.bind trans reset fun _ => ih

/-- A call that was tried until it returned 0 leaves what it leaves then. -/
theorem retry_leaves {Post : World → Prop} (call : Routine Int)
    (leaves : ∀ w, (call.run w).1 = 0 → Post (call.run w).2) (tries : Nat) (w : World)
    (success : ((retry env call tries).run w).1 = true) : Post ((retry env call tries).run w).2 := by
  induction tries generalizing w with
  | zero => exact absurd success Bool.false_ne_true
  | succ tries ih =>
    simp only [retry, Prog.run_bind] at success ⊢
    split_ifs at success ⊢ with done
    · exact leaves w done
    · exact ih _ success

theorem lowerReadPage_reading (addr : Nat) : Moves Reading (lowerReadPage env addr) := by
  apply Reading.bind (lowerCall_reading env _ rfl)
  intro fate
  apply Reading.bind Reading.get
  intro w
  exact Moves.ite _ (fun _ => Reading.pure _) fun _ => Reading.pure _

theorem readPhysPageTries_reading (addr tries : Nat) (last : Int × Bytes × Bytes) :
    Moves Reading (readPhysPageTries env addr tries last) := by
  induction tries generalizing last with
  | zero => exact Reading.pure _
  | succ tries ih =>
    apply Reading.bind (lowerReadPage_reading env addr)
    intro got
    apply Moves.ite _ (fun _ => Reading.pure _)
    intro failed
    exact Reading.bind (resetChip_reading env) fun _ => ih got

theorem readPhysPage_reading (addr : Nat) : Moves Reading (readPhysPage env addr) :=
  readPhysPageTries_reading env addr _ _

theorem readToPageCache_reading (addr : Nat) : Moves Reading (readToPageCache env addr) := by
  apply Reading.bind (readPhysPage_reading env addr)
  intro got
  exact Reading.bind (Reading.setCache _) fun _ => Reading.pure _

theorem lowerIsBadBlock_reading (addr : Nat) : Moves Reading (lowerIsBadBlock env addr) := by
  apply Reading.bind (lowerCall_reading env _ rfl)
  intro fate
  exact Reading.bind Reading.get fun _ => Reading.pure _

theorem checkBadPhysBlock_reading (ba : Nat) : Moves Reading (checkBadPhysBlock env ba) := by
  apply Reading.bind Reading.ni
  intro i
  apply Moves.ite _ (fun _ => lowerIsBadBlock_reading env _)
  intro none
  apply Reading.bind (readPhysPage_reading env _)
  intro got
  apply Reading.bind (Reading.setCache _)
  intro set
  exact Reading.bind Reading.ni fun _ => Reading.pure _

theorem checkErasedPages_reading (pages addr : Nat) :
    Moves Reading (checkErasedPages env pages addr) := by
  induction pages generalizing addr with
  | zero => exact Reading.pure _
  | succ pages ih =>
    apply Reading.bind (readToPageCache_reading env addr)
    intro ret
    exact Moves.ite _ (fun _ => Reading.pure _) fun _ => ih _

theorem readDataFrom_reading (fuel off ptr remain : Nat) (buf : Bytes) :
    Moves Reading (readDataFrom env fuel off ptr remain buf) := by
  induction fuel generalizing off ptr remain buf with
  | zero => exact Reading.pure _
  | succ fuel ih =>
    apply Moves.ite _ (fun _ => Reading.pure _)
    intro more
    apply Moves.ite
    · intro full
      apply Reading.bind (readPhysPage_reading env _)
      intro got
      exact Moves.ite _ (fun _ => Reading.pure _) fun _ => ih _ _ _ _
    · intro part
      apply Reading.bind (readToPageCache_reading env _)
      intro ret
      apply Moves.ite _ (fun _ => Reading.pure _)
      intro good
      exact Reading.bind Reading.ni fun _ => ih _ _ _ _

theorem readData_reading (addr : Nat) (buf : Bytes) (ptr size : Nat) :
    Moves Reading (readData env addr buf ptr size) := readDataFrom_reading env _ _ _ _ _

theorem signaturePages_reading (pages addr : Nat) :
    Moves Reading (signaturePages env pages addr) := by
  induction pages generalizing addr with
  | zero => exact Reading.pure _
  | succ pages ih =>
    apply Reading.bind (readData_reading env _ _ _ _)
    intro got
    exact Moves.ite _ (fun _ => Reading.pure _) fun _ => ih _

theorem findSignatureFrom_reading (left ba : Nat) :
    Moves Reading (findSignatureFrom env left ba) := by
  induction left generalizing ba with
  | zero => exact Reading.pure _
  | succ left ih =>
    apply Reading.bind (checkBadPhysBlock_reading env _)
    intro bad
    apply Moves.ite _ fun _ => ih _
    intro fine
    apply Reading.bind (signaturePages_reading env _ _)
    intro found
    cases found with
    | none => exact ih _
    | some signature => exact Reading.pure _

theorem findSignature_reading : Moves Reading (findSignature env) := by
  apply Reading.bind Reading.ni
  intro i
  apply Reading.bind (findSignatureFrom_reading env _ _)
  intro found
  cases found with
  | none => exact Reading.pure _
  | some found => exact Reading.pure _

theorem readLogicPage_reading (addr : Nat) : Moves Reading (readLogicPage env addr) := by
  apply Reading.bind Reading.ni
  intro i
  cases logicAddr env i addr with
  | none => exact Reading.pure _
  | some paddr => exact Reading.bind (readPhysPage_reading env paddr) fun _ => Reading.pure _

theorem readSinglePage_reading (addr : Nat) (data oob : Bytes) :
    Moves Reading (readSinglePage env addr data oob) := by
  apply Reading.bind Reading.ni
  intro i
  cases refuseRead env i addr 0 with
  | some ret => exact Reading.pure _
  | none =>
    apply Reading.bind (readLogicPage_reading env addr)
    rintro ⟨ret, page⟩
    cases page with
    | none => exact Reading.pure _
    | some page => exact Reading.pure _

theorem readRangeFrom_reading (fuel off ptr : Nat) (s : ReadState) :
    Moves Reading (readRangeFrom env fuel off ptr s) := by
  induction fuel generalizing off ptr s with
  | zero => exact Reading.pure _
  | succ fuel ih =>
    apply Moves.ite _ (fun _ => Reading.pure _)
    intro more
    apply Reading.bind (readLogicPage_reading env _)
    rintro ⟨ret, page⟩
    refine Moves.ite _ (fun part => Reading.bind ?_ fun _ => ?_) fun full => ?_
    · cases page with
      | none => exact Reading.refl
      | some page => exact Reading.setCache _
    all_goals exact Reading.bind Reading.ni fun i =>
      Moves.ite _ (fun _ => Reading.pure _) fun _ => ih _ _ _

theorem readRange_reading (addr size : Nat) (buf : Bytes) :
    Moves Reading (readRange env addr size buf) := by
  apply Reading.bind Reading.ni
  intro i
  cases refuseRead env i addr size with
  | some ret => exact Reading.pure _
  | none =>
    apply Moves.ite _ (fun _ => Reading.pure _)
    intro more
    exact Reading.bind (readRangeFrom_reading env _ _ _ _) fun _ => Reading.pure _

theorem checkBadBlock_reading (addr : Nat) : Moves Reading (checkBadBlock env addr) := by
  apply Reading.bind Reading.ni
  intro i
  exact Moves.ite _ (fun _ => Reading.pure _) fun _ => Reading.pure _

section Alike

/-! Reads from two worlds with the same flash and the same fate of the next calls. -/

variable {rel : World → World → Prop} (chip : ∀ w w', rel w w' → w'.chip = w.chip)
  (calls : ∀ call, Agrees rel (lowerCall env call))
include chip calls

theorem lowerReadPage_agrees (addr : Nat) : Agrees rel (lowerReadPage env addr) := by
  apply Agrees.bind (calls _)
  intro fate
  apply Agrees.view (f := id)
  · intro w w' alike
    simp only [id, chip w w' alike]
  · intro w
    exact Agrees.ite _ (Agrees.pure _) (Agrees.pure _)

theorem readPhysPageTries_agrees (addr tries : Nat) (last : Int × Bytes × Bytes) :
    Agrees rel (readPhysPageTries env addr tries last) := by
  induction tries generalizing last with
  | zero => exact Agrees.pure _
  | succ tries ih =>
    apply Agrees.bind (lowerReadPage_agrees env chip calls addr)
    intro got
    apply Agrees.ite _ (Agrees.pure _)
    apply Agrees.bind
    · exact Agrees.bind (calls _) fun _ => Agrees.pure _
    · exact fun _ => ih got

theorem readPhysPage_agrees (addr : Nat) : Agrees rel (readPhysPage env addr) :=
  readPhysPageTries_agrees env chip calls addr _ _

theorem readLogicPage_agrees
    (place : ∀ w w', rel w w' → ∀ addr, logicAddr env w'.ni addr = logicAddr env w.ni addr)
    (addr : Nat) : Agrees rel (readLogicPage env addr) := by
  apply Agrees.view
  · intro w w' alike
    rw [place w w' alike]
  · intro i
    cases logicAddr env i addr with
    | none => exact Agrees.pure _
    | some paddr => exact Agrees.bind (readPhysPage_agrees env chip calls paddr) fun _ => Agrees.pure _

end Alike

end Filogic.Nmbm
