import Filogic.Nmbm.Reading

/-! Instances that may not write: attached with `NMBM_F_READ_ONLY`, or protected because a table
could not be written. Nothing reaches flash, and the tables stay; the reads of a protected
instance are refused as well. -/

namespace Filogic.Nmbm
open Lib

/-- A routine that finds `NMBM_F_READ_ONLY` leaves it, and the flash. -/
structure HandsOff (w w' : World) : Prop where
  readOnly_eq : w.ni.lower.readOnly = true → w'.ni.lower.readOnly = true
  chip_eq : w.ni.lower.readOnly = true → w'.chip = w.chip
  trace_eq : w.ni.lower.readOnly = true → Grew (fun event => ¬event.writes) w w'

theorem Reading.handsOff {w w' : World} (reading : Reading w w') : HandsOff w w' := by
  obtain ⟨cache, same⟩ := reading.ni_eq
  exact ⟨fun readOnly => by rw [same]; exact readOnly, fun _ => reading.chip_eq,
    fun _ => reading.trace_eq.mono fun _ reads => reads.not_writes⟩

namespace HandsOff

theorem refl (w : World) : HandsOff w w := (Reading.refl w).handsOff

theorem trans (a b c : World) (one : HandsOff a b) (two : HandsOff b c) : HandsOff a c := by
  have flag := one.readOnly_eq
  exact ⟨fun readOnly => two.readOnly_eq (flag readOnly),
    fun readOnly => (two.chip_eq (flag readOnly)).trans (one.chip_eq readOnly),
    fun readOnly => (one.trace_eq readOnly).trans (two.trace_eq (flag readOnly))⟩

variable {α β : Type}

theorem pure (a : α) : Moves HandsOff (Pure.pure a : Routine α) := Moves.pure refl a

theorem ni : Moves HandsOff Nmbm.ni := Moves.gets refl _

theorem bind {x : Routine α} {f : α → Routine β} (first : Moves HandsOff x)
    (rest : ∀ a, Moves HandsOff (f a)) : Moves HandsOff (x >>= f) := Moves.bind trans first rest

theorem setNi (f : Instance → Instance) 
    (same : ∀ i, i.lower.readOnly = true → (f i).lower.readOnly = true) :
    Moves HandsOff (Nmbm.setNi f) :=
  fun w => ⟨same w.ni, fun _ => rfl, fun _ => Grew.refl w⟩

theorem reading {x : Routine α} (reads : Moves Reading x) : Moves HandsOff x :=
  fun w => (reads w).handsOff

/-- A routine that looks at the instance may be taken to find the flag set. -/
theorem known {f : Instance → Routine α}
    (rest : ∀ i, i.lower.readOnly = true → Moves HandsOff (f i)) :
    Moves HandsOff (Nmbm.ni >>= f) := by
  intro w
  by_cases flag : w.ni.lower.readOnly = true
  · exact rest w.ni flag w
  · exact ⟨fun yes => absurd yes flag, fun yes => absurd yes flag, fun yes => absurd yes flag⟩

theorem guarded (a : α) (x : Instance → Routine α) :
    Moves HandsOff (Nmbm.ni >>= fun i => if i.lower.readOnly then Pure.pure a else x i) := by
  apply known
  intro i readOnly
  rw [if_pos readOnly]
  exact pure a

end HandsOff

section Attach

variable (env : Env)

theorem setState_handsOff (ba : Nat) (state : UInt32) : Moves HandsOff (setState ba state) :=
  HandsOff.setNi _ fun _ flag => flag

theorem scanBadblocksFrom_handsOff (left ba : Nat) :
    Moves HandsOff (scanBadblocksFrom env left ba) := by
  induction left generalizing ba with
  | zero => exact HandsOff.pure _
  | succ left ih =>
    apply HandsOff.bind (HandsOff.reading (checkBadPhysBlock_reading env ba))
    intro bad
    exact Moves.ite _ (fun _ => HandsOff.bind (setState_handsOff _ _) fun _ => ih _)
      fun _ => ih _

theorem generateInfoTableCache_handsOff : Moves HandsOff (generateInfoTableCache env) := by
  apply HandsOff.bind HandsOff.ni
  intro i
  refine HandsOff.bind (HandsOff.setNi _ fun _ flag => flag) fun set => ?_
  apply HandsOff.bind
  · exact fun w => ⟨fun flag => flag, fun _ => rfl, fun _ => Grew.refl w⟩
  · exact fun _ => HandsOff.pure _

theorem readInfoTable_handsOff (left ba ptr start : Nat) :
    Moves HandsOff (readInfoTable env left ba ptr start) := by
  induction left generalizing ba ptr start with
  | zero => exact HandsOff.pure _
  | succ left ih =>
    apply Moves.ite _ (fun _ => HandsOff.pure _)
    intro more
    apply HandsOff.bind HandsOff.ni
    intro i
    apply Moves.ite _ _ fun _ => ih _ _ _
    intro good
    apply HandsOff.bind (HandsOff.reading (checkBadPhysBlock_reading env ba))
    intro bad
    apply Moves.ite _ (fun _ => HandsOff.bind (setState_handsOff _ _) fun _ => ih _ _ _)
    intro fine
    apply HandsOff.bind HandsOff.ni
    intro i
    apply HandsOff.bind (HandsOff.reading (readData_reading env _ _ _ _))
    intro got
    refine HandsOff.bind (HandsOff.setNi _ fun _ flag => flag) fun set => ?_
    apply Moves.ite _ (fun _ => HandsOff.bind (setState_handsOff _ _) fun _ => ih _ _ _)
    intro read
    exact Moves.ite _ (fun _ => HandsOff.pure _) fun _ => ih _ _ _

theorem tryLoadInfoTable_handsOff (ba : Nat) (tableLoaded : Bool) :
    Moves HandsOff (tryLoadInfoTable env ba tableLoaded) := by
  apply HandsOff.bind (readInfoTable_handsOff env _ _ _ _)
  intro range
  cases range with
  | none => exact HandsOff.pure _
  | some range =>
    apply HandsOff.bind HandsOff.ni
    intro i
    apply Moves.ite _ _ fun _ => HandsOff.pure _
    intro valid
    cases checkInfoTable i range.1 range.2 i.infoTableCache with
    | none => exact HandsOff.pure _
    | some top =>
      exact Moves.ite _
        (fun _ => HandsOff.bind (HandsOff.setNi _ fun _ flag => flag) fun _ => HandsOff.pure _)
        fun _ => HandsOff.pure _

theorem searchInfoTable_handsOff (ba limit : Nat) (tableLoaded : Bool) :
    Moves HandsOff (searchInfoTable env ba limit tableLoaded) := by
  rw [searchInfoTable]
  generalize sub32 limit (env.geo.size2blk env.geo.infoTableSize) - ba = left
  induction left generalizing ba with
  | zero => exact HandsOff.pure _
  | succ left ih =>
    apply HandsOff.bind (tryLoadInfoTable_handsOff env ba tableLoaded)
    intro found
    cases found with
    | none => exact ih _
    | some found => exact HandsOff.pure _

theorem useInfoTables_handsOff (main : FoundTable) (backup : Option FoundTable) :
    Moves HandsOff (useInfoTables env main backup) := by
  refine HandsOff.bind (HandsOff.setNi _ fun _ flag => flag) fun set => ?_
  apply HandsOff.bind (generateInfoTableCache_handsOff env)
  intro changed
  exact HandsOff.guarded _ _

theorem loadInfoTable_handsOff (ba limit : Nat) :
    Moves HandsOff (loadInfoTable env ba limit) := by
  refine HandsOff.bind (HandsOff.setNi _ fun _ flag => flag) fun set => ?_
  apply HandsOff.bind (searchInfoTable_handsOff env _ _ _)
  intro main
  cases main with
  | none => exact HandsOff.pure _
  | some main =>
    refine HandsOff.bind (HandsOff.setNi _ fun _ flag => flag) fun set => ?_
    apply HandsOff.bind (searchInfoTable_handsOff env _ _ _)
    intro backup
    refine HandsOff.bind (HandsOff.setNi _ fun _ flag => flag) fun set => ?_
    exact HandsOff.bind (useInfoTables_handsOff env main backup) fun _ => HandsOff.pure _

theorem buildMappingFrom_lower (left pb lb : Nat) (i : Instance) :
    (buildMappingFrom left pb lb i).lower = i.lower := by
  induction left generalizing pb lb i with
  | zero => rfl
  | succ left ih =>
    rw [buildMappingFrom]
    split_ifs
    · exact ih _ _ _
    · exact ih _ _ _

theorem buildMappingTable_handsOff :
    Moves HandsOff (setNi fun i => buildMappingTable env.geo i) := by
  apply HandsOff.setNi
  intro i flag
  change (buildMappingFrom _ _ _ i).lower.readOnly = true
  rw [buildMappingFrom_lower]
  exact flag

theorem loadExisting_handsOff : Moves HandsOff (loadExisting env) := by
  refine HandsOff.bind (HandsOff.setNi _ fun _ flag => flag) fun set => ?_
  apply HandsOff.known
  intro i readOnly
  apply HandsOff.bind (loadInfoTable_handsOff env _ _)
  intro success
  apply Moves.ite _ (fun _ => HandsOff.pure _)
  intro failed
  apply Moves.ite _ (fun _ => HandsOff.pure _)
  intro create
  apply HandsOff.bind (scanBadblocksFrom_handsOff env _ _)
  intro scanned
  apply HandsOff.bind (buildMappingTable_handsOff env)
  intro built
  rw [if_pos readOnly]
  exact HandsOff.pure _

theorem createNew_handsOff : Moves HandsOff (createNew env) := by
  refine HandsOff.bind (HandsOff.setNi _ fun _ flag => flag) fun set => ?_
  apply HandsOff.bind (scanBadblocksFrom_handsOff env _ _)
  intro scanned
  apply HandsOff.bind (buildMappingTable_handsOff env)
  intro built
  refine HandsOff.bind (HandsOff.setNi _ fun _ flag => flag) fun set => ?_
  exact HandsOff.guarded _ _

theorem checkLowerMembers_readOnly {lower checked : Options}
    (accepted : checkLowerMembers env.geo lower = some checked) :
    checked.readOnly = lower.readOnly := by
  unfold checkLowerMembers at accepted
  dsimp only at accepted
  split_ifs at accepted
  all_goals
    cases accepted
    rfl

theorem attach_handsOff (lower : Options) (readOnly : lower.readOnly = true) :
    Moves HandsOff (attach env lower) := by
  unfold attach
  cases accepted : checkLowerMembers env.geo lower with
  | none => exact HandsOff.pure _
  | some checked =>
    have flag := (checkLowerMembers_readOnly env accepted).trans readOnly
    apply HandsOff.bind (HandsOff.setNi (fun _ => initStructure env.geo checked) fun _ _ => flag)
    intro set
    apply HandsOff.bind (HandsOff.reading (findSignature_reading env))
    intro search
    cases search with
    | endless => exact HandsOff.pure _
    | absent =>
      apply Moves.ite _ _ fun _ => HandsOff.pure _
      intro create
      exact HandsOff.bind (createNew_handsOff env) fun _ => HandsOff.pure _
    | found signature ba =>
      refine HandsOff.bind (HandsOff.setNi _ fun _ flag => flag) fun set => ?_
      apply Moves.ite _ (fun _ => HandsOff.pure _)
      intro version
      apply Moves.ite _ (fun _ => HandsOff.pure _)
      intro fits
      exact HandsOff.bind (loadExisting_handsOff env) fun _ => HandsOff.pure _

end Attach

section Operations

variable (env : Env)

/-- Writing is refused. -/
def Instance.barred (i : Instance) : Prop := i.protectedMode = true ∨ i.lower.readOnly = true

theorem refuseWrite_barred (i : Instance) (barred : i.barred) (addr size : Nat) :
    refuseWrite env i addr size = some (-erofs) := if_pos barred

theorem refused_reading (addr size : Nat) (rest : Instance → Routine Reply) (w : World)
    (barred : w.ni.barred) :
    Reading w ((ni >>= fun i =>
      match refuseWrite env i addr size with
      | some ret => pure (.plain ret)
      | none => rest i : Routine Reply).after w) := by
  simp only [Prog.after, ni, Prog.run_bind, Prog.run_gets,
    refuseWrite_barred env w.ni barred, Prog.run_pure]
  exact Reading.refl w

/-- Every operation on an instance that may not write only reads. -/
theorem perform_reading (op : Op) (w : World) (barred : w.ni.barred) :
    Reading w ((perform env op).after w) := by
  cases op with
  | eraseBlockRange addr size => exact refused_reading env addr size _ w barred
  | readSinglePage addr data oob => exact readSinglePage_reading env addr data oob w
  | readRange addr size buf => exact readRange_reading env addr size buf w
  | writeSinglePage addr data oob => exact refused_reading env addr 0 _ w barred
  | panicWriteSinglePage addr data => exact refused_reading env addr 0 _ w barred
  | writeRange addr size data => exact refused_reading env addr size _ w barred
  | checkBadBlock addr => exact checkBadBlock_reading env addr w
  | markBadBlock addr => exact refused_reading env addr 0 _ w barred
  | detach =>
    change Reading w ((if w.ni.lower.readOnly = true then (pure () : Routine Unit) else
      updateInfoTable env >>= fun _ => pure ()).run w).2
    split_ifs with readOnly
    · exact Reading.refl w
    · have guarded := barred.resolve_right readOnly
      change Reading w ((if w.ni.protectedMode = true then (pure true : Routine Bool) else
        updateInfoTableLoop env (env.geo.blockCount + 1)).run w).2
      rw [if_pos guarded]
      exact Reading.refl w

end Operations

/-- The instance with the same tables, neither protected nor read-only. -/
def Instance.unprotected (i : Instance) : Instance :=
  { i with protectedMode := false, lower := { i.lower with readOnly := false } }

/-- The same flash under the unprotected instance. -/
def World.unprotected (w : World) : World := w.modifyNi Instance.unprotected

/-- The second world has the first one's instance without protection, and its flash. -/
structure Twin (w w' : World) : Prop where
  ni_eq : w'.ni = w.ni.unprotected
  chip_eq : w'.chip = w.chip
  tick_eq : w'.tick = w.tick

theorem twin_unprotected (w : World) : Twin w w.unprotected := ⟨rfl, rfl, rfl⟩

section Twins

variable (env : Env)

theorem lowerCall_twin (call : LowerCall) : Agrees Twin (lowerCall env call) := by
  intro w w' twin
  have tick := twin.tick_eq
  constructor
  · change env.fate w.tick call = env.fate w'.tick call
    rw [tick]
  · exact ⟨twin.ni_eq, twin.chip_eq, congrArg (· + 1) tick⟩

theorem readLogicPage_twin (addr : Nat) : Agrees Twin (readLogicPage env addr) := by
  apply readLogicPage_agrees env (fun _ _ twin => twin.chip_eq) (lowerCall_twin env)
  intro w w' twin addr
  rw [twin.ni_eq]
  rfl

theorem setCache_twin (f : Bytes → Bytes) :
    Agrees Twin (setNi fun i => { i with pageCache := f i.pageCache }) := by
  apply Agrees.modify
  intro w w' twin
  refine ⟨?_, twin.chip_eq, twin.tick_eq⟩
  change ({ w'.ni with pageCache := f w'.ni.pageCache } : Instance) = _
  rw [twin.ni_eq]
  rfl

theorem readRangeFrom_twin (fuel off ptr : Nat) (s : ReadState) :
    Agrees Twin (readRangeFrom env fuel off ptr s) := by
  induction fuel generalizing off ptr s with
  | zero => exact Agrees.pure _
  | succ fuel ih =>
    apply Agrees.ite _ (Agrees.pure _)
    apply Agrees.bind (readLogicPage_twin env _)
    rintro ⟨ret, page⟩
    refine Agrees.ite _ (Agrees.bind ?_ fun _ => ?_) ?_
    · cases page with
      | none => exact Agrees.modify _ fun _ _ twin => twin
      | some page => exact setCache_twin fun cache => cache.memcpy 0 page.1 0 env.geo.writesize
    all_goals
      apply Agrees.view
      · intro w w' twin
        rw [twin.ni_eq]
        rfl
      · intro i
        exact Agrees.ite _ (Agrees.pure _) (ih _ _ _)

theorem refuseRead_unprotected (i : Instance) (allowed : i.protectedMode = false)
    (addr size : Nat) : refuseRead env i.unprotected addr size = refuseRead env i addr size := by
  rw [refuseRead, refuseRead, allowed]
  rfl

theorem readSinglePage_twin (w : World) (allowed : w.ni.protectedMode = false) (addr : Nat)
    (data oob : Bytes) :
    (readSinglePage env addr data oob).value w =
      (readSinglePage env addr data oob).value w.unprotected := by
  have same := refuseRead_unprotected env w.ni allowed addr 0
  simp only [Prog.value, readSinglePage, ni, Prog.run_bind, Prog.run_gets]
  change _ = (Prog.run (match refuseRead env w.ni.unprotected addr 0 with
    | some ret => _
    | none => _) w.unprotected).1
  rw [same]
  cases refuseRead env w.ni addr 0 with
  | some ret => rfl
  | none =>
    refine (Agrees.bind (readLogicPage_twin env addr) ?_ w w.unprotected (twin_unprotected w)).1
    rintro ⟨ret, page⟩
    cases page with
    | none => exact Agrees.pure _
    | some page => exact Agrees.pure _

theorem readRange_twin (w : World) (allowed : w.ni.protectedMode = false) (addr size : Nat)
    (buf : Bytes) :
    (readRange env addr size buf).value w = (readRange env addr size buf).value w.unprotected := by
  have same := refuseRead_unprotected env w.ni allowed addr size
  simp only [Prog.value, readRange, ni, Prog.run_bind, Prog.run_gets]
  change _ = (Prog.run (match refuseRead env w.ni.unprotected addr size with
    | some ret => _
    | none => _) w.unprotected).1
  rw [same]
  cases refuseRead env w.ni addr size with
  | some ret => rfl
  | none =>
    dsimp only
    split_ifs
    · rfl
    · exact (Agrees.bind (readRangeFrom_twin env _ _ _ _) (fun _ => Agrees.pure _) w w.unprotected
        (twin_unprotected w)).1

end Twins

/-- The logic block is mapped to a block that is not bad. -/
def Instance.goodLogic (i : Instance) (lb : Nat) : Bool :=
  !unmapped (i.blockMapping lb) && i.getBlockState (i.blockMapping lb).toNat != blockStBad

/-- A read of logic blocks that are all good. -/
def ReadsGood (geo : Geometry) (i : Instance) : Op → Prop
  | .readSinglePage addr _ _ =>
    addr < geo.ba2addr i.dataBlockCount ∧ i.goodLogic (geo.addr2ba addr) = true
  | .readRange addr size _ =>
    0 < size ∧ addr + size ≤ geo.ba2addr i.dataBlockCount ∧
      ∀ lb, geo.addr2ba addr ≤ lb → lb ≤ geo.addr2ba (addr + size - 1) → i.goodLogic lb = true
  | _ => False

/-- What an instance that may not write owes its caller, over every sequence of operations:
flash and tables as they were, and reads as from an unprotected instance. -/
structure ReadOnlyKept (env : Env) (w : World) : Prop where
  flash : ∀ ops, Grew (fun event => ¬event.writes) w (performAll env w ops)
  states : ∀ ops, (performAll env w ops).ni.blockState = w.ni.blockState
  mapping : ∀ ops, (performAll env w ops).ni.blockMapping = w.ni.blockMapping
  reads : ∀ ops op, ReadsGood env.geo (performAll env w ops).ni op →
    (perform env op).value (performAll env w ops) =
      (perform env op).value (performAll env w ops).unprotected

variable (env : Env)

theorem performAll_reading (ops : List Op) (w : World) (barred : w.ni.barred) :
    Reading w (performAll env w ops) := by
  induction ops generalizing w with
  | nil => exact Reading.refl w
  | cons op rest ih =>
    have first := perform_reading env op w barred
    obtain ⟨cache, same⟩ := first.ni_eq
    have still : ((perform env op).after w).ni.barred := by
      rw [same]
      exact barred
    exact Reading.trans _ _ _ first (ih _ still)

theorem Geometry.addr2ba_ba2addr (geo : Geometry) (ba : Nat) : geo.addr2ba (geo.ba2addr ba) = ba :=
  Nat.mul_div_cancel ba (Nat.two_pow_pos _)

/-- The read of a good block that is let through hands over the page. -/
theorem readSinglePage_good (w : World) (allowed : w.ni.protectedMode = false) (addr : Nat)
    (inside : addr < env.geo.ba2addr w.ni.dataBlockCount)
    (good : w.ni.goodLogic (env.geo.addr2ba addr) = true) :
    ∃ ret page spare, ∀ data oob, (readSinglePage env addr data oob).value w =
      .code ret (data.memcpy 0 page 0 env.geo.writesize)
        (oob.memcpy 0 spare 0 env.geo.oobsize) := by
  rw [Instance.goodLogic, Bool.and_eq_true, Bool.not_eq_true', bne_iff_ne] at good
  have passed : refuseRead env w.ni addr 0 = none := by
    rw [refuseRead, if_neg (by simp [allowed]), if_neg (by omega), if_neg (by omega)]
  have located : logicAddr env w.ni addr = some (env.geo.ba2addr
      (w.ni.blockMapping (env.geo.addr2ba addr)).toNat + addr % env.geo.erasesize) := by
    simp only [logicAddr, good.1, good.2, Bool.false_eq_true, if_false]
  let got := (readPhysPage env (env.geo.ba2addr
    (w.ni.blockMapping (env.geo.addr2ba addr)).toNat + addr % env.geo.erasesize)).value w
  refine ⟨got.1, got.2.1, got.2.2, fun data oob => ?_⟩
  simp only [Prog.value, readSinglePage, readLogicPage, ni, Prog.run_bind, Prog.run_gets, passed,
    located, Prog.run_pure]
  rfl

/-- A protected instance refuses what an unprotected one hands over. -/
theorem protected_refuses (w : World) (guarded : w.ni.protectedMode = true) (lb : Nat)
    (inside : lb < w.ni.dataBlockCount) (good : w.ni.goodLogic lb = true) :
    ¬ReadOnlyKept env w := by
  intro kept
  have size : 0 < env.geo.erasesize := Nat.two_pow_pos _
  have reach : env.geo.ba2addr lb < env.geo.ba2addr w.ni.dataBlockCount :=
    Nat.mul_lt_mul_of_pos_right inside size
  have named : w.ni.goodLogic (env.geo.addr2ba (env.geo.ba2addr lb)) = true := by
    rw [env.geo.addr2ba_ba2addr]
    exact good
  obtain ⟨ret, page, spare, handed⟩ :=
    readSinglePage_good env w.unprotected rfl (env.geo.ba2addr lb) reach named
  -- An untouched buffer whose first byte the page does not have.
  let data : Bytes := fun _ => page 0 + 1
  have same := kept.reads [] (.readSinglePage (env.geo.ba2addr lb) data data) ⟨reach, named⟩
  have refused : (readSinglePage env (env.geo.ba2addr lb) data data).value w =
      .code (-erofs) data data := by
    simp only [Prog.value, readSinglePage, ni, Prog.run_bind, Prog.run_gets, refuseRead, guarded,
      if_true, Prog.run_pure]
  have bytes := congrFun (congrArg Reply.data ((refused.symm.trans same).trans (handed data data))) 0
  change page 0 + 1 = Bytes.memcpy data 0 page 0 env.geo.writesize 0 at bytes
  rw [Bytes.memcpy_inside _ _ _ _ _ _ (Nat.le_refl _) (by rw [Nat.zero_add]; exact Nat.two_pow_pos _)] at bytes
  simp at bytes

theorem read_only_kept_iff (w : World) (barred : w.ni.barred) :
    ReadOnlyKept env w ↔
      w.ni.protectedMode = false ∨ ∀ lb < w.ni.dataBlockCount, w.ni.goodLogic lb = false := by
  constructor
  · intro kept
    cases guarded : w.ni.protectedMode with
    | false => exact Or.inl rfl
    | true =>
      right
      intro lb inside
      by_contra good
      exact protected_refuses env w guarded lb inside (by simpa using good) kept
  · intro condition
    have frame := fun ops => performAll_reading env ops w barred
    refine ⟨fun ops => (frame ops).trace_eq.mono fun _ reads => reads.not_writes,
      fun ops => ?_, fun ops => ?_, fun ops op good => ?_⟩
    · obtain ⟨cache, same⟩ := (frame ops).ni_eq
      rw [same]
    · obtain ⟨cache, same⟩ := (frame ops).ni_eq
      rw [same]
    · obtain ⟨cache, same⟩ := (frame ops).ni_eq
      rcases condition with allowed | none
      · have still : (performAll env w ops).ni.protectedMode = false := by
          rw [same]
          exact allowed
        cases op with
        | readSinglePage addr data oob => exact readSinglePage_twin env _ still addr data oob
        | readRange addr size buf => exact readRange_twin env _ still addr size buf
        | _ => exact good.elim
      · rw [same] at good
        cases op with
        | readSinglePage addr data oob =>
          have missing := none _ (Nat.div_lt_of_lt_mul (by rw [Nat.mul_comm]; exact good.1))
          exact absurd (missing.symm.trans good.2) Bool.false_ne_true
        | readRange addr size buf =>
          obtain ⟨more, inside, each⟩ := good
          have first : env.geo.addr2ba addr < w.ni.dataBlockCount :=
            Nat.div_lt_of_lt_mul (by rw [Nat.mul_comm]; exact lt_of_lt_of_le (by omega) inside)
          have missing := none _ first
          have found := each (env.geo.addr2ba addr) (Nat.le_refl _)
            (Nat.div_le_div_right (by omega))
          exact absurd (missing.symm.trans found) Bool.false_ne_true
        | _ => exact good.elim

/-- An attachment with `NMBM_F_READ_ONLY` changes nothing on flash, and an instance that may not
write keeps flash, tables and reads exactly if it is not protected or has no good block. -/
theorem read_only_mode :
    (∀ lower w, lower.readOnly = true → w.ni.lower.readOnly = true →
      HandsOff w ((attach env lower).after w)) ∧
    ∀ w : World, w.ni.barred → (ReadOnlyKept env w ↔
      w.ni.protectedMode = false ∨ ∀ lb < w.ni.dataBlockCount, w.ni.goodLogic lb = false) :=
  ⟨fun lower w readOnly _ => attach_handsOff env lower readOnly w, read_only_kept_iff env⟩

/-- A chip on which no erase succeeds any more once it is attached. -/
def wornEnv : Env := sampleEnv fun tick call =>
  match call with
  | .eraseBlock _ => 101 ≤ tick
  | _ => false

/-- The instance after an erase whose block cannot be remapped: no info table could be
written. -/
def protectedWorld : World :=
  (Lib.run (Mount.step wornEnv) (Mount.start (blankChip []))
    [.attach sampleOptions, .op (.eraseBlockRange 0 256)]).world

def readOnlyOptions : Options := { sampleOptions with readOnly := true }

/-- A blank chip, and a cleared instance to be attached with `NMBM_F_READ_ONLY`. -/
def clearedWorld : World :=
  (Mount.start (blankChip [])).world.modifyNi fun _ => Instance.zero readOnlyOptions

/-- The instance attached. -/
def readOnlyWorld : World := (attach wornEnv readOnlyOptions).after clearedWorld

set_option maxRecDepth 100000 in
theorem readOnlyWorld_flags : readOnlyWorld.ni.lower.readOnly = true ∧
    readOnlyWorld.ni.protectedMode = false ∧ readOnlyWorld.ni.goodLogic 0 = true := by
  decide +kernel

theorem read_only_mode_sample :
    HandsOff clearedWorld readOnlyWorld ∧ ReadOnlyKept wornEnv readOnlyWorld :=
  ⟨(read_only_mode wornEnv).1 readOnlyOptions clearedWorld rfl rfl,
    ((read_only_mode wornEnv).2 readOnlyWorld (Or.inr readOnlyWorld_flags.1)).2
      (Or.inl readOnlyWorld_flags.2.1)⟩

set_option maxRecDepth 100000 in
/-- Logic block 1 is good, and can no longer be read. -/
theorem protected_read_refused :
    protectedWorld.ni.protectedMode = true ∧ ¬ReadOnlyKept wornEnv protectedWorld := by
  have guarded : protectedWorld.ni.protectedMode = true := by decide +kernel
  have inside : 1 < protectedWorld.ni.dataBlockCount := by decide +kernel
  have good : protectedWorld.ni.goodLogic 1 = true := by decide +kernel
  exact ⟨guarded, protected_refuses wornEnv _ guarded 1 inside good⟩

end Filogic.Nmbm
