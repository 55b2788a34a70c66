import Filogic.Lib.Loop
import Filogic.Nmbm.Retired

/-! The routines that put the info tables on flash again and again while blocks go bad below them: what
they keep, and that they have spent a good block wherever they leave a change. -/

namespace Filogic.Nmbm
open Lib

/-- The blocks of the tables and the spare blocks end at `hi`. -/
structure Instance.EndsAt (hi : Nat) (i : Instance) : Prop where
  main_le : i.mainTableBa ≤ hi
  backup_le : i.backupTableBa ≤ hi
  mapping_le : i.mappingBlocksBa ≤ hi
  top_le : i.mappingBlocksTopBa ≤ hi

/-- What an update of the tables keeps of the world `w₀` that it began in. Once it has `paid`, a change
that the tables on flash do not have has cost a good block. -/
structure Sound (geo : Geometry) (hi : Nat) (w₀ : World) (paid : Prop) (w : World) : Prop where
  ends : w.ni.EndsAt hi
  top_eq : w.ni.mappingBlocksTopBa = w₀.ni.mappingBlocksTopBa
  signatureBa_eq : w.ni.signatureBa = w₀.ni.signatureBa
  signature_eq : w.ni.signature = w₀.ni.signature
  start_eq : w.ni.mgmtStartBa = w₀.ni.mgmtStartBa
  lower_eq : w.ni.lower = w₀.ni.lower
  chip_eq : ∀ ba, hi ≤ ba → w₀.chip.SameBlock geo w.chip ba
  good_le : w.ni.goodIn 0 hi ≤ w₀.ni.goodIn 0 hi
  spent : paid → w.ni.changed = false ∨ w.ni.goodIn 0 hi < w₀.ni.goodIn 0 hi

namespace Sound

variable {geo : Geometry} {hi : Nat} {w₀ w w' : World} {paid : Prop} {α β : Type}

theorem start (ends : w₀.ni.EndsAt hi) : Sound geo hi w₀ False w₀ where
  ends := ends
  top_eq := rfl
  signatureBa_eq := rfl
  signature_eq := rfl
  start_eq := rfl
  lower_eq := rfl
  chip_eq _ _ := Chip.SameBlock.refl _
  good_le := le_rfl
  spent := False.elim

theorem weaken {paid' : Prop} (sound : Sound geo hi w₀ paid w) (less : paid' → paid) :
    Sound geo hi w₀ paid' w := { sound with spent := fun has => sound.spent (less has) }

/-- A routine on the blocks below `hi`. -/
theorem within (sound : Sound geo hi w₀ paid w) {who : Issuer} {lo top : Nat} (below : top ≤ hi)
    (within : Within geo who lo top w w') (retires : Retires hi w w') : Sound geo hi w₀ paid w' := by
  obtain ⟨ends, top_, signatureBa, signature, start, lower, chip, good, spent⟩ := sound
  have same := within.ni_eq
  have chip' := within.chip_eq
  obtain ⟨states, changed, cache, same⟩ := same
  constructor
  · rw [same]
    exact ⟨ends.main_le, ends.backup_le, ends.mapping_le, ends.top_le⟩
  · rw [same]
    exact top_
  · rw [same]
    exact signatureBa
  · rw [same]
    exact signature
  · rw [same]
    exact start
  · rw [same]
    exact lower
  · exact fun ba high => (chip ba high).trans (chip' ba (Or.inr (below.trans high)))
  · exact retires.good_le.trans good
  · intro has
    obtain ⟨state, mapping⟩ | fewer := retires.spent
    · obtain clean | fewer := spent has
      · refine Or.inl ?_
        rw [← clean, Instance.changed, Instance.changed, state, mapping]
      · exact Or.inr (retires.good_le.trans_lt fewer)
    · exact Or.inr (fewer.trans_le good)

/-- A step on the instance that leaves the state table, the spare blocks' top and the signature. -/
theorem setNi (f : Instance → Instance)
    (ends : ∀ i, i.EndsAt hi → (f i).EndsAt hi)
    (same : ∀ i, (f i).mappingBlocksTopBa = i.mappingBlocksTopBa ∧
      (f i).signatureBa = i.signatureBa ∧ (f i).signature = i.signature ∧
      (f i).mgmtStartBa = i.mgmtStartBa ∧ (f i).lower = i.lower ∧ (f i).blockState = i.blockState)
    (clean : ∀ i, i.changed = false → (f i).changed = false) :
    Triple (Sound geo hi w₀ paid) (Nmbm.setNi f) fun _ => Sound geo hi w₀ paid := by
  intro w sound
  obtain ⟨top, signatureBa, signature, start, lower, states⟩ := same w.ni
  have goods (lo : Nat) : (f w.ni).goodIn lo hi = w.ni.goodIn lo hi := by
    apply Instance.goodIn_congr
    intro ba _ _
    rw [Instance.good, Instance.good, Instance.getBlockState, Instance.getBlockState, states]
  constructor
  · exact ends w.ni sound.ends
  · exact top.trans sound.top_eq
  · exact signatureBa.trans sound.signatureBa_eq
  · exact signature.trans sound.signature_eq
  · exact start.trans sound.start_eq
  · exact lower.trans sound.lower_eq
  · exact sound.chip_eq
  · exact (goods 0).le.trans sound.good_le
  · exact fun has => (sound.spent has).imp (clean w.ni) fun fewer => (goods 0).trans_lt fewer

/-- What the instance is known for when a routine looks at it. -/
theorem read {f : Instance → Routine α} {post : α → World → Prop}
    (rest : ∀ i, i.EndsAt hi → Triple (Sound geo hi w₀ paid) (f i) post) :
    Triple (Sound geo hi w₀ paid) (ni >>= f) post :=
  fun w sound => rest w.ni sound.ends w sound

end Sound

section Writers

variable (env : Env) {hi : Nat} {w₀ : World} {paid : Prop}

/-- What a writer of tables hands back: nothing, or where the table is, below `hi`. -/
def Table (geo : Geometry) (hi : Nat) (w₀ : World) (paid : Prop) (table : Option (Nat × Nat))
    (w : World) : Prop :=
  Sound geo hi w₀ paid w ∧ ∀ range ∈ table, range.1 ≤ hi ∧ range.2 ≤ hi

theorem writeInfoTable_sound (ba limit : Nat) (below : limit ≤ hi) :
    Triple (Sound env.geo hi w₀ paid) (writeInfoTable env ba limit) (Table env.geo hi w₀ paid) := by
  intro w sound
  refine ⟨sound.within below (writeInfoTable_within env ba limit w)
    (writeInfoTable_retires env ba limit below w), fun range found => ?_⟩
  obtain ⟨-, end_, placed⟩ := writeInfoTable_placed env ba limit w range found
  exact ⟨placed.low.trans (end_.trans below), end_.trans below⟩

theorem eraseRange_sound (ba limit : Nat) (below : limit ≤ hi) :
    Triple (Sound env.geo hi w₀ paid) (eraseRange env ba limit) fun _ => Sound env.geo hi w₀ paid :=
  fun w sound => sound.within below (eraseRange_within env ba limit w)
    (eraseRange_retires env ba limit below w)

/-- Behind it the tables have no change. -/
theorem markTablesClean_sound :
    Triple (Sound env.geo hi w₀ paid) markTablesClean fun _ => Sound env.geo hi w₀ True := by
  intro w sound
  have kept : Triple (Sound env.geo hi w₀ paid) markTablesClean fun _ => Sound env.geo hi w₀ paid :=
    Sound.setNi _ (fun _ ends => ⟨ends.main_le, ends.backup_le, ends.mapping_le, ends.top_le⟩)
      (fun _ => ⟨rfl, rfl, rfl, rfl, rfl, rfl⟩) fun _ _ => rfl
  exact { kept w sound with spent := fun _ => Or.inl rfl }

theorem writeInfoTableDown_sound (tries writeBa : Nat) :
    Triple (Sound env.geo hi w₀ paid) (writeInfoTableDown env tries writeBa)
      (Table env.geo hi w₀ paid) := by
  induction tries generalizing writeBa with
  | zero => exact Triple.pure _ fun w sound => ⟨sound, fun _ none => absurd none (by simp)⟩
  | succ tries ih =>
    apply Sound.read
    intro i ends
    refine Triple.bind (writeInfoTable_sound env writeBa _ ends.top_le) fun table => ?_
    cases table with
    | none => exact (ih _).weaken (fun _ all => all.1) fun _ _ all => all
    | some range => exact Triple.pure _ fun _ all => all

/-- The routine has paid when it reports success. -/
abbrev Updated (geo : Geometry) (hi : Nat) (w₀ : World) (success : Bool) (w : World) : Prop :=
  Sound geo hi w₀ (success = true) w

theorem paid_pure {geo : Geometry} (success : Bool) :
    Triple (Sound geo hi w₀ True) (pure success : Routine Bool) (Updated geo hi w₀) :=
  Triple.pure _ fun _ sound => sound.weaken fun _ => trivial

theorem failed_pure {geo : Geometry} :
    Triple (Sound geo hi w₀ paid) (pure false : Routine Bool) (Updated geo hi w₀) :=
  Triple.pure _ fun _ sound => sound.weaken fun yes => absurd yes Bool.false_ne_true

/-- New bounds of the tables, out of those known to be below `hi`. -/
theorem setTables_sound {geo : Geometry} (main backup mapping : Instance → Nat)
    (below : ∀ i, i.EndsAt hi → main i ≤ hi ∧ backup i ≤ hi ∧ mapping i ≤ hi) :
    Triple (Sound geo hi w₀ paid)
      (setNi fun i =>
        { i with mainTableBa := main i, backupTableBa := backup i, mappingBlocksBa := mapping i })
      fun _ => Sound geo hi w₀ paid := by
  apply Sound.setNi
  · intro i ends
    obtain ⟨main, backup, mapping⟩ := below i ends
    exact ⟨main, backup, mapping, ends.top_le⟩
  · exact fun _ => ⟨rfl, rfl, rfl, rfl, rfl, rfl⟩
  · exact fun _ clean => clean

theorem setProtected_sound {geo : Geometry} :
    Triple (Sound geo hi w₀ paid) (setNi fun i => { i with protectedMode := true })
      fun _ => Sound geo hi w₀ paid :=
  Sound.setNi _ (fun _ ends => ⟨ends.main_le, ends.backup_le, ends.mapping_le, ends.top_le⟩)
    (fun _ => ⟨rfl, rfl, rfl, rfl, rfl, rfl⟩) fun _ clean => clean

/-- What to do without a table, and with one. -/
theorem table_cases {geo : Geometry} {α : Type} {post : α → World → Prop}
    {rest : Option (Nat × Nat) → Routine α}
    (none : Triple (Sound geo hi w₀ paid) (rest .none) post)
    (some : ∀ range : Nat × Nat, range.1 ≤ hi → range.2 ≤ hi →
      Triple (Sound geo hi w₀ paid) (rest (.some range)) post) (table : Option (Nat × Nat)) :
    Triple (Table geo hi w₀ paid table) (rest table) post := by
  intro w found
  obtain ⟨sound, inside⟩ := found
  cases table with
  | none => exact none w sound
  | some range =>
    obtain ⟨first, last⟩ := inside range rfl
    exact some range first last w sound

theorem rebuildInfoTable_sound :
    Triple (Sound env.geo hi w₀ paid) (rebuildInfoTable env) (Updated env.geo hi w₀) := by
  refine Triple.bind (setTables_sound (fun _ => 0) (fun _ => 0) (fun i => i.mappingBlocksTopBa)
    fun i ends => ⟨Nat.zero_le _, Nat.zero_le _, ends.top_le⟩) fun _ => ?_
  apply Sound.read
  intro i ends
  refine Triple.bind (writeInfoTable_sound env _ _ ends.top_le) (table_cases ?_ ?_)
  · exact Triple.bind setProtected_sound fun _ => failed_pure
  · intro range first last
    refine Triple.bind (setTables_sound (fun _ => range.1) (fun i => i.backupTableBa)
      (fun _ => range.2) fun i ends => ⟨first, ends.backup_le, last⟩) fun _ => ?_
    refine Triple.bind (markTablesClean_sound env) fun _ => ?_
    apply Sound.read
    intro i ends
    cases reserveFrom env i range.2 with
    | none => exact paid_pure true
    | some nextStart =>
      refine Triple.bind (writeInfoTable_sound env _ _ ends.top_le) (table_cases (paid_pure true) ?_)
      intro backup first last
      refine Triple.bind (setTables_sound (fun i => i.mainTableBa) (fun _ => backup.1)
        (fun _ => backup.2) fun i ends => ⟨ends.main_le, first, last⟩) fun _ => ?_
      exact Triple.bind (eraseRange_sound env _ _ first) fun _ => paid_pure true

theorem promoteBackup_sound {geo : Geometry} :
    Triple (Sound geo hi w₀ paid) promoteBackup fun _ => Sound geo hi w₀ paid :=
  setTables_sound (fun i => i.backupTableBa) (fun _ => 0) (fun i => i.mappingBlocksBa)
    fun _ ends => ⟨ends.backup_le, Nat.zero_le _, ends.mapping_le⟩

theorem rescueBackup_sound (mainEnd : Nat) (below : mainEnd ≤ hi) :
    Triple (Sound env.geo hi w₀ True) (rescueBackup env mainEnd) (Updated env.geo hi w₀) := by
  refine Triple.bind (setTables_sound (fun i => i.mainTableBa) (fun i => i.backupTableBa)
    (fun _ => mainEnd) fun i ends => ⟨ends.main_le, ends.backup_le, below⟩) fun _ => ?_
  have none : Triple (Sound env.geo hi w₀ True)
      (setNi (fun i => { i with backupTableBa := 0 }) >>= fun _ => pure true)
      (Updated env.geo hi w₀) :=
    Triple.bind (setTables_sound (fun i => i.mainTableBa) (fun _ => 0) (fun i => i.mappingBlocksBa)
      fun i ends => ⟨ends.main_le, Nat.zero_le _, ends.mapping_le⟩) fun _ => paid_pure true
  apply Sound.read
  intro i ends
  cases reserveFrom env i mainEnd with
  | none => exact none
  | some writeBa =>
    refine Triple.bind (writeInfoTableDown_sound env _ writeBa) (table_cases none ?_)
    intro range first last
    refine Triple.bind (setTables_sound (fun i => i.mainTableBa) (fun _ => range.1)
      (fun _ => range.2) fun i ends => ⟨ends.main_le, first, last⟩) fun _ => ?_
    exact Triple.bind (eraseRange_sound env _ _ first) fun _ => paid_pure true

theorem rescueMainInfoTable_sound :
    Triple (Sound env.geo hi w₀ True) (rescueMainInfoTable env) (Updated env.geo hi w₀) := by
  have promoted : Triple (Sound env.geo hi w₀ True) (promoteBackup >>= fun _ => pure true)
      (Updated env.geo hi w₀) := Triple.bind promoteBackup_sound fun _ => paid_pure true
  apply Sound.read
  intro i ends
  cases reserveFrom env i i.mappingBlocksBa with
  | none => exact promoted
  | some writeBa =>
    refine Triple.bind (writeInfoTableDown_sound env _ writeBa) (table_cases promoted ?_)
    intro tmp first last
    refine Triple.bind (setTables_sound (fun i => i.mainTableBa) (fun i => i.backupTableBa)
      (fun _ => tmp.2) fun i ends => ⟨ends.main_le, ends.backup_le, last⟩) fun _ => ?_
    refine Triple.bind (writeInfoTable_sound env _ _ first) (table_cases ?_ ?_)
    · refine Triple.bind (setTables_sound (fun _ => tmp.1) (fun _ => 0) (fun i => i.mappingBlocksBa)
        fun i ends => ⟨first, Nat.zero_le _, ends.mapping_le⟩) fun _ => ?_
      exact Triple.bind (markTablesClean_sound env) fun _ => paid_pure true
    · intro main first' last'
      refine Triple.bind (setTables_sound (fun _ => main.1) (fun i => i.backupTableBa)
        (fun i => i.mappingBlocksBa) fun i ends => ⟨first', ends.backup_le, ends.mapping_le⟩) fun _ => ?_
      refine Triple.bind (markTablesClean_sound env) fun _ => ?_
      refine Triple.ite _ (fun _ => ?_) fun _ => rescueBackup_sound env main.2 last'
      exact Triple.bind (setTables_sound (fun i => i.mainTableBa) (fun _ => tmp.1)
        (fun i => i.mappingBlocksBa) fun i ends => ⟨ends.main_le, first, ends.mapping_le⟩)
          fun _ => paid_pure true

/-- Without a backup table the main table is written anew if need be; with one, the change has been
written there. -/
theorem writeMainTable_sound (limit : Nat) (below : limit ≤ hi) (w : World)
    (sound : Sound env.geo hi w₀ paid w) (backed : w.ni.backupTableBa = 0 ∨ paid) :
    Updated env.geo hi w₀ ((writeMainTable env limit).run w).1 ((writeMainTable env limit).run w).2 := by
  rw [writeMainTable, ni_bind]
  have ends := sound.ends
  by_cases first : w.ni.mainTableBa = 0
  · rw [if_pos first]
    exact rebuildInfoTable_sound env w sound
  · rw [if_neg first]
    refine (Triple.bind (writeInfoTable_sound env _ _ below) (table_cases ?_ ?_)) w sound
    · by_cases single : w.ni.backupTableBa = 0
      · rw [if_pos single]
        exact rebuildInfoTable_sound env
      · rw [if_neg single]
        exact (rescueMainInfoTable_sound env).weaken
          (fun _ all => all.weaken fun _ => backed.resolve_left single) fun _ _ all => all
    · intro range start last
      refine Triple.bind (setTables_sound (fun _ => range.1) (fun i => i.backupTableBa)
        (fun i => if i.backupTableBa = 0 then range.2 else i.mappingBlocksBa) fun i ends => ?_) fun _ => ?_
      · refine ⟨start, ends.backup_le, ?_⟩
        split_ifs
        · exact last
        · exact ends.mapping_le
      · exact Triple.bind (markTablesClean_sound env) fun _ => paid_pure true

theorem generateInfoTableCache_sound :
    Triple (Sound env.geo hi w₀ paid) (generateInfoTableCache env)
      fun changed w => Sound env.geo hi w₀ paid w ∧ changed = w.ni.changed := by
  intro w sound
  have kept : Triple (Sound env.geo hi w₀ paid) (setNi fun i =>
      { i with
        infoTable := i.nextHeader env.geo
        infoTableCache := infoTableImage env (i.nextHeader env.geo) i.blockState i.blockMapping })
      fun _ => Sound env.geo hi w₀ paid :=
    Sound.setNi _ (fun _ ends => ⟨ends.main_le, ends.backup_le, ends.mapping_le, ends.top_le⟩)
      (fun _ => ⟨rfl, rfl, rfl, rfl, rfl, rfl⟩) fun _ clean => clean
  obtain ⟨ends, top, signatureBa, signature, start, lower, chip, good, spent⟩ := kept w sound
  exact ⟨⟨ends, top, signatureBa, signature, start, lower, chip, good, spent⟩, rfl⟩

/-- A round that reports success has left no change, or it has spent a good block. -/
theorem updateInfoTableOnce_sound :
    Triple (Sound env.geo hi w₀ paid) (updateInfoTableOnce env false) (Updated env.geo hi w₀) := by
  refine Triple.bind (generateInfoTableCache_sound env) fun changed => ?_
  refine Triple.ite _ (fun same => Triple.pure _ fun w found => ?_) fun _ => ?_
  · obtain ⟨sound, rfl⟩ := found
    refine { sound with spent := fun _ => Or.inl ?_ }
    simpa using same
  · intro w found
    obtain ⟨sound, -⟩ := found
    have ends := sound.ends
    rw [ni_bind]
    by_cases single : w.ni.backupTableBa = 0
    · rw [if_pos single]
      exact writeMainTable_sound env _ ends.top_le w sound (Or.inl single)
    · rw [if_neg single]
      refine (Triple.bind (writeInfoTable_sound env _ _ ends.top_le) (table_cases ?_ ?_)) w sound
      · intro w' sound'
        exact writeMainTable_sound env _ ends.top_le _
          (setTables_sound (fun i => i.mainTableBa) (fun _ => 0) (fun i => i.backupTableBa)
            (fun i ends => ⟨ends.main_le, Nat.zero_le _, ends.backup_le⟩) w' sound') (Or.inl rfl)
      · intro range first last
        refine Triple.bind (setTables_sound (fun i => i.mainTableBa) (fun _ => range.1)
          (fun _ => range.2) fun i ends => ⟨ends.main_le, first, last⟩) fun _ => ?_
        refine Triple.bind (markTablesClean_sound env) fun _ => ?_
        exact fun w' sound' => writeMainTable_sound env _ first w' sound' (Or.inr trivial)

end Writers

section Loops

variable (env : Env)

/-- A round of the loop of `nmbm_update_info_table`. -/
def updateRound (w : World) : Round World (Bool × World) :=
  if w.ni.changed then
    if ((updateInfoTableOnce env false).run w).1 then .on ((updateInfoTableOnce env false).run w).2
    else .over_ (false, ((updateInfoTableOnce env false).run w).2)
  else .over_ (true, w)

/-- `nmbm_update_info_table`, which loops as long as it takes. -/
def Updates (w : World) (out : Bool × World) : Prop :=
  if w.ni.protectedMode then out = (true, w)
  else Ends (fun w round => updateRound env w = round) w out

/-- A round that is followed by another one has spent a good block. -/
theorem updateRound_less {hi : Nat} {w w' : World} (ends : w.ni.EndsAt hi)
    (retry : updateRound env w = .on w') :
    Sound env.geo hi w False w' ∧
      (w'.ni.changed = true → w'.ni.goodIn 0 hi < w.ni.goodIn 0 hi) := by
  rw [updateRound] at retry
  split_ifs at retry with changed success
  obtain rfl := Round.on.inj retry
  have sound := updateInfoTableOnce_sound env w (Sound.start ends)
  exact ⟨sound.weaken False.elim, fun more => (sound.spent success).resolve_left (by simp [more])⟩

theorem Instance.EndsAt.exists (i : Instance) : ∃ hi, i.EndsAt hi :=
  ⟨max (max i.mainTableBa i.backupTableBa) (max i.mappingBlocksBa i.mappingBlocksTopBa),
    by omega, by omega, by omega, by omega⟩

/-- The number of rounds that may still follow. -/
def roundsLeft (hi : Nat) (w : World) : Nat := if w.ni.changed then w.ni.goodIn 0 hi + 1 else 0

/-- The update of the tables ends, whatever the lower device does. -/
theorem updates_total (w : World) : ∃ out, Updates env w out := by
  by_cases shut : w.ni.protectedMode = true
  · exact ⟨(true, w), by rw [Updates, if_pos shut]⟩
  · obtain ⟨hi, ends⟩ := Instance.EndsAt.exists w.ni
    have loop := @Ends.of_measure _ _ (fun w round => updateRound env w = round)
      (fun w => w.ni.EndsAt hi) (roundsLeft hi) (fun w _ => ⟨_, rfl⟩) (fun w w' ends retry => ?_) w ends
    · obtain ⟨out, loop⟩ := loop
      exact ⟨out, by rw [Updates, if_neg shut]; exact loop⟩
    · obtain ⟨sound, less⟩ := updateRound_less env ends retry
      have changed : w.ni.changed = true := by
        rw [updateRound] at retry
        split_ifs at retry with changed
        exact changed
      refine ⟨sound.ends, ?_⟩
      rw [roundsLeft, roundsLeft, if_pos changed]
      split_ifs with more
      · exact Nat.succ_lt_succ (less more)
      · exact Nat.succ_pos _

/-- What an update keeps, from a world that it may have come to on its way. -/
theorem Updates.sound {hi : Nat} {w₀ w : World} {out : Bool × World} (updates : Updates env w out)
    (start : Sound env.geo hi w₀ False w) : Sound env.geo hi w₀ False out.2 := by
  rw [Updates] at updates
  split_ifs at updates with shut
  · rw [updates]
    exact start
  · refine @Ends.invariant _ _ _ (Sound env.geo hi w₀ False) (fun out => Sound env.geo hi w₀ False out.2)
      (fun s s' sound retry => ?_) (fun s out sound over_ => ?_) w out updates start
    · rw [updateRound] at retry
      split_ifs at retry with changed success
      obtain rfl := Round.on.inj retry
      exact (updateInfoTableOnce_sound env s sound).weaken False.elim
    · rw [updateRound] at over_
      split_ifs at over_ with changed success
      · obtain rfl := Round.over_.inj over_
        exact (updateInfoTableOnce_sound env s sound).weaken False.elim
      · obtain rfl := Round.over_.inj over_
        exact sound

theorem updateInfoTableLoop_ends {hi : Nat} (fuel : Nat) (w : World) (ends : w.ni.EndsAt hi)
    (enough : w.ni.changed = true → w.ni.goodIn 0 hi < fuel) :
    Ends (fun w round => updateRound env w = round) w ((updateInfoTableLoop env fuel).run w) := by
  induction fuel generalizing w with
  | zero =>
    apply Ends.last
    rw [updateRound, if_neg fun changed => absurd (enough changed) (Nat.not_lt_zero _)]
    rfl
  | succ fuel ih =>
    rw [updateInfoTableLoop, ni_bind]
    by_cases changed : w.ni.changed = true
    · rw [if_pos changed, Prog.run_bind]
      by_cases success : ((updateInfoTableOnce env false).run w).1 = true
      · have retry : updateRound env w = .on ((updateInfoTableOnce env false).run w).2 := by
          rw [updateRound, if_pos changed, if_pos success]
        obtain ⟨sound, less⟩ := updateRound_less env ends retry
        rw [if_pos success]
        refine Ends.next retry (ih _ sound.ends fun more => ?_)
        exact (less more).trans_le (Nat.le_of_lt_succ (enough changed))
      · rw [if_neg success]
        apply Ends.last
        rw [updateRound, if_pos changed, if_neg success]
        rfl
    · rw [if_neg changed]
      apply Ends.last
      rw [updateRound, if_neg changed]
      rfl

/-- The update as it is bounded by the number of blocks is the whole update, where tables and spare
blocks are blocks of the chip. -/
theorem updateInfoTable_updates (w : World) (ends : w.ni.EndsAt env.geo.blockCount) :
    Updates env w ((updateInfoTable env).run w) := by
  rw [Updates, updateInfoTable, ni_bind]
  split_ifs with shut
  · rfl
  · apply updateInfoTableLoop_ends env _ w ends
    have most : w.ni.goodIn 0 env.geo.blockCount ≤ env.geo.blockCount - 0 := Instance.goodIn_le
    omega

end Loops

section Erase

variable (env : Env) (lb : Nat)

/-- `nmbm_erase_logic_block` up to `remap_logic_block`: its code, or none for a block to be remapped. -/
def eraseTry : Routine (Option Int) := do
  let i ← ni
  let pb := (i.blockMapping lb).toNat
  if unmapped (i.blockMapping lb) then return some (-eio)
  else if i.getBlockState pb = blockStBad ∨ i.getBlockState pb = blockStNeedRemap then return none
  else do
    let bad ← checkBadPhysBlock env pb
    if bad then do
      setState pb blockStBad
      return none
    else do
      let success ← eraseBlockAndCheck env pb
      if success then return some 0
      else do
        retireBlock env pb
        return none

/-- `nmbm_map_block` -/
def MapsBlock (w : World) (out : Bool × World) : Prop :=
  let w := w.note .mapBlock
  if w.ni.mappingBlocksBa = w.ni.mappingBlocksTopBa then out = (false, w)
  else
    match blockWalkDown env.geo w.ni w.ni.mappingBlocksTopBa 0 w.ni.mappingBlocksBa with
    | none => ∃ updated, Updates env w updated ∧
        out = (false, updated.2.modifyNi fun i => { i with mappingBlocksTopBa := i.mappingBlocksBa })
    | some pb => out = (true, w.modifyNi fun i =>
        { i with
          blockMapping := Function.update i.blockMapping lb (UInt32.ofNat pb)
          mappingBlocksTopBa := i.mappingBlocksTopBa - 1
          blockMappingChanged := i.blockMappingChanged + 1 })

/-- The marks that are set behind a remapping of the block `pb`. -/
def markRemapped (pb : Nat) (mapped : Bool) (i : Instance) : Instance :=
  let i := if mapped then i
    else { i with blockMapping := Function.update i.blockMapping lb 0xffffffff }
  if i.getBlockState pb = blockStNeedRemap then i else i.setBlockState pb blockStBad

/-- A round of `nmbm_erase_logic_block`, from `retry` on. -/
def EraseRound (w : World) (round : Round World (Int × World)) : Prop :=
  match ((eraseTry env lb).run w).1 with
  | some ret => round = .over_ (ret, ((eraseTry env lb).run w).2)
  | none => ∃ mapped updated, MapsBlock env lb ((eraseTry env lb).run w).2 mapped ∧
      Updates env (mapped.2.modifyNi (markRemapped lb (w.ni.blockMapping lb).toNat mapped.1)) updated ∧
      round = if mapped.1 then .on updated.2 else .over_ (-eio, updated.2)

variable {env lb}

/-- The tables and spare blocks are where they were. -/
def TablesKept (i j : Instance) : Prop :=
  j.mainTableBa = i.mainTableBa ∧ j.backupTableBa = i.backupTableBa ∧
    j.mappingBlocksBa = i.mappingBlocksBa ∧ j.mappingBlocksTopBa = i.mappingBlocksTopBa

theorem eraseTry_kept (w : World) : TablesKept w.ni ((eraseTry env lb).run w).2.ni := by
  have onChip {w w' : World} (kept : OnChip w w') : TablesKept w.ni w'.ni := by
    obtain ⟨cache, same⟩ := kept
    rw [same]
    exact ⟨rfl, rfl, rfl, rfl⟩
  have checked := OnChip.reading (checkBadPhysBlock_reading env (w.ni.blockMapping lb).toNat) w
  have wiped := OnChip.trans _ _ _ checked (eraseBlockAndCheck_onChip env (w.ni.blockMapping lb).toNat
    ((checkBadPhysBlock env (w.ni.blockMapping lb).toNat).run w).2)
  rw [eraseTry, ni_bind]
  simp only [Prog.run_bind, Prog.run_ite]
  split_ifs
  · exact ⟨rfl, rfl, rfl, rfl⟩
  · exact ⟨rfl, rfl, rfl, rfl⟩
  · have kept := onChip checked
    exact kept
  · exact onChip wiped
  · have kept := onChip (OnChip.trans _ _ _ wiped
      (markPhysBadBlock_onChip env (w.ni.blockMapping lb).toNat _))
    exact kept

theorem markRemapped_kept (pb : Nat) (mapped : Bool) (i : Instance) :
    TablesKept i (markRemapped lb pb mapped i) := by
  rw [markRemapped]
  split_ifs <;> exact ⟨rfl, rfl, rfl, rfl⟩

/-- A block is mapped by taking one block off the top of the spare ones. -/
theorem MapsBlock.less {w : World} {out : Bool × World} (maps : MapsBlock env lb w out)
    (mapped : out.1 = true) :
    out.2.ni.mappingBlocksTopBa < w.ni.mappingBlocksTopBa := by
  rw [MapsBlock] at maps
  by_cases none : w.ni.mappingBlocksBa = w.ni.mappingBlocksTopBa
  · obtain rfl := (if_pos none).mp maps
    exact absurd mapped Bool.false_ne_true
  · replace maps := (if_neg none).mp maps
    generalize walk : blockWalkDown env.geo (w.note .mapBlock).ni
      (w.note .mapBlock).ni.mappingBlocksTopBa 0 (w.note .mapBlock).ni.mappingBlocksBa = found at maps
    cases found with
    | none =>
      obtain ⟨updated, -, rfl⟩ := maps
      exact absurd mapped Bool.false_ne_true
    | some pb =>
      have some : w.ni.mappingBlocksTopBa ≠ 0 := by
        intro zero
        change blockWalkDown env.geo w.ni w.ni.mappingBlocksTopBa 0 w.ni.mappingBlocksBa = _ at walk
        rw [zero, blockWalkDown, Nat.zero_sub] at walk
        exact absurd walk (by simp [Instance.blockWalkDesc])
      subst maps
      change w.ni.mappingBlocksTopBa - 1 < w.ni.mappingBlocksTopBa
      omega

theorem mapsBlock_total (env : Env) (lb : Nat) (w : World) : ∃ out, MapsBlock env lb w out := by
  simp only [MapsBlock]
  split_ifs
  · exact ⟨_, rfl⟩
  · cases blockWalkDown env.geo (w.note .mapBlock).ni (w.note .mapBlock).ni.mappingBlocksTopBa 0
      (w.note .mapBlock).ni.mappingBlocksBa with
    | none =>
      obtain ⟨updated, updates⟩ := updates_total env (w.note .mapBlock)
      exact ⟨_, updated, updates, rfl⟩
    | some pb => exact ⟨_, rfl⟩

theorem eraseRound_total (env : Env) (lb : Nat) (w : World) : ∃ round, EraseRound env lb w round := by
  simp only [EraseRound]
  cases ((eraseTry env lb).run w).1 with
  | some ret => exact ⟨_, rfl⟩
  | none =>
    obtain ⟨mapped, maps⟩ := mapsBlock_total env lb ((eraseTry env lb).run w).2
    obtain ⟨updated, updates⟩ := updates_total env
      (mapped.2.modifyNi (markRemapped lb (w.ni.blockMapping lb).toNat mapped.1))
    exact ⟨_, mapped, updated, maps, updates, rfl⟩

/-- Each retry has taken a block off the top. -/
theorem EraseRound.less {w w' : World} (retry : EraseRound env lb w (.on w')) :
    w'.ni.mappingBlocksTopBa < w.ni.mappingBlocksTopBa := by
  rw [EraseRound] at retry
  cases tried : ((eraseTry env lb).run w).1 with
  | some ret =>
    rw [tried] at retry
    exact absurd retry (by simp)
  | none =>
    rw [tried] at retry
    obtain ⟨mapped, updated, maps, updates, on⟩ := retry
    split_ifs at on with success
    obtain rfl := Round.on.inj on
    have taken := maps.less success
    have erased : TablesKept w.ni ((eraseTry env lb).run w).2.ni := eraseTry_kept w
    have marked : TablesKept mapped.2.ni
        (markRemapped lb (w.ni.blockMapping lb).toNat mapped.1 mapped.2.ni) := markRemapped_kept _ _ _
    obtain ⟨-, -, -, top⟩ := erased
    obtain ⟨-, -, -, top'⟩ := marked
    obtain ⟨hi, ends⟩ := Instance.EndsAt.exists
      (mapped.2.modifyNi (markRemapped lb (w.ni.blockMapping lb).toNat mapped.1)).ni
    have kept := (updates.sound env (Sound.start ends)).top_eq
    rw [kept, World.modifyNi, top', ← top]
    exact taken

end Erase

/-- The update of the tables and the erase of a logic block end, whatever state they begin in and
whatever the lower device does. Each retry of the one has spent a good block below any bound of the
tables and the spare blocks; each retry of the other has taken a block off the top of the spare ones. -/
theorem repair_loops_end (env : Env) (w : World) (lb : Nat) :
    (∃ out, Updates env w out) ∧ (∃ out, Ends (EraseRound env lb) w out) ∧
      (∀ hi w', w.ni.EndsAt hi → updateRound env w = .on w' → w'.ni.changed = true →
        w'.ni.goodIn 0 hi < w.ni.goodIn 0 hi) ∧
      ∀ w', EraseRound env lb w (.on w') → w'.ni.mappingBlocksTopBa < w.ni.mappingBlocksTopBa := by
  refine ⟨updates_total env w, ?_, fun hi w' ends retry => (updateRound_less env ends retry).2,
    fun w' retry => retry.less⟩
  exact Ends.of_measure (fun _ => True) (fun w => w.ni.mappingBlocksTopBa)
    (fun w _ => eraseRound_total env lb w) (fun w w' _ retry => ⟨trivial, retry.less⟩) w trivial

end Filogic.Nmbm
