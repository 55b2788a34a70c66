import Filogic.Nmbm.MgmtRange

/-! What writing and erasing the blocks of the management area costs: a block that fails is retired, and
only then there is a change that the tables on flash do not have. -/

namespace Filogic.Nmbm
open Lib

theorem Instance.goodIn_onChip {w w' : World} (kept : OnChip w w') (lo hi : Nat) :
    w'.ni.goodIn lo hi = w.ni.goodIn lo hi :=
  Instance.goodIn_congr fun ba _ _ => kept.good_eq ba

/-- A good block that turns out to be bad. -/
theorem Instance.goodIn_setBad (i : Instance) {ba hi : Nat} (good : i.good ba = true) (below : ba < hi) :
    (i.setBlockState ba blockStBad).goodIn 0 hi < i.goodIn 0 hi := by
  have same (a b : Nat) (apart : b ≤ ba ∨ ba < a) :
      (i.setBlockState ba blockStBad).goodIn a b = i.goodIn a b := by
    apply goodIn_congr
    intro other low high
    rw [Instance.good, Instance.good, i.getBlockState_set_other ba _ other (by omega)]
  rw [goodIn_split (Nat.zero_le ba) below.le, goodIn_cons below, i.good_setBad,
    if_neg Bool.false_ne_true, goodIn_split (Nat.zero_le ba) below.le, goodIn_cons below, good,
    if_pos rfl, same 0 ba (Or.inl (Nat.le_refl _)), same (ba + 1) hi (Or.inr (Nat.lt_succ_self _))]
  omega

/-- No good block is new below `hi`, and whoever changes the tables has spent one. -/
structure Retires (hi : Nat) (w w' : World) : Prop where
  good_le : w'.ni.goodIn 0 hi ≤ w.ni.goodIn 0 hi
  spent : (w'.ni.blockStateChanged = w.ni.blockStateChanged ∧
      w'.ni.blockMappingChanged = w.ni.blockMappingChanged) ∨
    w'.ni.goodIn 0 hi < w.ni.goodIn 0 hi

namespace Retires

variable {hi : Nat} {α β : Type}

theorem onChip {w w' : World} (kept : OnChip w w') : Retires hi w w' := by
  have goods := Instance.goodIn_onChip kept 0 hi
  obtain ⟨cache, same⟩ := kept
  exact ⟨goods.le, Or.inl (by rw [same]; exact ⟨rfl, rfl⟩)⟩

theorem refl (w : World) : Retires hi w w := onChip (OnChip.refl w)

theorem trans (a b c : World) (one : Retires hi a b) (two : Retires hi b c) : Retires hi a c := by
  obtain ⟨less, spent⟩ := one
  obtain ⟨less', spent'⟩ := two
  refine ⟨less'.trans less, ?_⟩
  obtain ⟨state, mapping⟩ | fewer := spent
  · obtain ⟨state', mapping'⟩ | fewer' := spent'
    · exact Or.inl ⟨state'.trans state, mapping'.trans mapping⟩
    · exact Or.inr (fewer'.trans_le less)
  · exact Or.inr (less'.trans_lt fewer)

theorem pure (a : α) : Moves (Retires hi) (Pure.pure a : Routine α) := Moves.pure refl a

theorem bind {x : Routine α} {f : α → Routine β} (first : Moves (Retires hi) x)
    (rest : ∀ a, Moves (Retires hi) (f a)) : Moves (Retires hi) (x >>= f) :=
  Moves.bind trans first rest

/-- A block that was good is set bad after routines on the chip alone. -/
theorem setBad {w w' : World} (kept : OnChip w w') {ba : Nat} (good : w.ni.good ba = true)
    (below : ba < hi) : Retires hi w ((setState ba blockStBad).run w').2 := by
  have fewer := w'.ni.goodIn_setBad ((kept.good_eq ba).trans good) below
  rw [Instance.goodIn_onChip kept] at fewer
  exact ⟨fewer.le, Or.inr fewer⟩

end Retires

variable (env : Env)

section OnChip

theorem lowerMarkBadBlock_onChip (addr : Nat) : Moves OnChip (lowerMarkBadBlock env addr) := by
  intro w
  refine ⟨w.ni.pageCache, ?_⟩
  simp only [lowerMarkBadBlock, Prog.run_bind]
  split_ifs <;> rfl

theorem writeZeroPages_onChip (addr pages : Nat) : Moves OnChip (writeZeroPages env addr pages) := by
  induction pages generalizing addr with
  | zero => exact OnChip.pure _
  | succ pages ih =>
    apply OnChip.bind OnChip.ni
    intro i
    exact OnChip.bind (writePhysPage_onChip env _ _ _) fun _ => ih _

theorem markPhysBadBlock_onChip (ba : Nat) : Moves OnChip (markPhysBadBlock env ba) := by
  apply OnChip.bind OnChip.ni
  intro i
  apply Moves.ite _ (fun _ => OnChip.pure _)
  intro writable
  apply Moves.ite
  · exact fun _ => OnChip.bind (lowerMarkBadBlock_onChip env _) fun _ => OnChip.pure _
  · exact fun _ => OnChip.bind (OnChip.setCache _) fun _ => writeZeroPages_onChip env _ _

end OnChip

section Blocks

variable {hi : Nat}

/-- A good block is retired. -/
theorem retireBlock_retires {w w' : World} (kept : OnChip w w') {ba : Nat} (good : w.ni.good ba = true)
    (below : ba < hi) : Retires hi w ((retireBlock env ba).run w').2 :=
  Retires.setBad (OnChip.trans _ _ _ kept (markPhysBadBlock_onChip env ba w')) good below

theorem writeMgmtBlock_retires (data : Bytes) (ba ptr chunksize : Nat) (below : ba < hi) :
    Moves (Retires hi) (writeMgmtBlock env data ba ptr chunksize) := by
  intro w
  have checked := OnChip.reading (checkBadPhysBlock_reading env ba) w
  have wiped := OnChip.trans _ _ _ checked
    (eraseBlockAndCheck_onChip env ba ((checkBadPhysBlock env ba).run w).2)
  have filled := OnChip.trans _ _ _ wiped
    (writeVerifyFrom_onChip env data chunksize (env.geo.ba2addr ba) ptr chunksize
      ((eraseBlockAndCheck env ba).run ((checkBadPhysBlock env ba).run w).2).2)
  simp only [writeMgmtBlock, Prog.run_bind, Prog.run_ite]
  split_ifs with good bad erased written none
  · exact Retires.setBad checked good below
  · exact Retires.onChip filled
  · exact retireBlock_retires env filled good below
  · exact absurd none Bool.false_ne_true
  · exact retireBlock_retires env wiped good below
  · exact Retires.refl w

theorem writeMgmtFrom_retires (data : Bytes) (size left ba ptr start : Nat) (below : ba + left ≤ hi) :
    Moves (Retires hi) (writeMgmtFrom env data size left ba ptr start) := by
  induction left generalizing ba ptr start with
  | zero => exact Retires.pure _
  | succ left ih =>
    apply Moves.ite _ (fun _ => Retires.pure _)
    intro more
    apply Retires.bind (writeMgmtBlock_retires env data ba ptr _ (by omega))
    intro done
    exact Moves.ite _ (fun _ => ih _ _ _ (by omega)) fun _ => ih _ _ _ (by omega)

theorem eraseRangeBlock_retires (ba : Nat) (below : ba < hi) :
    Moves (Retires hi) (eraseRangeBlock env ba) := by
  intro w
  have checked := OnChip.reading (checkBadPhysBlock_reading env ba) w
  have wiped := OnChip.trans _ _ _ checked
    (eraseBlockAndCheck_onChip env ba ((checkBadPhysBlock env ba).run w).2)
  simp only [eraseRangeBlock, Prog.run_bind, Prog.run_ite]
  split_ifs with good bad erased
  · exact Retires.setBad checked good below
  · exact Retires.onChip wiped
  · exact retireBlock_retires env wiped good below
  · exact Retires.refl w

theorem eraseRangeFrom_retires (left ba : Nat) (below : ba + left ≤ hi) :
    Moves (Retires hi) (eraseRangeFrom env left ba) := by
  induction left generalizing ba with
  | zero => exact Retires.pure _
  | succ left ih =>
    exact Retires.bind (eraseRangeBlock_retires env ba (by omega)) fun _ => ih (ba + 1) (by omega)

theorem asTableWriter_retires {α : Type} {routine : Routine α} (retires : Moves (Retires hi) routine) :
    Moves (Retires hi) (asTableWriter routine) := by
  intro w
  obtain ⟨less, spent⟩ := retires { w with issuer := .tables }
  exact ⟨less, spent⟩

theorem eraseRange_retires (ba limit : Nat) (below : limit ≤ hi) :
    Moves (Retires hi) (eraseRange env ba limit) := by
  apply asTableWriter_retires
  by_cases some : ba ≤ limit
  · exact eraseRangeFrom_retires env _ ba (by omega)
  · rw [Nat.sub_eq_zero_of_le (by omega)]
    exact Retires.pure _

theorem writeInfoTable_retires (ba limit : Nat) (below : limit ≤ hi) :
    Moves (Retires hi) (writeInfoTable env ba limit) := by
  apply Retires.bind (Moves.gets Retires.refl _)
  intro i
  apply asTableWriter_retires
  rw [writeMgmtRange]
  by_cases some : ba ≤ limit
  · exact writeMgmtFrom_retires env _ _ _ ba 0 ba (by omega)
  · rw [Nat.sub_eq_zero_of_le (by omega)]
    exact Retires.pure _

end Blocks

end Filogic.Nmbm
