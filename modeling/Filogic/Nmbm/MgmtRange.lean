import Filogic.Nmbm.Writing

/-! Writes into the management area: an info table takes the good blocks of a range in order,
and a block that fails is bad from then on. -/

namespace Filogic.Nmbm
open Lib

variable (env : Env)

theorem Instance.good_setBad (i : Instance) (ba : Nat) :
    (i.setBlockState ba blockStBad).good ba = false := by
  rw [Instance.good, i.getBlockState_set_same]
  decide

theorem OnChip.good_eq {w w' : World} (kept : OnChip w w') (ba : Nat) :
    w'.ni.good ba = w.ni.good ba := by
  obtain ⟨cache, same⟩ := kept
  rw [same]
  rfl

section Block

variable (data : Bytes) (ba ptr chunksize : Nat)

/-- The bytes of a chunk are at the start of the block. -/
def Holds (geo : Geometry) (w : World) : Prop :=
  ∀ k < chunksize, w.chip.main (geo.ba2addr ba + k) = data (ptr + k)

theorem writeMgmtBlock_keeps {lo hi : Nat} (low : lo ≤ ba) (high : ba < hi)
    (fits : chunksize ≤ env.geo.erasesize) :
    KeepsTo env.geo lo hi (writeMgmtBlock env data ba ptr chunksize) := by
  apply KeepsTo.bind KeepsTo.ni
  intro i
  apply KeepsTo.ite _ _ (KeepsTo.pure _)
  apply KeepsTo.bind (KeepsTo.of_reading (checkBadPhysBlock_reading env ba))
  intro bad
  apply KeepsTo.ite _ (KeepsTo.bind (KeepsTo.setBad ba low high) fun _ => KeepsTo.pure _)
  apply KeepsTo.bind (eraseBlockAndCheck_keeps env ba low high)
  intro erased
  have room := env.geo.ba2addr_succ ba
  have verified : KeepsTo env.geo lo hi (writeVerifyData env (env.geo.ba2addr ba) data ptr chunksize) :=
    writeVerifyFrom_keeps env data _ _ ptr chunksize ba (Nat.le_refl _) (by omega) low high
  have rest : ∀ written : Bool, KeepsTo env.geo lo hi
      (if written then Pure.pure true else retireBlock env ba >>= fun _ => Pure.pure false) :=
    fun written => KeepsTo.ite _ (KeepsTo.pure _)
      (KeepsTo.bind (retireBlock_keeps env ba low high) fun _ => KeepsTo.pure _)
  exact KeepsTo.ite _ (KeepsTo.bind verified rest) (KeepsTo.bind (KeepsTo.pure _) rest)

theorem writeMgmtBlock_done (w : World)
    (done : ((writeMgmtBlock env data ba ptr chunksize).run w).1 = true) :
    ((writeMgmtBlock env data ba ptr chunksize).run w).2.ni.good ba = true ∧
      Holds data ba ptr chunksize env.geo ((writeMgmtBlock env data ba ptr chunksize).run w).2 := by
  simp only [writeMgmtBlock, Prog.run_bind, Prog.run_ite] at done ⊢
  split_ifs at done ⊢ with good bad erased written none
  · exact absurd done Bool.false_ne_true
  · have checked := OnChip.reading (checkBadPhysBlock_reading env ba) w
    have wiped := eraseBlockAndCheck_onChip env ba ((checkBadPhysBlock env ba).run w).2
    have filled := writeVerifyFrom_onChip env data chunksize (env.geo.ba2addr ba) ptr chunksize
      ((eraseBlockAndCheck env ba).run ((checkBadPhysBlock env ba).run w).2).2
    refine ⟨((filled.good_eq ba).trans (wiped.good_eq ba)).trans ((checked.good_eq ba).trans good), ?_⟩
    exact fun k inside =>
      writeVerifyFrom_content env data _ _ ptr chunksize _ (Nat.le_refl _) written k inside
  · exact absurd done Bool.false_ne_true
  · exact absurd none Bool.false_ne_true
  · exact absurd done Bool.false_ne_true
  · exact absurd done Bool.false_ne_true

theorem writeMgmtBlock_failed (w : World)
    (failed : ((writeMgmtBlock env data ba ptr chunksize).run w).1 = false) :
    ((writeMgmtBlock env data ba ptr chunksize).run w).2.ni.good ba = false := by
  simp only [writeMgmtBlock, Prog.run_bind, Prog.run_ite] at failed ⊢
  split_ifs at failed ⊢ with good bad erased written none
  · exact Instance.good_setBad _ ba
  · exact absurd failed.symm Bool.false_ne_true
  · exact Instance.good_setBad _ ba
  · exact absurd none Bool.false_ne_true
  · exact Instance.good_setBad _ ba
  · exact Bool.eq_false_iff.mpr good

end Block

namespace Geometry

variable (geo : Geometry)

theorem size2blk_zero : geo.size2blk 0 = 0 :=
  Nat.div_eq_of_lt (by have := geo.erasesize_pos; omega)

/-- One block less is needed for what remains behind a chunk. -/
theorem size2blk_chunk (remain : Nat) (some : 0 < remain) :
    geo.size2blk remain = geo.size2blk (remain - min remain geo.erasesize) + 1 := by
  have pos := geo.erasesize_pos
  unfold size2blk
  by_cases last : remain ≤ geo.erasesize
  · have none : (geo.erasesize - 1) / geo.erasesize = 0 := Nat.div_eq_of_lt (by omega)
    have one : (remain + geo.erasesize - 1) / geo.erasesize = 1 := by
      rw [Nat.div_eq_iff pos]
      omega
    rw [Nat.min_eq_left last, Nat.sub_self, Nat.zero_add, none, one]
  · rw [Nat.min_eq_right (by omega), ← Nat.add_div_right _ pos]
    congr 1
    omega

theorem size2blk_pos (size : Nat) (some : 0 < size) : 0 < geo.size2blk size := by
  rw [geo.size2blk_chunk size some]
  omega

end Geometry

/-- The data from offset `ptr` on lies in the good blocks from `ba` to before `e`; where no block
was skipped, it lies there in one piece. -/
structure Placed (geo : Geometry) (data : Bytes) (size ptr ba e : Nat) (w : World) : Prop where
  low : ba ≤ e
  count : w.ni.goodIn ba e = geo.size2blk (size - ptr)
  content : e = ba + geo.size2blk (size - ptr) → ∀ k, ptr ≤ k → k < size →
    w.chip.main (geo.ba2addr ba + (k - ptr)) = data k

namespace Placed

variable {env : Env} {data : Bytes} {size ptr ba e : Nat}

theorem empty (geo : Geometry) (w : World) (done : size ≤ ptr) :
    Placed geo data size ptr ba ba w where
  low := Nat.le_refl _
  count := by
    rw [Instance.goodIn_empty (Nat.le_refl _), Nat.sub_eq_zero_of_le done, geo.size2blk_zero]
  content _ k low high := by omega

/-- A chunk in block `ba`, and the rest behind it. -/
theorem cons {w w' : World} (some : ptr < size) {hi : Nat} {who : Issuer}
    (good : w.ni.good ba = true) (holds : Holds data ba ptr (min (size - ptr) env.geo.erasesize) env.geo w)
    (within : Within env.geo who (ba + 1) hi w w')
    (rest : Placed env.geo data size (ptr + min (size - ptr) env.geo.erasesize) (ba + 1) e w') :
    Placed env.geo data size ptr ba e w' := by
  obtain ⟨low, count, content⟩ := rest
  have blocks := env.geo.size2blk_chunk (size - ptr) (by omega)
  rw [← Nat.sub_add_eq] at blocks
  refine ⟨by omega, ?_, fun full k above below => ?_⟩
  · rw [Instance.goodIn_cons (by omega), count, within.good_eq ba (Or.inl (by omega)), if_pos good,
      blocks, Nat.add_comm]
  · by_cases here : k < ptr + min (size - ptr) env.geo.erasesize
    · have place := env.geo.ba2addr_succ ba
      rw [(within.chip_eq ba (Or.inl (by omega))).main_eq _ (Nat.le_add_right _ _) (by omega),
        holds (k - ptr) (by omega), Nat.add_sub_cancel' above]
    · have later := content (by omega) k (by omega) below
      have place := env.geo.ba2addr_succ ba
      rw [← later]
      congr 1
      omega

/-- A block that was skipped, and the rest behind it. -/
theorem skip {w : World} {geo : Geometry} (bad : w.ni.good ba = false)
    (rest : Placed geo data size ptr (ba + 1) e w) : Placed geo data size ptr ba e w := by
  obtain ⟨low, count, content⟩ := rest
  have most : w.ni.goodIn (ba + 1) e ≤ e - (ba + 1) := Instance.goodIn_le
  refine ⟨by omega, ?_, fun full => ?_⟩
  · rw [Instance.goodIn_cons (by omega), count, bad, if_neg Bool.false_ne_true, Nat.zero_add]
  · omega

end Placed

section Range

variable (data : Bytes) (size : Nat)

theorem writeMgmtFrom_keeps (left ba ptr start : Nat) {lo hi : Nat} (low : lo ≤ ba)
    (high : ba + left ≤ hi) :
    KeepsTo env.geo lo hi (writeMgmtFrom env data size left ba ptr start) := by
  induction left generalizing ba ptr start with
  | zero => exact KeepsTo.pure _
  | succ left ih =>
    apply KeepsTo.ite _ (KeepsTo.pure _)
    apply KeepsTo.bind (writeMgmtBlock_keeps env data ba ptr _ low (by omega) (Nat.min_le_right _ _))
    intro done
    exact KeepsTo.ite _ (ih _ _ _ (by omega) (by omega)) (ih _ _ _ (by omega) (by omega))

/-- From its second block on, a table goes on in the next good blocks. -/
theorem writeMgmtFrom_placed (left ba ptr start : Nat) (w : World) (table : Nat × Nat)
    (found : ((writeMgmtFrom env data size left ba ptr start).run w).1 = some table) :
    (ptr ≠ 0 → table.1 = start) ∧ table.2 ≤ ba + left ∧
      Placed env.geo data size ptr ba table.2
        ((writeMgmtFrom env data size left ba ptr start).run w).2 := by
  induction left generalizing ba ptr start w with
  | zero =>
    simp only [writeMgmtFrom, Prog.run_pure] at found ⊢
    split_ifs at found with done
    cases found
    exact ⟨fun _ => rfl, Nat.le_refl _, Placed.empty env.geo w done⟩
  | succ left ih =>
    rw [writeMgmtFrom] at found ⊢
    by_cases done : size ≤ ptr
    · rw [if_pos done] at found ⊢
      cases found
      exact ⟨fun _ => rfl, Nat.le_add_right _ _, Placed.empty env.geo w done⟩
    · rw [if_neg done] at found ⊢
      simp only [Prog.run_bind] at found ⊢
      have kept := fun ptr start => writeMgmtFrom_keeps env data size left (ba + 1) ptr start
        (Nat.le_refl _) (Nat.le_refl _)
      by_cases written :
          ((writeMgmtBlock env data ba ptr (min (size - ptr) env.geo.erasesize)).run w).1 = true
      · rw [if_pos written] at found ⊢
        obtain ⟨first, last, placed⟩ := ih _ _ _ _ found
        obtain ⟨good, holds⟩ := writeMgmtBlock_done env data ba ptr _ w written
        have pos := env.geo.erasesize_pos
        refine ⟨fun later => (first (by omega)).trans (if_neg later), by omega, ?_⟩
        exact Placed.cons (by omega) good holds (kept _ _ _) placed
      · rw [if_neg written] at found ⊢
        obtain ⟨first, last, placed⟩ := ih _ _ _ _ found
        have bad := writeMgmtBlock_failed env data ba ptr _ w (Bool.eq_false_iff.mpr written)
        refine ⟨first, by omega, Placed.skip ?_ placed⟩
        rw [(kept ptr start _).good_eq ba (Or.inl (by omega))]
        exact bad

/-- The whole table, from its first block on. -/
theorem writeMgmtFrom_start (left ba start : Nat) (w : World) (table : Nat × Nat)
    (more : 0 < size)
    (found : ((writeMgmtFrom env data size left ba 0 start).run w).1 = some table) :
    ba ≤ table.1 ∧
      Placed env.geo data size 0 table.1 table.2
        ((writeMgmtFrom env data size left ba 0 start).run w).2 := by
  induction left generalizing ba w with
  | zero =>
    simp only [writeMgmtFrom, Prog.run_pure] at found
    split_ifs at found with done
    omega
  | succ left ih =>
    have whole := writeMgmtFrom_placed env data size (left + 1) ba 0 start w table found
    simp only [writeMgmtFrom, if_neg (by omega : ¬size ≤ 0), Prog.run_bind] at found whole ⊢
    split_ifs at found whole ⊢ with written
    · have first := (writeMgmtFrom_placed env data size left (ba + 1) _ _ _ table found).1
        (by have := env.geo.erasesize_pos; omega)
      rw [first]
      exact ⟨Nat.le_refl _, whole.2.2⟩
    · obtain ⟨low, placed⟩ := ih (ba + 1) _ found
      exact ⟨by omega, placed⟩

end Range

section Tables

/-- The number of blocks that an info table takes. -/
def Geometry.tableBlocks (geo : Geometry) : Nat := geo.size2blk geo.infoTableSize

theorem align_pos (v a : Nat) (some : 0 < v) (pos : 0 < a) : 0 < align v a := by
  unfold align
  exact Nat.mul_pos (Nat.div_pos (by omega) pos) pos

theorem Geometry.infoTableSize_pos (geo : Geometry) : 0 < geo.infoTableSize := by
  have header := align_pos 32 geo.writesize (by decide) geo.writesize_pos
  change 0 < align 32 geo.writesize + align geo.stateTableSize geo.writesize +
    align geo.mappingTableSize geo.writesize
  omega

theorem Geometry.tableBlocks_pos (geo : Geometry) : 0 < geo.tableBlocks :=
  geo.size2blk_pos _ geo.infoTableSize_pos

/-- A routine run for the info table writers keeps to its range, too. -/
theorem asTableWriter_within {α : Type} {routine : Routine α} {lo hi : Nat}
    (keeps : KeepsTo env.geo lo hi routine) (w : World) :
    Within env.geo .tables lo hi w ((asTableWriter routine).run w).2 := by
  obtain ⟨ni, state, le, unchanged, chip, -, generated, trace⟩ := keeps { w with issuer := .tables }
  refine ⟨ni, state, le, unchanged, chip, rfl, generated, ?_⟩
  obtain ⟨events, grown, each⟩ := trace
  exact ⟨events, grown, fun event member =>
    ⟨(each event member).call, (each event member).issuer_eq, (each event member).mapping_eq,
      (each event member).count_eq, (each event member).chip_eq⟩⟩

theorem eraseRange_within (ba limit : Nat) (w : World) :
    Within env.geo .tables ba limit w ((eraseRange env ba limit).run w).2 := by
  apply asTableWriter_within
  by_cases some : ba ≤ limit
  · exact eraseRangeFrom_keeps env ba _ (Nat.le_refl _) (by omega)
  · rw [Nat.sub_eq_zero_of_le (by omega)]
    exact KeepsTo.pure _

theorem ni_bind {β : Type} (f : Instance → Routine β) (w : World) :
    (ni >>= f).run w = (f w.ni).run w := rfl

theorem writeInfoTable_run (ba limit : Nat) (w : World) :
    (writeInfoTable env ba limit).run w =
      (asTableWriter (writeMgmtRange env ba limit w.ni.infoTableCache env.geo.infoTableSize)).run
        w := by
  unfold writeInfoTable
  rw [ni_bind]

theorem writeInfoTable_within (ba limit : Nat) (w : World) :
    Within env.geo .tables ba limit w ((writeInfoTable env ba limit).run w).2 := by
  have keeps : KeepsTo env.geo ba limit
      (writeMgmtRange env ba limit w.ni.infoTableCache env.geo.infoTableSize) := by
    by_cases some : ba ≤ limit
    · exact writeMgmtFrom_keeps env _ _ _ ba 0 ba (Nat.le_refl _) (by omega)
    · unfold writeMgmtRange
      rw [Nat.sub_eq_zero_of_le (by omega)]
      exact KeepsTo.pure _
  rw [writeInfoTable_run]
  exact asTableWriter_within env keeps w

/-- A table that could be written lies in the range, with the image in its good blocks. -/
theorem writeInfoTable_placed (ba limit : Nat) (w : World) (table : Nat × Nat)
    (found : ((writeInfoTable env ba limit).run w).1 = some table) :
    ba ≤ table.1 ∧ table.2 ≤ limit ∧ Placed env.geo w.ni.infoTableCache env.geo.infoTableSize 0
      table.1 table.2 ((writeInfoTable env ba limit).run w).2 := by
  have more := env.geo.infoTableSize_pos
  rw [writeInfoTable_run] at found ⊢
  have start := writeMgmtFrom_start env w.ni.infoTableCache env.geo.infoTableSize (limit - ba) ba ba
    { w with issuer := .tables } table more found
  obtain ⟨-, last, placed⟩ := writeMgmtFrom_placed env w.ni.infoTableCache env.geo.infoTableSize
    (limit - ba) ba 0 ba { w with issuer := .tables } table found
  have used : 0 < env.geo.tableBlocks := env.geo.tableBlocks_pos
  have inside : ba < table.2 := by
    by_contra none
    have count := placed.count
    rw [Instance.goodIn_empty (by omega), Nat.sub_zero] at count
    exact absurd count (by unfold Geometry.tableBlocks at used; omega)
  obtain ⟨low, whole⟩ := start
  exact ⟨low, by omega, whole.low, whole.count, whole.content⟩

end Tables

end Filogic.Nmbm
