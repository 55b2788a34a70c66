import Filogic.Nmbm.Marks
import Filogic.Nmbm.Repair
import Filogic.Nmbm.Sealed

/-! A signature goes on flash: the topmost block that takes it holds it, and the blocks above are reported
bad from then on. -/

namespace Filogic.Nmbm
open Lib

variable (env : Env)

section Repeated

variable (data : Bytes) (size : Nat)

theorem writeRepeatedPages_onChip (pages addr : Nat) :
    Moves OnChip (writeRepeatedPages env data size pages addr) := by
  induction pages generalizing addr with
  | zero => exact OnChip.pure _
  | succ pages ih =>
    apply OnChip.bind (OnChip.setCache _)
    intro set
    apply OnChip.bind (writeCachedPage_onChip env _)
    intro success
    apply OnChip.bind OnChip.ni
    intro i
    exact Moves.ite _ (fun _ => ih _) fun _ => OnChip.pure _

theorem writeRepeatedPages_keeps (ba pages first : Nat) {lo hi : Nat}
    (bound : first + pages ≤ env.geo.pagesPerBlock) (low : lo ≤ ba) (high : ba < hi) :
    KeepsTo env.geo lo hi
      (writeRepeatedPages env data size pages (env.geo.ba2addr ba + first * env.geo.writesize)) := by
  induction pages generalizing first with
  | zero => exact KeepsTo.pure _
  | succ pages ih =>
    have here := env.geo.addr2ba_page ba first (by omega)
    apply KeepsTo.bind (KeepsTo.setCache _)
    intro set
    apply KeepsTo.bind (writeCachedPage_keeps env _ (by rw [here]; exact low) (by rw [here]; exact high))
    intro success
    apply KeepsTo.bind KeepsTo.ni
    intro i
    apply KeepsTo.ite _ _ (KeepsTo.pure _)
    rw [Nat.add_assoc, ← Nat.succ_mul]
    exact ih (first + 1) (by omega)

/-- The main area below the first page stays. -/
theorem writeRepeatedPages_below (pages addr : Nat) (w : World) (k : Nat)
    (below : k < env.geo.pageStart addr) :
    ((writeRepeatedPages env data size pages addr).run w).2.chip.main k = w.chip.main k := by
  induction pages generalizing addr w with
  | zero => rfl
  | succ pages ih =>
    have later : env.geo.pageStart addr ≤ env.geo.pageStart (addr + env.geo.writesize) :=
      Nat.mul_le_mul_right _ (Nat.div_le_div_right (Nat.le_add_right _ _))
    simp only [writeRepeatedPages, Prog.run_bind]
    split_ifs
    · rw [ih _ _ (below.trans_le later)]
      exact writeCachedPage_offPage env addr _ k (Or.inl below)
    · exact writeCachedPage_offPage env addr _ k (Or.inl below)

/-- What was written to all pages and read back is in the first one. -/
theorem writeRepeatedPages_content (pages addr : Nat) (w : World) (aligned : env.geo.pageStart addr = addr)
    (fits : size ≤ env.geo.writesize)
    (success : ((writeRepeatedPages env data size (pages + 1) addr).run w).1 = true) (k : Nat)
    (inside : k < size) :
    ((writeRepeatedPages env data size (pages + 1) addr).run w).2.chip.main (addr + k) = data k := by
  have next := env.geo.pageStart_next addr
  rw [aligned] at next
  simp only [writeRepeatedPages, Prog.run_bind] at success ⊢
  split_ifs at success ⊢ with verified
  · rw [Bool.and_eq_true, decide_eq_true_eq] at verified
    have onFlash := writeCachedPage_content env addr _ verified.1 k (by omega)
    have byte := congrArg (fun bytes => bytes.getD k 0) verified.2
    simp only [Bytes.slice_getD _ _ _ _ inside, Nat.zero_add] at byte
    rw [aligned] at onFlash
    rw [writeRepeatedPages_below env data size pages _ _ _ (by omega)]
    exact onFlash.symm.trans byte
  · exact absurd success Bool.false_ne_true

end Repeated

section Signing

variable (signature : Bytes)

theorem writeRepeatedData_keeps (ba : Nat) {lo hi : Nat} (low : lo ≤ ba) (high : ba < hi) :
    KeepsTo env.geo lo hi (writeRepeatedData env ba signature signatureSize) := by
  rw [writeRepeatedData]
  apply KeepsTo.ite _ (KeepsTo.pure _)
  have pages := writeRepeatedPages_keeps env signature signatureSize ba env.geo.pagesPerBlock 0 (by omega)
    low high
  rw [Nat.zero_mul, Nat.add_zero] at pages
  exact pages

theorem writeRepeatedData_onChip (ba : Nat) :
    Moves OnChip (writeRepeatedData env ba signature signatureSize) := by
  rw [writeRepeatedData]
  exact Moves.ite _ (fun _ => OnChip.pure _) fun _ => writeRepeatedPages_onChip env _ _ _ _

variable {env} {lower : Options}

theorem writeRepeatedPages_marks (sticks : MarksStick env lower) (data : Bytes) (size pages addr : Nat) :
    Moves (MarksKept lower) (writeRepeatedPages env data size pages addr) := by
  induction pages generalizing addr with
  | zero => exact MarksKept.pure _
  | succ pages ih =>
    apply MarksKept.bind (MarksKept.reading (Reading.setCache _))
    intro set
    apply MarksKept.bind (writeCachedPage_marks sticks _)
    intro success
    apply MarksKept.bind (MarksKept.reading Reading.ni)
    intro i
    exact Moves.ite _ (fun _ => ih _) fun _ => MarksKept.pure _

/-- A block that holds the signature, and is not reported bad. -/
structure Signed (env : Env) (lower : Options) (signature : Bytes) (ba : Nat) (chip : Chip) : Prop where
  content : ∀ k < signatureSize, chip.main (env.geo.ba2addr ba + k) = signature k
  fits : signatureSize ≤ env.geo.writesize
  unreported : chip.reportsBad env.geo lower ba = false

theorem Geometry.pageStart_block (geo : Geometry) (ba : Nat) :
    geo.pageStart (geo.ba2addr ba) = geo.ba2addr ba := by
  rw [ba2addr, geo.erasesize_eq, ← Nat.mul_assoc, pageStart, pageOf, Nat.mul_div_cancel _ geo.writesize_pos]

theorem Geometry.pagesPerBlock_pos (geo : Geometry) : 0 < geo.pagesPerBlock :=
  Nat.div_pos (Nat.pow_le_pow_right (by decide) geo.page_le) geo.writesize_pos

theorem writeRepeatedData_signs (sticks : MarksStick env lower) (ba : Nat) (w : World)
    (unreported : w.chip.reportsBad env.geo lower ba = false)
    (success : ((writeRepeatedData env ba signature signatureSize).run w).1 = true) :
    Signed env lower signature ba
      ((writeRepeatedData env ba signature signatureSize).run w).2.chip := by
  obtain ⟨pages, count⟩ := Nat.exists_eq_succ_of_ne_zero env.geo.pagesPerBlock_pos.ne'
  rw [writeRepeatedData] at success ⊢
  split_ifs at success ⊢ with short
  · exact absurd success Bool.false_ne_true
  · rw [count] at success ⊢
    have fits := Nat.le_of_not_lt short
    obtain ⟨marked, oob⟩ := writeRepeatedPages_marks sticks signature signatureSize pages.succ
      (env.geo.ba2addr ba) w
    refine ⟨writeRepeatedPages_content env signature signatureSize pages _ w (env.geo.pageStart_block ba)
      fits success, fits, ?_⟩
    rw [← unreported, Chip.reportsBad, Chip.reportsBad, marked]
    split_ifs with callback
    · rfl
    · rw [oob (Bool.eq_false_of_not_eq_true callback)]

/-- One block of the loop of `nmbm_write_signature`: it takes the signature, or it is reported bad. -/
def signBlock (env : Env) (signature : Bytes) (ba : Nat) : Routine Bool := do
  let i ← ni
  if i.good ba then do
    let bad ← checkBadPhysBlock env ba
    if bad then do
      setState ba blockStBad
      return false
    else do
      let erased ← eraseBlockAndCheck env ba
      let written ←
        if erased then writeRepeatedData env ba signature signatureSize else pure false
      if written then return true
      else do
        retireBlock env ba
        return false
  else return false

theorem writeSignatureFrom_succ (left ba : Nat) :
    writeSignatureFrom env signature (left + 1) ba = (do
      let done ← signBlock env signature ba
      if done then return some ba else writeSignatureFrom env signature left (ba - 1)) := by
  funext w
  change (writeSignatureFrom env signature (left + 1) ba).run w = Prog.run _ w
  rw [writeSignatureFrom, signBlock]
  simp only [Prog.run_bind, Prog.run_ite, Prog.run_pure, Bool.false_eq_true]
  split_ifs <;> first | rfl | contradiction

theorem signBlock_keeps (ba : Nat) {lo hi : Nat} (low : lo ≤ ba) (high : ba < hi) :
    KeepsTo env.geo lo hi (signBlock env signature ba) := by
  apply KeepsTo.bind KeepsTo.ni
  intro i
  apply KeepsTo.ite _ _ (KeepsTo.pure _)
  apply KeepsTo.bind (KeepsTo.of_reading (checkBadPhysBlock_reading env ba))
  intro bad
  apply KeepsTo.ite _ (KeepsTo.bind (KeepsTo.setBad ba low high) fun _ => KeepsTo.pure _)
  apply KeepsTo.bind (eraseBlockAndCheck_keeps env ba low high)
  intro erased
  have rest : ∀ written : Bool, KeepsTo env.geo lo hi
      (if written then Pure.pure true else retireBlock env ba >>= fun _ => Pure.pure false) :=
    fun written => KeepsTo.ite _ (KeepsTo.pure _)
      (KeepsTo.bind (retireBlock_keeps env ba low high) fun _ => KeepsTo.pure _)
  exact KeepsTo.ite _ (KeepsTo.bind (writeRepeatedData_keeps env signature ba low high) rest)
    (KeepsTo.bind (KeepsTo.pure _) rest)

/-- A block that took the signature holds it; one that did not is not good any more. -/
structure SignOutcome (env : Env) (lower : Options) (signature : Bytes) (ba : Nat) (out : Bool × World) :
    Prop where
  honest : Honest env lower out.2
  signed : out.1 = true → Signed env lower signature ba out.2.chip
  failed : out.1 = false → out.2.ni.good ba = false

theorem SignOutcome.of_bad {ba : Nat} {w : World} (honest : Honest env lower w)
    (bad : w.ni.good ba = false) : SignOutcome env lower signature ba (false, w) where
  honest := honest
  signed yes := absurd yes Bool.false_ne_true
  failed _ := bad

theorem signBlock_outcome (sticks : MarksStick env lower) (spare : 0 < env.geo.oobsize)
    (writable : lower.readOnly = false) (ba : Nat) (w : World) (honest : Honest env lower w) :
    SignOutcome env lower signature ba ((signBlock env signature ba).run w) := by
  rw [signBlock, ni_bind]
  by_cases good : w.ni.good ba = true
  · have value := checkBadPhysBlock_value ba w spare sticks.unflagged
      (by rw [honest.lower_eq]; exact sticks.seen)
    have reads := checkBadPhysBlock_reading env ba w
    have checked : Honest env lower ((checkBadPhysBlock env ba).run w).2 :=
      honest.reading reads.ni_eq reads.chip_eq
    have goodStill := (OnChip.good_eq reads.ni_eq ba).trans good
    rw [honest.lower_eq, ← reads.chip_eq] at value
    rw [if_pos good, Prog.run_bind]
    generalize ((checkBadPhysBlock env ba).run w).1 = bad at value
    generalize ((checkBadPhysBlock env ba).run w).2 = w₁ at value checked goodStill
    have erases := eraseBlockAndCheck_onChip env ba w₁
    have wiped := eraseBlockAndCheck_keeps env ba (Nat.le_refl ba) (Nat.lt_succ_self ba) w₁
    have clean := @eraseBlockAndCheck_marks env lower ba w₁
    have honestErased := checked.worked erases wiped goodStill
    have goodErased := (erases.good_eq ba).trans goodStill
    have writes := writeRepeatedData_onChip env signature ba ((eraseBlockAndCheck env ba).run w₁).2
    have filled := writeRepeatedData_keeps env signature ba (Nat.le_refl ba) (Nat.lt_succ_self ba)
      ((eraseBlockAndCheck env ba).run w₁).2
    have honestWritten := honestErased.worked writes filled goodErased
    have goodWritten := (writes.good_eq ba).trans goodErased
    simp only [Prog.run_bind, Prog.run_ite]
    split_ifs with reported erased written none
    · apply SignOutcome.of_bad
      · apply checked.setBad
        rw [← value, reported]
      · exact Instance.good_setBad _ ba
    · refine ⟨honestWritten, fun _ => ?_, fun no => absurd no.symm Bool.false_ne_true⟩
      apply writeRepeatedData_signs signature sticks ba _ _ written
      refine clean (fun callback => ?_) erased
      rw [Chip.reportsBad, if_pos callback] at value
      rw [← value, Bool.eq_false_of_not_eq_true reported]
    · exact SignOutcome.of_bad signature (honestWritten.retired sticks spare writable goodWritten)
        (Instance.good_setBad _ ba)
    · exact absurd none Bool.false_ne_true
    · exact SignOutcome.of_bad signature (honestErased.retired sticks spare writable goodErased)
        (Instance.good_setBad _ ba)
  · rw [if_neg good]
    exact SignOutcome.of_bad signature honest (Bool.eq_false_of_not_eq_true good)

theorem writeSignatureFrom_keeps (left ba : Nat) {lo hi : Nat} (low : lo + left ≤ ba + 1) (high : ba < hi) :
    KeepsTo env.geo lo hi (writeSignatureFrom env signature left ba) := by
  induction left generalizing ba with
  | zero => exact KeepsTo.pure _
  | succ left ih =>
    rw [writeSignatureFrom_succ]
    apply KeepsTo.bind (signBlock_keeps signature ba (by omega) high)
    intro done
    apply KeepsTo.ite _ (KeepsTo.pure _)
    cases left with
    | zero => exact KeepsTo.pure _
    | succ left => exact ih (ba - 1) (by omega) (by omega)

/-- The signature goes to a block of the range, and the blocks above it are reported bad. -/
theorem writeSignatureFrom_signs (sticks : MarksStick env lower) (spare : 0 < env.geo.oobsize)
    (writable : lower.readOnly = false) (left ba : Nat) (w : World) (honest : Honest env lower w)
    (reach : left ≤ ba) (above : ∀ other, ba < other → other < env.geo.blockCount →
      w.ni.good other = false) (found : Nat)
    (success : ((writeSignatureFrom env signature left ba).run w).1 = some found) :
    found ≤ ba ∧ ba < found + left ∧
      Signed env lower signature found ((writeSignatureFrom env signature left ba).run w).2.chip ∧
      ∀ other, found < other → other < env.geo.blockCount →
        ((writeSignatureFrom env signature left ba).run w).2.chip.reportsBad env.geo lower other = true := by
  induction left generalizing ba w with
  | zero => exact absurd success (by simp [writeSignatureFrom])
  | succ left ih =>
    have outcome := signBlock_outcome signature sticks spare writable ba w honest
    have kept := @signBlock_keeps env signature ba ba (ba + 1) (Nat.le_refl ba) (Nat.lt_succ_self ba) w
    have bad (other : Nat) (high : ba < other) (inside : other < env.geo.blockCount) :
        ((signBlock env signature ba).run w).2.ni.good other = false := by
      rw [kept.good_eq other (Or.inr high)]
      exact above other high inside
    rw [writeSignatureFrom_succ, Prog.run_bind] at success ⊢
    by_cases done : ((signBlock env signature ba).run w).1 = true
    · rw [if_pos done] at success ⊢
      obtain rfl : ba = found := Option.some.inj success
      exact ⟨Nat.le_refl _, by omega, outcome.signed done, fun other high inside =>
        outcome.honest.reported other inside (bad other high inside)⟩
    · rw [if_neg done] at success ⊢
      have failed := outcome.failed (Bool.eq_false_of_not_eq_true done)
      have rest := ih (ba - 1) _ outcome.honest (by omega) (fun other high inside => ?_) success
      · exact ⟨by omega, by omega, rest.2.2⟩
      · by_cases here : other = ba
        · rw [here]
          exact failed
        · exact bad other (by omega) inside

end Signing

section Tables

/-- What writing the first tables leaves alone: the signature, and the blocks from its block on. -/
structure TablesBelow (geo : Geometry) (hi : Nat) (w₀ w : World) : Prop where
  ends : w.ni.EndsAt hi
  signatureBa_eq : w.ni.signatureBa = w₀.ni.signatureBa
  signature_eq : w.ni.signature = w₀.ni.signature
  start_eq : w.ni.mgmtStartBa = w₀.ni.mgmtStartBa
  chip_eq : ∀ ba, hi ≤ ba → w₀.chip.SameBlock geo w.chip ba

namespace TablesBelow

variable {geo : Geometry} {hi : Nat} {w₀ w w' : World} {α : Type}

theorem start (ends : w₀.ni.EndsAt hi) : TablesBelow geo hi w₀ w₀ :=
  ⟨ends, rfl, rfl, rfl, fun _ _ => Chip.SameBlock.refl _⟩

theorem sound {paid : Prop} (below : TablesBelow geo hi w₀ w) (sound : Sound geo hi w paid w') :
    TablesBelow geo hi w₀ w' where
  ends := sound.ends
  signatureBa_eq := sound.signatureBa_eq.trans below.signatureBa_eq
  signature_eq := sound.signature_eq.trans below.signature_eq
  start_eq := sound.start_eq.trans below.start_eq
  chip_eq ba high := (below.chip_eq ba high).trans (sound.chip_eq ba high)

/-- A step on the instance that leaves the signature. -/
theorem setNi (f : Instance → Instance) (ends : ∀ i, i.EndsAt hi → (f i).EndsAt hi)
    (same : ∀ i, (f i).signatureBa = i.signatureBa ∧ (f i).signature = i.signature ∧
      (f i).mgmtStartBa = i.mgmtStartBa) :
    Triple (TablesBelow geo hi w₀) (Nmbm.setNi f) fun _ => TablesBelow geo hi w₀ := by
  intro w below
  obtain ⟨signatureBa, signature, start⟩ := same w.ni
  exact ⟨ends w.ni below.ends, signatureBa.trans below.signatureBa_eq, signature.trans below.signature_eq,
    start.trans below.start_eq, below.chip_eq⟩

theorem read {f : Instance → Routine α} {post : α → World → Prop}
    (rest : ∀ i, i.EndsAt hi → Triple (TablesBelow geo hi w₀) (f i) post) :
    Triple (TablesBelow geo hi w₀) (ni >>= f) post :=
  fun w below => rest w.ni below.ends w below

end TablesBelow

variable {hi : Nat} {w₀ : World}

theorem updateInfoTable_below (inside : hi ≤ env.geo.blockCount) :
    Triple (TablesBelow env.geo hi w₀) (updateInfoTable env) fun _ => TablesBelow env.geo hi w₀ := by
  intro w below
  have ends := below.ends
  have whole : w.ni.EndsAt env.geo.blockCount :=
    ⟨ends.main_le.trans inside, ends.backup_le.trans inside, ends.mapping_le.trans inside,
      ends.top_le.trans inside⟩
  exact below.sound ((updateInfoTable_updates env w whole).sound env (Sound.start ends))

theorem mapBlock_below (inside : hi ≤ env.geo.blockCount) (lb : Nat) :
    Triple (TablesBelow env.geo hi w₀) (mapBlock env lb) fun _ => TablesBelow env.geo hi w₀ := by
  have noted : Triple (TablesBelow env.geo hi w₀) noteMapBlock fun _ => TablesBelow env.geo hi w₀ :=
    fun w below => ⟨below.ends, below.signatureBa_eq, below.signature_eq, below.start_eq, below.chip_eq⟩
  refine Triple.bind noted fun _ => ?_
  apply TablesBelow.read
  intro i ends
  refine Triple.ite _ (fun _ => Triple.pure _ fun _ below => below) fun _ => ?_
  cases blockWalkDown env.geo i i.mappingBlocksTopBa 0 i.mappingBlocksBa with
  | none =>
    refine Triple.bind (updateInfoTable_below env inside) fun _ => ?_
    refine Triple.bind (TablesBelow.setNi _ (fun i ends => ?_) fun _ => ⟨rfl, rfl, rfl⟩) fun _ =>
      Triple.pure _ fun _ below => below
    exact ⟨ends.main_le, ends.backup_le, ends.mapping_le, ends.mapping_le⟩
  | some pb =>
    refine Triple.bind (TablesBelow.setNi _ (fun i ends => ?_) fun _ => ⟨rfl, rfl, rfl⟩) fun _ =>
      Triple.pure _ fun _ below => below
    exact ⟨ends.main_le, ends.backup_le, ends.mapping_le, (Nat.sub_le _ _).trans ends.top_le⟩

theorem remapTail_below (inside : hi ≤ env.geo.blockCount) (left lb : Nat) :
    Triple (TablesBelow env.geo hi w₀) (remapTail env left lb) fun _ => TablesBelow env.geo hi w₀ := by
  induction left generalizing lb with
  | zero => exact Triple.pure _ fun _ below => below
  | succ left ih =>
    refine Triple.bind (mapBlock_below env inside lb) fun success => ?_
    refine Triple.ite _ (fun _ => ?_) fun _ => Triple.pure _ fun _ below => below
    refine Triple.bind (TablesBelow.setNi _ (fun i ends => ?_) fun _ => ⟨rfl, rfl, rfl⟩) fun _ => ih _
    exact ⟨ends.main_le, ends.backup_le, ends.mapping_le, ends.top_le⟩

theorem blockWalkDesc_le {i : Instance} (left ba count found : Nat) (reach : left ≤ ba)
    (walk : i.blockWalkDesc left ba count = some found) : found + count ≤ ba := by
  induction left generalizing ba count with
  | zero => exact absurd walk (by simp [Instance.blockWalkDesc])
  | succ left ih =>
    have below (count : Nat) (walk : i.blockWalkDesc left (ba - 1) count = some found) :
        found + count < ba := by
      have rest := ih (ba - 1) count (by omega) walk
      omega
    cases count with
    | zero =>
      rw [Instance.blockWalkDesc] at walk
      split_ifs at walk with good
      · exact (Option.some.inj walk).ge
      · exact (below 0 walk).le
    | succ count =>
      rw [Instance.blockWalkDesc] at walk
      split_ifs at walk with good
      · exact below count walk
      · exact (below (count + 1) walk).le

/-- The tables of a new chip go below the signature. -/
theorem createInfoTable_below (w : World) (ends : w.ni.EndsAt w.ni.signatureBa)
    (inside : w.ni.signatureBa ≤ env.geo.blockCount) :
    TablesBelow env.geo w.ni.signatureBa w ((createInfoTable env).run w).2 := by
  rw [createInfoTable, ni_bind]
  cases walk : blockWalkDown env.geo w.ni w.ni.signatureBa 1 w.ni.mgmtStartBa with
  | none => exact TablesBelow.start ends
  | some top =>
    have lower := blockWalkDesc_le _ _ _ _ (Nat.sub_le _ _) walk
    have placed : TablesBelow env.geo w.ni.signatureBa w
        (w.modifyNi fun i => { i with mappingBlocksTopBa := top }) :=
      ⟨⟨ends.main_le, ends.backup_le, ends.mapping_le, by
        change top ≤ w.ni.signatureBa
        omega⟩, rfl, rfl, rfl, fun _ _ => Chip.SameBlock.refl _⟩
    have generated : Triple (TablesBelow env.geo w.ni.signatureBa w) (generateInfoTableCache env)
        fun _ => TablesBelow env.geo w.ni.signatureBa w := fun w' below =>
      below.sound (generateInfoTableCache_sound env w' (Sound.start below.ends)).1
    have rebuilt : Triple (TablesBelow env.geo w.ni.signatureBa w) (rebuildInfoTable env)
        fun _ => TablesBelow env.geo w.ni.signatureBa w := fun w' below =>
      below.sound (rebuildInfoTable_sound env w' (Sound.start below.ends))
    have remapped : Triple (TablesBelow env.geo w.ni.signatureBa w)
        (ni >>= fun i => remapTail env (i.mgmtStartBa - i.dataBlockCount) i.dataBlockCount >>= fun _ =>
          updateInfoTable env) fun _ => TablesBelow env.geo w.ni.signatureBa w :=
      TablesBelow.read fun i _ =>
        Triple.bind (remapTail_below env inside _ _) fun _ => updateInfoTable_below env inside
    have whole := Triple.bind generated fun _ => Triple.bind rebuilt fun built =>
      Triple.ite (built = true) (fun _ => remapped) fun _ => Triple.pure false fun _ below => below
    exact whole _ placed

end Tables

section New

theorem initStructure_good (geo : Geometry) (lower : Options) (ba : Nat) (inside : ba < geo.blockCount) :
    (initStructure geo lower).good ba = true := by
  have unit : ba / 16 < geo.stateTableSize / 4 := by
    have size : geo.stateTableSize = (geo.blockCount + 15) / 16 * 4 := rfl
    rw [size, Nat.mul_div_cancel _ (by decide)]
    omega
  have ones : (0xffffffff : UInt32).toBitVec = BitVec.allOnes 32 := by decide
  rw [Instance.good, decide_eq_true_eq, Instance.getBlockState]
  apply uint32_ext
  intro j bound
  change _ = blockStMask.toBitVec.getLsbD j
  rw [getBlockStateRaw_bit, mask_bit]
  change ((if ba / 16 < geo.stateTableSize / 4 then (0xffffffff : UInt32) else 0).toBitVec.getLsbD _ && _) =
    _
  rw [if_pos unit, ones, BitVec.getLsbD_allOnes]
  by_cases low : j < 2
  · rw [decide_eq_true low, Bool.and_true, decide_eq_true_eq]
    omega
  · rw [decide_eq_false low, Bool.and_false]

/-- Only the mapping table and the number of data blocks are new. -/
theorem buildMappingFrom_same (left pb lb : Nat) (i : Instance) :
    ∃ mapping count, buildMappingFrom left pb lb i =
      { i with blockMapping := mapping, dataBlockCount := count } := by
  induction left generalizing pb lb i with
  | zero => exact ⟨i.blockMapping, lb, rfl⟩
  | succ left ih =>
    rw [buildMappingFrom]
    split_ifs
    · exact ih _ _ _
    · obtain ⟨mapping, count, same⟩ := ih (pb + 1) (lb + 1)
        { i with blockMapping := Function.update i.blockMapping lb (UInt32.ofNat pb) }
      exact ⟨mapping, count, same⟩

theorem buildMappingTable_same (geo : Geometry) (i : Instance) :
    ∃ mapping count, buildMappingTable geo i = { i with blockMapping := mapping, dataBlockCount := count } := by
  obtain ⟨mapping, count, same⟩ := buildMappingFrom_same i.mgmtStartBa 0 0 i
  rw [buildMappingTable, same]
  exact ⟨_, count, rfl⟩

/-- The management area of a new chip is settled. -/
def Instance.planned (geo : Geometry) (i : Instance) : Instance :=
  { i with mgmtStartBa := mgmtStart geo i.lower }

/-- The signature of a new chip is settled. -/
def Instance.named (env : Env) (i : Instance) : Instance :=
  { i with signature := sealed env (newSignature env.geo i.mgmtStartBa) }

/-- The world in which a new chip gets its signature. -/
def signingStart (env : Env) (w : World) : World :=
  (((scanBadblocks env).run (w.modifyNi (Instance.planned env.geo))).2.modifyNi
    (buildMappingTable env.geo)).modifyNi (Instance.named env)

theorem createNew_success (w : World) (writable : (signingStart env w).ni.lower.readOnly = false)
    (created : ((createNew env).run w).1 = true) :
    ∃ ba, ((writeSignatureFrom env (wordBytes (signingStart env w).ni.signature.words)
        (env.geo.blockCount - 1 - (signingStart env w).ni.mgmtStartBa) (env.geo.blockCount - 1)).run
          (signingStart env w)).1 = some ba ∧
      ((createNew env).run w).2 = ((createInfoTable env).run
        (((writeSignatureFrom env (wordBytes (signingStart env w).ni.signature.words)
          (env.geo.blockCount - 1 - (signingStart env w).ni.mgmtStartBa) (env.geo.blockCount - 1)).run
            (signingStart env w)).2.modifyNi fun i => { i with signatureBa := ba })).2 := by
  have not_readOnly : ¬ (signingStart env w).ni.lower.readOnly = true := by simp [writable]
  have run (next : Option Nat → Routine Bool) (first : Routine Bool)
      (split : (createNew env).run w = Prog.run (if (signingStart env w).ni.lower.readOnly then first
        else writeSignatureFrom env (wordBytes (signingStart env w).ni.signature.words)
          (env.geo.blockCount - 1 - (signingStart env w).ni.mgmtStartBa) (env.geo.blockCount - 1) >>=
            next) (signingStart env w)) := split.trans (by rw [if_neg not_readOnly, Prog.run_bind])
  rw [run _ _ rfl] at created ⊢
  generalize (writeSignatureFrom env (wordBytes (signingStart env w).ni.signature.words)
    (env.geo.blockCount - 1 - (signingStart env w).ni.mgmtStartBa) (env.geo.blockCount - 1)).run
      (signingStart env w) = out at created ⊢
  cases found : out.1 with
  | none =>
    rw [found] at created
    exact absurd created Bool.false_ne_true
  | some ba => exact ⟨ba, rfl, rfl⟩

/-- An instance that was cleared and set up for a chip, which has read pages since. -/
def Fresh (geo : Geometry) (lower : Options) (i : Instance) : Prop :=
  ∃ cache, i = { initStructure geo lower with pageCache := cache }

/-- What a new chip is like when its signature is written. -/
structure ReadyToSign (env : Env) (lower : Options) (w : World) : Prop where
  honest : Honest env lower w
  start_eq : w.ni.mgmtStartBa = mgmtStart env.geo lower
  signature_eq : w.ni.signature = sealed env (newSignature env.geo (mgmtStart env.geo lower))
  ends : w.ni.EndsAt 0

variable {env} {lower : Options}

theorem scanBadblocksFrom_keeps (left ba : Nat) {lo hi : Nat} (low : lo ≤ ba) (high : ba + left ≤ hi) :
    KeepsTo env.geo lo hi (scanBadblocksFrom env left ba) := by
  induction left generalizing ba with
  | zero => exact KeepsTo.pure _
  | succ left ih =>
    apply KeepsTo.bind (KeepsTo.of_reading (checkBadPhysBlock_reading env ba))
    intro bad
    exact KeepsTo.ite _ (KeepsTo.bind (KeepsTo.setBad ba low (by omega)) fun _ => ih _ (by omega) (by omega))
      (ih _ (by omega) (by omega))

theorem signingStart_ready (sticks : MarksStick env lower) (spare : 0 < env.geo.oobsize) (w : World)
    (fresh : Fresh env.geo lower w.ni) : ReadyToSign env lower (signingStart env w) := by
  obtain ⟨cache, fresh⟩ := fresh
  have first : Honest env lower (w.modifyNi (Instance.planned env.geo)) := by
    constructor
    · change w.ni.lower = lower
      rw [fresh]
      rfl
    · intro ba inside bad
      have good : w.ni.good ba = true := by
        rw [fresh]
        exact initStructure_good env.geo lower ba inside
      exact absurd (good.symm.trans bad) Bool.false_ne_true.symm
  have scanned := scanBadblocksFrom_honest sticks spare env.geo.blockCount 0 _ first
  have kept : KeepsTo env.geo 0 env.geo.blockCount (scanBadblocks env) :=
    scanBadblocksFrom_keeps env.geo.blockCount 0 (Nat.le_refl 0) (Nat.le_of_eq (Nat.zero_add _))
  obtain ⟨states, changed, cache', same⟩ := (kept (w.modifyNi (Instance.planned env.geo))).ni_eq
  rw [signingStart]
  change Honest env lower ((scanBadblocks env).run _).2 at scanned
  generalize ((scanBadblocks env).run (w.modifyNi (Instance.planned env.geo))).2 = w₁ at scanned same ⊢
  obtain ⟨mapping, count, built⟩ := buildMappingTable_same env.geo w₁.ni
  have start : w₁.ni.mgmtStartBa = mgmtStart env.geo lower := by
    rw [same]
    change mgmtStart env.geo w.ni.lower = _
    rw [fresh]
    rfl
  constructor
  · refine ⟨?_, fun ba inside bad => ?_⟩
    · change (buildMappingTable env.geo w₁.ni).lower = lower
      rw [built]
      exact scanned.lower_eq
    · change (buildMappingTable env.geo w₁.ni).good ba = false at bad
      rw [built] at bad
      exact scanned.reported ba inside bad
  · change (buildMappingTable env.geo w₁.ni).mgmtStartBa = _
    rw [built]
    exact start
  · change sealed env (newSignature env.geo (buildMappingTable env.geo w₁.ni).mgmtStartBa) = _
    rw [built]
    exact congrArg (fun ba => sealed env (newSignature env.geo ba)) start
  · have zero : (buildMappingTable env.geo w₁.ni).EndsAt 0 := by
      rw [built, same]
      change Instance.EndsAt 0 { (Instance.planned env.geo w.ni).worn states changed cache' with
        blockMapping := mapping, dataBlockCount := count }
      rw [fresh]
      exact ⟨Nat.le_refl 0, Nat.le_refl 0, Nat.le_refl 0, Nat.le_refl 0⟩
    exact ⟨zero.main_le, zero.backup_le, zero.mapping_le, zero.top_le⟩

/-- What creation leaves: a signature behind the start of the management area, on the topmost block that is
not reported bad. -/
structure CreatedOn (env : Env) (lower : Options) (w : World) : Prop where
  signature_eq : w.ni.signature = sealed env (newSignature env.geo (mgmtStart env.geo lower))
  start_eq : w.ni.mgmtStartBa = mgmtStart env.geo lower
  low : mgmtStart env.geo lower < w.ni.signatureBa
  high : w.ni.signatureBa < env.geo.blockCount
  signed : Signed env lower (wordBytes w.ni.signature.words) w.ni.signatureBa w.chip
  above : ∀ ba, w.ni.signatureBa < ba → ba < env.geo.blockCount →
    w.chip.reportsBad env.geo lower ba = true

theorem createNew_leaves (sticks : MarksStick env lower) (spare : 0 < env.geo.oobsize)
    (writable : lower.readOnly = false) (w : World) (fresh : Fresh env.geo lower w.ni)
    (created : ((createNew env).run w).1 = true) : CreatedOn env lower ((createNew env).run w).2 := by
  have ready := signingStart_ready sticks spare w fresh
  obtain ⟨found, success, final⟩ := createNew_success env w
    (by rw [ready.honest.lower_eq]; exact writable) created
  rw [final]
  generalize signingStart env w = w₀ at ready success
  have pos : 0 < env.geo.blockCount := Nat.two_pow_pos _
  obtain ⟨below, beyond, signed, above⟩ := writeSignatureFrom_signs _ sticks spare writable _ _ w₀
    ready.honest (by omega) (fun other high inside => by omega) found success
  have kept : KeepsTo env.geo 0 env.geo.blockCount (writeSignatureFrom env
      (wordBytes w₀.ni.signature.words) (env.geo.blockCount - 1 - w₀.ni.mgmtStartBa)
      (env.geo.blockCount - 1)) := writeSignatureFrom_keeps _ _ _ (by omega) (by omega)
  obtain ⟨states, changed, cache, same⟩ := (kept w₀).ni_eq
  generalize (writeSignatureFrom env (wordBytes w₀.ni.signature.words)
    (env.geo.blockCount - 1 - w₀.ni.mgmtStartBa) (env.geo.blockCount - 1)).run w₀ = out
    at signed above same ⊢
  have ends : (out.2.modifyNi fun i => { i with signatureBa := found }).ni.EndsAt found := by
    have zero := ready.ends
    constructor
    · change out.2.ni.mainTableBa ≤ found
      rw [same]
      exact zero.main_le.trans (Nat.zero_le _)
    · change out.2.ni.backupTableBa ≤ found
      rw [same]
      exact zero.backup_le.trans (Nat.zero_le _)
    · change out.2.ni.mappingBlocksBa ≤ found
      rw [same]
      exact zero.mapping_le.trans (Nat.zero_le _)
    · change out.2.ni.mappingBlocksTopBa ≤ found
      rw [same]
      exact zero.top_le.trans (Nat.zero_le _)
  have start := ready.start_eq
  have tables := createInfoTable_below env (out.2.modifyNi fun i => { i with signatureBa := found }) ends
    (by change found ≤ _; omega)
  have place : _ = found := tables.signatureBa_eq
  have signature' : out.2.ni.signature = w₀.ni.signature := by
    rw [same]
    rfl
  have start' : out.2.ni.mgmtStartBa = w₀.ni.mgmtStartBa := by
    rw [same]
    rfl
  have signature : _ = w₀.ni.signature := tables.signature_eq.trans signature'
  constructor
  · exact signature.trans ready.signature_eq
  · exact (tables.start_eq.trans start').trans start
  · rw [place]
    omega
  · rw [place]
    omega
  · rw [place, signature]
    have block := tables.chip_eq found (Nat.le_refl _)
    have room := env.geo.ba2addr_succ found
    have page : env.geo.writesize ≤ env.geo.erasesize := Nat.pow_le_pow_right (by decide) env.geo.page_le
    have fits := signed.fits
    refine ⟨fun k inside => ?_, fits, ?_⟩
    · rw [block.main_eq _ (Nat.le_add_right _ _) (by omega)]
      exact signed.content k inside
    · rw [block.reportsBad_eq]
      exact signed.unreported
  · intro ba beyond inside
    rw [place] at beyond
    rw [(tables.chip_eq ba beyond.le).reportsBad_eq]
    exact above ba beyond inside

end New

end Filogic.Nmbm
