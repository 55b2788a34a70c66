import Filogic.Nmbm.Retired

/-! Bad block marks: which blocks the lower device reports, and that a block is reported once it was
retired. -/

namespace Filogic.Nmbm
open Lib

/-- The lower device reports the block bad. -/
def Chip.reportsBad (geo : Geometry) (lower : Options) (chip : Chip) (ba : Nat) : Bool :=
  if lower.isBadBlock then chip.marked ba
  else chip.oob (geo.pageOf (geo.ba2addr ba)) 0 != 0xff

/-- Bad block marks stick: a driver that reports bad blocks marks them, too, without fail, and one that
does not can always read the mark, and write it. -/
structure MarksStick (env : Env) (lower : Options) : Prop where
  unflagged : ∀ tick addr, (env.fate tick (.isBadBlock addr)).flag = false
  both : lower.markBadBlock = lower.isBadBlock
  marked : lower.isBadBlock = true → ∀ tick addr, (env.fate tick (.markBadBlock addr)).ret = 0
  written : lower.isBadBlock = false → ∀ tick addr, (env.fate tick (.writePage addr)).ret = 0
  seen : lower.isBadBlock = false → ∀ tick addr, 0 ≤ (env.fate tick (.readPage addr)).ret

section Pages

variable (env : Env)

theorem Geometry.inBlock_first (geo : Geometry) (ba : Nat) :
    geo.inBlock ba (geo.pageOf (geo.ba2addr ba)) := by
  have inside := geo.page_in_block (geo.ba2addr ba)
  have pos := geo.writesize_pos
  rw [geo.addr2ba_start, Geometry.pageStart] at inside
  exact ⟨inside.1, by omega⟩

theorem Chip.SameBlock.reportsBad_eq {geo : Geometry} {lower : Options} {chip chip' : Chip} {ba : Nat}
    (same : chip.SameBlock geo chip' ba) :
    chip'.reportsBad geo lower ba = chip.reportsBad geo lower ba := by
  rw [Chip.reportsBad, Chip.reportsBad, same.marked_eq, same.oob_eq _ (geo.inBlock_first ba)]

/-- A read that goes well the first time. -/
theorem readPhysPage_good (addr : Nat) (w : World) (good : 0 ≤ (env.fate w.tick (.readPage addr)).ret) :
    (readPhysPage env addr).run w =
      (((env.fate w.tick (.readPage addr)).ret,
        fun k => w.chip.main (env.geo.pageStart addr + k), w.chip.oob (env.geo.pageOf addr)),
        { w.note (.lower (.readPage addr)) with tick := w.tick + 1 }) := by
  have read : (lowerReadPage env addr).run w =
      (((env.fate w.tick (.readPage addr)).ret,
        fun k => w.chip.main (env.geo.pageStart addr + k), w.chip.oob (env.geo.pageOf addr)),
        { w.note (.lower (.readPage addr)) with tick := w.tick + 1 }) := by
    simp only [lowerReadPage, Prog.run_bind]
    split_ifs with done
    · rfl
    · exact absurd good done
  rw [readPhysPage, tryCount, readPhysPageTries, Prog.run_bind, read, if_pos good]
  rfl

/-- A program that goes well the first time. -/
theorem writePhysPage_good (addr : Nat) (data : Bytes) (oob : Option Bytes) (w : World)
    (writable : w.ni.lower.readOnly = false) (good : (env.fate w.tick (.writePage addr)).ret = 0) :
    (writePhysPage env addr data oob).run w =
      (true, { w.note (.lower (.writePage addr)) with
        tick := w.tick + 1
        chip := w.chip.setPage env.geo addr data oob }) := by
  have write : (lowerWritePage env false addr data oob).run w =
      ((env.fate w.tick (.writePage addr)).ret, { w.note (.lower (.writePage addr)) with
        tick := w.tick + 1
        chip := w.chip.setPage env.geo addr data oob }) := by
    simp only [lowerWritePage, if_neg Bool.false_ne_true, Prog.run_bind]
    split_ifs with done
    · rfl
    · exact absurd good done
  rw [writePhysPage, ni_bind, if_neg (by simp [writable]), tryCount, retry, Prog.run_bind, write,
    if_pos good]
  rfl

end Pages

section Reports

variable {env : Env} {lower : Options} {ba : Nat}

/-- The check tells what the lower device reports. -/
theorem checkBadPhysBlock_value (ba : Nat) (w : World) (spare : 0 < env.geo.oobsize)
    (unflagged : ∀ tick addr, (env.fate tick (.isBadBlock addr)).flag = false)
    (seen : w.ni.lower.isBadBlock = false → ∀ tick addr, 0 ≤ (env.fate tick (.readPage addr)).ret) :
    ((checkBadPhysBlock env ba).run w).1 = w.chip.reportsBad env.geo w.ni.lower ba := by
  rw [checkBadPhysBlock, ni_bind, Chip.reportsBad]
  by_cases callback : w.ni.lower.isBadBlock = true
  · rw [if_pos callback, if_pos callback]
    change (w.chip.marked (env.geo.addr2ba (env.geo.ba2addr ba)) ||
      (env.fate w.tick (.isBadBlock (env.geo.ba2addr ba))).flag) = _
    rw [unflagged, Bool.or_false, env.geo.addr2ba_start]
  · have good := seen (Bool.eq_false_of_not_eq_true callback) w.tick (env.geo.ba2addr ba)
    have fine : ¬(env.fate w.tick (.readPage (env.geo.ba2addr ba))).ret < 0 := by omega
    rw [if_neg callback, if_neg callback]
    simp only [Prog.run_bind, readPhysPage_good env _ w good, ni, Prog.run_gets, setNi, Prog.run_modify,
      World.modifyNi, Prog.run_pure]
    rw [Bytes.memcpy_inside _ _ _ _ _ _ le_rfl (by omega), Nat.sub_self, Nat.add_zero]
    simp [fine]

/-- The spare area of a page that reads as bad stays so while zeroes are written from a cleared cache. -/
theorem writeZeroPages_marks (sticks : ∀ tick addr, (env.fate tick (.writePage addr)).ret = 0)
    (page addr pages : Nat) (w : World) (writable : w.ni.lower.readOnly = false)
    (cleared : w.ni.pageCache env.geo.writesize = 0)
    (marked : w.chip.oob page 0 = 0 ∨ (pages ≠ 0 ∧ page = env.geo.pageOf addr)) :
    ((writeZeroPages env addr pages).run w).2.chip.oob page 0 = 0 := by
  induction pages generalizing addr w with
  | zero => exact marked.resolve_right fun first => first.1 rfl
  | succ pages ih =>
    rw [writeZeroPages, ni_bind, Prog.run_bind, writePhysPage_good env addr _ _ w writable (sticks _ _)]
    refine ih _ _ writable cleared (Or.inl ?_)
    change Function.update w.chip.oob (env.geo.pageOf addr) _ page 0 = 0
    by_cases here : page = env.geo.pageOf addr
    · rw [here, Function.update_self]
      exact cleared
    · rw [Function.update_of_ne here]
      exact marked.resolve_right fun first => here first.2

/-- A block that was retired is reported bad. -/
theorem retireBlock_reports (sticks : MarksStick env lower) (spare : 0 < env.geo.oobsize) (ba : Nat)
    (w : World) (writable : w.ni.lower.readOnly = false) (same : w.ni.lower = lower) :
    ((retireBlock env ba).run w).2.chip.reportsBad env.geo lower ba = true := by
  change ((markPhysBadBlock env ba).run w).2.chip.reportsBad env.geo lower ba = true
  rw [markPhysBadBlock, ni_bind, if_neg (by simp [writable]), same, Chip.reportsBad, sticks.both]
  by_cases callback : lower.isBadBlock = true
  · rw [if_pos callback, if_pos callback]
    simp only [Prog.run_bind, lowerMarkBadBlock]
    rw [if_pos]
    · change Function.update w.chip.marked (env.geo.addr2ba (env.geo.ba2addr ba)) true ba = true
      rw [env.geo.addr2ba_start, Function.update_self]
    · exact sticks.marked callback w.tick (env.geo.ba2addr ba)
  · rw [if_neg callback, if_neg callback, Prog.run_bind]
    have pages : env.geo.erasesize / env.geo.writesize ≠ 0 :=
      (Nat.div_pos (Nat.pow_le_pow_right (by decide) env.geo.page_le) env.geo.writesize_pos).ne'
    have cleared : (w.ni.pageCache.memset 0 0 (env.geo.writesize + env.geo.oobsize)) env.geo.writesize = 0 :=
      Bytes.memset_inside _ _ _ _ _ (Nat.zero_le _) (by omega)
    rw [bne_iff_ne]
    exact ne_of_eq_of_ne (writeZeroPages_marks
      (sticks.written (Bool.eq_false_of_not_eq_true callback)) _ _ _ _ writable cleared
      (Or.inr ⟨pages, rfl⟩)) (by decide)

end Reports

section Marks

variable {env : Env} {lower : Options}

/-- The marks stay, and the spare areas where marks are looked for there. -/
def MarksKept (lower : Options) (w w' : World) : Prop :=
  w'.chip.marked = w.chip.marked ∧ (lower.isBadBlock = false → w'.chip.oob = w.chip.oob)

namespace MarksKept

theorem refl (w : World) : MarksKept lower w w := ⟨rfl, fun _ => rfl⟩

theorem trans (a b c : World) (one : MarksKept lower a b) (two : MarksKept lower b c) :
    MarksKept lower a c := by
  obtain ⟨marked, oob⟩ := one
  obtain ⟨marked', oob'⟩ := two
  exact ⟨marked'.trans marked, fun none => (oob' none).trans (oob none)⟩

theorem reading {α : Type} {x : Routine α} (reads : Moves Reading x) : Moves (MarksKept lower) x :=
  fun w => by
    have same := (reads w).chip_eq
    exact ⟨by rw [same], fun _ => by rw [same]⟩

variable {α β : Type}

theorem pure (a : α) : Moves (MarksKept lower) (Pure.pure a : Routine α) := Moves.pure refl a

theorem bind {x : Routine α} {f : α → Routine β} (first : Moves (MarksKept lower) x)
    (rest : ∀ a, Moves (MarksKept lower) (f a)) : Moves (MarksKept lower) (x >>= f) :=
  Moves.bind trans first rest

end MarksKept

theorem writeCachedPage_marks (sticks : MarksStick env lower) (addr : Nat) :
    Moves (MarksKept lower) (writeCachedPage env addr) := by
  apply MarksKept.bind (MarksKept.reading Reading.ni)
  intro i
  apply MarksKept.bind
  · apply MarksKept.bind (MarksKept.reading Reading.ni)
    intro j
    apply Moves.ite _ fun _ => MarksKept.pure _
    intro writable
    apply retry_moves env MarksKept.refl MarksKept.trans (MarksKept.reading (resetChip_reading env))
    intro w
    simp only [lowerWritePage, if_neg Bool.false_ne_true, Prog.run_bind]
    split_ifs with done
    · exact ⟨rfl, fun _ => rfl⟩
    · exact ⟨rfl, fun none => absurd (sticks.written none w.tick addr) done⟩
  · intro success
    apply Moves.ite _ _ fun _ => MarksKept.pure _
    intro written
    exact MarksKept.bind (MarksKept.reading (readToPageCache_reading env _)) fun _ => MarksKept.pure _

/-- An erase leaves the marks, and clean spare areas if it succeeds. -/
theorem erasePhysBlock_marks (addr : Nat) (w : World) :
    ((erasePhysBlock env addr).run w).2.chip.marked = w.chip.marked ∧
      (((erasePhysBlock env addr).run w).1 = true → ∀ page, env.geo.inBlock (env.geo.addr2ba addr) page →
        ((erasePhysBlock env addr).run w).2.chip.oob page 0 = 0xff) := by
  rw [erasePhysBlock, ni_bind]
  split_ifs with readOnly
  · exact ⟨rfl, fun success => absurd success Bool.false_ne_true⟩
  · constructor
    · have kept := @retry_moves env (fun w w' => w'.chip.marked = w.chip.marked) (fun _ => rfl)
        (fun _ _ _ one two => two.trans one)
        (fun w => congrArg Chip.marked (resetChip_reading env w).chip_eq) (lowerEraseBlock env addr)
      apply kept
      intro w
      simp only [lowerEraseBlock, Prog.run_bind]
      split_ifs <;> rfl
    · intro success
      have leaves := @retry_leaves env (fun w => ∀ page, env.geo.inBlock (env.geo.addr2ba addr) page →
        w.chip.oob page 0 = 0xff) (lowerEraseBlock env addr)
      refine leaves (fun w done => ?_) tryCount w success
      intro page inside
      simp only [lowerEraseBlock, Prog.run_bind] at done ⊢
      split_ifs at done ⊢ with good
      · exact congrFun (if_pos inside) 0
      · exact absurd done good

/-- A block that is not marked bad is not reported bad once it was erased. -/
theorem eraseBlockAndCheck_marks (ba : Nat) (w : World)
    (unmarked : lower.isBadBlock = true → w.chip.marked ba = false)
    (success : ((eraseBlockAndCheck env ba).run w).1 = true) :
    ((eraseBlockAndCheck env ba).run w).2.chip.reportsBad env.geo lower ba = false := by
  obtain ⟨marked, clean⟩ := @erasePhysBlock_marks env (env.geo.ba2addr ba) w
  have checked := checkErasedPages_reading env env.geo.pagesPerBlock (env.geo.ba2addr ba)
    ((erasePhysBlock env (env.geo.ba2addr ba)).run w).2
  have erased : ((erasePhysBlock env (env.geo.ba2addr ba)).run w).1 = true ∧
      ((eraseBlockAndCheck env ba).run w).2.chip =
        ((erasePhysBlock env (env.geo.ba2addr ba)).run w).2.chip := by
    simp only [eraseBlockAndCheck, Prog.run_bind, Prog.run_ite] at success ⊢
    split_ifs at success ⊢ with passed empty
    · exact ⟨passed, checked.chip_eq⟩
    · exact ⟨passed, rfl⟩
    · exact absurd success Bool.false_ne_true
  rw [erased.2, Chip.reportsBad]
  by_cases callback : lower.isBadBlock = true
  · rw [if_pos callback, marked]
    exact unmarked callback
  · rw [if_neg callback, clean erased.1 _ (by rw [env.geo.addr2ba_start]; exact env.geo.inBlock_first ba)]
    rfl

end Marks

section Scan

variable {env : Env} {lower : Options}

/-- Every block that is not good in the state table is reported bad. -/
structure Honest (env : Env) (lower : Options) (w : World) : Prop where
  lower_eq : w.ni.lower = lower
  reported : ∀ ba < env.geo.blockCount, w.ni.good ba = false →
    w.chip.reportsBad env.geo lower ba = true

namespace Honest

variable {w w' : World} {ba : Nat}

/-- A good block may change. -/
theorem worked (honest : Honest env lower w) (kept : OnChip w w') {who : Issuer}
    (within : Within env.geo who ba (ba + 1) w w') (good : w.ni.good ba = true) :
    Honest env lower w' where
  lower_eq := by
    obtain ⟨cache, same⟩ := kept
    rw [same]
    exact honest.lower_eq
  reported other bound bad := by
    rw [kept.good_eq] at bad
    have distinct : other ≠ ba := by
      intro here
      rw [here, good] at bad
      exact absurd bad.symm Bool.false_ne_true
    rw [(within.chip_eq other (by omega)).reportsBad_eq]
    exact honest.reported other bound bad

theorem reading (honest : Honest env lower w) (kept : OnChip w w') (same : w'.chip = w.chip) :
    Honest env lower w' where
  lower_eq := by
    obtain ⟨cache, same⟩ := kept
    rw [same]
    exact honest.lower_eq
  reported other bound bad := by
    rw [kept.good_eq] at bad
    rw [same]
    exact honest.reported other bound bad

theorem setBad (honest : Honest env lower w) (reported : w.chip.reportsBad env.geo lower ba = true) :
    Honest env lower ((setState ba blockStBad).run w).2 where
  lower_eq := honest.lower_eq
  reported other bound bad := by
    by_cases here : other = ba
    · rw [here]
      exact reported
    · have same := w.ni.getBlockState_set_other ba blockStBad other here
      apply honest.reported other bound
      rw [Instance.good, ← same]
      exact bad

end Honest

/-- A good block that is worked on and then retired. -/
theorem Honest.retired (sticks : MarksStick env lower) (spare : 0 < env.geo.oobsize) {w : World}
    (honest : Honest env lower w) (writable : lower.readOnly = false) {ba : Nat}
    (good : w.ni.good ba = true) : Honest env lower ((retireBlock env ba).run w).2 := by
  have kept := markPhysBadBlock_onChip env ba w
  have within := markPhysBadBlock_keeps env ba (Nat.le_refl ba) (Nat.lt_succ_self ba) w
  apply (honest.worked kept within good).setBad
  exact retireBlock_reports sticks spare ba w (by rw [honest.lower_eq]; exact writable) honest.lower_eq

theorem scanBadblocksFrom_honest (sticks : MarksStick env lower) (spare : 0 < env.geo.oobsize)
    (left ba : Nat) :
    Triple (Honest env lower) (scanBadblocksFrom env left ba) fun _ => Honest env lower := by
  induction left generalizing ba with
  | zero => exact Triple.pure _ fun _ honest => honest
  | succ left ih =>
    intro w honest
    have value := checkBadPhysBlock_value ba w spare sticks.unflagged
      (by rw [honest.lower_eq]; exact sticks.seen)
    have reads := checkBadPhysBlock_reading env ba w
    have checked : Honest env lower ((checkBadPhysBlock env ba).run w).2 :=
      honest.reading reads.ni_eq reads.chip_eq
    simp only [scanBadblocksFrom, Prog.run_bind, Prog.run_ite]
    split_ifs with bad
    · apply ih
      apply checked.setBad
      rw [reads.chip_eq, ← bad, value, honest.lower_eq]
    · exact ih _ _ checked

end Scan

end Filogic.Nmbm
