import Filogic.Nmbm.Within

/-! What the verified writes of `nmbm-core.c` leave: the blocks that took data, and their
content. -/

namespace Filogic.Nmbm
open Lib

variable (env : Env)

section Reads

/-- A page read without error is the page on flash. -/
theorem lowerReadPage_content (addr : Nat) (w : World)
    (read : 0 ≤ ((lowerReadPage env addr).run w).1.1) (k : Nat) :
    ((lowerReadPage env addr).run w).1.2.1 k = w.chip.main (env.geo.pageStart addr + k) := by
  simp only [lowerReadPage, Prog.run_bind] at read ⊢
  split_ifs at read ⊢ with passed
  · rfl
  · exact absurd read passed

theorem readPhysPageTries_content (addr tries : Nat) (last : Int × Bytes × Bytes) (w : World)
    (failed : tries = 0 → last.1 < 0)
    (read : 0 ≤ ((readPhysPageTries env addr tries last).run w).1.1) (k : Nat) :
    ((readPhysPageTries env addr tries last).run w).1.2.1 k =
      w.chip.main (env.geo.pageStart addr + k) := by
  induction tries generalizing last w with
  | zero => exact absurd read (not_le.mpr (failed rfl))
  | succ tries ih =>
    have same := lowerReadPage_content env addr w
    have chip := (lowerReadPage_reading env addr w).chip_eq
    simp only [readPhysPageTries, Prog.run_bind] at read ⊢
    split_ifs at read ⊢ with passed
    · exact same passed k
    · have more := ih _ _ (fun _ => not_le.mp passed) read
      exact more.trans (congrFun (congrArg Chip.main chip) _)

theorem readToPageCache_content (addr : Nat) (w : World)
    (read : 0 ≤ ((readToPageCache env addr).run w).1) (k : Nat) (inside : k < env.geo.writesize) :
    ((readToPageCache env addr).run w).2.ni.pageCache k =
      ((readToPageCache env addr).run w).2.chip.main (env.geo.pageStart addr + k) := by
  have some : tryCount ≠ 0 := by decide
  have same := readPhysPageTries_content env addr tryCount (0, fun _ => 0, fun _ => 0) w
    (fun none => absurd none some) read k
  rw [(readToPageCache_reading env addr w).chip_eq, ← same]
  exact (Bytes.memcpy_inside _ _ _ _ _ _ (Nat.zero_le k) (by omega)).trans
    (by rw [Nat.zero_add, Nat.sub_zero]; rfl)

end Reads

/-- The instance is the same but for the page cache. -/
def OnChip (w w' : World) : Prop := ∃ cache, w'.ni = { w.ni with pageCache := cache }

namespace OnChip

theorem refl (w : World) : OnChip w w := ⟨w.ni.pageCache, rfl⟩

theorem trans (a b c : World) (one : OnChip a b) (two : OnChip b c) : OnChip a c := by
  obtain ⟨cache, first⟩ := one
  obtain ⟨cache', second⟩ := two
  exact ⟨cache', by rw [second, first]⟩

theorem reading {α : Type} {x : Routine α} (reads : Moves Reading x) : Moves OnChip x :=
  fun w => (reads w).ni_eq

variable {α β : Type}

theorem pure (a : α) : Moves OnChip (Pure.pure a : Routine α) := Moves.pure refl a

theorem ni : Moves OnChip Nmbm.ni := Moves.gets refl _

theorem bind {x : Routine α} {f : α → Routine β} (first : Moves OnChip x)
    (rest : ∀ a, Moves OnChip (f a)) : Moves OnChip (x >>= f) := Moves.bind trans first rest

theorem setCache (f : Instance → Bytes) :
    Moves OnChip (setNi fun i => { i with pageCache := f i }) := fun w => ⟨f w.ni, rfl⟩

end OnChip

section OnChip

theorem lowerWritePage_onChip (panic : Bool) (addr : Nat) (data : Bytes) (oob : Option Bytes) :
    Moves OnChip (lowerWritePage env panic addr data oob) := by
  intro w
  refine ⟨w.ni.pageCache, ?_⟩
  simp only [lowerWritePage, Prog.run_bind]
  split_ifs <;> rfl

theorem lowerEraseBlock_onChip (addr : Nat) : Moves OnChip (lowerEraseBlock env addr) := by
  intro w
  refine ⟨w.ni.pageCache, ?_⟩
  simp only [lowerEraseBlock, Prog.run_bind]
  split_ifs <;> rfl

theorem writePhysPage_onChip (addr : Nat) (data : Bytes) (oob : Option Bytes) :
    Moves OnChip (writePhysPage env addr data oob) := by
  apply OnChip.bind OnChip.ni
  intro i
  apply Moves.ite _ (fun _ => OnChip.pure _)
  intro writable
  exact retry_moves env OnChip.refl OnChip.trans (OnChip.reading (resetChip_reading env)) _
    (lowerWritePage_onChip env false addr data oob) _

theorem erasePhysBlock_onChip (addr : Nat) : Moves OnChip (erasePhysBlock env addr) := by
  apply OnChip.bind OnChip.ni
  intro i
  apply Moves.ite _ (fun _ => OnChip.pure _)
  intro writable
  exact retry_moves env OnChip.refl OnChip.trans (OnChip.reading (resetChip_reading env)) _
    (lowerEraseBlock_onChip env addr) _

theorem eraseBlockAndCheck_onChip (ba : Nat) : Moves OnChip (eraseBlockAndCheck env ba) := by
  apply OnChip.bind (erasePhysBlock_onChip env _)
  intro success
  apply Moves.ite _ _ fun _ => OnChip.pure _
  intro erased
  apply OnChip.bind OnChip.ni
  intro i
  exact Moves.ite _ (fun _ => OnChip.reading (checkErasedPages_reading env _ _))
    fun _ => OnChip.pure _

theorem writeCachedPage_onChip (addr : Nat) : Moves OnChip (writeCachedPage env addr) := by
  apply OnChip.bind OnChip.ni
  intro i
  apply OnChip.bind (writePhysPage_onChip env _ _ _)
  intro success
  apply Moves.ite _ _ fun _ => OnChip.pure _
  intro written
  exact OnChip.bind (OnChip.reading (readToPageCache_reading env _)) fun _ => OnChip.pure _

theorem writeVerifyFrom_onChip (data : Bytes) (fuel off ptr remain : Nat) :
    Moves OnChip (writeVerifyFrom env data fuel off ptr remain) := by
  induction fuel generalizing off ptr remain with
  | zero => exact OnChip.pure _
  | succ fuel ih =>
    apply Moves.ite _ (fun _ => OnChip.pure _)
    intro more
    apply OnChip.bind (OnChip.setCache _)
    intro set
    apply OnChip.bind (writeCachedPage_onChip env _)
    intro success
    apply OnChip.bind OnChip.ni
    intro i
    exact Moves.ite _ (fun _ => ih _ _ _) fun _ => OnChip.pure _

end OnChip

section Pages

/-- The main area outside the page of an address stays. -/
def OffPage (geo : Geometry) (addr : Nat) (w w' : World) : Prop :=
  ∀ k, k < geo.pageStart addr ∨ geo.pageStart addr + geo.writesize ≤ k →
    w'.chip.main k = w.chip.main k

namespace OffPage

variable {geo : Geometry} {addr : Nat} {α β : Type}

theorem refl (w : World) : OffPage geo addr w w := fun _ _ => rfl

theorem trans (a b c : World) (one : OffPage geo addr a b) (two : OffPage geo addr b c) :
    OffPage geo addr a c := fun k outside => (two k outside).trans (one k outside)

theorem reading {x : Routine α} (reads : Moves Reading x) : Moves (OffPage geo addr) x :=
  fun w k _ => by rw [(reads w).chip_eq]

theorem bind {x : Routine α} {f : α → Routine β} (first : Moves (OffPage geo addr) x)
    (rest : ∀ a, Moves (OffPage geo addr) (f a)) : Moves (OffPage geo addr) (x >>= f) :=
  Moves.bind trans first rest

theorem pure (a : α) : Moves (OffPage geo addr) (Pure.pure a : Routine α) := Moves.pure refl a

end OffPage

theorem lowerWritePage_offPage (panic : Bool) (addr : Nat) (data : Bytes) (oob : Option Bytes) :
    Moves (OffPage env.geo addr) (lowerWritePage env panic addr data oob) := by
  intro w k outside
  simp only [lowerWritePage, Prog.run_bind]
  split_ifs
  all_goals exact Bytes.memcpy_outside _ _ _ _ _ _ outside

theorem writeCachedPage_offPage (addr : Nat) :
    Moves (OffPage env.geo addr) (writeCachedPage env addr) := by
  apply OffPage.bind (OffPage.reading Reading.ni)
  intro i
  apply OffPage.bind
  · apply OffPage.bind (OffPage.reading Reading.ni)
    intro i
    apply Moves.ite _ (fun _ => OffPage.pure _)
    intro writable
    exact retry_moves env OffPage.refl OffPage.trans (OffPage.reading (resetChip_reading env)) _
      (lowerWritePage_offPage env false addr _ none) _
  · intro success
    apply Moves.ite _ _ fun _ => OffPage.pure _
    intro written
    exact OffPage.bind (OffPage.reading (readToPageCache_reading env _)) fun _ => OffPage.pure _

/-- A page that was written and read back is in the page cache. -/
theorem writeCachedPage_content (addr : Nat) (w : World)
    (success : ((writeCachedPage env addr).run w).1 = true) (k : Nat)
    (inside : k < env.geo.writesize) :
    ((writeCachedPage env addr).run w).2.ni.pageCache k =
      ((writeCachedPage env addr).run w).2.chip.main (env.geo.pageStart addr + k) := by
  simp only [writeCachedPage, Prog.run_bind] at success ⊢
  split_ifs at success ⊢
  · exact readToPageCache_content env addr _ (of_decide_eq_true success) k inside
  · exact absurd success Bool.false_ne_true

end Pages

namespace Geometry

variable (geo : Geometry) (off : Nat)

theorem sub_mod_eq : off - off % geo.writesize = geo.pageStart off := by
  have := Nat.div_add_mod' off geo.writesize
  unfold pageStart pageOf
  omega

theorem pageStart_add_mod : geo.pageStart off + off % geo.writesize = off :=
  Nat.div_add_mod' off geo.writesize

theorem pageStart_pageStart : geo.pageStart (geo.pageStart off) = geo.pageStart off := by
  unfold pageStart pageOf
  rw [Nat.mul_div_cancel _ geo.writesize_pos]

theorem pageStart_next : geo.pageStart (geo.pageStart off + geo.writesize) =
    geo.pageStart off + geo.writesize := by
  unfold pageStart pageOf
  rw [← Nat.succ_mul, Nat.mul_div_cancel _ geo.writesize_pos]

theorem addr2ba_pageStart : geo.addr2ba (geo.pageStart off) = geo.addr2ba off := by
  obtain ⟨low, high⟩ := geo.page_in_block off
  have := geo.writesize_pos
  exact geo.addr2ba_eq _ _ low (by omega)

end Geometry

section Verify

theorem writeVerifyFrom_keeps (data : Bytes) (fuel off ptr remain ba : Nat) {lo hi : Nat}
    (above : env.geo.ba2addr ba ≤ off) (below : off + remain ≤ env.geo.ba2addr (ba + 1))
    (low : lo ≤ ba) (high : ba < hi) :
    KeepsTo env.geo lo hi (writeVerifyFrom env data fuel off ptr remain) := by
  induction fuel generalizing off ptr remain with
  | zero => exact KeepsTo.pure _
  | succ fuel ih =>
    by_cases none : remain = 0
    · rw [writeVerifyFrom, if_pos none]
      exact KeepsTo.pure _
    · rw [writeVerifyFrom, if_neg none]
      have here : env.geo.addr2ba (off - off % env.geo.writesize) = ba := by
        rw [env.geo.sub_mod_eq, env.geo.addr2ba_pageStart]
        exact env.geo.addr2ba_eq ba off above (by omega)
      have part : (env.geo.chunk off remain).2 ≤ remain := Nat.min_le_right _ _
      apply KeepsTo.bind (KeepsTo.setCache _)
      intro set
      apply KeepsTo.bind (writeCachedPage_keeps env _ (here ▸ low) (here ▸ high))
      intro success
      apply KeepsTo.bind KeepsTo.ni
      intro i
      apply KeepsTo.ite _ _ (KeepsTo.pure _)
      exact ih _ _ _ (by omega) (by omega)

/-- The main area below the first page stays. -/
theorem writeVerifyFrom_below (data : Bytes) (fuel off ptr remain : Nat) (w : World) (k : Nat)
    (below : k < env.geo.pageStart off) :
    ((writeVerifyFrom env data fuel off ptr remain).run w).2.chip.main k = w.chip.main k := by
  induction fuel generalizing off ptr remain w with
  | zero => rfl
  | succ fuel ih =>
    rw [writeVerifyFrom]
    split_ifs with none
    · rfl
    · simp only [Prog.run_bind]
      have step := writeCachedPage_offPage env (off - (env.geo.chunk off remain).1)
      have first : env.geo.pageStart (off - (env.geo.chunk off remain).1) = env.geo.pageStart off := by
        change env.geo.pageStart (off - off % env.geo.writesize) = _
        rw [env.geo.sub_mod_eq, env.geo.pageStart_pageStart]
      have later : env.geo.pageStart off ≤ env.geo.pageStart (off + (env.geo.chunk off remain).2) :=
        Nat.mul_le_mul_right _ (Nat.div_le_div_right (Nat.le_add_right _ _))
      split_ifs
      · rw [ih _ _ _ _ (by omega)]
        exact step _ k (Or.inl (by omega))
      · exact step _ k (Or.inl (by omega))

/-- Data that was written and read back is on flash. -/
theorem writeVerifyFrom_content (data : Bytes) (fuel off ptr remain : Nat) (w : World)
    (enough : remain ≤ fuel)
    (success : ((writeVerifyFrom env data fuel off ptr remain).run w).1 = true) (k : Nat)
    (inside : k < remain) :
    ((writeVerifyFrom env data fuel off ptr remain).run w).2.chip.main (off + k) =
      data (ptr + k) := by
  induction fuel generalizing off ptr remain w k with
  | zero => omega
  | succ fuel ih =>
    rw [writeVerifyFrom, if_neg (by omega)] at success ⊢
    simp only [Prog.run_bind] at success ⊢
    generalize page : env.geo.chunk off remain = chunk at success ⊢
    obtain ⟨leading, chunksize⟩ := chunk
    have leading_eq : leading = off % env.geo.writesize := congrArg Prod.fst page.symm
    have chunksize_eq : chunksize = min (env.geo.writesize - leading) remain := by
      rw [leading_eq]
      exact congrArg Prod.snd page.symm
    have short := Nat.mod_lt off env.geo.writesize_pos
    have aligned := env.geo.pageStart_add_mod off
    split_ifs at success ⊢ with verified
    · rw [Bool.and_eq_true, decide_eq_true_eq] at verified
      obtain ⟨written, same⟩ := verified
      have first : env.geo.pageStart (off - leading) = env.geo.pageStart off := by
        rw [leading_eq, env.geo.sub_mod_eq, env.geo.pageStart_pageStart]
      have onFlash := writeCachedPage_content env (off - leading) _ written
      rw [first] at onFlash
      by_cases now : k < chunksize
      · have read := onFlash (leading + k) (by omega)
        have byte := congrArg (fun bytes => bytes.getD k 0) same
        simp only [Bytes.slice_getD _ _ _ _ now] at byte
        have place : env.geo.pageStart off + (leading + k) = off + k := by omega
        rw [← byte]
        refine Eq.trans ?_ (place ▸ read.symm)
        -- The pages that follow do not touch this one.
        by_cases last : remain - chunksize = 0
        · rw [last]
          cases fuel <;> rfl
        · apply writeVerifyFrom_below
          have full : chunksize = env.geo.writesize - leading := by omega
          have next : off + chunksize = env.geo.pageStart off + env.geo.writesize := by omega
          rw [next, env.geo.pageStart_next]
          omega
      · have rest := ih (off + chunksize) (ptr + chunksize) (remain - chunksize) _ (by omega) success
          (k - chunksize) (by omega)
        rwa [Nat.add_assoc, Nat.add_assoc, Nat.add_sub_cancel' (by omega)] at rest
    · exact absurd success Bool.false_ne_true

end Verify

end Filogic.Nmbm
