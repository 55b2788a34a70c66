import Filogic.Nmbm.States

/-! What a routine that erases, programs and retires blocks of one range keeps: the instance but
for its state table and page cache, the states of the other blocks, and their content. -/

namespace Filogic.Nmbm
open Lib

theorem le_align (v a : Nat) (pos : 0 < a) : v ≤ align v a := by
  have split := Nat.div_add_mod (v + a - 1) a
  have rest := Nat.mod_lt (v + a - 1) pos
  rw [align, Nat.mul_comm]
  omega

/-- The mapping table of all blocks has less than 4 GiB. -/
theorem Geometry.blockCount_lt (geo : Geometry) : geo.blockCount < 2 ^ 30 := by
  have fits := geo.fits
  have table : geo.blockCount * 4 ≤ align (mappingTableBytes (geo.chipShift - geo.blockShift))
      (2 ^ geo.pageShift) := le_align _ _ (Nat.two_pow_pos _)
  rw [infoTableBytes] at fits
  omega

namespace Geometry

variable (geo : Geometry)

theorem writesize_pos : 0 < geo.writesize := Nat.two_pow_pos _
theorem erasesize_pos : 0 < geo.erasesize := Nat.two_pow_pos _

theorem erasesize_eq : geo.erasesize = geo.pagesPerBlock * geo.writesize := by
  have divides : geo.writesize ∣ geo.erasesize := Nat.pow_dvd_pow 2 geo.page_le
  rw [pagesPerBlock, Nat.div_mul_cancel divides]

theorem ba2addr_succ (ba : Nat) : geo.ba2addr (ba + 1) = geo.ba2addr ba + geo.erasesize :=
  Nat.succ_mul ba _

theorem ba2addr_mono {lo hi : Nat} (le : lo ≤ hi) : geo.ba2addr lo ≤ geo.ba2addr hi :=
  Nat.mul_le_mul_right _ le

theorem addr2ba_eq (ba addr : Nat) (low : geo.ba2addr ba ≤ addr)
    (high : addr < geo.ba2addr (ba + 1)) : geo.addr2ba addr = ba := by
  unfold ba2addr at low high
  rw [addr2ba, Nat.div_eq_iff geo.erasesize_pos]
  have := geo.erasesize_pos
  rw [Nat.succ_mul] at high
  omega

theorem addr_in_block (addr : Nat) :
    geo.ba2addr (geo.addr2ba addr) ≤ addr ∧ addr < geo.ba2addr (geo.addr2ba addr + 1) := by
  unfold ba2addr addr2ba
  exact ⟨Nat.div_mul_le_self _ _, by
    rw [Nat.mul_comm]
    exact Nat.lt_mul_div_succ addr geo.erasesize_pos⟩

/-- The page of an address lies in the block of the address. -/
theorem page_in_block (addr : Nat) :
    geo.ba2addr (geo.addr2ba addr) ≤ geo.pageStart addr ∧
      geo.pageStart addr + geo.writesize ≤ geo.ba2addr (geo.addr2ba addr + 1) := by
  obtain ⟨low, high⟩ := geo.addr_in_block addr
  have split : ∀ ba, geo.ba2addr ba = ba * geo.pagesPerBlock * geo.writesize := fun ba => by
    rw [ba2addr, erasesize_eq, Nat.mul_assoc]
  rw [split] at low high ⊢
  rw [split]
  have first := (Nat.le_div_iff_mul_le geo.writesize_pos).mpr low
  have last := (Nat.div_lt_iff_lt_mul geo.writesize_pos).mpr high
  refine ⟨Nat.mul_le_mul_right _ first, ?_⟩
  rw [pageStart, pageOf, ← Nat.succ_mul]
  exact Nat.mul_le_mul_right _ last

end Geometry

/-- A block has the same content and mark on two chips. -/
structure Chip.SameBlock (geo : Geometry) (chip chip' : Chip) (ba : Nat) : Prop where
  main_eq : ∀ k, geo.ba2addr ba ≤ k → k < geo.ba2addr (ba + 1) → chip'.main k = chip.main k
  oob_eq : ∀ page, geo.inBlock ba page → chip'.oob page = chip.oob page
  marked_eq : chip'.marked ba = chip.marked ba

namespace Chip.SameBlock

variable {geo : Geometry} {a b c : Chip} {ba : Nat}

theorem refl (a : Chip) : SameBlock geo a a ba := ⟨fun _ _ _ => rfl, fun _ _ => rfl, rfl⟩

theorem of_eq (same : b = a) : SameBlock geo a b ba := by
  subst same
  exact refl b

theorem trans (one : SameBlock geo a b ba) (two : SameBlock geo b c ba) : SameBlock geo a c ba where
  main_eq k low high := (two.main_eq k low high).trans (one.main_eq k low high)
  oob_eq page inside := (two.oob_eq page inside).trans (one.oob_eq page inside)
  marked_eq := two.marked_eq.trans one.marked_eq

end Chip.SameBlock

namespace Chip

variable (geo : Geometry) (chip : Chip) (addr : Nat)

theorem block_apart {ba ba' : Nat} (apart : ba' ≠ ba) :
    geo.ba2addr (ba' + 1) ≤ geo.ba2addr ba ∨ geo.ba2addr (ba + 1) ≤ geo.ba2addr ba' := by
  rcases Nat.lt_or_gt_of_ne apart with less | more
  · exact Or.inl (geo.ba2addr_mono less)
  · exact Or.inr (geo.ba2addr_mono more)

theorem setPage_other (main : Bytes) (oob : Option Bytes) (ba : Nat)
    (other : ba ≠ geo.addr2ba addr) :
    chip.SameBlock geo (chip.setPage geo addr main oob) ba := by
  obtain ⟨low, high⟩ := geo.page_in_block addr
  have apart := block_apart geo other
  refine ⟨fun k above below => ?_, fun page inside => ?_, rfl⟩
  · exact Bytes.memcpy_outside _ _ _ _ _ _ (by omega)
  · cases oob with
    | none => rfl
    | some oob =>
      apply Function.update_of_ne
      rintro rfl
      obtain ⟨above, below⟩ := inside
      have start : geo.pageOf addr * geo.writesize = geo.pageStart addr := rfl
      have := geo.writesize_pos
      omega

theorem setBlock_other (main oob : Bytes) (ba : Nat) (other : ba ≠ geo.addr2ba addr) :
    chip.SameBlock geo (chip.setBlock geo addr main oob) ba := by
  have apart := block_apart geo other
  have size := geo.ba2addr_succ (geo.addr2ba addr)
  refine ⟨fun k above below => ?_, fun page inside => ?_, rfl⟩
  · exact Bytes.memcpy_outside _ _ _ _ _ _ (by omega)
  · apply if_neg
    rintro ⟨above, below⟩
    obtain ⟨above', below'⟩ := inside
    omega

theorem mark_other (ba ba' : Nat) (other : ba ≠ ba') :
    chip.SameBlock geo { chip with marked := Function.update chip.marked ba' true } ba :=
  ⟨fun _ _ _ => rfl, fun _ _ => rfl, Function.update_of_ne other _ _⟩

end Chip

namespace Instance

/-- The instance with another state table and page cache. -/
def worn (i : Instance) (states : Nat → UInt32) (changed : Nat) (cache : Bytes) : Instance :=
  { i with blockState := states, blockStateChanged := changed, pageCache := cache }

end Instance

/-- An event that changes flash in the range at most, and that comes to an instance with the
mapping of `w` and to its flash outside the range. -/
structure Event.Inside (geo : Geometry) (who : Issuer) (lo hi : Nat) (w : World) (event : Event) :
    Prop where
  call : ∃ call, event.what = .lower call ∧
    (call.writes = true → lo ≤ geo.addr2ba call.addr ∧ geo.addr2ba call.addr < hi)
  issuer_eq : event.issuer = who
  mapping_eq : event.ni.blockMapping = w.ni.blockMapping
  count_eq : event.ni.dataBlockCount = w.ni.dataBlockCount
  chip_eq : ∀ ba, ba < lo ∨ hi ≤ ba → w.chip.SameBlock geo event.chip ba

/-- What a routine on the blocks from `lo` to before `hi` keeps. -/
structure Within (geo : Geometry) (who : Issuer) (lo hi : Nat) (w w' : World) : Prop where
  ni_eq : ∃ states changed cache, w'.ni = w.ni.worn states changed cache
  state_eq : ∀ ba, w'.ni.getBlockState ba = w.ni.getBlockState ba ∨
    (lo ≤ ba ∧ ba < hi ∧ w'.ni.getBlockState ba = blockStBad)
  changed_le : w.ni.blockStateChanged ≤ w'.ni.blockStateChanged
  unchanged : w'.ni.blockStateChanged = w.ni.blockStateChanged →
    w'.ni.blockState = w.ni.blockState
  chip_eq : ∀ ba, ba < lo ∨ hi ≤ ba → w.chip.SameBlock geo w'.chip ba
  issuer_eq : w'.issuer = w.issuer
  generated_eq : w'.generated = w.generated
  trace_eq : Grew (Event.Inside geo who lo hi w) w w'

namespace Within

variable {geo : Geometry} {who : Issuer} {lo hi : Nat}

theorem refl (w : World) : Within geo who lo hi w w where
  ni_eq := ⟨w.ni.blockState, w.ni.blockStateChanged, w.ni.pageCache, rfl⟩
  state_eq _ := Or.inl rfl
  changed_le := Nat.le_refl _
  unchanged _ := rfl
  chip_eq _ _ := Chip.SameBlock.refl _
  issuer_eq := rfl
  generated_eq := rfl
  trace_eq := Grew.refl w

theorem of_reading {w w' : World} (reading : Reading w w') :
    Within geo w.issuer lo hi w w' := by
  obtain ⟨cache, same⟩ := reading.ni_eq
  refine ⟨⟨w.ni.blockState, w.ni.blockStateChanged, cache, same⟩, fun ba => Or.inl (by rw [same]; rfl),
    (by rw [same]), (fun _ => by rw [same]), fun ba _ => Chip.SameBlock.of_eq reading.chip_eq,
    reading.issuer_eq, reading.generated_eq, reading.trace_eq.mono fun event reads => ?_⟩
  obtain ⟨⟨call, what, passive⟩, issuer, chip, last, found⟩ := reads
  exact ⟨⟨call, what, fun writes => absurd (passive.symm.trans writes) Bool.false_ne_true⟩, issuer,
    by rw [found], by rw [found], fun ba _ => Chip.SameBlock.of_eq chip⟩

theorem trans {a b c : World} (one : Within geo who lo hi a b) (two : Within geo who lo hi b c) :
    Within geo who lo hi a c := by
  obtain ⟨states, changed, cache, first⟩ := one.ni_eq
  obtain ⟨states', changed', cache', second⟩ := two.ni_eq
  refine ⟨⟨states', changed', cache', by rw [second, first]; rfl⟩, fun ba => ?_,
    one.changed_le.trans two.changed_le, fun same => ?_,
    fun ba outside => (one.chip_eq ba outside).trans (two.chip_eq ba outside),
    two.issuer_eq.trans one.issuer_eq, two.generated_eq.trans one.generated_eq,
    one.trace_eq.trans (two.trace_eq.mono fun event inside => ?_)⟩
  · rcases two.state_eq ba with same | bad
    · rw [same]
      exact one.state_eq ba
    · exact Or.inr bad
  · have low := one.changed_le
    have high := two.changed_le
    rw [two.unchanged (by omega), one.unchanged (by omega)]
  · obtain ⟨call, issuer, mapping, count, chip⟩ := inside
    exact ⟨call, issuer, by rw [mapping, first]; rfl, by rw [count, first]; rfl,
      fun ba outside => (one.chip_eq ba outside).trans (chip ba outside)⟩

variable {w w' : World}

theorem good_eq (within : Within geo who lo hi w w') (ba : Nat) (outside : ba < lo ∨ hi ≤ ba) :
    w'.ni.good ba = w.ni.good ba := by
  rcases within.state_eq ba with same | inside
  · rw [Instance.good, Instance.good, same]
  · omega

end Within

/-- A routine that keeps to a range of blocks, whoever runs it. -/
def KeepsTo (geo : Geometry) (lo hi : Nat) {α : Type} (routine : Routine α) : Prop :=
  ∀ w, Within geo w.issuer lo hi w (routine.run w).2

namespace KeepsTo

variable {geo : Geometry} {lo hi : Nat} {α β : Type}

theorem of_reading {routine : Routine α} (reading : Moves Reading routine) :
    KeepsTo geo lo hi routine := fun w => Within.of_reading (reading w)

theorem pure (a : α) : KeepsTo geo lo hi (Pure.pure a : Routine α) := fun w => Within.refl w

theorem ni : KeepsTo geo lo hi Nmbm.ni := fun w => Within.refl w

theorem bind {x : Routine α} {f : α → Routine β} (first : KeepsTo geo lo hi x)
    (rest : ∀ a, KeepsTo geo lo hi (f a)) : KeepsTo geo lo hi (x >>= f) := by
  intro w
  have one := first w
  have two := rest (x.run w).1 (x.run w).2
  rw [one.issuer_eq] at two
  exact one.trans two

theorem ite (c : Prop) [Decidable c] {x y : Routine α} (yes : KeepsTo geo lo hi x)
    (no : KeepsTo geo lo hi y) : KeepsTo geo lo hi (if c then x else y) := by
  split_ifs
  · exact yes
  · exact no

theorem setCache (f : Instance → Bytes) :
    KeepsTo geo lo hi (setNi fun i => { i with pageCache := f i }) :=
  of_reading (Reading.setCache f)

/-- A block of the range turns out to be bad. -/
theorem setBad (ba : Nat) (low : lo ≤ ba) (high : ba < hi) :
    KeepsTo geo lo hi (setState ba blockStBad) := by
  intro w
  refine ⟨⟨(w.ni.setBlockState ba blockStBad).blockState,
      (w.ni.setBlockState ba blockStBad).blockStateChanged, w.ni.pageCache, rfl⟩, fun other => ?_,
    w.ni.setBlockState_changed_le ba _, w.ni.setBlockState_unchanged ba _,
    fun _ _ => Chip.SameBlock.refl _, rfl, rfl, Grew.refl w⟩
  by_cases here : other = ba
  · subst here
    exact Or.inr ⟨low, high, w.ni.getBlockState_set_same other _⟩
  · exact Or.inl (w.ni.getBlockState_set_other ba _ other here)

end KeepsTo

section Lower

variable (env : Env) {lo hi : Nat}

theorem lowerCall_keeps (call : LowerCall)
    (inside : call.writes = true → lo ≤ env.geo.addr2ba call.addr ∧ env.geo.addr2ba call.addr < hi) :
    KeepsTo env.geo lo hi (lowerCall env call) := by
  intro w
  refine ⟨⟨w.ni.blockState, w.ni.blockStateChanged, w.ni.pageCache, rfl⟩, fun _ => Or.inl rfl,
    Nat.le_refl _, fun _ => rfl, fun _ _ => Chip.SameBlock.refl _, rfl, rfl, [_], rfl,
    fun event member => ?_⟩
  rw [List.mem_singleton] at member
  rw [member]
  exact ⟨⟨call, rfl, inside⟩, rfl, rfl, rfl, fun _ _ => Chip.SameBlock.refl _⟩

theorem setChip_keeps {geo : Geometry} (f : Chip → Chip)
    (other : ∀ (chip : Chip) (ba : Nat), ba < lo ∨ hi ≤ ba → chip.SameBlock geo (f chip) ba) :
    KeepsTo geo lo hi (setChip f) :=
  fun w => ⟨⟨w.ni.blockState, w.ni.blockStateChanged, w.ni.pageCache, rfl⟩, fun _ => Or.inl rfl,
    Nat.le_refl _, fun _ => rfl, fun ba outside => other w.chip ba outside, rfl, rfl, Grew.refl w⟩

variable (addr : Nat) (low : lo ≤ env.geo.addr2ba addr) (high : env.geo.addr2ba addr < hi)

include low high

theorem lowerWritePage_keeps (panic : Bool) (data : Bytes) (oob : Option Bytes) :
    KeepsTo env.geo lo hi (lowerWritePage env panic addr data oob) := by
  apply KeepsTo.bind
  · apply lowerCall_keeps
    intro writes
    cases panic <;> exact ⟨low, high⟩
  · intro fate
    apply KeepsTo.ite
    all_goals
      refine KeepsTo.bind (setChip_keeps _ fun chip ba outside => ?_) fun _ => KeepsTo.pure _
      exact chip.setPage_other env.geo addr _ _ ba (by omega)

theorem lowerEraseBlock_keeps : KeepsTo env.geo lo hi (lowerEraseBlock env addr) := by
  apply KeepsTo.bind (lowerCall_keeps env _ fun _ => ⟨low, high⟩)
  intro fate
  apply KeepsTo.ite
  all_goals
    refine KeepsTo.bind (setChip_keeps _ fun chip ba outside => ?_) fun _ => KeepsTo.pure _
    exact chip.setBlock_other env.geo addr _ _ ba (by omega)

theorem lowerMarkBadBlock_keeps : KeepsTo env.geo lo hi (lowerMarkBadBlock env addr) := by
  apply KeepsTo.bind (lowerCall_keeps env _ fun _ => ⟨low, high⟩)
  intro fate
  apply KeepsTo.ite _ _ (KeepsTo.pure _)
  refine KeepsTo.bind (setChip_keeps _ fun chip ba outside => ?_) fun _ => KeepsTo.pure _
  exact chip.mark_other env.geo ba _ (by omega)

omit low high in
theorem retry_keeps (call : Routine Int) (keeps : KeepsTo env.geo lo hi call) (tries : Nat) :
    KeepsTo env.geo lo hi (retry env call tries) := by
  induction tries with
  | zero => exact KeepsTo.pure _
  | succ tries ih =>
    apply KeepsTo.bind keeps
    intro ret
    apply KeepsTo.ite _ (KeepsTo.pure _)
    exact KeepsTo.bind (KeepsTo.of_reading (resetChip_reading env)) fun _ => ih

theorem writePhysPage_keeps (data : Bytes) (oob : Option Bytes) :
    KeepsTo env.geo lo hi (writePhysPage env addr data oob) := by
  apply KeepsTo.bind KeepsTo.ni
  intro i
  apply KeepsTo.ite _ (KeepsTo.pure _)
  exact retry_keeps env _ (lowerWritePage_keeps env addr low high false data oob) _

theorem erasePhysBlock_keeps : KeepsTo env.geo lo hi (erasePhysBlock env addr) := by
  apply KeepsTo.bind KeepsTo.ni
  intro i
  apply KeepsTo.ite _ (KeepsTo.pure _)
  exact retry_keeps env _ (lowerEraseBlock_keeps env addr low high) _

end Lower

section Blocks

variable (env : Env) (ba : Nat) {lo hi : Nat}

/-- A page of the block, counted from its start. -/
theorem Geometry.addr2ba_page (geo : Geometry) (page : Nat) (bound : page < geo.pagesPerBlock) :
    geo.addr2ba (geo.ba2addr ba + page * geo.writesize) = ba := by
  have inside : page * geo.writesize < geo.erasesize := by
    rw [geo.erasesize_eq]
    exact Nat.mul_lt_mul_of_pos_right bound geo.writesize_pos
  apply geo.addr2ba_eq _ _ (Nat.le_add_right _ _)
  rw [geo.ba2addr_succ]
  omega

theorem Geometry.addr2ba_start (geo : Geometry) : geo.addr2ba (geo.ba2addr ba) = ba :=
  Nat.mul_div_cancel ba geo.erasesize_pos

theorem writeZeroPages_keeps (pages first : Nat) (bound : first + pages ≤ env.geo.pagesPerBlock)
    (low : lo ≤ ba) (high : ba < hi) :
    KeepsTo env.geo lo hi
      (writeZeroPages env (env.geo.ba2addr ba + first * env.geo.writesize) pages) := by
  induction pages generalizing first with
  | zero => exact KeepsTo.pure _
  | succ pages ih =>
    have here := env.geo.addr2ba_page ba first (by omega)
    apply KeepsTo.bind KeepsTo.ni
    intro i
    apply KeepsTo.bind (writePhysPage_keeps env _ (by rw [here]; exact low)
      (by rw [here]; exact high) _ _)
    intro success
    rw [Nat.add_assoc, ← Nat.succ_mul]
    exact ih (first + 1) (by omega)

theorem markPhysBadBlock_keeps (low : lo ≤ ba) (high : ba < hi) :
    KeepsTo env.geo lo hi (markPhysBadBlock env ba) := by
  have here := env.geo.addr2ba_start ba
  apply KeepsTo.bind KeepsTo.ni
  intro i
  apply KeepsTo.ite _ (KeepsTo.pure _)
  apply KeepsTo.ite
  · exact KeepsTo.bind (lowerMarkBadBlock_keeps env _ (by rw [here]; exact low)
      (by rw [here]; exact high)) fun _ => KeepsTo.pure _
  · apply KeepsTo.bind (KeepsTo.setCache _)
    intro set
    have pages := writeZeroPages_keeps env ba env.geo.pagesPerBlock 0 (by omega) low high
    rw [Nat.zero_mul, Nat.add_zero] at pages
    exact pages

theorem retireBlock_keeps (low : lo ≤ ba) (high : ba < hi) :
    KeepsTo env.geo lo hi (retireBlock env ba) :=
  KeepsTo.bind (markPhysBadBlock_keeps env ba low high) fun _ => KeepsTo.setBad ba low high

theorem eraseBlockAndCheck_keeps (low : lo ≤ ba) (high : ba < hi) :
    KeepsTo env.geo lo hi (eraseBlockAndCheck env ba) := by
  have here := env.geo.addr2ba_start ba
  apply KeepsTo.bind (erasePhysBlock_keeps env _ (by rw [here]; exact low)
    (by rw [here]; exact high))
  intro success
  apply KeepsTo.ite _ _ (KeepsTo.pure _)
  apply KeepsTo.bind KeepsTo.ni
  intro i
  exact KeepsTo.ite _ (KeepsTo.of_reading (checkErasedPages_reading env _ _)) (KeepsTo.pure _)

theorem eraseRangeBlock_keeps (low : lo ≤ ba) (high : ba < hi) :
    KeepsTo env.geo lo hi (eraseRangeBlock env ba) := by
  apply KeepsTo.bind KeepsTo.ni
  intro i
  apply KeepsTo.ite _ _ (KeepsTo.pure _)
  apply KeepsTo.bind (KeepsTo.of_reading (checkBadPhysBlock_reading env ba))
  intro bad
  apply KeepsTo.ite _ (KeepsTo.setBad ba low high)
  apply KeepsTo.bind (eraseBlockAndCheck_keeps env ba low high)
  intro success
  exact KeepsTo.ite _ (KeepsTo.pure _) (retireBlock_keeps env ba low high)

theorem eraseRangeFrom_keeps (left : Nat) (low : lo ≤ ba) (high : ba + left ≤ hi) :
    KeepsTo env.geo lo hi (eraseRangeFrom env left ba) := by
  induction left generalizing ba with
  | zero => exact KeepsTo.pure _
  | succ left ih =>
    apply KeepsTo.bind (eraseRangeBlock_keeps env ba low (by omega))
    intro erased
    exact ih (ba + 1) (by omega) (by omega)

theorem writeCachedPage_keeps (addr : Nat) (low : lo ≤ env.geo.addr2ba addr)
    (high : env.geo.addr2ba addr < hi) : KeepsTo env.geo lo hi (writeCachedPage env addr) := by
  apply KeepsTo.bind KeepsTo.ni
  intro i
  apply KeepsTo.bind (writePhysPage_keeps env addr low high _ _)
  intro success
  apply KeepsTo.ite _ _ (KeepsTo.pure _)
  exact KeepsTo.bind (KeepsTo.of_reading (readToPageCache_reading env addr))
    fun _ => KeepsTo.pure _

end Blocks

end Filogic.Nmbm
