import Filogic.Nmbm.FastRead

/-! Writes of data alone, which the MTD device hands to `nmbm_write_range`, against its own loop. -/

namespace Filogic.Nmbm
open Lib

variable (env : Env)

/-- The page that `nmbm_write_range` hands down for the bytes `ptr` and on of the data: a full page as
it is, any other as the page cache has it once the bytes are in. -/
def rangePage (geo : Geometry) (data cache : Bytes) (off ptr remain : Nat) : Bytes :=
  if (geo.chunk off remain).2 = geo.writesize then fun k => data (ptr + k)
  else (cache.memset 0 0xff (off % geo.writesize)).memcpy (off % geo.writesize) data ptr
    (geo.chunk off remain).2

/-- The page cache behind that page. -/
def cacheBehind (geo : Geometry) (data cache : Bytes) (off ptr remain : Nat) : Bytes :=
  if (geo.chunk off remain).2 = geo.writesize then cache
  else rangePage geo data cache off ptr remain

/-- The loop of `nmbm_write_range`, with the pages that it hands down. -/
def writeRangePages (data : Bytes) :
    (fuel off ptr remain : Nat) → List Paged.PageWrite → Routine ((Int × Nat) × List Paged.PageWrite)
  | 0, _, _, remain, pages => return ((0, remain), pages)
  | fuel + 1, off, ptr, remain, pages =>
    if remain = 0 then return ((0, remain), pages)
    else do
      let (leading, chunksize) := env.geo.chunk off remain
      let i ← ni
      let page := rangePage env.geo data i.pageCache off ptr remain
      setNi fun i => { i with pageCache := cacheBehind env.geo data i.pageCache off ptr remain }
      let ret ← writeLogicPage env false (off - leading) page none
      let pages := pages ++ [{ addr := off - leading, data := some page, oob := none, oobwrlen := 0 }]
      if ret = 0 then
        writeRangePages data fuel (off + chunksize) (ptr + chunksize) (remain - chunksize) pages
      else return ((ret, remain), pages)

/-- It is the same loop. -/
theorem writeRangePages_run (data : Bytes) (fuel off ptr remain : Nat) (pages : List Paged.PageWrite)
    (w : World) :
    (((writeRangePages env data fuel off ptr remain pages).run w).1.1,
      ((writeRangePages env data fuel off ptr remain pages).run w).2) =
      (writeRangeFrom env data fuel off ptr remain).run w := by
  induction fuel generalizing off ptr remain pages w with
  | zero => rfl
  | succ fuel ih =>
    rw [writeRangePages, writeRangeFrom]
    split_ifs with none
    · rfl
    · have pair : env.geo.chunk off remain =
        (off % env.geo.writesize, (env.geo.chunk off remain).2) := rfl
      rw [pair]
      by_cases full : (env.geo.chunk off remain).2 = env.geo.writesize
      · have same : (setNi fun i =>
            { i with pageCache := cacheBehind env.geo data i.pageCache off ptr remain }).run w =
            ((), w) := by
          simp only [setNi, Prog.run_modify, World.modifyNi, cacheBehind, if_pos full]
        have page : rangePage env.geo data w.ni.pageCache off ptr remain = fun k => data (ptr + k) :=
          if_pos full
        simp only [Prog.run_bind, run_ni, same, page, if_pos full, Prog.run_pure]
        split_ifs with zero
        · exact ih _ _ _ _ _
        · rfl
      · simp only [Prog.run_bind, run_ni, setNi, Prog.run_modify, World.modifyNi, cacheBehind, rangePage,
          if_neg full, Prog.run_pure]
        split_ifs with zero
        · exact ih _ _ _ _ _
        · rfl

section Tries

/-- The tries to program a page, from a call of the lower device on: the number of the call behind the
one that goes well. -/
def programTries (paddr : Nat) : (tries tick : Nat) → Option Nat
  | 0, _ => none
  | tries + 1, tick =>
    if (env.fate tick (.writePage paddr)).ret = 0 then some (tick + 1)
    else programTries paddr tries (tick + 2)

variable {env} {i : Instance} (paddr : Nat) {page page' : Bytes}

theorem lowerWritePage_run (w : World) :
    (lowerWritePage env false paddr page none).run w =
      ((env.fate w.tick (.writePage paddr)).ret,
        { w.note (.lower (.writePage paddr)) with
          tick := w.tick + 1
          chip := if (env.fate w.tick (.writePage paddr)).ret = 0 then
              w.chip.setPage env.geo paddr page none
            else w.chip.setPage env.geo paddr (env.fate w.tick (.writePage paddr)).main
              (some (env.fate w.tick (.writePage paddr)).oob) }) := by
  by_cases zero : (env.fate w.tick (.writePage paddr)).ret = 0
  · rw [if_pos zero]
    simp only [lowerWritePage, Prog.run_bind, Bool.false_eq_true, if_false]
    split_ifs with done
    · rfl
    · exact absurd zero done
  · rw [if_neg zero]
    simp only [lowerWritePage, Prog.run_bind, Bool.false_eq_true, if_false]
    split_ifs with done
    · exact absurd done zero
    · rfl

/-- Two programs of one page with the same bytes. -/
theorem lowerWritePage_alike (same : ∀ j < env.geo.writesize, page j = page' j) {w w' : World}
    (alike : Alike i w w') :
    let one := (lowerWritePage env false paddr page none).run w
    let two := (lowerWritePage env false paddr page' none).run w'
    one.1 = (env.fate w.tick (.writePage paddr)).ret ∧ two.1 = one.1 ∧ Alike i one.2 two.2 ∧
      one.2.ni = w.ni ∧ one.2.tick = w.tick + 1 := by
  obtain ⟨first, second, chip, tick⟩ := alike
  have image : w'.chip.setPage env.geo paddr page' none = w.chip.setPage env.geo paddr page none := by
    rw [chip, Chip.setPage, Chip.setPage]
    congr 1
    funext k
    by_cases inside : env.geo.pageStart paddr ≤ k ∧ k < env.geo.pageStart paddr + env.geo.writesize
    · rw [Bytes.memcpy_inside _ _ _ _ _ _ inside.1 inside.2,
        Bytes.memcpy_inside _ _ _ _ _ _ inside.1 inside.2, same _ (by omega)]
    · rw [Bytes.memcpy_outside _ _ _ _ _ _ (by omega), Bytes.memcpy_outside _ _ _ _ _ _ (by omega)]
  rw [lowerWritePage_run, lowerWritePage_run, tick, image, chip]
  exact ⟨rfl, rfl, ⟨first, second, rfl, rfl⟩, rfl, rfl⟩

theorem retry_alike (same : ∀ j < env.geo.writesize, page j = page' j) (tries : Nat) (w w' : World)
    (alike : Alike i w w') :
    let one := (retry env (lowerWritePage env false paddr page none) tries).run w
    let two := (retry env (lowerWritePage env false paddr page' none) tries).run w'
    one.1 = (programTries env paddr tries w.tick).isSome ∧ two.1 = one.1 ∧ Alike i one.2 two.2 ∧
      one.2.ni = w.ni ∧ ∀ t ∈ programTries env paddr tries w.tick, one.2.tick = t := by
  induction tries generalizing w w' with
  | zero => exact ⟨rfl, rfl, alike, rfl, fun t none => absurd none (by simp [programTries])⟩
  | succ tries ih =>
    obtain ⟨ret, again, after, kept, tick⟩ := lowerWritePage_alike paddr same alike
    simp only [retry, programTries, Prog.run_bind, again, ret]
    split_ifs with zero
    · exact ⟨rfl, rfl, after, kept, fun t here => tick.trans (Option.some.inj here)⟩
    · generalize (lowerWritePage env false paddr page none).run w = one at after kept tick ⊢
      generalize (lowerWritePage env false paddr page' none).run w' = two at after ⊢
      have reset : Alike i ((resetChip env).run one.2).2 ((resetChip env).run two.2).2 :=
        (Alike.lowerCall env .resetChip _ _ after).2
      have tick' : ((resetChip env).run one.2).2.tick = w.tick + 2 := congrArg (· + 1) tick
      have rest := ih _ _ reset
      rw [tick'] at rest
      obtain ⟨success, same, later, kept', ticks⟩ := rest
      exact ⟨success, same, later, kept'.trans kept, ticks⟩

/-- The call behind the program of a page that is taken: its block is mapped, and one of the tries goes
well. -/
def pageTaken (env : Env) (i : Instance) (addr tick : Nat) : Option Nat :=
  (logicAddr env i addr).bind fun paddr => programTries env paddr tryCount tick

variable {paddr} {addr : Nat} {w w' : World}

theorem writeLogicPage_unmapped (place : logicAddr env w.ni addr = none) :
    (writeLogicPage env false addr page none).run w = (-eio, w) := by
  simp only [writeLogicPage, Prog.run_bind, run_ni, place]
  rfl

theorem writeLogicPage_mapped (place : logicAddr env w.ni addr = some paddr)
    (writable : w.ni.lower.readOnly = false) :
    (writeLogicPage env false addr page none).run w =
      (if ((retry env (lowerWritePage env false paddr page none) tryCount).run w).1 then pure 0
        else do
          needRemap env (w.ni.blockMapping (env.geo.addr2ba addr)).toNat
          pure (-eio)).run ((retry env (lowerWritePage env false paddr page none) tryCount).run w).2 := by
  simp only [writeLogicPage, writePhysPage, Prog.run_bind, run_ni, place, Bool.false_eq_true, if_false,
    writable]

theorem writeLogicPage_alike (same : ∀ j < env.geo.writesize, page j = page' j)
    (alike : Alike i w w') (writable : i.lower.readOnly = false) {addr' t : Nat}
    (taken : pageTaken env i addr w.tick = some t) (place : logicAddr env i addr' = logicAddr env i addr) :
    let one := (writeLogicPage env false addr page none).run w
    let two := (writeLogicPage env false addr' page' none).run w'
    one.1 = 0 ∧ two.1 = 0 ∧ Alike i one.2 two.2 ∧ one.2.ni = w.ni ∧ one.2.tick = t := by
  obtain ⟨paddr, mapped, tried⟩ := Option.bind_eq_some_iff.mp taken
  have first := (alike.logicAddr_eq env addr).1.trans mapped
  have second := (alike.logicAddr_eq env addr').2.trans (place.trans mapped)
  obtain ⟨success, again, after, kept, ticks⟩ := retry_alike paddr same tryCount w w' alike
  rw [tried, Option.isSome_some] at success
  have open_ : w.ni.lower.readOnly = false ∧ w'.ni.lower.readOnly = false := by
    obtain ⟨⟨_, one⟩, ⟨_, two⟩, -, -⟩ := alike
    rw [one, two]
    exact ⟨writable, writable⟩
  simp only [writeLogicPage_mapped first open_.1, writeLogicPage_mapped second open_.2, again, success,
    if_true, Prog.run_pure]
  exact ⟨trivial, trivial, after, kept, ticks t tried⟩

/-- A page that is not taken ends the write. -/
theorem writeLogicPage_refused (writable : w.ni.lower.readOnly = false)
    (refused : pageTaken env w.ni addr w.tick = none) :
    ((writeLogicPage env false addr page none).run w).1 = -eio := by
  cases place : logicAddr env w.ni addr with
  | none => rw [writeLogicPage_unmapped place]
  | some paddr =>
    rw [pageTaken, place, Option.bind_some] at refused
    have own : ∀ j < env.geo.writesize, page j = page j := fun _ _ => rfl
    obtain ⟨success, -⟩ := retry_alike paddr own tryCount w w (Alike.refl w)
    rw [refused, Option.isSome_none] at success
    rw [writeLogicPage_mapped place writable, success, if_neg Bool.false_ne_true]
    rfl

/-- The MTD device writes a page without spare bytes the same way. -/
theorem writeLogicBuffers_data (lower : LowerMtd env.geo) (mode : OobMode) :
    writeLogicBuffers env lower mode addr (some page) none = writeLogicPage env false addr page none := by
  have call (paddr : Nat) : lowerWriteBuffers env lower mode paddr (some page) none =
      lowerWritePage env false paddr page none := by
    cases mode <;> rfl
  unfold writeLogicBuffers writeLogicPage writePhysBuffers writePhysPage
  simp only [call, Bool.false_eq_true, if_false] <;> rfl

end Tries

section Images

variable {geo : Geometry} (data cache : Bytes) {off ptr remain : Nat}

/-- The bytes around those of the range come from the page cache behind them, and are 0xff before. -/
theorem rangePage_eq (j : Nat) (inside : j < geo.writesize) :
    rangePage geo data cache off ptr remain j =
      if j < off % geo.writesize then 0xff
      else if j < off % geo.writesize + (geo.chunk off remain).2 then
        data (ptr + (j - off % geo.writesize))
      else cache j := by
  have short : (geo.chunk off remain).2 ≤ geo.writesize - off % geo.writesize := Nat.min_le_left _ _
  rw [rangePage]
  by_cases full : (geo.chunk off remain).2 = geo.writesize
  · have start : off % geo.writesize = 0 := by
      have := Nat.mod_lt off geo.writesize_pos
      omega
    simp [full, start, inside]
  · rw [if_neg full]
    by_cases before : j < off % geo.writesize
    · rw [if_pos before, Bytes.memcpy_outside _ _ _ _ _ _ (.inl before),
        Bytes.memset_inside _ _ _ _ _ (Nat.zero_le _) (by omega)]
    · rw [if_neg before]
      split_ifs with own
      · rw [Bytes.memcpy_inside _ _ _ _ _ _ (by omega) own]
      · rw [Bytes.memcpy_outside _ _ _ _ _ _ (by omega), Bytes.memset_outside _ _ _ _ _ (by omega)]

/-- The MTD device fills both sides with 0xff. -/
theorem fillPage_eq (s : Stream) (size j : Nat) (inside : j < size) :
    fillPage cache 0 size size data s j =
      if j < s.col then 0xff
      else if j < s.col + s.chunk size then data (s.done + (j - s.col)) else 0xff := by
  have short : s.chunk size ≤ size - s.col := Nat.min_le_left _ _
  rw [fillPage]
  by_cases before : j < s.col
  · rw [if_pos before, Bytes.memset_outside _ _ _ _ _ (by omega),
      Bytes.memcpy_outside _ _ _ _ _ _ (by omega), Bytes.memset_inside _ _ _ _ _ (by omega) (by omega)]
  · rw [if_neg before]
    split_ifs with own
    · rw [Bytes.memset_outside _ _ _ _ _ (by omega), Bytes.memcpy_inside _ _ _ _ _ _ (by omega) (by omega),
        Nat.zero_add]
    · rw [Bytes.memset_inside _ _ _ _ _ (by omega) (by omega)]

end Images

section Loops

/-- Every page of a range is mapped alike where the MTD device looks for it, and is taken. -/
def TakesPages (env : Env) (i : Instance) (shift : Nat) : (fuel off remain tick : Nat) → Prop
  | 0, _, _, _ => True
  | fuel + 1, off, remain, tick =>
    remain = 0 ∨
      logicAddr env i (off - off % env.geo.writesize - shift) =
        logicAddr env i (off - off % env.geo.writesize) ∧
      ∃ t, pageTaken env i (off - off % env.geo.writesize) tick = some t ∧
        TakesPages env i shift fuel (off + (env.geo.chunk off remain).2)
          (remain - (env.geo.chunk off remain).2) t

theorem takesPages_done (env : Env) (i : Instance) (shift fuel off tick : Nat) :
    TakesPages env i shift fuel off 0 tick := by
  cases fuel with
  | zero => trivial
  | succ fuel => exact .inl rfl

/-- The page cache once the first page of a range is behind. -/
def laterCache (geo : Geometry) (data cache : Bytes) (addr : Nat) : Bytes := fun j =>
  if addr % geo.writesize = 0 then cache j
  else if j < addr % geo.writesize then 0xff
  else data (j - addr % geo.writesize)

/-- The page cache holds 0xff where the last page of a range has no byte of it. -/
def CleanTail (geo : Geometry) (data cache : Bytes) (addr size : Nat) : Prop :=
  ∀ j < geo.writesize, (addr + size) % geo.writesize ≠ 0 → (addr + size) % geo.writesize ≤ j →
    (if addr % geo.writesize + size ≤ geo.writesize then cache j
      else laterCache geo data cache addr j) = 0xff

/-- Both loops have come to the same byte of the range, which the one finds `shift` lower. -/
structure InStep (geo : Geometry) (data cache₀ : Bytes) (addr size shift off ptr remain : Nat)
    (cache : Bytes) (g : Paged.WriteState) : Prop where
  left_eq : g.data.left = remain
  done_eq : g.data.done = ptr
  oob_eq : g.oob.left = 0
  col_eq : remain ≠ 0 → g.data.col = off % geo.writesize
  addr_eq : remain ≠ 0 → g.addr = off - off % geo.writesize - shift
  shift_le : remain ≠ 0 → shift ≤ off - off % geo.writesize
  off_eq : off = addr + ptr
  size_eq : ptr + remain = size
  first : ptr = 0 → cache = cache₀
  later : ptr ≠ 0 → remain ≠ 0 → off % geo.writesize = 0 ∧ geo.writesize ≤ addr % geo.writesize + ptr ∧
    ∀ j < geo.writesize, cache j = laterCache geo data cache₀ addr j

variable {env} (lower : LowerMtd env.geo) (mode : OobMode) {data cache₀ cache : Bytes}
  {addr size shift off ptr remain : Nat} {g : Paged.WriteState}

/-- The two images of the page at hand are the same except for the end of the last one. -/
theorem InStep.image_iff (step : InStep env.geo data cache₀ addr size shift off ptr remain cache g)
    (more : remain ≠ 0) :
    (∀ j < env.geo.writesize, rangePage env.geo data cache off ptr remain j =
      g.fillCache (lower.sizes mode) (dataRequest data size) j) ↔
      remain - (env.geo.chunk off remain).2 ≠ 0 ∨ CleanTail env.geo data cache₀ addr size := by
  obtain ⟨left, done, oob, col, -, -, off_eq, size_eq, first, later⟩ := step
  have column := Nat.mod_lt off env.geo.writesize_pos
  have image (j : Nat) (inside : j < env.geo.writesize) :
      g.fillCache (lower.sizes mode) (dataRequest data size) j =
        if j < off % env.geo.writesize then 0xff
        else if j < off % env.geo.writesize + (env.geo.chunk off remain).2 then
          data (ptr + (j - off % env.geo.writesize))
        else 0xff := by
    rw [Paged.WriteState.fillCache, if_pos oob, if_neg (left ▸ more)]
    refine (fillPage_eq data g.cache g.data env.geo.writesize j inside).trans ?_
    rw [Stream.chunk, col more, done, left]
    rfl
  have same : (∀ j < env.geo.writesize, rangePage env.geo data cache off ptr remain j =
      g.fillCache (lower.sizes mode) (dataRequest data size) j) ↔
      ∀ j < env.geo.writesize, off % env.geo.writesize + (env.geo.chunk off remain).2 ≤ j →
        cache j = 0xff := by
    refine forall₂_congr fun j inside => ?_
    rw [rangePage_eq data cache j inside, image j inside]
    split_ifs with before own
    · exact iff_of_true rfl fun behind => absurd behind (by omega)
    · exact iff_of_true rfl fun behind => absurd behind (by omega)
    · exact ⟨fun clean _ => clean, fun clean => clean (by omega)⟩
  rw [same]
  by_cases last : remain - (env.geo.chunk off remain).2 = 0
  · have all : (env.geo.chunk off remain).2 = remain := by
      have := Nat.min_le_right (env.geo.writesize - off % env.geo.writesize) remain
      simp only [Geometry.chunk] at last ⊢
      omega
    have fits : off % env.geo.writesize + remain ≤ env.geo.writesize := by
      have := Nat.min_le_left (env.geo.writesize - off % env.geo.writesize) remain
      simp only [Geometry.chunk] at all
      omega
    have end_ : (addr + size) % env.geo.writesize = (off % env.geo.writesize + remain) %
        env.geo.writesize := by
      rw [Nat.mod_add_mod]
      congr 1
      omega
    have source (j : Nat) (inside : j < env.geo.writesize) :
        (if addr % env.geo.writesize + size ≤ env.geo.writesize then cache₀ j
          else laterCache env.geo data cache₀ addr j) = cache j := by
      by_cases start : ptr = 0
      · subst start
        rw [if_pos (by rw [show addr = off by omega]; omega), first rfl]
      · obtain ⟨-, far, same⟩ := later start more
        rw [if_neg (by omega), same j inside]
    simp only [all, Nat.sub_self, ne_eq, not_true_eq_false, false_or, CleanTail, end_]
    refine forall₂_congr fun j inside => ?_
    rw [source j inside]
    by_cases whole : off % env.geo.writesize + remain = env.geo.writesize
    · rw [whole, Nat.mod_self]
      exact iff_of_true (fun behind => absurd behind (by omega)) (fun none => absurd rfl none)
    · have part : (off % env.geo.writesize + remain) % env.geo.writesize =
          off % env.geo.writesize + remain := Nat.mod_eq_of_lt (by omega)
      rw [part]
      exact ⟨fun clean _ => clean, fun clean => clean (by omega)⟩
  · have ends := (chunk_ends env.geo off remain last).2
    exact iff_of_true (fun j inside behind => absurd behind (by omega)) (.inl last)

theorem InStep.next (step : InStep env.geo data cache₀ addr size shift off ptr remain cache g)
    (more : remain ≠ 0) :
    InStep env.geo data cache₀ addr size shift (off + (env.geo.chunk off remain).2)
      (ptr + (env.geo.chunk off remain).2) (remain - (env.geo.chunk off remain).2)
      (cacheBehind env.geo data cache off ptr remain)
      (g.next (lower.sizes mode) (dataRequest data size)) := by
  obtain ⟨left, done, oob, col, place, low, off_eq, size_eq, first, later⟩ := step
  have column := Nat.mod_lt off env.geo.writesize_pos
  have below := Nat.mod_le off env.geo.writesize
  have short : (env.geo.chunk off remain).2 ≤ remain := Nat.min_le_right _ _
  have pos : 0 < (env.geo.chunk off remain).2 := by
    simp only [Geometry.chunk]
    omega
  have taken : g.data.chunk (lower.sizes mode).writesize = (env.geo.chunk off remain).2 := by
    rw [Stream.chunk, left, col more]
    rfl
  have next : g.data.next (lower.sizes mode).writesize =
      ⟨0, ptr + (env.geo.chunk off remain).2, remain - (env.geo.chunk off remain).2⟩ := by
    rw [Stream.next, if_neg (left ▸ more), taken, done, left]
  have ends := chunk_ends env.geo off remain
  constructor
  · simp only [Paged.WriteState.next, next]
  · simp only [Paged.WriteState.next, next]
  · simp only [Paged.WriteState.next, Stream.next, oob, if_true]
  · intro more'
    simp only [Paged.WriteState.next, next, (ends more').1]
  · intro more'
    obtain ⟨start, end_⟩ := ends more'
    simp only [Paged.WriteState.next, place more]
    rw [start, end_]
    change _ + env.geo.writesize = _
    have := low more
    omega
  · intro more'
    obtain ⟨start, end_⟩ := ends more'
    have := low more
    omega
  · omega
  · omega
  · intro none
    omega
  · intro _ more'
    obtain ⟨start, end_⟩ := ends more'
    by_cases head : ptr = 0
    · have same : addr = off := by omega
      refine ⟨start, by rw [same]; omega, fun j inside => ?_⟩
      rw [cacheBehind, laterCache, same]
      by_cases full : (env.geo.chunk off remain).2 = env.geo.writesize
      · rw [if_pos full, if_pos (by omega), first head]
      · rw [if_neg full, if_neg (by omega), rangePage_eq data cache j inside, head, Nat.zero_add]
        split_ifs with before own
        · rfl
        · rfl
        · exact absurd inside (by omega)
    · obtain ⟨aligned, far, same⟩ := later head more
      refine ⟨start, by omega, fun j inside => ?_⟩
      rw [cacheBehind, if_pos (by omega)]
      exact same j inside

/-- What a page that is handed down comes to: its physical page, and the image for it. -/
def seen (env : Env) (i : Instance) (page : Paged.PageWrite) : Option Nat × Option (List UInt8) :=
  (logicAddr env i page.addr, page.data.map fun d => d.slice 0 env.geo.writesize)

/-- Both loops have returned the same code and length, programmed the same images at the same places,
and left the same flash. -/
structure SameWrites (env : Env) (i : Instance) (size : Nat)
    (fast : ((Int × Nat) × List Paged.PageWrite) × World)
    (slow : (Int × Paged.WriteState) × World) : Prop where
  code_eq : slow.1.1 = fast.1.1.1
  count_eq : slow.1.2.data.done + fast.1.1.2 = size
  chip_eq : slow.2.chip = fast.2.chip
  pages_eq : fast.1.2.map (seen env i) = slow.1.2.pages.map (seen env i)

theorem writeRangePages_grows (env : Env) (data : Bytes) (fuel off ptr remain : Nat)
    (pages : List Paged.PageWrite) (w : World) :
    ∃ more, ((writeRangePages env data fuel off ptr remain pages).run w).1.2 = pages ++ more := by
  induction fuel generalizing off ptr remain pages w with
  | zero => exact ⟨[], (List.append_nil _).symm⟩
  | succ fuel ih =>
    rw [writeRangePages]
    split_ifs with none
    · exact ⟨[], (List.append_nil _).symm⟩
    · simp only [Prog.run_bind]
      split_ifs with zero
      · obtain ⟨more, grown⟩ := ih _ _ _ _ _
        exact ⟨_ :: more, grown.trans (List.append_assoc _ _ _)⟩
      · exact ⟨_, rfl⟩

variable {i : Instance} {w w' : World} {log : List Paged.PageWrite}

/-- The page that `nmbm_write_range` hands down next. -/
def nextPage (env : Env) (data cache : Bytes) (off ptr remain : Nat) : Paged.PageWrite where
  addr := off - off % env.geo.writesize
  data := some (rangePage env.geo data cache off ptr remain)
  oob := none
  oobwrlen := 0

theorem slice_inj {one two : Bytes} (n : Nat) :
    one.slice 0 n = two.slice 0 n ↔ ∀ j < n, one j = two j := by
  constructor
  · intro same j inside
    have byte := congrArg (fun bytes => bytes.getD j 0) same
    simp only [Bytes.slice_getD _ _ _ _ inside, Nat.zero_add] at byte
    exact byte
  · exact fun same => Bytes.slice_congr _ _ _ _ _ fun j inside => by simpa using same j inside

theorem writeRangePages_step (env : Env) (data : Bytes) (fuel off ptr remain : Nat)
    (log : List Paged.PageWrite) (w : World) (more : remain ≠ 0) :
    let put := w.modifyNi fun i =>
      { i with pageCache := cacheBehind env.geo data i.pageCache off ptr remain }
    let wrote := (writeLogicPage env false (off - off % env.geo.writesize)
      (rangePage env.geo data w.ni.pageCache off ptr remain) none).run put
    let log' := log ++ [nextPage env data w.ni.pageCache off ptr remain]
    (writeRangePages env data (fuel + 1) off ptr remain log).run w =
      if wrote.1 = 0 then
        (writeRangePages env data fuel (off + (env.geo.chunk off remain).2)
          (ptr + (env.geo.chunk off remain).2) (remain - (env.geo.chunk off remain).2) log').run wrote.2
      else (((wrote.1, remain), log'), wrote.2) := by
  intro put wrote log'
  rw [writeRangePages, if_neg more]
  simp only [Prog.run_bind, Prog.run_ite]
  rfl

section Run

variable (alike : Alike i w w') (step : InStep env.geo data cache₀ addr size shift off ptr remain
  w.ni.pageCache g) (open_ : i.protectedMode = false) (writable : i.lower.readOnly = false)
  (limit : off + remain ≤ env.geo.ba2addr i.dataBlockCount)
include alike step open_ writable limit

theorem writePages_step (fuel : Nat) (more : remain ≠ 0) :
    let ops := dataRequest data size
    let wrote := (writeLogicPage env false (off - off % env.geo.writesize - shift)
      (g.fillCache (lower.sizes mode) ops) none).run w'
    (Paged.writePages (lower.sizes mode) ops
      (fun page => writeSingleBuffers env lower mode page.addr page.data page.oob) (fuel + 1) g).run w' =
      if wrote.1 = 0 then
        (Paged.writePages (lower.sizes mode) ops
          (fun page => writeSingleBuffers env lower mode page.addr page.data page.oob) fuel
          (g.next (lower.sizes mode) ops)).run wrote.2
      else ((wrote.1, g.next (lower.sizes mode) ops), wrote.2) := by
  intro ops wrote
  have going : ¬g.Done := fun ended => more (step.left_eq ▸ ended.1)
  have some_ : ops.len ≠ 0 := by
    have := step.size_eq
    change size ≠ 0
    omega
  have addr := step.addr_eq more
  have accepted : refuseWrite env w'.ni g.addr 0 = none := by
    obtain ⟨_, second⟩ := alike.ni_eq'
    rw [second]
    simp only [refuseWrite, open_, writable]
    rw [if_neg (by simp), if_neg (by omega), if_neg (by omega)]
  have page : writeSingleBuffers env lower mode (g.page (lower.sizes mode) ops).addr
      (g.page (lower.sizes mode) ops).data (g.page (lower.sizes mode) ops).oob =
        writeSingleBuffers env lower mode g.addr (some (g.fillCache (lower.sizes mode) ops)) none := by
    rw [Paged.WriteState.page, if_neg some_]
    rfl
  have run : (writeSingleBuffers env lower mode g.addr (some (g.fillCache (lower.sizes mode) ops))
      none).run w' = wrote := by
    rw [writeSingleBuffers_accepted env lower mode accepted, writeLogicBuffers_data, addr]
  rw [Paged.writePages, if_neg going, Prog.run_bind, page, run]
  by_cases zero : wrote.1 = 0
  · rw [if_pos zero, if_neg (not_not.mpr zero)]
  · rw [if_neg zero, if_pos zero]
    rfl

omit open_ writable limit in
theorem writes_finished (fuel : Nat) (logs : log.map (seen env i) = g.pages.map (seen env i))
    (none : remain = 0) :
    SameWrites env i size ((writeRangePages env data fuel off ptr remain log).run w)
      ((Paged.writePages (lower.sizes mode) (dataRequest data size)
        (fun page => writeSingleBuffers env lower mode page.addr page.data page.oob) fuel g).run w') := by
  have ended : g.Done := ⟨step.left_eq.trans none, step.oob_eq⟩
  have count : g.data.done + remain = size := by
    rw [step.done_eq]
    exact step.size_eq
  cases fuel with
  | zero => exact ⟨rfl, count, alike.chip_eq, logs⟩
  | succ fuel =>
    rw [writeRangePages, if_pos none, Paged.writePages, if_pos ended]
    exact ⟨rfl, count, alike.chip_eq, logs⟩

/-- From states in step, with the same pages behind them, both loops end the same exactly when the rest
of the range is taken and the end of its last page is clean. -/
theorem writes_iff (fuel : Nat) (logs : log.map (seen env i) = g.pages.map (seen env i))
    (enough : remain ≤ fuel) :
    SameWrites env i size ((writeRangePages env data fuel off ptr remain log).run w)
      ((Paged.writePages (lower.sizes mode) (dataRequest data size)
        (fun page => writeSingleBuffers env lower mode page.addr page.data page.oob) fuel g).run w') ↔
      remain = 0 ∨ TakesPages env i shift fuel off remain w.tick ∧
        CleanTail env.geo data cache₀ addr size := by
  induction fuel generalizing off ptr remain log g w w' with
  | zero => exact iff_of_true (writes_finished lower mode alike step 0 logs (by omega)) (.inl (by omega))
  | succ fuel ih =>
    by_cases more : remain = 0
    · exact iff_of_true (writes_finished lower mode alike step _ logs more) (.inl more)
    let put := w.modifyNi fun i =>
      { i with pageCache := cacheBehind env.geo data i.pageCache off ptr remain }
    have alike' : Alike i put w' := alike.setCache _
    have place : pageTaken env put.ni (off - off % env.geo.writesize) put.tick =
        pageTaken env i (off - off % env.geo.writesize) w.tick := by
      rw [pageTaken, pageTaken, (alike'.logicAddr_eq env _).1]
      rfl
    have open' : put.ni.lower.readOnly = false := by
      obtain ⟨⟨_, one⟩, -⟩ := alike'
      rw [one]
      exact writable
    have short : (env.geo.chunk off remain).2 ≤ remain := Nat.min_le_right _ _
    have pos : 0 < (env.geo.chunk off remain).2 := by
      have := Nat.mod_lt off env.geo.writesize_pos
      simp only [Geometry.chunk]
      omega
    -- The images of this page, where both loops hand it down.
    have heads : seen env i (nextPage env data w.ni.pageCache off ptr remain) =
        seen env i (g.page (lower.sizes mode) (dataRequest data size)) ↔
        logicAddr env i (off - off % env.geo.writesize - shift) =
            logicAddr env i (off - off % env.geo.writesize) ∧
          (remain - (env.geo.chunk off remain).2 ≠ 0 ∨ CleanTail env.geo data cache₀ addr size) := by
      have some_ : (dataRequest data size).len ≠ 0 := by
        have := step.size_eq
        change size ≠ 0
        omega
      rw [← step.image_iff lower mode more, ← slice_inj]
      simp only [seen, nextPage, Paged.WriteState.page, if_neg some_, step.addr_eq more, Prod.mk.injEq,
        Option.map_some, Option.some.injEq]
      exact and_congr_left fun _ => eq_comm
    have onward (t : Nat) (taken : pageTaken env i (off - off % env.geo.writesize) w.tick = some t)
        (same : logicAddr env i (off - off % env.geo.writesize - shift) =
            logicAddr env i (off - off % env.geo.writesize))
        (clean : remain - (env.geo.chunk off remain).2 ≠ 0 ∨ CleanTail env.geo data cache₀ addr size) :
        SameWrites env i size ((writeRangePages env data (fuel + 1) off ptr remain log).run w)
          ((Paged.writePages (lower.sizes mode) (dataRequest data size)
            (fun page => writeSingleBuffers env lower mode page.addr page.data page.oob) (fuel + 1)
            g).run w') ↔
        remain - (env.geo.chunk off remain).2 = 0 ∨
          TakesPages env i shift fuel (off + (env.geo.chunk off remain).2)
            (remain - (env.geo.chunk off remain).2) t ∧ CleanTail env.geo data cache₀ addr size := by
      obtain ⟨one, two, after, kept, tick⟩ := writeLogicPage_alike
        ((step.image_iff lower mode more).mpr clean) alike' writable taken same
      rw [writeRangePages_step env data fuel off ptr remain log w more, if_pos one,
        writePages_step lower mode alike step open_ writable limit fuel more, if_pos two, ← tick]
      apply ih after
      · rw [kept]
        exact step.next lower mode more
      · omega
      · simp only [List.map_append, List.map_cons, List.map_nil, logs, Paged.WriteState.next,
          heads.mpr ⟨same, clean⟩]
      · omega
    -- Whatever comes behind it, both loops have handed this page down.
    have fastHas : ∃ later, ((writeRangePages env data (fuel + 1) off ptr remain log).run w).1.2 =
        log ++ nextPage env data w.ni.pageCache off ptr remain :: later := by
      rw [writeRangePages_step env data fuel off ptr remain log w more]
      split_ifs with zero
      · obtain ⟨later, grown⟩ := writeRangePages_grows env data fuel _ _ _ _ _
        exact ⟨later, grown.trans (List.append_assoc _ _ _)⟩
      · exact ⟨[], rfl⟩
    have slowHas : (∃ later, ((Paged.writePages (lower.sizes mode) (dataRequest data size)
        (fun page => writeSingleBuffers env lower mode page.addr page.data page.oob) (fuel + 1)
        g).run w').1.2.pages = g.pages ++ g.page (lower.sizes mode) (dataRequest data size) :: later) ∧
        ptr + (env.geo.chunk off remain).2 ≤ ((Paged.writePages (lower.sizes mode) (dataRequest data size)
          (fun page => writeSingleBuffers env lower mode page.addr page.data page.oob) (fuel + 1)
          g).run w').1.2.data.done := by
      have next := (step.next lower mode more).done_eq
      rw [writePages_step lower mode alike step open_ writable limit fuel more]
      split_ifs with zero
      · obtain ⟨⟨later, grown⟩, done⟩ := Paged.writePages_grows (lower.sizes mode) (dataRequest data size)
          (fun page => writeSingleBuffers env lower mode page.addr page.data page.oob) fuel
          (g.next (lower.sizes mode) (dataRequest data size)) _
        exact ⟨⟨later, grown.trans (List.append_assoc _ _ _)⟩, next ▸ done⟩
      · exact ⟨⟨[], rfl⟩, next.ge⟩
    constructor
    · intro same
      obtain ⟨later, fast⟩ := fastHas
      obtain ⟨⟨later', slow⟩, done⟩ := slowHas
      have pages := same.pages_eq
      rw [fast, slow, List.map_append, List.map_append, logs, List.append_cancel_left_eq,
        List.map_cons, List.map_cons, List.cons.injEq] at pages
      obtain ⟨place', clean⟩ := heads.mp pages.1
      cases taken : pageTaken env i (off - off % env.geo.writesize) w.tick with
      | none =>
        have refused := @writeLogicPage_refused env
          (rangePage env.geo data w.ni.pageCache off ptr remain) _ put open' (place.trans taken)
        have count := same.count_eq
        rw [writeRangePages_step env data fuel off ptr remain log w more,
          if_neg (by rw [refused]; decide)] at count
        have size_eq := step.size_eq
        dsimp only at count
        omega
      | some t =>
        obtain none | ⟨rest, whole⟩ := (onward t taken place' clean).mp same
        · refine .inr ⟨.inr ⟨place', t, taken, ?_⟩, clean.resolve_left (not_not.mpr none)⟩
          rw [none]
          exact takesPages_done env i shift fuel _ t
        · exact .inr ⟨.inr ⟨place', t, taken, rest⟩, whole⟩
    · rintro (none | ⟨none | ⟨place', t, taken, rest⟩, clean⟩)
      · exact absurd none more
      · exact absurd none more
      · exact (onward t taken place' (.inr clean)).mpr (.inr ⟨rest, clean⟩)

end Run

end Loops

section Differ

variable {env} (lower : LowerMtd env.geo) (mode : OobMode) (data cache : Bytes) {addr size : Nat}
  {w : World}

/-- The pages that `nmbm_write_range` hands down. -/
def rangePages (env : Env) (addr size : Nat) (data : Bytes) (w : World) : List Paged.PageWrite :=
  match refuseWrite env w.ni addr size with
  | some _ => []
  | none => ((writeRangePages env data size addr 0 size []).run w).1.2

/-- Both ways to write the range return the same code and length, program the same images at the same
physical pages, and leave the same flash. The MTD layer sets the length to zero before the call. -/
structure WritesSame (env : Env) (lower : LowerMtd env.geo) (mode : OobMode) (addr size : Nat)
    (data cache : Bytes) (w : World) : Prop where
  code_eq : ((mtdWriteData env lower mode (dataRequest data size) addr cache).value w).1 =
    ((writeRange env addr size data).value w).ret
  retlen_eq : ((mtdWriteData env lower mode (dataRequest data size) addr cache).value w).2.data.done =
    ((writeRange env addr size data).value w).retlen.getD 0
  pages_eq : (rangePages env addr size data w).map (seen env w.ni) =
    ((mtdWriteData env lower mode (dataRequest data size) addr cache).value w).2.pages.map
      (seen env w.ni)
  chip_eq : ((mtdWriteData env lower mode (dataRequest data size) addr cache).run w).2.chip =
    ((writeRange env addr size data).run w).2.chip

theorem writeRange_refused {ret : Int} (refused : refuseWrite env w.ni addr size = some ret) :
    (writeRange env addr size data).run w = (.plain ret, w) := by
  simp only [writeRange, Prog.run_bind, run_ni, refused]
  rfl

theorem writeRange_accepted (accepted : refuseWrite env w.ni addr size = none) (more : size ≠ 0) :
    let fast := (writeRangePages env data size addr 0 size []).run w
    (writeRange env addr size data).run w =
      ({ Reply.plain fast.1.1.1 with retlen := some (size - fast.1.1.2) }, fast.2) := by
  have same := writeRangePages_run env data size addr 0 size [] w
  simp only [writeRange, Prog.run_bind, run_ni, accepted, if_neg more, ← same]
  rfl

/-- The MTD device counts the bytes of its first page, whatever comes of it. -/
theorem mtdWriteData_done (more : size ≠ 0) :
    0 < ((mtdWriteData env lower mode (dataRequest data size) addr cache).value w).2.data.done := by
  obtain ⟨fuel, rfl⟩ := Nat.exists_eq_succ_of_ne_zero more
  let g := Paged.WriteState.start (lower.sizes mode) (dataRequest data (fuel + 1)) (maskedAddr addr) cache
  have going : ¬g.Done := fun ended => more ended.1
  have column : maskedAddr addr % env.geo.writesize < env.geo.writesize :=
    Nat.mod_lt _ env.geo.writesize_pos
  have next : 0 < (g.next (lower.sizes mode) (dataRequest data (fuel + 1))).data.done := by
    change 0 < (Stream.next (lower.sizes mode).writesize
      ⟨maskedAddr addr % env.geo.writesize, 0, fuel + 1⟩).done
    rw [Stream.next, if_neg more]
    simp only [Stream.chunk]
    change 0 < 0 + min (env.geo.writesize - maskedAddr addr % env.geo.writesize) (fuel + 1)
    omega
  simp only [Prog.value, mtdWriteData, Paged.writeData]
  change 0 < ((Paged.writePages (lower.sizes mode) (dataRequest data (fuel + 1))
    (fun page => writeSingleBuffers env lower mode page.addr page.data page.oob) (fuel + 1)
      g).run w).1.2.data.done
  rw [Paged.writePages, if_neg going, Prog.run_bind]
  split_ifs
  · exact next
  · exact next.trans_le (Paged.writePages_grows (lower.sizes mode) (dataRequest data (fuel + 1))
      (fun page => writeSingleBuffers env lower mode page.addr page.data page.oob) fuel _ _).2

/-- Accepted ranges that are not empty: both ways agree exactly if every page is taken, and the page
cache is clean behind the last one. -/
theorem writesSame_accepted (accepted : refuseWrite env w.ni addr size = none) (more : size ≠ 0) :
    WritesSame env lower mode addr size data cache w ↔
      TakesPages env w.ni (addr - maskedAddr addr) size addr size w.tick ∧
        CleanTail env.geo data w.ni.pageCache addr size := by
  have checks := accepted
  simp only [refuseWrite] at checks
  split_ifs at checks with shut outside past
  obtain ⟨open_, writable⟩ := not_or.mp shut
  have column := maskedAddr_mod env addr
  have less : maskedAddr addr ≤ addr := Nat.mod_le _ _
  have below := Nat.mod_le (maskedAddr addr) env.geo.writesize
  have start : InStep env.geo data w.ni.pageCache addr size (addr - maskedAddr addr) addr 0 size
      w.ni.pageCache (.start (lower.sizes mode) (dataRequest data size) (maskedAddr addr) cache) := by
    constructor
    · rfl
    · rfl
    · rfl
    · exact fun _ => column
    · intro _
      change maskedAddr addr - maskedAddr addr % env.geo.writesize = _
      omega
    · omega
    · rfl
    · exact Nat.zero_add size
    · exact fun _ => rfl
    · exact fun none => absurd rfl none
  have logs : List.map (seen env w.ni) [] = List.map (seen env w.ni) (Paged.WriteState.start
      (lower.sizes mode) (dataRequest data size) (maskedAddr addr) cache).pages := rfl
  have both := writes_iff lower mode (Alike.refl w) start (Bool.eq_false_of_not_eq_true open_)
    (Bool.eq_false_of_not_eq_true writable) (by omega) size logs le_rfl
  rw [or_iff_right more] at both
  rw [← both]
  have fast := writeRange_accepted data accepted more
  have pages : rangePages env addr size data w =
      ((writeRangePages env data size addr 0 size []).run w).1.2 := by
    rw [rangePages, accepted]
  have counted : 0 < ((mtdWriteData env lower mode (dataRequest data size) addr cache).run
      w).1.2.data.done := mtdWriteData_done lower mode data cache more
  have writesSame : WritesSame env lower mode addr size data cache w ↔
      SameWrites env w.ni size ((writeRangePages env data size addr 0 size []).run w)
        ((mtdWriteData env lower mode (dataRequest data size) addr cache).run w) := by
    constructor
    · intro same
      have retlen := same.retlen_eq
      simp only [Prog.value, fast, Option.getD_some] at retlen
      refine ⟨?_, ?_, ?_, ?_⟩
      · exact same.code_eq.trans (congrArg (fun out => out.1.ret) fast)
      · omega
      · exact same.chip_eq.trans (congrArg (fun out => out.2.chip) fast)
      · exact pages ▸ same.pages_eq
    · intro same
      have count := same.count_eq
      refine ⟨?_, ?_, ?_, ?_⟩
      · exact same.code_eq.trans (congrArg (fun out => out.1.ret) fast).symm
      · simp only [Prog.value, fast, Option.getD_some]
        omega
      · exact pages ▸ same.pages_eq
      · exact same.chip_eq.trans (congrArg (fun out => out.2.chip) fast).symm
  exact writesSame

/-- The two ways to write agree exactly where the range is accepted, each of its pages is where the MTD
device looks for it and is taken, and what the page cache has left behind the last of them is 0xff. -/
theorem writePaths_agree_iff (env : Env) (lower : LowerMtd env.geo) (mode : OobMode) (addr size : Nat)
    (data cache : Bytes) (w : World) :
    WritesSame env lower mode addr size data cache w ↔
      refuseWrite env w.ni addr size = none ∧ (size = 0 ∨
        TakesPages env w.ni (addr - maskedAddr addr) size addr size w.tick ∧
          CleanTail env.geo data w.ni.pageCache addr size) := by
  cases checks : refuseWrite env w.ni addr size with
  | some ret =>
    apply iff_of_false
    · intro same
      have code := same.code_eq
      have retlen := same.retlen_eq
      simp only [Prog.value, writeRange_refused data checks] at code retlen
      by_cases none : size = 0
      · subst none
        have failed : ret = 0 := code.symm
        subst failed
        simp only [refuseWrite] at checks
        split_ifs at checks <;> exact absurd (Option.some.inj checks) (by decide)
      · exact absurd retlen (mtdWriteData_done lower mode data cache none).ne'
    · exact fun accepted => absurd accepted.1 (by simp)
  | none =>
    rw [and_iff_right rfl]
    by_cases none : size = 0
    · subst none
      apply iff_of_true _ (.inl rfl)
      have fast : (writeRange env addr 0 data).run w = (.plain 0, w) := by
        simp only [writeRange, Prog.run_bind, run_ni, checks, if_true]
        rfl
      have pages : rangePages env addr 0 data w = [] := by
        rw [rangePages, checks]
        rfl
      refine ⟨?_, ?_, ?_, ?_⟩
      · rw [Prog.value, Prog.value, fast]
        rfl
      · rw [Prog.value, Prog.value, fast]
        rfl
      · rw [pages]
        rfl
      · rw [fast]
        rfl
    · rw [writesSame_accepted lower mode data cache checks none, or_iff_right none]

/-- One byte over a page cache of zeros: `nmbm_write_range` programs the zeros behind it. -/
theorem writePaths_differ :
    ¬∀ (env : Env) (lower : LowerMtd env.geo) (mode : OobMode) (addr size : Nat) (data cache : Bytes)
      (w : World), WritesSame env lower mode addr size data cache w := by
  intro all
  have same := (all (sampleEnv fun _ _ => false) sampleLower .placeOob 0 1 (fun _ => 7) (fun _ => 0)
    (mappedWorld.modifyNi fun i => { i with pageCache := fun _ => 0 })).pages_eq
  exact absurd same (by decide +kernel)

end Differ

end Filogic.Nmbm
