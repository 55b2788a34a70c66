import Filogic.Snand.Fetch

/-! A page written in either mode and read back in either mode is the same page, and its OOB
byte 0 is the physical bad-block marker. -/

namespace Filogic.Snand
open Lib

variable {g : Geometry}

theorem exchange_agree {m n : Bytes} {bound : Nat} (same : ∀ k < bound, m k = n k) (i j : Nat)
    (hi : i < bound) (hj : j < bound) :
    ∀ k < bound, m.exchange i j k = n.exchange i j k := by
  intro k hk
  apply same
  rw [Equiv.swap_apply_def]
  split_ifs <;> assumption

theorem fdmBmSwap_agree {m n : Bytes} (same : ∀ k < g.formatted, m k = n k) :
    ∀ k < g.formatted, fdmBmSwap g m k = fdmBmSwap g n k := by
  unfold fdmBmSwap
  split_ifs
  · exact exchange_agree same _ _ g.writesize_lt_formatted g.marker_lt_formatted
  · exact same

theorem bmSwap_agree {m n : Bytes} (same : ∀ k < g.formatted, m k = n k) :
    ∀ k < g.formatted, bmSwap g m k = bmSwap g n k := by
  have low : g.writesize - (g.eccSteps - 1) * g.sparePerSector < g.formatted := by
    have := g.writesize_lt_formatted
    omega
  unfold bmSwap
  split_ifs
  · exact exchange_agree same _ _ g.marker_lt_formatted low
  · exact same

/-- The swaps of the auto-format read undo those of the write. -/
theorem unswap_agree {m n : Bytes} (same : ∀ k < g.formatted, m k = bmSwap g (fdmBmSwap g n) k) :
    ∀ k < g.formatted, fdmBmSwap g (bmSwap g m) k = n k := by
  intro k inside
  rw [fdmBmSwap_agree (bmSwap_agree same) k inside, bmSwap_twice, fdmBmSwap_twice]

theorem unswapRaw_renamed (fits : g.MarkerInLastSector) {raw n : Bytes}
    (same : Renamed g raw (bmSwap g (fdmBmSwap g n))) :
    Renamed g (fdmBmSwapRaw g (bmSwapRaw g raw)) n := by
  have back := fdmBmSwap_renamed (bmSwap_renamed fits same)
  rwa [bmSwap_twice, fdmBmSwap_twice] at back

theorem fromRawPage_buf (cache buf : Bytes) (out : Buffers) (asked : out.buf = some buf) :
    ∃ buf', (fromRawPage g cache out).buf = some buf' ∧
      ∀ k < g.writesize, buf' k = cache (g.place k) := by
  let body := fun (i : Nat) (m : Bytes) =>
    m.memcpy (i * g.soc.sectorSize) cache (i * g.rawSectorSize) g.soc.sectorSize
  have copied : (fromRawPage g cache out).buf = some (forRange body g.eccSteps buf) := by
    have loop := forRange_proj Buffers.buf (fromRawSector g cache)
      (fun i (buf : Option Bytes) => buf.map (body i)) (fun _ _ => rfl) g.eccSteps out
    have lift := forRange_proj some body (fun i (buf : Option Bytes) => buf.map (body i))
      (fun _ _ => rfl) g.eccSteps buf
    rw [fromRawPage, loop, asked, lift]
  refine ⟨_, copied, ?_⟩
  intro k inside
  have pos := g.sectorSize_pos
  have sector : k / g.soc.sectorSize < g.eccSteps := by
    rw [Nat.div_lt_iff_lt_mul pos, ← g.writesize_eq]
    exact inside
  rw [forRange_owned body (fun k => k / g.soc.sectorSize)
    (fun k _ => cache (k / g.soc.sectorSize * g.rawSectorSize + k % g.soc.sectorSize)),
    if_pos sector]
  · rw [Geometry.place, Geometry.sectorOf, Geometry.columnOf, if_pos inside, if_pos inside]
  · intro i _ m k other
    apply Bytes.memcpy_outside
    by_contra own
    exact other (Nat.div_eq_of_lt_le (by omega) (by rw [Nat.succ_mul]; omega))
  · intro i _ m k own
    have split := Nat.div_add_mod' k g.soc.sectorSize
    have column := Nat.mod_lt k pos
    rw [own] at split ⊢
    change m.memcpy _ _ _ _ k = _
    rw [Bytes.memcpy_inside _ _ _ _ _ _ (by omega) (by omega)]
    congr 1
    omega

/-- What `fromRawSector` makes of the OOB buffer. -/
def fromRawOob (g : Geometry) (cache : Bytes) (i : Nat) (oob : Bytes) : Bytes :=
  (oob.memcpy (i * g.soc.fdmSize) cache (i * g.rawSectorSize + g.soc.sectorSize)
    g.soc.fdmSize).memcpy
    (g.eccSteps * g.soc.fdmSize + i * g.eccBytes) cache
    (i * g.rawSectorSize + g.soc.sectorSize + g.soc.fdmSize) g.eccBytes

theorem fromRawPage_copied (cache oob : Bytes) (out : Buffers) (asked : out.oob = some oob) :
    (fromRawPage g cache out).oob = some (forRange (fromRawOob g cache) g.eccSteps oob) := by
  have loop := forRange_proj Buffers.oob (fromRawSector g cache)
    (fun i (oob : Option Bytes) => oob.map (fromRawOob g cache i)) (fun _ _ => rfl) g.eccSteps out
  have lift := forRange_proj some (fromRawOob g cache)
    (fun i (oob : Option Bytes) => oob.map (fromRawOob g cache i)) (fun _ _ => rfl) g.eccSteps oob
  rw [fromRawPage, loop, asked, lift]

theorem fromRawPage_oob (cache oob : Bytes) (out : Buffers) (asked : out.oob = some oob) :
    ∃ oob', (fromRawPage g cache out).oob = some oob' ∧
      ∀ k < g.eccSteps * g.soc.fdmSize, oob' k = cache (g.place (g.writesize + k)) := by
  refine ⟨_, fromRawPage_copied cache oob out asked, ?_⟩
  intro k inside
  have pos := g.fdmSize_pos
  have sector : k / g.soc.fdmSize < g.eccSteps := (Nat.div_lt_iff_lt_mul pos).mpr inside
  -- Only the FDM half of each round matters below `eccSteps * fdmSize`.
  have rounds (n : Nat) (le : n ≤ g.eccSteps) : forRange (fromRawOob g cache) n oob k =
      if k / g.soc.fdmSize < n then
        cache (k / g.soc.fdmSize * g.rawSectorSize + (g.soc.sectorSize + k % g.soc.fdmSize))
      else oob k := by
    induction n with
    | zero => rw [forRange, if_neg (Nat.not_lt_zero _)]
    | succ n ih =>
      have split := Nat.div_add_mod' k g.soc.fdmSize
      have column := Nat.mod_lt k pos
      change Bytes.memcpy _ _ _ _ _ k = _
      rw [Bytes.memcpy_outside _ _ _ _ _ _ (Or.inl (by omega))]
      by_cases own : k / g.soc.fdmSize = n
      · rw [own] at split
        rw [if_pos (by omega), own, Bytes.memcpy_inside _ _ _ _ _ _ (by omega) (by omega)]
        congr 1
        omega
      · have other : k < n * g.soc.fdmSize ∨ n * g.soc.fdmSize + g.soc.fdmSize ≤ k := by
          by_contra inner
          exact own (Nat.div_eq_of_lt_le (by omega) (by rw [Nat.succ_mul]; omega))
        rw [Bytes.memcpy_outside _ _ _ _ _ _ other, ih (by omega)]
        by_cases before : k / g.soc.fdmSize < n
        · rw [if_pos before, if_pos (by omega)]
        · rw [if_neg before, if_neg (by omega)]
  rw [rounds g.eccSteps le_rfl, if_pos sector]
  rw [Geometry.place, Geometry.sectorOf, Geometry.columnOf, if_neg (by omega), if_neg (by omega),
    Nat.add_sub_cancel_left]

theorem fromRawPage_none (cache : Bytes) (out : Buffers) :
    (fromRawPage g cache out).buf.isSome = out.buf.isSome ∧
    (fromRawPage g cache out).oob.isSome = out.oob.isSome := by
  have buf := forRange_proj (fun s : Buffers => s.buf.isSome) (fromRawSector g cache)
    (fun _ asked => asked) (fun i s => by simp only [fromRawSector, Option.isSome_map])
    g.eccSteps out
  have oob := forRange_proj (fun s : Buffers => s.oob.isSome) (fromRawSector g cache)
    (fun _ asked => asked) (fun i s => by simp only [fromRawSector, Option.isSome_map])
    g.eccSteps out
  have still (n : Nat) (b : Bool) : forRange (fun _ asked => asked) n b = b := by
    induction n with
    | zero => rfl
    | succ n ih => exact ih
  rw [still] at buf oob
  exact ⟨buf, oob⟩

/-- The buffers asked for hold the page that was written, a missing one reading as erased. -/
structure Returned (g : Geometry) (src out out' : Buffers) : Prop where
  buf_asked : out'.buf.isSome = out.buf.isSome
  oob_asked : out'.oob.isSome = out.oob.isSome
  data : ∀ buf, out'.buf = some buf → ∀ k < g.writesize, buf k = src.data k
  fdm : ∀ oob, out'.oob = some oob → ∀ k < g.eccSteps * g.soc.fdmSize, oob k = src.spare k

theorem deliver_run (fits : g.MarkerInLastSector) (src out : Buffers) (image : Bytes) (raw : Bool)
    (w : World) (page : if raw then Renamed g w.pageCache (eccImage g src image)
      else ∀ k < g.formatted, w.pageCache k = eccImage g src image k) :
    Returned g src out ((deliver g raw true out).run w).1 := by
  have fdmInside (k : Nat) (inside : k < g.eccSteps * g.soc.fdmSize) :
      g.writesize + k < g.formatted := by
    unfold Geometry.formatted
    omega
  cases raw with
  | true =>
    rw [if_pos rfl] at page
    let cache := fdmBmSwapRaw g (bmSwapRaw g w.pageCache)
    have same : Renamed g cache (formatImage g src image) := unswapRaw_renamed fits page
    have shape := fromRawPage_none (g := g) cache out
    change Returned g src out (fromRawPage g cache out)
    refine ⟨shape.1, shape.2, ?_, ?_⟩
    · intro buf found k inside
      cases asked : out.buf with
      | none =>
        rw [found, asked] at shape
        exact absurd shape.1 Bool.true_eq_false_eq_False
      | some old =>
        obtain ⟨buf', copied, bytes⟩ := fromRawPage_buf cache old out asked
        rw [found, Option.some.injEq] at copied
        rw [copied, bytes k inside, same k (inside.trans g.writesize_lt_formatted),
          formatImage_data src image k inside]
    · intro oob found k inside
      cases asked : out.oob with
      | none =>
        rw [found, asked] at shape
        exact absurd shape.2 Bool.true_eq_false_eq_False
      | some old =>
        obtain ⟨oob', copied, bytes⟩ := fromRawPage_oob cache old out asked
        rw [found, Option.some.injEq] at copied
        rw [copied, bytes k inside, same _ (fdmInside k inside),
          formatImage_spare src image k inside]
  | false =>
    rw [if_neg Bool.false_ne_true] at page
    let cache := fdmBmSwap g (bmSwap g w.pageCache)
    have same : ∀ k < g.formatted, cache k = formatImage g src image k := unswap_agree page
    change Returned g src out
      { buf := out.buf.map fun buf => buf.memcpy 0 cache 0 g.writesize
        oob := out.oob.map fun oob => (oob.memset 0 0xff g.oobsize).memcpy 0 cache g.writesize
          (g.eccSteps * g.soc.fdmSize) }
    refine ⟨Option.isSome_map, Option.isSome_map, ?_, ?_⟩
    · intro buf found k inside
      obtain ⟨old, -, rfl⟩ := Option.map_eq_some_iff.mp found
      rw [Bytes.memcpy_inside _ _ _ _ _ _ (Nat.zero_le _) (by omega), Nat.zero_add, Nat.sub_zero,
        same k (inside.trans g.writesize_lt_formatted), formatImage_data src image k inside]
    · intro oob found k inside
      obtain ⟨old, -, rfl⟩ := Option.map_eq_some_iff.mp found
      rw [Bytes.memcpy_inside _ _ _ _ _ _ (Nat.zero_le _) (by omega), Nat.sub_zero,
        same _ (fdmInside k inside), formatImage_spare src image k inside]

/-- The physical bad-block marker: the first byte past the data, or FDM byte 0 of the first
sector where the controller does not swap. -/
def markerPos (g : Geometry) : Nat := if g.soc.bbmSwap then g.writesize else g.soc.sectorSize

theorem Renamed.marker (fits : g.MarkerInLastSector) {raw : Bytes} {src : Buffers} {cache : Bytes}
    (same : Renamed g raw (eccImage g src cache)) : raw (markerPos g) = src.spare 0 := by
  have first : 0 < g.eccSteps * g.soc.fdmSize := Nat.mul_pos g.someSector g.fdmSize_pos
  have byte : formatImage g src cache g.writesize = src.spare 0 :=
    formatImage_spare src cache 0 first
  cases on : g.swaps with
  | true =>
    have several := g.swaps_several on
    have low : g.writesize - (g.eccSteps - 1) * g.sparePerSector < g.formatted := by
      have := g.writesize_lt_formatted
      omega
    have swap : g.soc.bbmSwap = true := by
      simp only [Geometry.swaps, Bool.and_eq_true] at on
      exact on.1
    have stored := same _ low
    rw [g.place_marker fits several, eccImage, bmSwap, if_pos on, Bytes.exchange,
      Equiv.swap_apply_right, fdmBmSwap, if_pos on, Bytes.exchange, Equiv.swap_apply_right] at stored
    rw [markerPos, if_pos swap, stored, byte]
  | false =>
    have stored := same _ g.writesize_lt_formatted
    have off : ¬ g.swaps = true := by rw [on]; exact Bool.false_ne_true
    rw [g.place_first_fdm, eccImage, bmSwap, if_neg off, fdmBmSwap, if_neg off, byte] at stored
    rw [← stored, markerPos]
    split_ifs with swap
    · have single : g.eccSteps = 1 := by
        simpa only [Geometry.swaps, swap, Bool.true_and, bne_eq_false_iff_eq] using on
      rw [g.writesize_eq, single, Nat.one_mul]
    · rfl

theorem dieOf_again (g : Geometry) (old addr : Nat) :
    dieOf g (dieOf g old addr) addr = dieOf g old addr := by
  unfold dieOf
  split <;> rfl

/-- A read of a page that the decoder accepts delivers it from the page cache. -/
theorem doReadPage_delivers (ecc : EccEngine g) (w : World) (steady : Steady w) (addr : Nat)
    (inside : addr < g.size) (out : Buffers) (raw : Bool)
    (readable : raw = false →
      ∀ i < g.eccSteps, Carries g ecc (w.cells (dieOf g w.die addr) (row g addr)) i) :
    ∃ w', ((doReadPage g ecc addr out raw true).run w) =
        ((0, ((deliver g raw true out).run w').1), ((deliver g raw true out).run w').2) ∧
      Steady w' ∧
      if raw then ∀ k < g.eccSteps * g.rawSectorSize,
          w'.pageCache k = w.cells (dieOf g w.die addr) (row g addr) k
        else ∀ k < g.formatted,
          w'.pageCache k = w.cells (dieOf g w.die addr) (row g addr) (g.place k) := by
  obtain ⟨tick, trace, select⟩ := selectDieAddress_run g w steady.reliable addr inside
  let w₁ : World := { w with die := dieOf g w.die addr, tick := tick, trace := trace }
  obtain ⟨w₂, fetch, steady₂, fetched, page⟩ := fetchPage_run ecc w₁
    ⟨steady.reliable, steady.failBits⟩ (dieAddr g addr >>> g.writesizeShift) raw readable
  refine ⟨w₂, ?_, steady₂, page⟩
  rw [doReadPage, Prog.run_bind, select]
  change Prog.run (fetchPage g ecc _ raw >>= _) w₁ = _
  rw [Prog.run_bind, fetch]
  rfl

theorem doReadPage_run (fits : g.MarkerInLastSector) (ecc : EccEngine g) (w : World)
    (steady : Steady w) (addr : Nat) (inside : addr < g.size) (src out : Buffers) (image : Bytes)
    (raw : Bool)
    (holds : Renamed g (w.cells (dieOf g w.die addr) (row g addr)) (eccImage g src image))
    (readable : raw = false →
      ∀ i < g.eccSteps, Carries g ecc (w.cells (dieOf g w.die addr) (row g addr)) i) :
    ∃ out', ((doReadPage g ecc addr out raw true).run w).1 = (0, out') ∧
      Returned g src out out' := by
  obtain ⟨w₂, read, -, page⟩ := doReadPage_delivers ecc w steady addr inside out raw readable
  refine ⟨_, by rw [read], deliver_run fits src out image raw w₂ ?_⟩
  cases raw with
  | true =>
    rw [if_pos rfl] at page ⊢
    intro k formatted
    rw [page _ (g.place_lt k formatted)]
    exact holds k formatted
  | false =>
    rw [if_neg Bool.false_ne_true] at page ⊢
    intro k formatted
    rw [page k formatted]
    exact holds k formatted

/-- The page that `addr` selects when `die` is the die selected before. -/
def pageCells (g : Geometry) (w : World) (addr : Nat) : Bytes :=
  w.cells (dieOf g w.die addr) (row g addr)

/-- A successful write programs the page and leaves the others. -/
structure Programmed (g : Geometry) (ecc : EccEngine g) (src : Buffers) (raw : Bool) (addr : Nat)
    (w w' : World) : Prop where
  inside : addr < g.size
  steady : Steady w'
  die_eq : w'.die = dieOf g w.die addr
  own : (∀ k, pageCells g w addr k = 0xff) →
    pageCells g w' addr = storedPage g ecc (writeImage g src raw true w.pageCache) w.fdmRegs
  others : ∀ die page, ¬(die = dieOf g w.die addr ∧ page = row g addr) →
    w'.cells die page = w.cells die page

theorem writePage_programs (ecc : EccEngine g) (w : World) (steady : Steady w) (addr : Nat)
    (src : Buffers) (raw : Bool) (written : (writePage g ecc addr src raw).value w = 0) :
    Programmed g ecc src raw addr w ((writePage g ecc addr src raw).after w) := by
  rw [Prog.value, writePage] at written
  rw [Prog.after, writePage]
  split_ifs at written ⊢ with refused
  · exact absurd written (show ¬ -einval = 0 by decide)
  · have inside : addr < g.size := by omega
    obtain ⟨ret, w', t, run, ended⟩ := doWritePage_run g ecc w steady addr inside src raw true
    rw [run] at written ⊢
    have succeeded : (w.bus t).fails = false := by
      have verdict := ended.ret_eq
      rw [show ret = 0 from written] at verdict
      cases fails : (w.bus t).fails with
      | false => rfl
      | true => exact absurd (verdict.trans (if_pos fails)) (by decide)
    refine ⟨inside, ended.steady, ended.die_eq, ?_, ?_⟩
    · intro erased
      funext k
      have blank := erased k
      unfold pageCells at blank ⊢
      rw [ended.cells_eq, ended.die_eq, dieOf_again, programCells, if_pos ⟨rfl, rfl⟩, blank,
        succeeded]
      exact UInt8.neg_one_and
    · intro die page other
      funext k
      rw [ended.cells_eq, programCells, if_neg other]

/-- A successful write to an erased page. -/
theorem writePage_stores (fits : g.MarkerInLastSector) (ecc : EccEngine g) (w : World)
    (steady : Steady w) (addr : Nat) (src : Buffers) (raw : Bool)
    (erased : ∀ k, pageCells g w addr k = 0xff)
    (written : (writePage g ecc addr src raw).value w = 0) :
    ∃ w', (writePage g ecc addr src raw).run w = (0, w') ∧ addr < g.size ∧ Steady w' ∧
      Renamed g (pageCells g w' addr) (eccImage g src w.pageCache) ∧
      (raw = false → ∀ i < g.eccSteps, Carries g ecc (pageCells g w' addr) i) := by
  have programmed := writePage_programs ecc w steady addr src raw written
  have stored := programmed.own erased
  refine ⟨(writePage g ecc addr src raw).after w, ?_, programmed.inside, programmed.steady, ?_, ?_⟩
  · exact Prod.ext written rfl
  · rw [stored]
    exact writeImage_renamed ecc fits src raw w.pageCache w.fdmRegs
  · rintro rfl
    rw [stored]
    exact writeImage_carries ecc fits src true w.pageCache w.fdmRegs

/-- A read of a page that holds what was written. -/
theorem readPage_returned (fits : g.MarkerInLastSector) (ecc : EccEngine g) (w : World)
    (steady : Steady w) (addr : Nat) (inside : addr < g.size) (src out : Buffers) (image : Bytes)
    (raw : Bool) (asked : out.buf.isSome ∨ out.oob.isSome)
    (holds : Renamed g (pageCells g w addr) (eccImage g src image))
    (readable : raw = false → ∀ i < g.eccSteps, Carries g ecc (pageCells g w addr) i) :
    ((readPage g ecc addr out raw).value w).1 = 0 ∧
      Returned g src out ((readPage g ecc addr out raw).value w).2 := by
  obtain ⟨out', read, returned⟩ := doReadPage_run fits ecc w steady addr inside src out image raw
    holds readable
  have given : ¬ ((out.buf.isNone ∧ out.oob.isNone) ∨ g.size ≤ addr) := by
    rintro (⟨noBuf, noOob⟩ | outside)
    · rw [Option.isNone_iff_eq_none] at noBuf noOob
      rw [noBuf, noOob] at asked
      simp at asked
    · omega
  rw [Prog.value, readPage, if_neg given, read]
  exact ⟨rfl, returned⟩

/-- Whichever of the two modes a page is written in and whichever it is read back in, the read
succeeds and returns the data and the FDM bytes of the write, and the marker position of the
raw page holds OOB byte 0. A raw write that is to be read through the decoder has to bring
sectors the decoder accepts. -/
theorem written_page_reads_back (g : Geometry) (fits : g.MarkerInLastSector) (ecc : EccEngine g)
    (w : World) (steady : Steady w) (addr : Nat) (src out : Buffers) (rawWrite rawRead : Bool)
    (erased : ∀ k, pageCells g w addr k = 0xff)
    (written : (writePage g ecc addr src rawWrite).value w = 0)
    (asked : out.buf.isSome ∨ out.oob.isSome)
    (accepted : rawWrite = true → rawRead = false → ∀ i < g.eccSteps,
      Carries g ecc (pageCells g ((writePage g ecc addr src rawWrite).after w) addr) i) :
    ((readPage g ecc addr out rawRead).value ((writePage g ecc addr src rawWrite).after w)).1 = 0 ∧
    Returned g src out
      ((readPage g ecc addr out rawRead).value ((writePage g ecc addr src rawWrite).after w)).2 ∧
    pageCells g ((writePage g ecc addr src rawWrite).after w) addr (markerPos g) = src.spare 0 := by
  obtain ⟨w', run, inside, steady', holds, carries⟩ :=
    writePage_stores fits ecc w steady addr src rawWrite erased written
  have after : (writePage g ecc addr src rawWrite).after w = w' := by rw [Prog.after, run]
  rw [after] at accepted ⊢
  have readable : rawRead = false → ∀ i < g.eccSteps, Carries g ecc (pageCells g w' addr) i := by
    intro formatted
    cases mode : rawWrite with
    | true => exact accepted mode formatted
    | false => exact carries mode
  obtain ⟨read, returned⟩ := readPage_returned fits ecc w' steady' addr inside src out w.pageCache
    rawRead asked holds readable
  exact ⟨read, returned, holds.marker fits⟩

/-- Two sectors of four bytes, each with two FDM bytes and one byte of parity. -/
def sampleGeometry : Geometry where
  soc := { sectorSize := 4, fdmSize := 2, fdmEccSize := 1, bbmSwap := true }
  writesizeShift := 3
  erasesizeShift := 4
  dieShift := 6
  size := 64
  oobsize := 6
  sparePerSector := 3
  eccSteps := 2
  eccStrength := 1
  selectDie := none
  pageCacheAddr := 0
  pageSectors := rfl
  someSector := by decide
  someFdm := by decide
  fdmProtected := by decide
  fdmRegisters := by decide
  spareHoldsFdm := by decide
  oobHoldsSpare := by decide
  parityFitsSpare := by decide
  parityFitsGpram := by decide
  errnumFits := by decide
  pageInBlock := by decide
  blockInDie := by decide
  blockFits := by decide
  blockRow := by decide
  addressable := by decide
  twoDies := by decide

/-- An engine that detects errors and corrects none. -/
def sampleEcc : EccEngine sampleGeometry where
  parity data fdm := [(data ++ fdm).foldl (· ^^^ ·) 0]
  decode data fdm code :=
    ⟨data, fdm, if code = [(data ++ fdm).foldl (· ^^^ ·) 0] then 0 else 31⟩
  parity_length _ _ := rfl
  decode_data_length _ _ _ := rfl
  decode_fdm_length _ _ _ := rfl
  decode_encoded _ _ := by simp only [if_true]
  decode_erased _ _ _ _ := by
    refine ⟨rfl, rfl, ?_⟩
    split_ifs
    · exact Or.inl rfl
    · exact Or.inr rfl

/-- An erased chip on a working bus. -/
def sampleWorld : World where
  pageCache _ := 0
  bufCache _ := 0
  sectBf _ := 0
  fdmRegs _ _ := 0
  decEnum _ := 0
  cells _ _ _ := 0xff
  die := 0
  cacheReg _ := 0
  wel := false
  failBits := 0
  busy := 0
  bus _ := { ret := 0, lost := false, feature := none, fails := false, torn := fun _ _ => 0,
             busy := 0, polls := 0 }
  tick := 0
  trace := []

theorem sampleWorld_steady : Steady sampleWorld :=
  ⟨⟨fun _ => rfl, fun _ => rfl, fun _ => rfl, fun _ _ => Nat.le_refl _⟩, Or.inl rfl⟩

/-- The first page of the sample chip, written through the encoder and read raw. -/
theorem written_page_reads_back_sample :
    ((readPage sampleGeometry sampleEcc 0 ⟨some fun _ => 0, some fun _ => 0⟩ true).value
      ((writePage sampleGeometry sampleEcc 0
        ⟨some fun k => UInt8.ofNat k, some fun k => UInt8.ofNat (100 + k)⟩ false).after
        sampleWorld)).1 = 0 :=
  (written_page_reads_back sampleGeometry (by decide) sampleEcc sampleWorld sampleWorld_steady 0
    ⟨some fun k => UInt8.ofNat k, some fun k => UInt8.ofNat (100 + k)⟩
    ⟨some fun _ => 0, some fun _ => 0⟩ false true (fun _ => rfl) (by decide +kernel) (Or.inl rfl)
    (fun raw => absurd raw Bool.false_ne_true)).1

end Filogic.Snand
