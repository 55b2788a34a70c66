import Filogic.Snand.FreeBytes
import Filogic.Snand.RawOob
import Filogic.Snand.BadBlock

/-! What a write of data and spare bytes programs in each of the three modes, and what a read of the
same range brings back. -/

namespace Filogic.Snand
open Lib

variable {g : Geometry} (ecc : EccEngine g) (mode : OobMode)

section Page

/-- The buffers that a page is programmed from; the AUTO mode lays its free bytes out in
`buf_cache`. -/
def programmed (page : Paged.PageWrite) (bufCache : Bytes) : Buffers :=
  match mode with
  | .autoOob =>
    ⟨page.data, page.oob.map fun oob =>
      (fillOob g (bufCache.memset 0 0xff g.oobsize) oob page.oobwrlen).1⟩
  | _ => ⟨page.data, page.oob⟩

/-- The spare bytes that the mode takes from what it is given for a page. -/
def takenOob (page : Paged.PageWrite) (j : Nat) : UInt8 :=
  if mode = .autoOob ∧ page.oobwrlen ≤ j then 0xff else (page.oob.map (· j)).getD 0xff

/-- The spare bytes that a mode has room for on the page. -/
def KeptOob (g : Geometry) (j : Nat) : Prop :=
  match mode with
  | .placeOob => j < g.eccSteps * g.soc.fdmSize
  | .autoOob => True
  | .raw => j < g.eccSteps * g.sparePerSector

theorem programmed_data (page : Paged.PageWrite) (bufCache : Bytes) (j : Nat) :
    (programmed (g := g) mode page bufCache).data j = (page.data.map (· j)).getD 0xff := by
  cases mode <;> rfl

theorem programmed_oob (page : Paged.PageWrite) (bufCache : Bytes) (fixed : mode ≠ .autoOob) (j : Nat) :
    (programmed (g := g) mode page bufCache).spare j = takenOob mode page j := by
  rw [takenOob, if_neg (fun auto => fixed auto.1)]
  cases mode with
  | autoOob => exact absurd rfl fixed
  | placeOob => rfl
  | raw => rfl

theorem programmed_free (page : Paged.PageWrite) (bufCache : Bytes) (j : Nat)
    (inside : j < g.eccSteps * (g.soc.fdmSize - 1)) :
    (programmed (g := g) .autoOob page bufCache).spare (freePlace g j) = takenOob .autoOob page j := by
  have place := freePlace_lt g j inside
  have room : g.eccSteps * g.soc.fdmSize ≤ g.oobsize :=
    (Nat.mul_le_mul_left _ g.spareHoldsFdm).trans g.oobHoldsSpare
  rw [programmed, takenOob, Buffers.spare]
  cases page.oob with
  | none => simp
  | some oob =>
    simp only [Option.map_some, Option.getD_some, fillOob_free g _ oob _ j inside, true_and]
    by_cases short : j < page.oobwrlen
    · rw [if_pos short, if_neg (by omega)]
    · rw [if_neg short, if_pos (by omega), Bytes.memset_inside _ _ _ _ _ (Nat.zero_le _) (by omega)]

theorem writeMtdPage_run (page : Paged.PageWrite) (w : World) :
    ∃ bufCache, (writeMtdPage g ecc mode page).run w =
      (writePage g ecc page.addr (programmed (g := g) mode page w.bufCache) (mode = .raw)).run
        { w with bufCache := bufCache } := by
  cases mode with
  | placeOob => exact ⟨w.bufCache, rfl⟩
  | raw => exact ⟨w.bufCache, rfl⟩
  | autoOob =>
    obtain ⟨addr, data, oob, len⟩ := page
    cases oob with
    | none => exact ⟨w.bufCache, rfl⟩
    | some oob => exact ⟨(fillOob g (w.bufCache.memset 0 0xff g.oobsize) oob len).1, rfl⟩

/-- The page is on the chip as the mode programs it, ready to be read in the same mode. -/
structure Held (page : Paged.PageWrite) (w : World) : Prop where
  inside : page.addr < g.size
  image : ∃ bufCache cache, Renamed g (pageCells g w page.addr)
    (eccImage g (programmed (g := g) mode page bufCache) cache)
  readable : mode ≠ .raw → ∀ i < g.eccSteps, Carries g ecc (pageCells g w page.addr) i
  parity : mode = .raw → ∀ j, InParity g j →
    pageCells g w page.addr (parityPlace g j) = takenOob mode page j

theorem Held.same {page : Paged.PageWrite} {w w' : World} (held : Held ecc mode page w)
    (same : pageCells g w' page.addr = pageCells g w page.addr) : Held ecc mode page w' := by
  obtain ⟨inside, image, readable, parity⟩ := held
  rw [← same] at image readable parity
  exact ⟨inside, image, readable, parity⟩

/-- Two addresses are not of one page of the chip. -/
def Apart (g : Geometry) (a b : Nat) : Prop :=
  ∀ die, dieOf g die a = dieOf g die b → row g a ≠ row g b

theorem dieOf_moved (old a b : Nat) : dieOf g (dieOf g old a) b = dieOf g old b :=
  dieOf_eq g _ _ b (dieOf_single g old a)

/-- A successful write of an erased page. -/
theorem writeMtdPage_holds (fits : g.MarkerInLastSector) (page : Paged.PageWrite) (w : World)
    (steady : Steady w) (erased : ∀ k, pageCells g w page.addr k = 0xff)
    (zero : (writeMtdPage g ecc mode page).value w = 0) :
    Held ecc mode page ((writeMtdPage g ecc mode page).after w) := by
  obtain ⟨bufCache, run⟩ := writeMtdPage_run ecc mode page w
  rw [Prog.value, run] at zero
  rw [Prog.after, run]
  let w₁ : World := { w with bufCache := bufCache }
  have wrote := writePage_programs ecc w₁ ⟨steady.reliable, steady.failBits⟩ page.addr _ _ zero
  have stored := wrote.own erased
  change Held ecc mode page ((writePage g ecc page.addr _ _).after w₁)
  refine ⟨wrote.inside, ⟨w.bufCache, w.pageCache, ?_⟩, ?_, ?_⟩
  · rw [stored]
    exact writeImage_renamed ecc fits _ _ _ _
  · intro formatted
    rw [stored, decide_eq_false formatted]
    exact writeImage_carries ecc fits _ true _ _
  · rintro rfl j parity
    rw [stored]
    exact parity.stored fits ecc _ _ _

/-- A successful write leaves the other pages. -/
theorem writeMtdPage_others (page : Paged.PageWrite) (w : World) (steady : Steady w)
    (zero : (writeMtdPage g ecc mode page).value w = 0) :
    page.addr < g.size ∧ Steady ((writeMtdPage g ecc mode page).after w) ∧
      ∀ addr, Apart g page.addr addr →
        pageCells g ((writeMtdPage g ecc mode page).after w) addr = pageCells g w addr := by
  obtain ⟨bufCache, run⟩ := writeMtdPage_run ecc mode page w
  rw [Prog.value, run] at zero
  rw [Prog.after, run]
  let w₁ : World := { w with bufCache := bufCache }
  have wrote := writePage_programs ecc w₁ ⟨steady.reliable, steady.failBits⟩ page.addr _ _ zero
  refine ⟨wrote.inside, wrote.steady, fun addr apart => ?_⟩
  change pageCells g ((writePage g ecc page.addr _ _).after w₁) addr = pageCells g w₁ addr
  unfold pageCells
  rw [wrote.die_eq, dieOf_moved]
  apply wrote.others
  rintro ⟨die, page⟩
  exact apart w.die die.symm page.symm

theorem putBuffers_data (cache buf : Bytes) (got : Buffers) (has : got.buf = some buf) (j : Nat)
    (inside : j < g.writesize) : putBuffers g cache got j = buf j := by
  rw [putBuffers, has, Bytes.memcpyOpt_outside _ _ _ _ _ _ (.inl inside),
    Bytes.memcpyOpt_inside _ _ _ _ _ _ (Nat.zero_le _) (by omega)]
  simp

theorem putBuffers_oob (cache oob : Bytes) (got : Buffers) (has : got.oob = some oob) (j : Nat)
    (inside : j < g.oobsize) : putBuffers g cache got (g.writesize + j) = oob j := by
  rw [putBuffers, has, Bytes.memcpyOpt_inside _ _ _ _ _ _ (by omega) (by omega)]
  simp

/-- What a read of a page that is held brings. -/
structure Brought (page : Paged.PageWrite) (out out' : Buffers) : Prop where
  returned : ∃ bufCache, Returned g (programmed (g := g) mode page bufCache) out out'
  parity : mode = .raw → ∀ oob, out'.oob = some oob → ∀ j, InParity g j →
    oob j = takenOob mode page j

theorem readPage_held (fits : g.MarkerInLastSector) (page : Paged.PageWrite) (w : World)
    (steady : Steady w) (held : Held ecc mode page w) (out : Buffers)
    (asked : out.buf.isSome ∨ out.oob.isSome) :
    ∃ out', ((readPage g ecc page.addr out (mode = .raw)).value w) = (0, out') ∧
      Brought (g := g) mode page out out' := by
  obtain ⟨inside, ⟨bufCache, cache, image⟩, readable, parity⟩ := held
  have given : ¬((out.buf.isNone ∧ out.oob.isNone) ∨ g.size ≤ page.addr) := by
    rintro (⟨noBuf, noOob⟩ | outside)
    · rw [Option.isNone_iff_eq_none] at noBuf noOob
      rw [noBuf, noOob] at asked
      simp at asked
    · omega
  obtain ⟨w₂, read, -, fetched⟩ := doReadPage_delivers ecc w steady page.addr inside out
    (mode = .raw) fun formatted => readable (by simpa using formatted)
  refine ⟨((deliver g (mode = .raw) true out).run w₂).1, ?_, ⟨bufCache, ?_⟩, ?_⟩
  · rw [Prog.value, readPage, if_neg given, read]
  · apply deliver_run fits _ out cache (mode = .raw) w₂
    split_ifs at fetched ⊢ with raw
    · intro k formatted
      rw [fetched _ (g.place_lt k formatted)]
      exact image k formatted
    · intro k formatted
      rw [fetched k formatted]
      exact image k formatted
  · rintro rfl oob found j within
    have cells : w₂.pageCache (parityPlace g j) = pageCells g w page.addr (parityPlace g j) :=
      fetched _ within.place_lt
    change (fromRawPage g (fdmBmSwapRaw g (bmSwapRaw g w₂.pageCache)) out).oob = some oob at found
    cases given : out.oob with
    | none =>
      have shape := (fromRawPage_none (g := g) (fdmBmSwapRaw g (bmSwapRaw g w₂.pageCache)) out).2
      rw [found, given] at shape
      exact absurd shape (by simp)
    | some old =>
      rw [within.taken _ old oob out given found, within.swaps fits, cells]
      exact parity rfl j within

/-- The spare bytes of a page that was read in a mode without free bytes. -/
theorem Brought.spare {page : Paged.PageWrite} {out out' : Buffers} {oob : Bytes}
    (brought : Brought (g := g) mode page out out') (fixed : mode ≠ .autoOob)
    (found : out'.oob = some oob) (j : Nat) (kept : KeptOob mode g j) :
    oob j = takenOob mode page j := by
  obtain ⟨⟨bufCache, returned⟩, parity⟩ := brought
  rw [← programmed_oob (g := g) mode page bufCache fixed j]
  by_cases fdm : j < g.eccSteps * g.soc.fdmSize
  · exact returned.fdm oob found j fdm
  · cases mode with
    | autoOob => exact absurd rfl fixed
    | placeOob => exact absurd kept fdm
    | raw =>
      rw [programmed_oob (g := g) .raw page bufCache fixed j]
      exact parity rfl oob found j ⟨by omega, kept⟩

theorem Brought.data {page : Paged.PageWrite} {out out' : Buffers}
    (brought : Brought (g := g) mode page out out') (asked : out.buf.isSome) :
    ∃ buf, out'.buf = some buf ∧ ∀ j < g.writesize, buf j = (page.data.map (· j)).getD 0xff := by
  obtain ⟨⟨bufCache, returned⟩, -⟩ := brought
  rw [← returned.buf_asked] at asked
  obtain ⟨buf, found⟩ := Option.isSome_iff_exists.mp asked
  refine ⟨buf, found, fun j inside => ?_⟩
  rw [returned.data buf found j inside, programmed_data]

/-- A read with code 0 takes the free bytes out of what it read. -/
theorem readPageAutoOob_ok (addr ooblen : Nat) (buf : Option Bytes) (oob raw : Bytes) (w : World)
    (out' : Buffers) (read : (readPage g ecc addr ⟨buf, some w.bufCache⟩ false).value w = (0, out'))
    (found : out'.oob = some raw) :
    (readPageAutoOob g ecc addr ⟨buf, some oob⟩ ooblen false).value w =
      (0, ⟨out'.buf, some (transferOob g oob ooblen raw).1⟩) := by
  rw [Prog.value] at read ⊢
  simp only [readPageAutoOob, Prog.run_bind, Prog.run_get, read, found]
  simp

theorem readMtdPage_value (data oob : Bool) (addr : Nat) (cache : Bytes) (w : World) :
    (readMtdPage g ecc mode data oob addr cache).value w =
      let out : Buffers :=
        ⟨if data then some cache else none, if oob then some fun k => cache (g.writesize + k) else none⟩
      let r := match mode with
        | .autoOob => (readPageAutoOob g ecc addr out (mtdOobavail g mode) false).value w
        | .placeOob => (readPage g ecc addr out false).value w
        | .raw => (readPage g ecc addr out true).value w
      (r.1, putBuffers g cache r.2) := by
  cases mode <;> simp only [readMtdPage, Prog.value, Prog.run_bind, Prog.run_pure]
/-- The buffers that a page is read into, before they are moved to the cache. -/
theorem readMtdPage_buffers (fits : g.MarkerInLastSector) (page : Paged.PageWrite)
    (data oob : Bool) (cache : Bytes) (w : World) (steady : Steady w)
    (held : Held ecc mode page w) (asked : data = true ∨ oob = true) :
    ∃ got, (readMtdPage g ecc mode data oob page.addr cache).value w = (0, putBuffers g cache got) ∧
      (data = true → ∃ buf, got.buf = some buf ∧
        ∀ j < g.writesize, buf j = (page.data.map (· j)).getD 0xff) ∧
      (oob = true → ∃ spare, got.oob = some spare ∧
        ∀ j < mtdOobavail g mode, KeptOob mode g j → spare j = takenOob mode page j) := by
  let buf := if data then some cache else none
  let spare := fun k => cache (g.writesize + k)
  have bufAsked : data = true → buf.isSome := by
    rintro rfl
    rfl
  by_cases free : mode = .autoOob ∧ oob = true
  · obtain ⟨rfl, rfl⟩ := free
    obtain ⟨out', read, brought⟩ := readPage_held ecc .autoOob fits page w steady held
      ⟨buf, some w.bufCache⟩ (.inr rfl)
    have oobAsked : out'.oob.isSome := by
      obtain ⟨⟨_, returned⟩, -⟩ := brought
      exact returned.oob_asked
    obtain ⟨raw, found⟩ := Option.isSome_iff_exists.mp oobAsked
    refine ⟨⟨out'.buf, some (transferOob g spare (mtdOobavail g .autoOob) raw).1⟩, ?_, ?_, ?_⟩
    · have taken := readPageAutoOob_ok ecc page.addr (mtdOobavail g .autoOob) buf spare raw w out'
        read found
      rw [readMtdPage_value]
      exact congrArg (fun r => (r.1, putBuffers g cache r.2)) taken
    · exact fun data => brought.data .autoOob (bufAsked data)
    · refine fun _ => ⟨_, rfl, fun j inside _ => ?_⟩
      obtain ⟨⟨bufCache, returned⟩, -⟩ := brought
      rw [mtdOobavail, transferOob_apply g raw spare j inside,
        returned.fdm raw found _ (freePlace_lt g j inside), programmed_free page bufCache j inside]
  · obtain ⟨out', read, brought⟩ := readPage_held ecc mode fits page w steady held
      ⟨buf, if oob then some spare else none⟩ (asked.imp bufAsked fun on => by simp [on])
    refine ⟨out', ?_, fun data => brought.data mode (bufAsked data), ?_⟩
    · rw [readMtdPage_value]
      cases mode with
      | placeOob => exact congrArg (fun r => (r.1, putBuffers g cache r.2)) read
      | raw => exact congrArg (fun r => (r.1, putBuffers g cache r.2)) read
      | autoOob =>
        cases oob with
        | true => exact absurd ⟨rfl, rfl⟩ free
        | false => exact congrArg (fun r => (r.1, putBuffers g cache r.2)) read
    · rintro rfl
      have oobAsked : out'.oob.isSome := by
        obtain ⟨⟨_, returned⟩, -⟩ := brought
        exact returned.oob_asked
      obtain ⟨raw, found⟩ := Option.isSome_iff_exists.mp oobAsked
      exact ⟨raw, found, fun j _ kept => brought.spare mode (fun auto => free ⟨auto, rfl⟩) found j kept⟩

/-- A read in the same mode brings the page with code 0. -/
theorem readMtdPage_held (fits : g.MarkerInLastSector) (page : Paged.PageWrite) (data oob : Bool)
    (cache : Bytes) (w : World) (steady : Steady w) (held : Held ecc mode page w)
    (asked : data = true ∨ oob = true) :
    ((readMtdPage g ecc mode data oob page.addr cache).value w).1 = 0 ∧
    (data = true → ∀ j < g.writesize,
      ((readMtdPage g ecc mode data oob page.addr cache).value w).2 j =
        (page.data.map (· j)).getD 0xff) ∧
    (oob = true → ∀ j < mtdOobavail g mode, KeptOob mode g j →
      ((readMtdPage g ecc mode data oob page.addr cache).value w).2 (g.writesize + j) =
        takenOob mode page j) := by
  obtain ⟨got, read, data_, oob_⟩ :=
    readMtdPage_buffers ecc mode fits page data oob cache w steady held asked
  rw [read]
  refine ⟨rfl, fun on j inside => ?_, fun on j inside kept => ?_⟩
  · obtain ⟨buf, has, bytes⟩ := data_ on
    exact (putBuffers_data cache buf got has j inside).trans (bytes j inside)
  · obtain ⟨spare, has, bytes⟩ := oob_ on
    exact (putBuffers_oob cache spare got has j (inside.trans_le (mtdOobavail_le mode))).trans
      (bytes j inside kept)

/-- A read keeps every page, whatever it returns. -/
theorem Quiet.pageCells {w w' : World} (quiet : Quiet g w w') (addr : Nat) :
    Filogic.Snand.pageCells g w' addr = Filogic.Snand.pageCells g w addr := by
  unfold Filogic.Snand.pageCells
  rw [quiet.cells_eq, dieOf_eq g w'.die w.die addr quiet.die_eq]

theorem readMtdPage_quiet (data oob : Bool) (addr : Nat) (cache : Bytes) :
    Moves (Quiet g) (readMtdPage g ecc mode data oob addr cache) := by
  have auto (out : Buffers) (ooblen : Nat) :
      Moves (Quiet g) (readPageAutoOob g ecc addr out ooblen false) := by
    unfold readPageAutoOob
    cases out.oob with
    | none => exact readPage_quiet ecc addr out false
    | some oob =>
      refine bind_quiet (Moves.get Quiet.refl) fun w => bind_quiet (readPage_quiet ecc addr _ _) ?_
      rintro ⟨ret, got⟩
      refine bind_quiet (modify_quiet _ fun w => ⟨rfl, rfl, rfl, fun _ => rfl⟩) fun _ => ?_
      refine Moves.ite _ (fun _ => pure_quiet _) fun _ => ?_
      exact bind_quiet (Moves.get Quiet.refl) fun _ => pure_quiet _
  unfold readMtdPage
  cases mode
  · exact bind_quiet (readPage_quiet ecc addr _ _) fun _ => pure_quiet _
  · exact bind_quiet (auto _ _) fun _ => pure_quiet _
  · exact bind_quiet (readPage_quiet ecc addr _ _) fun _ => pure_quiet _

end Page

section Run

theorem Apart.ne {a b : Nat} (apart : Apart g a b) : a ≠ b := by
  rintro rfl
  exact apart 0 rfl rfl

theorem Apart.symm {a b : Nat} (apart : Apart g a b) : Apart g b a := fun die same =>
  (apart die same.symm).symm

instance : Std.Symm fun a b : Paged.PageWrite => Apart g a.addr b.addr := ⟨fun _ _ => Apart.symm⟩

theorem pageIndex_inj (a b : Nat) (alignedA : a % g.writesize = 0) (alignedB : b % g.writesize = 0)
    (same : a >>> g.writesizeShift = b >>> g.writesizeShift) : a = b := by
  rw [Nat.shiftRight_eq_div_pow, Nat.shiftRight_eq_div_pow] at same
  exact (Nat.div_left_inj (Nat.dvd_of_mod_eq_zero alignedA) (Nat.dvd_of_mod_eq_zero alignedB)).mp same

/-- The pages of a chip whose rows fit the 24-bit address are all apart, but for the second die of a
chip that is always set to the same die. -/
theorem apart_of_rows (fixed : g.selectDie ≠ some .micron) (rows : g.size ≤ 2 ^ 24 * g.writesize)
    {a b : Nat} (insideA : a < g.size) (insideB : b < g.size) (alignedA : a % g.writesize = 0)
    (alignedB : b % g.writesize = 0) (ne : a ≠ b) : Apart g a b := by
  have few (c : Nat) (inside : c < g.size) : c >>> g.writesizeShift < 2 ^ 24 := by
    rw [Nat.shiftRight_eq_div_pow, Nat.div_lt_iff_lt_mul (Nat.two_pow_pos _)]
    exact inside.trans_le rows
  intro die sameDie sameRow
  cases chosen : g.selectDie with
  | none =>
    simp only [row, dieAddr, chosen] at sameRow
    rw [Nat.mod_eq_of_lt (few a insideA), Nat.mod_eq_of_lt (few b insideB)] at sameRow
    exact ne (pageIndex_inj a b alignedA alignedB sameRow)
  | some select =>
    cases select with
    | micron => exact fixed chosen
    | winbond =>
      have whole : g.writesize ∣ 2 ^ g.dieShift :=
        Nat.pow_dvd_pow 2 (g.pageInBlock.trans g.blockInDie)
      have aligned (c : Nat) (start : c % g.writesize = 0) : c % 2 ^ g.dieShift % g.writesize = 0 := by
        rw [Nat.mod_mod_of_dvd _ whole, start]
      simp only [dieOf, chosen, Nat.shiftRight_eq_div_pow] at sameDie
      simp only [row, dieAddr, chosen, Geometry.dieMask, Nat.and_two_pow_sub_one_eq_mod] at sameRow
      rw [Nat.mod_eq_of_lt (few _ ((Nat.mod_le _ _).trans_lt insideA)),
        Nat.mod_eq_of_lt (few _ ((Nat.mod_le _ _).trans_lt insideB))] at sameRow
      have offset := pageIndex_inj _ _ (aligned a alignedA) (aligned b alignedB) sameRow
      apply ne
      rw [← Nat.div_add_mod a (2 ^ g.dieShift), ← Nat.div_add_mod b (2 ^ g.dieShift), sameDie, offset]

theorem written_steady {pages : List Paged.PageWrite} {w w' : World} (steady : Steady w)
    (written : Paged.Written (writeMtdPage g ecc mode) pages w w') : Steady w' := by
  induction pages generalizing w with
  | nil => exact written ▸ steady
  | cons page pages ih =>
    obtain ⟨zero, rest⟩ := written
    exact ih (writeMtdPage_others ecc mode page w steady zero).2.1 rest

/-- Pages written one behind the other to erased pages of their own are all held. -/
theorem written_held (fits : g.MarkerInLastSector) {pages : List Paged.PageWrite} {w w' : World}
    (steady : Steady w) (written : Paged.Written (writeMtdPage g ecc mode) pages w w')
    (erased : ∀ page ∈ pages, ∀ j, pageCells g w page.addr j = 0xff)
    (apart : pages.Pairwise fun a b => Apart g a.addr b.addr) :
    ∀ page ∈ pages, Held ecc mode page w' := by
  let Ready (page : Paged.PageWrite) (s : World) : Prop :=
    page ∈ pages ∧ Steady s ∧ ∀ j, pageCells g s page.addr j = 0xff
  let Holds (page : Paged.PageWrite) (s : World) : Prop := page ∈ pages ∧ Held ecc mode page s
  have differing (a b : Paged.PageWrite) (ha : a ∈ pages) (hb : b ∈ pages) (ne : a.addr ≠ b.addr) :
      Apart g a.addr b.addr :=
    apart.forall ha hb fun same => ne (congrArg _ same)
  have stores (page : Paged.PageWrite) (s : World) (ready : Ready page s)
      (zero : (writeMtdPage g ecc mode page).value s = 0) :
      Holds page ((writeMtdPage g ecc mode page).after s) :=
    ⟨ready.1, writeMtdPage_holds ecc mode fits page s ready.2.1 ready.2.2 zero⟩
  have keeps (page other : Paged.PageWrite) (s : World) (differ : page.addr ≠ other.addr)
      (ready : Ready page s) (zero : (writeMtdPage g ecc mode page).value s = 0) :
      (Ready other s → Ready other ((writeMtdPage g ecc mode page).after s)) ∧
        (Holds other s → Holds other ((writeMtdPage g ecc mode page).after s)) := by
    obtain ⟨-, steady', others⟩ := writeMtdPage_others ecc mode page s ready.2.1 zero
    constructor
    · rintro ⟨member, -, blank⟩
      refine ⟨member, steady', fun j => ?_⟩
      rw [others _ (differing page other ready.1 member differ)]
      exact blank j
    · rintro ⟨member, held⟩
      exact ⟨member, held.same ecc mode (others _ (differing page other ready.1 member differ))⟩
  intro page member
  refine (@Paged.Written.holds _ _ Ready Holds stores keeps _ _ _ written ?_ ?_ page member).2
  · exact apart.imp Apart.ne
  · exact fun page member => ⟨member, steady, erased page member⟩

end Run

section Exact

variable (ops : Paged.Request) (addr : Nat) (cache : Bytes) (w : World)

/-- Page `k` as it is handed down: its slices, but for what is left over from a page before. -/
structure PageRight (k : Nat) (page : Paged.PageWrite) : Prop where
  addr_eq : page.addr = addr - addr % g.writesize + k * g.writesize
  data_eq : Paged.FreshData (mtdSizes g mode) ops addr k → ∀ j < g.writesize,
    (page.data.map (· j)).getD 0xff = Paged.dataSlice (mtdSizes g mode) ops addr k j
  oob_eq : mode = .autoOob ∨ Paged.FreshOob (mtdSizes g mode) ops k → ∀ j < mtdOobavail g mode,
    takenOob mode page j = Paged.oobSlice (mtdSizes g mode) ops k j

/-- What a write promises: each page is the right one, and after a whole write to erased pages of
their own a read of the same range returns 0 and the bytes that the mode has room for. -/
structure WrittenRight : Prop where
  pages : ∀ k (page : Paged.PageWrite),
    ((mtdWriteData g ecc mode ops addr cache).value w).2.pages[k]? = some page →
      PageRight (g := g) mode ops addr k page
  counts : ((mtdWriteData g ecc mode ops addr cache).value w).1 = 0 →
    ((mtdWriteData g ecc mode ops addr cache).value w).2.data.done = ops.len ∧
      ((mtdWriteData g ecc mode ops addr cache).value w).2.oob.done = ops.ooblen
  readBack : ((mtdWriteData g ecc mode ops addr cache).value w).1 = 0 → Steady w →
    (∀ page ∈ ((mtdWriteData g ecc mode ops addr cache).value w).2.pages,
      ∀ j, pageCells g w page.addr j = 0xff) →
    ((mtdWriteData g ecc mode ops addr cache).value w).2.pages.Pairwise
      (fun a b => Apart g a.addr b.addr) →
    ∀ datbuf oobbuf cache',
      let back := (mtdReadData g ecc mode { ops with datbuf := datbuf, oobbuf := oobbuf } addr
        cache').value ((mtdWriteData g ecc mode ops addr cache).after w)
      back.1 = 0 ∧
        Paged.Delivered (mtdSizes g mode) ops (KeptOob mode g) ops.datbuf ops.oobbuf back.2

/-- Page `k` of the request, as it is handed down. -/
def mtdPage (k : Nat) : Paged.PageWrite :=
  (Paged.WriteState.behind (mtdSizes g mode) ops addr cache k).page (mtdSizes g mode) ops

theorem mtdPage_addr (k : Nat) :
    (mtdPage (g := g) mode ops addr cache k).addr =
      addr - addr % g.writesize + k * g.writesize :=
  (Paged.WriteState.behind_streams (mtdSizes g mode) ops addr cache k).1

variable (room : ops.ooboffs < mtdOobavail g mode)
include room

theorem mtdPage_right (k : Nat) :
    PageRight (g := g) mode ops addr k (mtdPage (g := g) mode ops addr cache k) := by
  have pos : 0 < (mtdSizes g mode).writesize := g.writesize_pos
  have wide : (mtdSizes g mode).maxooblen ≤ (mtdSizes g mode).oobsize := mtdOobavail_le mode
  refine ⟨mtdPage_addr mode ops addr cache k, fun fresh => ?_, fun fresh j inside => ?_⟩
  · exact (Paged.WriteState.page_data_iff (mtdSizes g mode) ops addr cache pos room wide k).mpr fresh
  · by_cases free : mode = .autoOob
    · simp only [takenOob, free, true_and]
      subst free
      exact Paged.WriteState.page_oobwrlen (mtdSizes g .autoOob) ops addr cache pos room wide k j inside
    · rw [takenOob, if_neg (fun auto => free auto.1)]
      exact (Paged.WriteState.page_oob_iff (mtdSizes g mode) ops addr cache pos room wide k).mpr
        (fresh.resolve_left free) j (inside.trans_le wide)

/-- A held page that is read again brings its slices. -/
theorem held_brings (fits : g.MarkerInLastSector) (k : Nat) (s : World) (steady : Steady s)
    (held : Held ecc mode (mtdPage (g := g) mode ops addr cache k) s) (cache' : Bytes)
    (asked : Paged.Asked (mtdSizes g mode) ops addr k) :
    let read := (readMtdPage g ecc mode (ops.len ≠ 0) (ops.ooblen ≠ 0)
      (addr - addr % g.writesize + k * g.writesize) cache').value s
    read.1 = 0 ∧
      Paged.Brings (mtdSizes g mode) ops addr (KeptOob mode g) ops.datbuf ops.oobbuf k read.2 := by
  have right := mtdPage_right mode ops addr cache room k
  obtain ⟨zero, data, oob⟩ := readMtdPage_held ecc mode fits _ (ops.len ≠ 0) (ops.ooblen ≠ 0) cache' s
    steady held (asked.imp (fun some => by simpa using some.1.ne') fun some => by
      simpa using some.1.ne')
  rw [right.addr_eq] at zero data oob
  refine ⟨zero, ?_, ?_⟩
  · rintro ⟨some, near⟩ j inside
    rw [data (by simpa using some.ne') j inside]
    exact right.data_eq (.inr (.inl near)) j inside
  · rintro ⟨some, near⟩ j inside kept
    change ((readMtdPage g ecc mode _ _ _ cache').value s).2 (g.writesize + j) = _
    rw [oob (by simpa using some.ne') j inside kept]
    exact right.oob_eq (.inr (.inr (.inl near))) j inside

theorem mtdRead_back (fits : g.MarkerInLastSector)
    (zero : ((mtdWriteData g ecc mode ops addr cache).value w).1 = 0) (steady : Steady w)
    (erased : ∀ page ∈ ((mtdWriteData g ecc mode ops addr cache).value w).2.pages,
      ∀ j, pageCells g w page.addr j = 0xff)
    (apart : ((mtdWriteData g ecc mode ops addr cache).value w).2.pages.Pairwise
      (fun a b => Apart g a.addr b.addr)) (datbuf oobbuf cache' : Bytes) :
    let back := (mtdReadData g ecc mode { ops with datbuf := datbuf, oobbuf := oobbuf } addr
      cache').value ((mtdWriteData g ecc mode ops addr cache).after w)
    back.1 = 0 ∧
      Paged.Delivered (mtdSizes g mode) ops (KeptOob mode g) ops.datbuf ops.oobbuf back.2 := by
  have pos : 0 < (mtdSizes g mode).writesize := g.writesize_pos
  obtain ⟨n, state, ends⟩ := Paged.writeData_run (mtdSizes g mode) ops addr cache pos room
    (writeMtdPage g ecc mode) w
  obtain ⟨done, written⟩ := ends zero
  change ((mtdWriteData g ecc mode ops addr cache).value w).2 = _ at state
  rw [state] at erased apart
  have still := written_steady ecc mode steady written
  have held := written_held ecc mode fits steady written erased apart
  change ∀ page ∈ _, Held ecc mode page ((mtdWriteData g ecc mode ops addr cache).after w) at held
  change Steady ((mtdWriteData g ecc mode ops addr cache).after w) at still
  rw [Paged.WriteState.behind_pages] at held
  have more (k : Nat) (asked : Paged.Asked (mtdSizes g mode) ops addr k) : k < n := by
    by_contra late
    obtain ⟨some, near⟩ | ⟨some, near⟩ := asked
    · exact (Paged.WriteState.data_left_iff (mtdSizes g mode) ops addr cache pos n).mpr
        ⟨some, le_trans (by omega) near⟩ done.1
    · exact (Paged.WriteState.oob_left_iff (mtdSizes g mode) ops addr cache room n).mpr
        ⟨some, le_trans (by omega) near⟩ done.2
  let after := (mtdWriteData g ecc mode ops addr cache).after w
  have brings (k : Nat) (cache' : Bytes) (s : World) (quiet : Quiet g after s) :
      let read := (readMtdPage g ecc mode (ops.len ≠ 0) (ops.ooblen ≠ 0)
        (addr - addr % g.writesize + k * g.writesize) cache')
      Quiet g after (read.after s) ∧
        (Paged.Asked (mtdSizes g mode) ops addr k → (read.value s).1 = 0 ∧
          Paged.Brings (mtdSizes g mode) ops addr (KeptOob mode g) ops.datbuf ops.oobbuf k
            (read.value s).2) := by
    refine ⟨Quiet.trans _ _ _ quiet (readMtdPage_quiet ecc mode _ _ _ cache' s), fun asked => ?_⟩
    have own := held _ (List.mem_map_of_mem (List.mem_range.mpr (more k asked)))
    exact held_brings ecc mode ops addr cache room fits k s (quiet.steady still)
      (own.same ecc mode (quiet.pageCells _)) cache' asked
  have zero := Paged.readData_zero (mtdSizes g mode)
    { ops with datbuf := datbuf, oobbuf := oobbuf } addr (-ebadmsg)
    (readMtdPage g ecc mode (ops.len ≠ 0) (ops.ooblen ≠ 0)) (Quiet g after) pos room (by decide)
    (fun k cache' s quiet asked => ⟨(brings k cache' s quiet).1, ((brings k cache' s quiet).2 asked).1⟩)
    cache' after (Quiet.refl _)
  refine ⟨zero, ?_⟩
  have back : Paged.Delivered (mtdSizes g mode) { ops with datbuf := datbuf, oobbuf := oobbuf }
      (KeptOob mode g) ops.datbuf ops.oobbuf
      ((mtdReadData g ecc mode { ops with datbuf := datbuf, oobbuf := oobbuf } addr
        cache').value after).2 := by
    refine Paged.readData_delivers (mtdSizes g mode)
      { ops with datbuf := datbuf, oobbuf := oobbuf } addr (-ebadmsg)
      (readMtdPage g ecc mode (ops.len ≠ 0) (ops.ooblen ≠ 0)) (Quiet g after) (KeptOob mode g) pos
      room (by decide) (fun k cache' s quiet => ⟨(brings k cache' s quiet).1, fun _ => ?_⟩) cache'
      after (Quiet.refl _) zero.ge
    have own := (brings k cache' s quiet).2
    exact ⟨fun some => (own (.inl some)).2.1 some, fun some => (own (.inr some)).2.2 some⟩
  exact ⟨back.retlen, back.oobretlen, back.datbuf_eq, back.oobbuf_eq⟩

/-- Whatever the mode, the lengths and the start, a write does what it promises. -/
theorem mtdWrite_right (fits : g.MarkerInLastSector) :
    WrittenRight ecc mode ops addr cache w := by
  have pos : 0 < (mtdSizes g mode).writesize := g.writesize_pos
  obtain ⟨n, state, ends⟩ := Paged.writeData_run (mtdSizes g mode) ops addr cache pos room
    (writeMtdPage g ecc mode) w
  change ((mtdWriteData g ecc mode ops addr cache).value w).2 = _ at state
  refine ⟨?_, ?_, ?_⟩
  · intro k page found
    rw [state, Paged.WriteState.behind_pages] at found
    have early := (List.getElem?_eq_some_iff.mp found).1
    simp only [List.length_map, List.length_range] at early
    simp only [List.getElem?_map, List.getElem?_range early, Option.map_some,
      Option.some.injEq] at found
    exact found ▸ mtdPage_right mode ops addr cache room k
  · intro zero
    obtain ⟨done, -⟩ := ends zero
    obtain ⟨-, data, oob⟩ := Paged.WriteState.behind_streams (mtdSizes g mode) ops addr cache n
    rw [state, data, oob]
    exact ⟨Stream.behind_over (Nat.mod_lt addr pos) ops.len n (data ▸ done.1),
      Stream.behind_over room ops.ooblen n (oob ▸ done.2)⟩
  · intro zero steady erased apart datbuf oobbuf cache'
    exact mtdRead_back ecc mode ops addr cache w room fits zero steady erased apart datbuf oobbuf cache'

end Exact

section Sample

/-- One page of data with all its spare bytes. -/
def sampleOps : Paged.Request where
  datbuf := fun _ => 7
  oobbuf := fun _ => 9
  len := 8
  ooblen := 6
  ooboffs := 0

/-- In PLACE mode the spare bytes behind the FDM bytes are not on the page. -/
theorem spare_bytes_lost :
    ¬∀ (g : Geometry) (ecc : EccEngine g) (mode : OobMode) (ops : Paged.Request) (addr : Nat)
      (cache : Bytes) (w : World), g.MarkerInLastSector → ops.ooboffs < mtdOobavail g mode →
      addr % g.writesize = 0 → Steady w → (∀ die page k, w.cells die page k = 0xff) →
      ((mtdWriteData g ecc mode ops addr cache).value w).2.pages.Pairwise
        (fun a b => Apart g a.addr b.addr) →
      ((mtdWriteData g ecc mode ops addr cache).value w).1 = 0 →
      ∀ i < ops.ooblen, ((mtdReadData g ecc mode { ops with oobbuf := fun _ => 0 } addr cache).value
        ((mtdWriteData g ecc mode ops addr cache).after w)).2.oobbuf i = ops.oobbuf i := by
  intro all
  have one : ((mtdWriteData sampleGeometry sampleEcc .placeOob sampleOps 0 (fun _ => 0)).value
      sampleWorld).2.pages.length = 1 := by decide +kernel
  obtain ⟨page, only⟩ := List.length_eq_one_iff.mp one
  have apart : ((mtdWriteData sampleGeometry sampleEcc .placeOob sampleOps 0 (fun _ => 0)).value
      sampleWorld).2.pages.Pairwise (fun a b => Apart sampleGeometry a.addr b.addr) := by
    rw [only]
    exact List.pairwise_singleton _ _
  have back := all sampleGeometry sampleEcc .placeOob sampleOps 0 (fun _ => 0) sampleWorld (by decide)
    (by decide) (by decide) sampleWorld_steady (fun _ _ _ => rfl) apart (by decide +kernel) 4 (by decide)
  exact absurd back (by decide +kernel)

/-- Two pages in raw mode, written to an erased chip and read back. -/
theorem mtdWrite_right_sample :
    ((mtdReadData sampleGeometry sampleEcc .raw { sampleOps with len := 16, ooblen := 12 } 0
      (fun _ => 0)).value ((mtdWriteData sampleGeometry sampleEcc .raw
        { sampleOps with len := 16, ooblen := 12 } 0 (fun _ => 0)).after sampleWorld)).1 = 0 := by
  let ops : Paged.Request := { sampleOps with len := 16, ooblen := 12 }
  have right := mtdWrite_right sampleEcc .raw ops 0 (fun _ => 0) sampleWorld (by decide) (by decide)
  have addrs : (((mtdWriteData sampleGeometry sampleEcc .raw ops 0 (fun _ => 0)).value
      sampleWorld).2.pages.map Paged.PageWrite.addr).Pairwise (Apart sampleGeometry) := by
    have two : ((mtdWriteData sampleGeometry sampleEcc .raw ops 0 (fun _ => 0)).value
        sampleWorld).2.pages.map Paged.PageWrite.addr = [0, 8] := by decide +kernel
    rw [two]
    exact List.pairwise_pair.mpr (apart_of_rows (by decide) (by decide) (by decide) (by decide)
      (by decide) (by decide) (by decide))
  exact (right.readBack (by decide +kernel) sampleWorld_steady (fun _ _ _ => rfl)
    (List.pairwise_map.mp addrs) _ _ _).1

end Sample

end Filogic.Snand
