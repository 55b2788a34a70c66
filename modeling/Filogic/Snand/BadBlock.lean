import Filogic.Snand.Agreement
import Filogic.Snand.Frame

/-! The bad-block marker over whole runs. A read never touches the array, a program only clears
bits, and `mtk_snand_mtd_erase` does not erase a block whose marker is set: a set marker stays. -/

namespace Filogic.Snand
open Lib

variable {g : Geometry}

theorem Quiet.steady {w w' : World} (quiet : Quiet g w w') (steady : Steady w) : Steady w' :=
  ⟨quiet.bus_eq ▸ steady.reliable, quiet.failBits_eq ▸ steady.failBits⟩

/-- The 32-bit mask drops what is above 4 GiB. -/
theorem blockStart_mod (g : Geometry) (addr : Nat) :
    blockStart g addr = addr % 2 ^ 32 / g.erasesize * g.erasesize := by
  have mask : 2 ^ g.erasesizeShift - 1 < 2 ^ 32 := by
    have := Nat.pow_le_pow_right (n := 2) (by decide) g.blockFits.le
    omega
  unfold blockStart Geometry.erasesizeMask Geometry.erasesize
  rw [← Nat.shiftRight_eq_div_pow, ← Nat.shiftLeft_eq,
    show 2 ^ 32 - 1 - (2 ^ g.erasesizeShift - 1) = 2 ^ 32 - (2 ^ g.erasesizeShift - 1 + 1) by omega]
  apply Nat.eq_of_testBit_eq
  intro i
  rw [Nat.testBit_and, Nat.testBit_two_pow_sub_succ mask, Nat.testBit_two_pow_sub_one,
    Nat.testBit_shiftLeft, Nat.testBit_shiftRight]
  by_cases high : g.erasesizeShift ≤ i
  · rw [Nat.add_sub_cancel' high, Nat.testBit_mod_two_pow, decide_eq_true high,
      decide_eq_false (not_lt.mpr high)]
    cases addr.testBit i <;> cases decide (i < 32) <;> rfl
  · rw [decide_eq_true (not_le.mp high), decide_eq_false high]
    cases addr.testBit i <;> cases decide (i < 32) <;> rfl

theorem blockStart_eq (g : Geometry) (addr : Nat) (inside : addr < g.size) :
    blockStart g addr = addr / g.erasesize * g.erasesize := by
  rw [blockStart_mod, Nat.mod_eq_of_lt (inside.trans_le g.addressable)]

theorem blockStart_le (g : Geometry) (addr : Nat) : blockStart g addr ≤ addr := Nat.and_le_left

/-- The row of the first page of the block at `addr`, as the erase path computes it. -/
def blockRow (g : Geometry) (addr : Nat) : Nat :=
  dieAddr g addr >>> g.erasesizeShift <<< (g.erasesizeShift - g.writesizeShift) % 2 ^ 24

theorem dieAddr_blockStart (g : Geometry) (addr : Nat) (inside : addr < g.size) :
    dieAddr g (blockStart g addr) = dieAddr g addr / g.erasesize * g.erasesize := by
  rw [dieAddr, dieAddr, blockStart_eq g addr inside]
  split
  · rfl
  · have room : g.erasesize ∣ 2 ^ g.dieShift := Nat.pow_dvd_pow 2 g.blockInDie
    have pos : 0 < g.erasesize := Nat.two_pow_pos _
    unfold Geometry.dieMask
    rw [Nat.and_two_pow_sub_one_eq_mod, Nat.and_two_pow_sub_one_eq_mod]
    obtain ⟨blocks, count⟩ := room
    rw [count, Nat.mul_comm (addr / g.erasesize), Nat.mul_mod_mul_left, Nat.mod_mul_right_div_self,
      Nat.mul_comm]

/-- The erase path and the marker check address the same page. -/
theorem blockRow_eq (g : Geometry) (addr : Nat) (inside : addr < g.size) :
    blockRow g addr = row g (blockStart g addr) := by
  unfold blockRow row
  rw [dieAddr_blockStart g addr inside, Nat.shiftRight_eq_div_pow, Nat.shiftRight_eq_div_pow,
    Nat.shiftLeft_eq]
  have split : g.erasesize = 2 ^ (g.erasesizeShift - g.writesizeShift) * 2 ^ g.writesizeShift := by
    unfold Geometry.erasesize
    rw [← Nat.pow_add, Nat.sub_add_cancel g.pageInBlock]
  nth_rewrite 2 [split]
  rw [← Nat.mul_assoc, Nat.mul_div_cancel _ (Nat.two_pow_pos _)]
  rfl

theorem blockRow_aligned (g : Geometry) (addr : Nat) : blockRow g addr % g.pagesPerBlock = 0 := by
  have divides : g.pagesPerBlock ∣ 2 ^ 24 :=
    Nat.pow_dvd_pow 2 (by have := g.blockRow; omega)
  unfold blockRow
  rw [Nat.shiftLeft_eq, Nat.mod_mod_of_dvd _ divides]
  exact Nat.mul_mod_left _ _

theorem dieOf_blockStart (g : Geometry) (old addr : Nat) (inside : addr < g.size) :
    dieOf g old (blockStart g addr) = dieOf g old addr := by
  unfold dieOf
  split
  · rfl
  · rw [blockStart_eq g addr inside, Nat.shiftRight_eq_div_pow, Nat.shiftRight_eq_div_pow]
    obtain ⟨blocks, count⟩ : g.erasesize ∣ 2 ^ g.dieShift := Nat.pow_dvd_pow 2 g.blockInDie
    have pos : 0 < g.erasesize := Nat.two_pow_pos _
    rw [count, ← Nat.div_div_eq_div_mul, ← Nat.div_div_eq_div_mul, Nat.mul_div_cancel _ pos]
  · rfl

/-- The marker byte of the block at `addr`. -/
def marker (g : Geometry) (w : World) (addr : Nat) : UInt8 :=
  pageCells g w (blockStart g addr) (markerPos g)

theorem markerPos_lt (g : Geometry) : markerPos g < g.eccSteps * g.rawSectorSize := by
  have fdm := g.fdmSize_pos
  have split := g.rawSectorSize_eq
  have steps := g.someSector
  unfold markerPos
  split_ifs
  · rw [g.writesize_eq]
    exact Nat.mul_lt_mul_of_pos_left (by omega) steps
  · calc g.soc.sectorSize < g.rawSectorSize := by omega
      _ ≤ g.eccSteps * g.rawSectorSize := Nat.le_mul_of_pos_left _ steps

theorem blockIsbadRaw_run (ecc : EccEngine g) (w : World) (steady : Steady w) (addr : Nat)
    (inside : addr < g.size) :
    ∃ w', (blockIsbadRaw g ecc addr (!g.soc.bbmSwap)).run w =
      (if pageCells g w addr (markerPos g) ≠ 0xff then 1 else 0, w') := by
  obtain ⟨tick, trace, select⟩ := selectDieAddress_run g w steady.reliable addr inside
  let w₁ : World := { w with die := dieOf g w.die addr, tick := tick, trace := trace }
  obtain ⟨w₂, fetch, steady₂, fetched, page⟩ := fetchPage_run ecc w₁
    ⟨steady.reliable, steady.failBits⟩ (dieAddr g addr >>> g.writesizeShift) true
    (fun h => absurd h Bool.true_eq_false_eq_False)
  rw [if_pos rfl] at page
  have byte : w₂.pageCache (markerPos g) = pageCells g w addr (markerPos g) :=
    page _ (markerPos_lt g)
  let out : Buffers := { buf := none, oob := some w.bufCache }
  -- Byte 0 of the OOB buffer comes from the marker position in either format.
  have delivered : ∃ oob w₃, (deliver g true (!g.soc.bbmSwap) out).run w₂ =
      ({ buf := none, oob := some oob }, w₃) ∧ oob 0 = pageCells g w addr (markerPos g) := by
    have steps := g.someSector
    have fdm := g.fdmSize_pos
    cases swap : g.soc.bbmSwap with
    | true =>
      refine ⟨_, _, rfl, ?_⟩
      have spare : 0 < g.eccSteps * g.sparePerSector :=
        Nat.mul_pos steps (lt_of_lt_of_le fdm g.spareHoldsFdm)
      rw [← byte, markerPos, if_pos swap]
      exact Bytes.memcpy_inside _ _ _ _ _ _ (Nat.le_refl _) (by omega)
    | false =>
      have off : ¬ g.swaps = true := by simp only [Geometry.swaps, swap]; exact Bool.false_ne_true
      obtain ⟨oob, copied, bytes⟩ := fromRawPage_oob (g := g) w₂.pageCache w.bufCache out rfl
      have shape := fromRawPage_none (g := g) w₂.pageCache out
      have result : fromRawPage g w₂.pageCache out = { buf := none, oob := some oob } := by
        have noBuf : (fromRawPage g w₂.pageCache out).buf = none := by
          rw [← Option.not_isSome_iff_eq_none, shape.1]
          exact Bool.false_ne_true
        rw [← noBuf, ← copied]
      have unswapped : fdmBmSwapRaw g (bmSwapRaw g w₂.pageCache) = w₂.pageCache := by
        rw [bmSwapRaw, if_neg off, fdmBmSwapRaw, if_neg off]
      refine ⟨oob, { w₂ with pageCache := fdmBmSwapRaw g (bmSwapRaw g w₂.pageCache) }, ?_, ?_⟩
      · change (fromRawPage g (fdmBmSwapRaw g (bmSwapRaw g w₂.pageCache)) out,
          ({ w₂ with pageCache := fdmBmSwapRaw g (bmSwapRaw g w₂.pageCache) } : World)) = _
        rw [unswapped, result]
      · rw [bytes 0 (Nat.mul_pos steps fdm), Nat.add_zero, g.place_first_fdm, ← byte, markerPos, swap]
        rfl
  obtain ⟨oob, w₃, deliver, first⟩ := delivered
  have read : (doReadPage g ecc addr out true (!g.soc.bbmSwap)).run w =
      ((0, { buf := none, oob := some oob }), w₃) := by
    rw [doReadPage, Prog.run_bind, select]
    change (Prog.run (fetchPage g ecc _ true >>= _) w₁) = _
    rw [Prog.run_bind, fetch]
    simp only [if_true, Prog.run_bind, deliver, Prog.run_pure]
  refine ⟨{ w₃ with bufCache := oob }, ?_⟩
  rw [blockIsbadRaw, Prog.run_bind, Prog.run_get, Prog.run_bind, read]
  change ((if oob 0 ≠ 0xff then (1 : Int) else 0), _) = _
  rw [first]
  rfl

/-- `mtk_snand_block_isbad` reports the marker byte. -/
theorem blockIsbad_run (ecc : EccEngine g) (w : World) (steady : Steady w) (addr : Nat)
    (inside : addr < g.size) :
    ∃ w', (blockIsbad g ecc addr).run w = (if marker g w addr ≠ 0xff then 1 else 0, w') := by
  obtain ⟨w', run⟩ := blockIsbadRaw_run ecc w steady (blockStart g addr)
    (lt_of_le_of_lt (blockStart_le g addr) inside)
  refine ⟨w', ?_⟩
  rw [blockIsbad, if_neg (by omega)]
  cases swap : g.soc.bbmSwap with
  | true =>
    rw [swap] at run
    exact run
  | false =>
    rw [swap] at run
    exact run

theorem and_ne_full (a b : UInt8) (set : a ≠ 0xff) : a &&& b ≠ 0xff :=
  fun full => set (UInt8.and_eq_neg_one_iff.mp full).1

/-- A successful write to a good block leaves OOB byte 0 on the marker. -/
theorem write_marker (fits : g.MarkerInLastSector) (ecc : EccEngine g) (w : World)
    (steady : Steady w) (addr : Nat) (inside : addr < g.size) (src : Buffers) (raw : Bool)
    (good : marker g w addr = 0xff)
    (written : (writePage g ecc (blockStart g addr) src raw).value w = 0) :
    Steady ((writePage g ecc (blockStart g addr) src raw).after w) ∧
    marker g ((writePage g ecc (blockStart g addr) src raw).after w) addr = src.spare 0 := by
  rw [Prog.value, writePage] at written
  rw [Prog.after, writePage]
  split_ifs at written ⊢ with refused
  · exact absurd written (show ¬ -einval = 0 by decide)
  · have first := lt_of_le_of_lt (blockStart_le g addr) inside
    obtain ⟨ret, w', t, run, ended⟩ := doWritePage_run g ecc w steady (blockStart g addr) first
      src raw true
    rw [run] at written ⊢
    have succeeded : (w.bus t).fails = false := by
      have verdict := ended.ret_eq
      rw [show ret = 0 from written] at verdict
      cases fails : (w.bus t).fails with
      | false => rfl
      | true => exact absurd (verdict.trans (if_pos fails)) (by decide)
    refine ⟨ended.steady, ?_⟩
    have stored := (writeImage_renamed ecc fits src raw w.pageCache w.fdmRegs).marker fits
    unfold marker pageCells at good ⊢
    rw [ended.cells_eq, ended.die_eq, dieOf_again, programCells, if_pos ⟨rfl, rfl⟩, good, succeeded]
    exact UInt8.neg_one_and.trans stored

/-- The row and die of a block, and the marker set there. -/
structure Marked (g : Geometry) (die page : Nat) (w : World) : Prop where
  steady : Steady w
  die_eq : g.selectDie = none → w.die = die
  set : w.cells die page (markerPos g) ≠ 0xff

theorem Marked.quiet {die page : Nat} {w w' : World} (marked : Marked g die page w)
    (quiet : Quiet g w w') : Marked g die page w' :=
  ⟨quiet.steady marked.steady, fun single => (quiet.die_eq single).trans (marked.die_eq single),
    quiet.cells_eq ▸ marked.set⟩

theorem dieOf_single (g : Geometry) (old addr : Nat) (single : g.selectDie = none) :
    dieOf g old addr = old := by
  rw [dieOf, single]

theorem dieOf_eq (g : Geometry) (old die addr : Nat) (same : g.selectDie = none → old = die) :
    dieOf g old addr = dieOf g die addr := by
  unfold dieOf
  split
  · exact same ‹_›
  · rfl
  · rfl

/-- Any program, to any page, successful or not. -/
theorem Marked.doWritePage {die page : Nat} {w : World} (marked : Marked g die page w)
    (ecc : EccEngine g) (addr : Nat) (inside : addr < g.size) (src : Buffers) (raw format : Bool) :
    Marked g die page ((Snand.doWritePage g ecc addr src raw format).after w) := by
  obtain ⟨ret, w', t, run, ended⟩ := doWritePage_run g ecc w marked.steady addr inside src raw format
  rw [Prog.after, run]
  refine ⟨ended.steady, fun single => ?_, ?_⟩
  · rw [ended.die_eq]
    exact (dieOf_single g _ _ single).trans (marked.die_eq single)
  · rw [ended.cells_eq, programCells]
    by_cases here : die = dieOf g w.die addr ∧ page = row g addr
    · rw [if_pos here]
      exact and_ne_full _ _ marked.set
    · rw [if_neg here]
      exact marked.set

theorem Marked.writePage {die page : Nat} {w : World} (marked : Marked g die page w)
    (ecc : EccEngine g) (addr : Nat) (src : Buffers) (raw : Bool) :
    Marked g die page ((Snand.writePage g ecc addr src raw).after w) := by
  rw [Prog.after, Snand.writePage]
  split_ifs with refused
  · exact marked
  · exact marked.doWritePage ecc addr (by omega) src raw true

theorem Marked.blockMarkbad {die page : Nat} {w : World} (marked : Marked g die page w)
    (ecc : EccEngine g) (addr : Nat) :
    Marked g die page ((Snand.blockMarkbad g ecc addr).after w) := by
  have buffered (bufCache : Bytes) : Marked g die page { w with bufCache := bufCache } :=
    ⟨⟨marked.steady.reliable, marked.steady.failBits⟩, marked.die_eq, marked.set⟩
  have first (inside : addr < g.size) : blockStart g addr < g.size :=
    lt_of_le_of_lt (blockStart_le g addr) inside
  by_cases outside : g.size ≤ addr
  · rw [Prog.after, Snand.blockMarkbad, if_pos outside]
    exact marked
  · rw [Prog.after, Snand.blockMarkbad, if_neg outside]
    cases g.soc.bbmSwap with
    | true =>
      let bufCache := Function.update (w.bufCache.memset 0 0xff g.oobsize) 0 0
      exact (buffered bufCache).doWritePage ecc (blockStart g addr) (first (by omega))
        { buf := none, oob := some bufCache } true false
    | false =>
      let bufCache := w.bufCache.memset 0 0 (g.writesize + g.oobsize)
      exact (buffered bufCache).doWritePage ecc (blockStart g addr) (first (by omega))
        { buf := some bufCache, oob := some fun k => bufCache (g.writesize + k) } true true

/-- The erase loop: a block is erased only after its marker has been read as 0xff. -/
theorem Marked.mtdEraseFrom {die page : Nat} (aligned : page % g.pagesPerBlock = 0)
    (ecc : EccEngine g) (blocks addr : Nat) (ret : Int) (w : World)
    (marked : Marked g die page w) :
    Marked g die page ((Snand.mtdEraseFrom g ecc blocks addr ret).after w) := by
  induction blocks generalizing addr ret w with
  | zero => exact marked
  | succ blocks ih =>
    have probed := marked.quiet (blockIsbad_quiet ecc addr w)
    have quiet := blockIsbad_quiet (g := g) ecc addr w
    rw [Prog.after, Snand.mtdEraseFrom, Prog.run_bind]
    split_ifs with bad
    · exact probed
    · rw [not_not] at bad
      have inside : addr < g.size := by
        by_contra outside
        rw [blockIsbad, if_pos (by omega)] at bad
        exact absurd bad (show ¬ -einval = 0 by decide)
      obtain ⟨w', run⟩ := blockIsbad_run ecc w marked.steady addr inside
      have erased : marker g w addr = 0xff := by
        rw [run] at bad
        by_contra set
        rw [if_pos set] at bad
        exact absurd bad one_ne_zero
      let w₁ := ((blockIsbad g ecc addr).run w).2
      obtain ⟨ret', w₂, t, erase, ended⟩ := eraseBlock_run g w₁ probed.steady addr inside
      have other : ¬ (die = dieOf g w₁.die addr ∧
          page / g.pagesPerBlock = blockRow g addr / g.pagesPerBlock) := by
        rintro ⟨sameDie, sameBlock⟩
        have samePage : page = blockRow g addr := by
          rw [← Nat.div_add_mod page g.pagesPerBlock, ← Nat.div_add_mod (blockRow g addr)
            g.pagesPerBlock, sameBlock, aligned, blockRow_aligned]
        apply marked.set
        rw [sameDie, samePage, blockRow_eq g addr inside,
          dieOf_eq g w₁.die w.die addr quiet.die_eq, ← dieOf_blockStart g w.die addr inside]
        exact erased
      have marked₂ : Marked g die page w₂ := by
        refine ⟨ended.steady, fun single => ?_, ?_⟩
        · rw [ended.die_eq]
          exact (dieOf_single g _ _ single).trans (probed.die_eq single)
        · rw [ended.cells_eq]
          change eraseCells g _ _ (blockRow g addr) _ die page _ ≠ _
          rw [eraseCells, if_neg other]
          exact probed.set
      rw [Prog.run_bind, erase]
      split_ifs
      · exact marked₂
      · exact ih _ _ w₂ marked₂

/-- The operations of the driver; blocks are erased through the MTD layer only. -/
inductive Operation where
  | read (addr : Nat) (out : Buffers) (raw : Bool)
  | write (addr : Nat) (src : Buffers) (raw : Bool)
  | isbad (addr : Nat)
  | markbad (addr : Nat)
  | erase (addr len : Nat) (unset : Int)

def Operation.after (g : Geometry) (ecc : EccEngine g) : Operation → World → World
  | .read addr out raw => (readPage g ecc addr out raw).after
  | .write addr src raw => (writePage g ecc addr src raw).after
  | .isbad addr => (blockIsbad g ecc addr).after
  | .markbad addr => (blockMarkbad g ecc addr).after
  | .erase addr len unset => (mtdErase g ecc addr len unset).after

def runAll (g : Geometry) (ecc : EccEngine g) (operations : List Operation) (w : World) : World :=
  operations.foldl (fun w operation => operation.after g ecc w) w

theorem Marked.step {die page : Nat} (aligned : page % g.pagesPerBlock = 0) {w : World}
    (marked : Marked g die page w) (ecc : EccEngine g) (operation : Operation) :
    Marked g die page (operation.after g ecc w) := by
  cases operation with
  | read addr out raw => exact marked.quiet (readPage_quiet ecc addr out raw w)
  | write addr src raw => exact marked.writePage ecc addr src raw
  | isbad addr => exact marked.quiet (blockIsbad_quiet ecc addr w)
  | markbad addr => exact marked.blockMarkbad ecc addr
  | erase addr len unset =>
    rw [Operation.after, Prog.after, mtdErase]
    split_ifs
    · exact marked
    · exact Marked.mtdEraseFrom aligned ecc _ _ _ w marked

theorem Marked.runAll {die page : Nat} (aligned : page % g.pagesPerBlock = 0) (ecc : EccEngine g)
    (operations : List Operation) (w : World) (marked : Marked g die page w) :
    Marked g die page (Snand.runAll g ecc operations w) := by
  induction operations generalizing w with
  | nil => exact marked
  | cons operation rest ih => exact ih _ (marked.step aligned ecc operation)

theorem Marked.marker {w₀ w : World} {addr : Nat}
    (marked : Marked g (dieOf g w₀.die (blockStart g addr)) (row g (blockStart g addr)) w)
    (single : g.selectDie = none → w₀.die = dieOf g w₀.die (blockStart g addr)) :
    Snand.marker g w addr ≠ 0xff := by
  unfold Snand.marker pageCells
  rw [dieOf_eq g w.die w₀.die _ fun none => (marked.die_eq none).trans (single none).symm]
  exact marked.set

/-- What the two marking paths program on the marker. -/
theorem markbad_stores (fits : g.MarkerInLastSector) (ecc : EccEngine g) (w : World)
    (steady : Steady w) (addr : Nat) (marked : (blockMarkbad g ecc addr).value w = 0) :
    addr < g.size ∧
    Marked g (dieOf g w.die (blockStart g addr)) (row g (blockStart g addr))
      ((blockMarkbad g ecc addr).after w) := by
  have inside : addr < g.size := by
    by_contra outside
    rw [Prog.value, blockMarkbad, if_pos (by omega)] at marked
    exact absurd marked (show ¬ -einval = 0 by decide)
  have first := lt_of_le_of_lt (blockStart_le g addr) inside
  have steps := g.someSector
  have spare : 0 < g.eccSteps * g.sparePerSector :=
    Nat.mul_pos steps (lt_of_lt_of_le g.fdmSize_pos g.spareHoldsFdm)
  -- A successful program of an image with a zero on the marker.
  have zeroed (bufCache : Bytes) (src : Buffers) (format : Bool)
      (written : (doWritePage g ecc (blockStart g addr) src true format).value
        { w with bufCache := bufCache } = 0)
      (zero : storedPage g ecc (writeImage g src true format w.pageCache) w.fdmRegs (markerPos g) = 0) :
      Marked g (dieOf g w.die (blockStart g addr)) (row g (blockStart g addr))
        ((doWritePage g ecc (blockStart g addr) src true format).after
          { w with bufCache := bufCache }) := by
    obtain ⟨ret, w', t, run, ended⟩ := doWritePage_run g ecc { w with bufCache := bufCache }
      ⟨steady.reliable, steady.failBits⟩ (blockStart g addr) first src true format
    rw [Prog.value, run] at written
    have succeeded : (w.bus t).fails = false := by
      have verdict := ended.ret_eq
      rw [show ret = 0 from written] at verdict
      cases fails : (w.bus t).fails with
      | false => rfl
      | true => exact absurd (verdict.trans (if_pos fails)) (by decide)
    rw [Prog.after, run]
    refine ⟨ended.steady, fun _ => ended.die_eq, ?_⟩
    rw [ended.cells_eq, programCells, if_pos ⟨rfl, rfl⟩]
    have image : (if (w.bus t).fails then (w.bus t).torn (row g (blockStart g addr))
        else storedPage g ecc (writeImage g src true format w.pageCache) w.fdmRegs) (markerPos g)
        = 0 := by
      rw [succeeded]
      exact zero
    change _ &&& (if (w.bus t).fails then (w.bus t).torn (row g (blockStart g addr))
      else storedPage g ecc (writeImage g src true format w.pageCache) w.fdmRegs) (markerPos g) ≠ _
    rw [image, UInt8.and_zero]
    decide
  refine ⟨inside, ?_⟩
  rw [Prog.value, blockMarkbad, if_neg (by omega)] at marked
  rw [Prog.after, blockMarkbad, if_neg (by omega)]
  split_ifs at marked ⊢ with swap
  · apply zeroed (Function.update (w.bufCache.memset 0 0xff g.oobsize) 0 0)
      { buf := none, oob := some (Function.update (w.bufCache.memset 0 0xff g.oobsize) 0 0) } false
      marked
    rw [writeImage, if_pos rfl, rawPage_apply ecc _ _ _ (markerPos_lt g), rawImage,
      if_neg Bool.false_ne_true, markerPos, if_pos swap,
      Bytes.memcpyOpt_inside _ _ _ _ _ _ (Nat.le_refl _) (by omega), Nat.sub_self]
    exact Function.update_self 0 0 (w.bufCache.memset 0 0xff g.oobsize)
  · let zeros := w.bufCache.memset 0 0 (g.writesize + g.oobsize)
    apply zeroed zeros { buf := some zeros, oob := some fun k => zeros (g.writesize + k) } true
      marked
    rw [(writeImage_renamed ecc fits _ true w.pageCache w.fdmRegs).marker fits]
    have room := g.oobHoldsSpare
    exact Bytes.memset_inside _ _ _ _ _ (Nat.zero_le _) (by omega)

/-- On a good block, a successful write of the first page makes the block read as bad exactly
when its OOB byte 0 is not 0xff, in either mode and through the empty-page shortcut. After a
successful marking every later check reports the block bad, whatever reads, writes, markings and
erases come in between, to whatever addresses and with whatever program and erase failures. -/
theorem bad_block_marker (g : Geometry) (fits : g.MarkerInLastSector) (ecc : EccEngine g)
    (w : World) (steady : Steady w) (addr : Nat) (inside : addr < g.size) :
    (∀ (src : Buffers) (raw : Bool), marker g w addr = 0xff →
      (writePage g ecc (blockStart g addr) src raw).value w = 0 →
      (blockIsbad g ecc addr).value ((writePage g ecc (blockStart g addr) src raw).after w) =
        if src.spare 0 ≠ 0xff then 1 else 0) ∧
    (∀ operations : List Operation, (blockMarkbad g ecc addr).value w = 0 →
      (blockIsbad g ecc addr).value
        (runAll g ecc operations ((blockMarkbad g ecc addr).after w)) = 1) := by
  constructor
  · intro src raw good written
    obtain ⟨steady', byte⟩ := write_marker fits ecc w steady addr inside src raw good written
    obtain ⟨w', run⟩ := blockIsbad_run ecc _ steady' addr inside
    rw [Prog.value, run, byte]
  · intro operations done
    have aligned : row g (blockStart g addr) % g.pagesPerBlock = 0 := by
      rw [← blockRow_eq g addr inside]
      exact blockRow_aligned g addr
    obtain ⟨-, marked⟩ := markbad_stores fits ecc w steady addr done
    have kept := Marked.runAll aligned ecc operations _ marked
    obtain ⟨w', run⟩ := blockIsbad_run ecc _ kept.steady addr inside
    rw [Prog.value, run, if_pos (kept.marker fun single => (dieOf_single g _ _ single).symm)]

/-- The first block of the sample chip: marked, then written and erased in vain; and marked by
an ordinary page write whose OOB byte 0 is not 0xff. -/
theorem bad_block_marker_sample :
    (blockIsbad sampleGeometry sampleEcc 0).value
      (runAll sampleGeometry sampleEcc
        [.write 0 ⟨some fun _ => 0xff, none⟩ false, .erase 0 16 0]
        ((blockMarkbad sampleGeometry sampleEcc 0).after sampleWorld)) = 1 ∧
    (blockIsbad sampleGeometry sampleEcc 0).value
      ((writePage sampleGeometry sampleEcc (blockStart sampleGeometry 0)
        ⟨some fun _ => 7, some fun _ => 0x12⟩ false).after sampleWorld) = 1 :=
  ⟨(bad_block_marker sampleGeometry (by decide) sampleEcc sampleWorld sampleWorld_steady 0
      (by decide)).2 _ (by decide +kernel),
    ((bad_block_marker sampleGeometry (by decide) sampleEcc sampleWorld sampleWorld_steady 0
      (by decide)).1 ⟨some fun _ => 7, some fun _ => 0x12⟩ false rfl (by decide +kernel)).trans
      (by decide)⟩

end Filogic.Snand
