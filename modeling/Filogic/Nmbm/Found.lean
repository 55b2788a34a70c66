import Filogic.Nmbm.Created

/-! A chip that was created is found again: the search passes the blocks that are reported bad and comes to
the signature, above the limit it has. -/

namespace Filogic.Nmbm
open Lib

/-- The lower device reads what is on flash, and reports the blocks that are marked. -/
structure ReadsWell (env : Env) : Prop where
  unflagged : ∀ tick addr, (env.fate tick (.isBadBlock addr)).flag = false
  reads : ∀ tick addr, 0 ≤ (env.fate tick (.readPage addr)).ret

section Search

variable {env : Env} {lower : Options}

theorem readDataFrom_done (fuel off ptr : Nat) (buf : Bytes) (w : World) :
    (readDataFrom env fuel off ptr 0 buf).run w = ((0, buf), w) := by
  cases fuel <;> rfl

/-- Data is read as it is on flash. -/
theorem readDataFrom_content (reads : ReadsWell env) (fuel off ptr remain : Nat) (buf : Bytes) (w : World)
    (enough : remain ≤ fuel) :
    ((readDataFrom env fuel off ptr remain buf).run w).1 =
      (0, buf.memcpy ptr (fun k => w.chip.main (off + k)) 0 remain) := by
  induction fuel generalizing off ptr remain buf w with
  | zero =>
    obtain rfl : remain = 0 := by omega
    rw [readDataFrom_done]
    exact congrArg _ (funext fun k => (Bytes.memcpy_outside _ _ _ _ _ _ (by omega)).symm)
  | succ fuel ih =>
    by_cases none : remain = 0
    · subst none
      rw [readDataFrom_done]
      exact congrArg _ (funext fun k => (Bytes.memcpy_outside _ _ _ _ _ _ (by omega)).symm)
    · have pos := env.geo.writesize_pos
      have leading := Nat.mod_lt off pos
      have place := env.geo.pageStart_add_mod off
      rw [readDataFrom, if_neg none]
      obtain ⟨chunk, chunked⟩ : ∃ chunk, env.geo.chunk off remain = (off % env.geo.writesize, chunk) := ⟨_, rfl⟩
      have size : chunk = min (env.geo.writesize - off % env.geo.writesize) remain :=
        (congrArg Prod.snd chunked).symm
      have good := reads.reads w.tick (off - off % env.geo.writesize)
      have page := readPhysPage_good env (off - off % env.geo.writesize) w good
      rw [env.geo.sub_mod_eq, env.geo.pageStart_pageStart] at page
      rw [env.geo.sub_mod_eq] at good
      have joined := Bytes.memcpy_append buf (fun k => w.chip.main (off + k)) ptr chunk (remain - chunk)
      rw [Nat.add_sub_cancel' (by omega)] at joined
      simp only [← Nat.add_assoc] at joined
      rw [chunked, ← joined]
      dsimp only
      by_cases full : chunk = env.geo.writesize
      · have start : env.geo.pageStart off = off := by omega
        rw [start] at page good
        rw [if_pos full, Prog.run_bind, env.geo.sub_mod_eq, start, page, if_neg (not_lt.mpr good)]
        exact ih _ _ _ _ _ (by omega)
      · rw [if_neg full, Prog.run_bind, env.geo.sub_mod_eq]
        simp only [readToPageCache, Prog.run_bind, page, setNi, Prog.run_modify, Prog.run_pure,
          if_neg (not_lt.mpr good), ni, Prog.run_gets]
        rw [ih _ _ _ _ _ (by omega)]
        congr 2
        refine Bytes.memcpy_source _ _ _ _ fun k small => ?_
        simp only [World.modifyNi]
        rw [Bytes.memcpy_inside _ _ _ _ _ _ (Nat.zero_le _) (by omega), Nat.zero_add, Nat.sub_zero,
          Nat.zero_add, ← Nat.add_assoc, place]

theorem readData_content (reads : ReadsWell env) (addr ptr size : Nat) (buf : Bytes) (w : World) :
    ((readData env addr buf ptr size).run w).1 =
      (0, buf.memcpy ptr (fun k => w.chip.main (addr + k)) 0 size) :=
  readDataFrom_content reads size addr ptr size buf w le_rfl

/-- The signature of a new chip is taken for one, and read as it was written. -/
theorem signaturePages_found (reads : ReadsWell env) (start ba : Nat) (w : World)
    (signed : Signed env lower (wordBytes (sealed env (newSignature env.geo start)).words) ba w.chip) :
    ((signaturePages env env.geo.pagesPerBlock (env.geo.ba2addr ba)).run w).1 =
      some (sealed env (newSignature env.geo start)) := by
  obtain ⟨pages, count⟩ := Nat.exists_eq_succ_of_ne_zero env.geo.pagesPerBlock_pos.ne'
  rw [count, signaturePages, Prog.run_bind,
    readData_content reads (env.geo.ba2addr ba) 0 signatureSize (fun _ => 0) w]
  generalize filled : Bytes.memcpy (fun _ => 0) 0 (fun k => w.chip.main (env.geo.ba2addr ba + k)) 0
    signatureSize = got
  have written (k : Nat) (inside : k < signatureSize) :
      got k = wordBytes (sealed env (newSignature env.geo start)).words k := by
    rw [← filled, Bytes.memcpy_inside _ _ _ _ _ _ (Nat.zero_le k) (by omega), Nat.zero_add, Nat.sub_zero]
    exact signed.content k inside
  have magic : word32 got 0 = magicSignature := by
    have word := word32_wordBytes (sealed env (newSignature env.geo start)).words 0
    have size : signatureSize = 48 := rfl
    exact (word32_congr 0 fun k small => written (0 + k) (by omega)).trans word
  have valid : checkHeader env got signatureSize = true :=
    checkHeader_sealed (newSignature env.geo start) env rfl rfl written
  rw [if_pos ⟨rfl, valid, magic⟩, Prog.run_pure]
  exact congrArg some (read_words _ written)

/-- From above, the search comes to the topmost block that is not reported bad. -/
theorem findSignatureFrom_found (reads : ReadsWell env) (spare : 0 < env.geo.oobsize) (start found : Nat)
    (left ba : Nat) (w : World) (same : w.ni.lower = lower)
    (signed : Signed env lower (wordBytes (sealed env (newSignature env.geo start)).words) found w.chip)
    (above : ∀ other, found < other → other < ba → w.chip.reportsBad env.geo lower other = true)
    (high : found < ba) (low : ba ≤ found + left) :
    ((findSignatureFrom env left ba).run w).1 =
      some (sealed env (newSignature env.geo start), found) := by
  induction left generalizing ba w with
  | zero => omega
  | succ left ih =>
    have value := checkBadPhysBlock_value (ba - 1) w spare reads.unflagged fun _ => reads.reads
    have passes := checkBadPhysBlock_reading env (ba - 1) w
    rw [same, ← passes.chip_eq] at value
    rw [← passes.chip_eq] at signed above
    have kept : ((checkBadPhysBlock env (ba - 1)).run w).2.ni.lower = lower := by
      obtain ⟨cache, read⟩ := passes.ni_eq
      rw [read]
      exact same
    simp only [findSignatureFrom, Prog.run_bind, Prog.run_ite, value]
    generalize ((checkBadPhysBlock env (ba - 1)).run w).2 = w' at signed above kept
    by_cases here : ba - 1 = found
    · rw [here, signed.unreported, if_neg Bool.false_ne_true,
        signaturePages_found reads start found w' signed]
      rfl
    · rw [if_pos (above (ba - 1) (by omega) (by omega))]
      exact ih (ba - 1) w' kept signed (fun other beyond below => above other beyond (by omega)) (by omega)
        (by omega)

end Search

section Bounds

/-- The search goes down to the start of the management area at least. -/
theorem signatureLimit_le (geo : Geometry) (lower : Options)
    (narrow : geo.blockCount * (16 - lower.maxRatio) < 2 ^ 32)
    (reserved : lower.maxReservedBlocks = 0 ∨ 32 ≤ lower.maxReservedBlocks) :
    signatureLimit geo lower ≤ mgmtStart geo lower := by
  have power : geo.blockCount < 16 ∨ geo.blockCount = geo.blockCount / 16 * 16 := by
    rw [Geometry.blockCount]
    by_cases small : geo.chipShift - geo.blockShift < 4
    · exact Or.inl (Nat.pow_lt_pow_right (by decide) small)
    · refine Or.inr (Nat.div_mul_cancel ?_).symm
      exact Nat.pow_dvd_pow 2 (Nat.le_of_not_lt small)
  rw [signatureLimit, mgmtStart, Nat.mod_eq_of_lt narrow]
  obtain small | whole := power
  · have none : geo.blockCount / 16 = 0 := Nat.div_eq_of_lt small
    rw [none, Nat.zero_mul, if_neg (by omega)]
    exact Nat.zero_le _
  · have same : geo.blockCount * (16 - lower.maxRatio) / 16 =
        geo.blockCount / 16 * (16 - lower.maxRatio) := by
      rw [whole, Nat.mul_div_cancel _ (by decide : 0 < 16), Nat.mul_right_comm,
        Nat.mul_div_cancel _ (by decide : 0 < 16)]
    rw [same]

end Bounds

section Attach

/-- The sizes of the chip fit the members of `struct nmbm_lower_device`: 64 bits for the chip, 32 bits for
blocks, pages and spare areas. -/
structure Geometry.FitsMembers (geo : Geometry) : Prop where
  size : geo.size < 2 ^ 64
  erasesize : geo.erasesize < 2 ^ 32
  oobsize : geo.oobsize < 2 ^ 32

theorem signatureFits_new (env : Env) (fits : env.geo.FitsMembers) (start : Nat) :
    signatureFits env.geo (sealed env (newSignature env.geo start)) = true := by
  have page : env.geo.writesize ≤ env.geo.erasesize := Nat.pow_le_pow_right (by decide) env.geo.page_le
  rw [signatureFits, decide_eq_true_eq]
  refine ⟨?_, ?_, ?_, ?_⟩
  · exact UInt64.toNat_ofNat_of_lt fits.size
  · exact UInt32.toNat_ofNat_of_lt fits.erasesize
  · exact UInt32.toNat_ofNat_of_lt (page.trans_lt fits.erasesize)
  · exact UInt32.toNat_ofNat_of_lt fits.oobsize

theorem checkLowerMembers_accepts {geo : Geometry} {asked lower : Options}
    (accepted : checkLowerMembers geo asked = some lower) :
    0 < geo.oobsize ∧ (lower.maxReservedBlocks = 0 ∨ 32 ≤ lower.maxReservedBlocks) := by
  rw [checkLowerMembers] at accepted
  generalize { asked with maxRatio := if asked.maxRatio = 0 then 1 else asked.maxRatio } = filled at accepted
  by_cases refused : geo.oobsize = 0 ∨ 15 ≤ filled.maxRatio ∨
      (filled.maxReservedBlocks ≠ 0 ∧ filled.maxReservedBlocks < 32)
  · exact absurd ((if_pos refused).symm.trans accepted) (by simp)
  · obtain rfl := Option.some.inj ((if_neg refused).symm.trans accepted)
    omega

/-- On a chip that was created, the search ends with the signature that is there. -/
theorem findSignature_created {env : Env} {lower : Options} (reads : ReadsWell env)
    (spare : 0 < env.geo.oobsize) (narrow : env.geo.blockCount * (16 - lower.maxRatio) < 2 ^ 32)
    (reserved : lower.maxReservedBlocks = 0 ∨ 32 ≤ lower.maxReservedBlocks) {made : World}
    (created : CreatedOn env lower made) (w : World) (same : w.chip = made.chip)
    (flags : w.ni.lower = lower) :
    ((findSignature env).run w).1 = .found made.ni.signature made.ni.signatureBa := by
  have limit := signatureLimit_le env.geo lower narrow reserved
  have low := created.low
  have high := created.high
  have signed := created.signed
  have above := created.above
  rw [← same] at signed above
  rw [created.signature_eq] at signed ⊢
  have found := findSignatureFrom_found reads spare (mgmtStart env.geo lower) made.ni.signatureBa
    (env.geo.blockCount + 1 - max (signatureLimit env.geo lower) 1) env.geo.blockCount w flags signed above
    high (by omega)
  rw [findSignature, ni_bind, flags]
  simp only [Prog.run_bind, found]
  rfl

/-- With a signature that fits, attaching goes on to load what is there. -/
theorem attach_found (env : Env) {asked lower : Options}
    (accepted : checkLowerMembers env.geo asked = some lower) (w : World) {signature : Signature} {ba : Nat}
    (search : ((findSignature env).run (w.modifyNi fun _ => initStructure env.geo lower)).1 =
      .found signature ba)
    (version : signature.version = nmbmVer) (fits : signatureFits env.geo signature = true) :
    ∃ loading, loading.chip = w.chip ∧ loading.ni.signature = signature ∧ loading.ni.signatureBa = ba ∧
      (attach env asked).run w = (some (if ((loadExisting env).run loading).1 then 0 else -enodev),
        ((loadExisting env).run loading).2) := by
  have passes := findSignature_reading env (w.modifyNi fun _ => initStructure env.geo lower)
  refine ⟨((findSignature env).run (w.modifyNi fun _ => initStructure env.geo lower)).2.modifyNi fun i =>
    { i with signature := signature, signatureBa := ba }, passes.chip_eq, rfl, rfl, ?_⟩
  unfold attach
  rw [accepted]
  simp only [Prog.run_bind, setNi, Prog.run_modify, search]
  generalize ((findSignature env).run (w.modifyNi fun _ => initStructure env.geo lower)).2.modifyNi _ = loading
  have other : ¬signature.version ≠ nmbmVer := not_not.mpr version
  have larger : ¬signatureFits env.geo signature = false := by
    rw [fits]
    exact Bool.true_eq_false.mp
  rw [if_neg other, if_neg larger, Prog.run_bind, Prog.run_pure]

/-- A second attach of a chip that was created goes on with the signature that the creation wrote, in the
block where it wrote it, and with the start of the management area that it chose. -/
theorem created_is_found {env : Env} {asked lower : Options}
    (accepted : checkLowerMembers env.geo asked = some lower) (fits : env.geo.FitsMembers)
    (narrow : env.geo.blockCount * (16 - lower.maxRatio) < 2 ^ 32) (writable : lower.readOnly = false)
    (sticks : MarksStick env lower) (fate : Nat → LowerCall → Fate)
    (reads : ReadsWell { env with fate := fate }) (w : World) (fresh : Fresh env.geo lower w.ni)
    (created : ((createNew env).run w).1 = true) (again : World)
    (same : again.chip = ((createNew env).run w).2.chip) :
    let later : Env := { env with fate := fate }
    let made := ((createNew env).run w).2.ni
    ((findSignature later).run (again.modifyNi fun _ => initStructure env.geo lower)).1 =
        .found made.signature made.signatureBa ∧
      made.signature.mgmtStartPb.toNat = made.mgmtStartBa ∧
      ∃ loading, loading.chip = again.chip ∧ loading.ni.signature = made.signature ∧
        loading.ni.signatureBa = made.signatureBa ∧
        (attach later asked).run again =
          (some (if ((loadExisting later).run loading).1 then 0 else -enodev),
            ((loadExisting later).run loading).2) := by
  intro later made
  obtain ⟨spare, reserved⟩ := checkLowerMembers_accepts accepted
  have on := createNew_leaves sticks spare writable w fresh created
  have signed := on.signed
  have onLater : CreatedOn later lower ((createNew env).run w).2 :=
    ⟨on.signature_eq, on.start_eq, on.low, on.high, ⟨signed.content, signed.fits, signed.unreported⟩,
      on.above⟩
  have search := findSignature_created reads spare narrow reserved onLater
    (again.modifyNi fun _ => initStructure env.geo lower) same rfl
  have passes := findSignature_reading later (again.modifyNi fun _ => initStructure env.geo lower)
  have start : made.signature.mgmtStartPb.toNat = made.mgmtStartBa := by
    have small := env.geo.blockCount_lt
    have low := on.low
    have high := on.high
    rw [on.signature_eq, on.start_eq]
    change (UInt32.ofNat (mgmtStart env.geo lower)).toNat = _
    rw [UInt32.toNat_ofNat']
    exact Nat.mod_eq_of_lt (by omega)
  have loads := attach_found later accepted again search
    (by rw [on.signature_eq]; rfl) (by rw [on.signature_eq]; exact signatureFits_new env fits _)
  exact ⟨search, start, loads⟩

end Attach

section Sample

/-- A chip with some bad blocks, and an instance set up for it. -/
def newWorld (lower : Options) (bad : List Nat) : World where
  ni := initStructure sampleGeometry lower
  chip := blankChip bad
  tick := 0
  issuer := .other
  generated := []
  trace := []

/-- A lower device on which nothing fails. -/
def quietEnv : Env := sampleEnv fun _ _ => false

/-- The last block has a page that cannot be written, and no block can be marked bad. -/
def unmarkableEnv : Env := sampleEnv fun _ call =>
  match call with
  | .writePage addr => addr = 0xf40
  | .markBadBlock _ => true
  | _ => false

/-- No page can be read. -/
def unreadableEnv : Env := sampleEnv fun _ call =>
  match call with
  | .readPage _ => true
  | _ => false

theorem quietEnv_sticks : MarksStick quietEnv sampleOptions where
  unflagged _ _ := rfl
  both := rfl
  marked _ _ _ := rfl
  written _ _ _ := rfl
  seen _ _ _ := Int.le_refl 0

theorem quietEnv_reads : ReadsWell quietEnv where
  unflagged _ _ := rfl
  reads _ _ := Int.le_refl 0

/-- The world that a new chip leaves, and the search on it by an instance that is set up anew. -/
def searchAgain (env later : Env) (lower : Options) (w : World) : SignatureSearch :=
  ((findSignature later).run
    (((createNew env).run w).2.modifyNi fun _ => initStructure env.geo lower)).1

set_option maxRecDepth 100000 in
theorem created_is_found_sample :
    searchAgain quietEnv quietEnv sampleOptions (newWorld sampleOptions [3, 15]) =
      .found ((createNew quietEnv).run (newWorld sampleOptions [3, 15])).2.ni.signature
        ((createNew quietEnv).run (newWorld sampleOptions [3, 15])).2.ni.signatureBa :=
  (@created_is_found quietEnv sampleOptions sampleOptions (by decide) ⟨by decide, by decide, by decide⟩ (by decide) rfl
    quietEnv_sticks quietEnv.fate quietEnv_reads (newWorld sampleOptions [3, 15]) ⟨fun _ => 0, rfl⟩
    (by decide +kernel) ((createNew quietEnv).run (newWorld sampleOptions [3, 15])).2 rfl).1

set_option maxRecDepth 100000 in
/-- Creation that may not write succeeds without a signature; a block that took part of one and could not
be marked is found in place of the right one; and from pages that cannot be read nothing is found. -/
theorem created_not_found :
    (((createNew quietEnv).run (newWorld { sampleOptions with readOnly := true } [])).1 = true ∧
      searchAgain quietEnv quietEnv { sampleOptions with readOnly := true }
        (newWorld { sampleOptions with readOnly := true } []) = .absent) ∧
    (((createNew unmarkableEnv).run (newWorld sampleOptions [])).1 = true ∧
      ((createNew unmarkableEnv).run (newWorld sampleOptions [])).2.ni.signatureBa = 14 ∧
      searchAgain unmarkableEnv quietEnv sampleOptions (newWorld sampleOptions []) =
        .found ((createNew unmarkableEnv).run (newWorld sampleOptions [])).2.ni.signature 15) ∧
    ((createNew quietEnv).run (newWorld sampleOptions [])).1 = true ∧
      searchAgain quietEnv unreadableEnv sampleOptions (newWorld sampleOptions []) = .absent := by
  decide +kernel

end Sample

end Filogic.Nmbm
