import Filogic.Nmbm.Found
import Filogic.Nmbm.TableBounds

/-! An info table that was written is read again: the header, the checksum, the two tables, and the
blocks that the loader looks at. -/

namespace Filogic.Nmbm
open Lib

section Image

theorem word32_memcpy (m : Bytes) (start : Nat) (words : Nat → UInt32) (len n : Nat)
    (inside : 4 * n + 4 ≤ len) : word32 (m.memcpy start (wordBytes words) 0 len) (start + 4 * n) = words n := by
  rw [← word32_wordBytes words n]
  refine word32_move _ _ fun k small => ?_
  rw [Bytes.memcpy_inside _ _ _ _ _ _ (by omega) (by omega), Nat.zero_add, Nat.add_assoc,
    Nat.add_sub_cancel_left]

variable (env : Env)

variable {h : InfoTableHeader} (regions : RegionsInside env.geo h) (blockState blockMapping : Nat → UInt32)

theorem infoTableImage_header (k : Nat) (inside : k < infoTableHeaderSize) (other : k < 12 ∨ 16 ≤ k) :
    infoTableImage env h blockState blockMapping k = wordBytes h.words k := by
  rw [infoTableImage, updateChecksum_outside env _ _ other,
    Bytes.memcpy_inside _ _ _ _ _ _ (Nat.zero_le k) (by omega), Nat.zero_add, Nat.sub_zero]

include regions

theorem infoTableImage_states (k : Nat) (inside : k < env.geo.stateTableSize) :
    infoTableImage env h blockState blockMapping (h.stateTableOff.toNat + k) = wordBytes blockState k := by
  obtain ⟨start, -, -, -, apart⟩ := regions
  have header : infoTableHeaderSize = 32 := rfl
  rw [infoTableImage, updateChecksum_outside env _ _ (by omega), Bytes.memcpy_outside _ _ _ _ _ _ (by omega),
    Bytes.memcpy_outside _ _ _ _ _ _ (by omega), Bytes.memcpy_inside _ _ _ _ _ _ (by omega) (by omega),
    Nat.zero_add, Nat.add_sub_cancel_left]

theorem infoTableImage_mappings (k : Nat) (inside : k < env.geo.mappingTableSize) :
    infoTableImage env h blockState blockMapping (h.mappingTableOff.toNat + k) = wordBytes blockMapping k := by
  have start := regions.mappingStart
  have header : infoTableHeaderSize = 32 := rfl
  rw [infoTableImage, updateChecksum_outside env _ _ (by omega), Bytes.memcpy_outside _ _ _ _ _ _ (by omega),
    Bytes.memcpy_inside _ _ _ _ _ _ (by omega) (by omega), Nat.zero_add, Nat.add_sub_cancel_left]

end Image

section Parsed

variable {env : Env} {h : InfoTableHeader} {blockState blockMapping : Nat → UInt32} {data : Bytes}

/-- The header is read as it was, with its checksum. -/
theorem read_infoTableImage
    (same : ∀ k < infoTableHeaderSize, data k = infoTableImage env h blockState blockMapping k) :
    InfoTableHeader.read data = { h with checksum := word32 data 12 } := by
  have header : infoTableHeaderSize = 32 := rfl
  have word (n : Nat) (inside : 4 * n + 4 ≤ infoTableHeaderSize) (other : n ≠ 3) :
      word32 data (4 * n) = h.words n := by
    rw [← word32_wordBytes h.words n]
    exact word32_congr _ fun k small =>
      (same _ (by omega)).trans (infoTableImage_header env _ _ _ (by omega) (by omega))
  obtain ⟨magic, version, size, checksum, writeCount, stateTableOff, mappingTableOff, padding⟩ := h
  rw [InfoTableHeader.read, word 0 (by decide) (by decide), word 1 (by decide) (by decide),
    word 2 (by decide) (by decide), word 4 (by decide) (by decide), word 5 (by decide) (by decide),
    word 6 (by decide) (by decide), word 7 (by decide) (by decide)]
  rfl

variable (regions : RegionsInside env.geo h)
include regions

/-- The header is accepted, whichever of its two tables comes first. -/
theorem checkInfoTableHeader_image (magic : h.magic = magicInfoTable)
    (sized : h.size = UInt32.ofNat env.geo.infoTableSize)
    (same : ∀ k < infoTableHeaderSize, data k = infoTableImage env h blockState blockMapping k) :
    checkInfoTableHeader env.geo (InfoTableHeader.read data) = true := by
  obtain ⟨-, -, stateEnd, mappingEnd, apart⟩ := regions
  have small : env.geo.infoTableSize < 2 ^ 32 := env.geo.fits
  have some := mappingTableSize_pos env.geo
  have size : h.size.toNat = env.geo.infoTableSize := by
    rw [sized]
    exact UInt32.toNat_ofNat_of_lt env.geo.fits
  rw [read_infoTableImage same, checkInfoTableHeader, decide_eq_true_eq]
  dsimp only
  refine ⟨magic, size, ?_, ?_⟩
  · unfold sub32
    omega
  · rw [sub32_of_le _ _ (by omega) small]
    omega

variable (same : ∀ k < env.geo.infoTableSize, data k = infoTableImage env h blockState blockMapping k)
include same

theorem wordsAt_states (unit : Nat) (inside : unit < env.geo.stateTableSize / 4) :
    wordsAt data h.stateTableOff.toNat unit = blockState unit := by
  have fits := regions.stateEnd
  rw [← word32_wordBytes blockState unit, wordsAt]
  refine word32_move _ _ fun k small => ?_
  rw [Nat.add_assoc, same _ (by omega), infoTableImage_states env regions _ _ _ (by omega)]

theorem wordsAt_mappings (lb : Nat) (inside : lb < env.geo.blockCount) :
    wordsAt data h.mappingTableOff.toNat lb = blockMapping lb := by
  have fits := regions.mappingEnd
  have size : env.geo.mappingTableSize = env.geo.blockCount * 4 := rfl
  rw [← word32_wordBytes blockMapping lb, wordsAt]
  refine word32_move _ _ fun k small => ?_
  rw [Nat.add_assoc, same _ (by omega), infoTableImage_mappings env regions _ _ _ (by omega)]

theorem checkHeader_infoTableImage (sized : h.size = UInt32.ofNat env.geo.infoTableSize) :
    checkHeader env data env.geo.infoTableSize = true := by
  have header : infoTableHeaderSize = 32 := rfl
  have small : headerSize = 16 := rfl
  have start := regions.stateStart
  have fits := regions.stateEnd
  refine checkHeader_updateChecksum env _ _ ?_ (by omega) same
  have word := word32_memcpy ((Bytes.memset (fun _ => 0) 0 0xff env.geo.infoTableSize |>.memcpy
    h.stateTableOff.toNat (wordBytes blockState) 0 env.geo.stateTableSize).memcpy
    h.mappingTableOff.toNat (wordBytes blockMapping) 0 env.geo.mappingTableSize) 0 h.words
    infoTableHeaderSize 2 (by decide)
  rw [Nat.zero_add] at word
  rw [show (8 : Nat) = 4 * 2 from rfl, word]
  change h.size.toNat = _
  rw [sized]
  exact UInt32.toNat_ofNat_of_lt env.geo.fits

end Parsed

section Blocks

variable {env : Env}

/-- The loader takes the block: it is good in the state table, and not reported bad. -/
def Seen (geo : Geometry) (w : World) (ba : Nat) : Prop :=
  w.ni.good ba = true ∧ w.chip.reportsBad geo w.ni.lower ba = false

/-- The bytes from block `ba` on are in the cache from offset `ptr` on, and little else happened. -/
structure Loaded (geo : Geometry) (ba ptr len : Nat) (w w' : World) : Prop where
  chip_eq : w'.chip = w.chip
  ni_eq : ∃ cache, w'.ni = { w.ni with
    pageCache := cache
    infoTableCache := w.ni.infoTableCache.memcpy ptr (fun k => w.chip.main (geo.ba2addr ba + k)) 0 len }

namespace Loaded

variable {geo : Geometry} {ba ptr len rest : Nat} {w w' w'' : World}

theorem seen_iff (loaded : Loaded geo ba ptr len w w') (other : Nat) :
    Seen geo w' other ↔ Seen geo w other := by
  obtain ⟨cache, same⟩ := loaded.ni_eq
  rw [Seen, Seen, loaded.chip_eq, same]
  rfl

/-- A block that was read, and the rest behind it. -/
theorem trans (one : Loaded geo ba ptr len w w') (two : Loaded geo (ba + 1) (ptr + len) rest w' w'')
    (full : len = geo.erasesize ∨ rest = 0) : Loaded geo ba ptr (len + rest) w w'' := by
  obtain ⟨cache, first⟩ := one.ni_eq
  obtain ⟨cache', second⟩ := two.ni_eq
  have joined (buf : Bytes) :
      (buf.memcpy ptr (fun k => w.chip.main (geo.ba2addr ba + k)) 0 len).memcpy (ptr + len)
        (fun k => w.chip.main (geo.ba2addr (ba + 1) + k)) 0 rest =
      buf.memcpy ptr (fun k => w.chip.main (geo.ba2addr ba + k)) 0 (len + rest) := by
    rw [← Bytes.memcpy_append]
    refine Bytes.memcpy_source _ _ _ _ fun k small => ?_
    rw [geo.ba2addr_succ ba, full.resolve_right (by omega), Nat.add_assoc]
  refine ⟨two.chip_eq.trans one.chip_eq, cache', ?_⟩
  simp only [second, first, one.chip_eq, joined]

end Loaded

variable (reads : ReadsWell env) (spare : 0 < env.geo.oobsize)
include reads spare

theorem checkBad_run (ba : Nat) (w : World) :
    ∃ cache w', w'.chip = w.chip ∧ w'.ni = { w.ni with pageCache := cache } ∧
      (checkBadPhysBlock env ba).run w = (w.chip.reportsBad env.geo w.ni.lower ba, w') := by
  have value := checkBadPhysBlock_value ba w spare reads.unflagged fun _ => reads.reads
  have passes := checkBadPhysBlock_reading env ba w
  obtain ⟨cache, same⟩ := passes.ni_eq
  exact ⟨cache, _, passes.chip_eq, same, Prod.ext value rfl⟩

/-- A block that the loader takes is read, and the first one is looked at. -/
theorem readInfoTable_seen (left ba ptr start : Nat) (w : World) (more : ptr < env.geo.infoTableSize)
    (seen : Seen env.geo w ba) :
    ∃ w', Loaded env.geo ba ptr (min (env.geo.infoTableSize - ptr) env.geo.erasesize) w w' ∧
      (readInfoTable env (left + 1) ba ptr start).run w =
        if ptr = 0 ∧ checkInfoTableHeader env.geo (InfoTableHeader.read w'.ni.infoTableCache) = false then
          (none, w')
        else
          (readInfoTable env left (ba + 1) (ptr + min (env.geo.infoTableSize - ptr) env.geo.erasesize)
            (if ptr = 0 then ba else start)).run w' := by
  obtain ⟨good, unreported⟩ := seen
  obtain ⟨cache, w', chip, same, checked⟩ := checkBad_run reads spare ba w
  generalize length : min (env.geo.infoTableSize - ptr) env.geo.erasesize = chunksize
  have content := readDataFrom_content reads chunksize (env.geo.ba2addr ba) ptr chunksize
    w'.ni.infoTableCache w' le_rfl
  obtain ⟨⟨cache', read⟩, chip', -, -, -⟩ := readDataFrom_reading env chunksize (env.geo.ba2addr ba) ptr
    chunksize w'.ni.infoTableCache w'
  rw [readInfoTable, if_neg (by omega), ni_bind, if_pos good, Prog.run_bind, checked, unreported]
  simp only [Bool.false_eq_true, if_false, ni, Prog.run_gets, Prog.run_bind, length, readData, setNi,
    Prog.run_modify, Prog.run_ite, Prog.run_pure, content, lt_irrefl]
  generalize ((readDataFrom env chunksize (env.geo.ba2addr ba) ptr chunksize w'.ni.infoTableCache).run w').2 =
    next at read chip'
  generalize filled : w'.ni.infoTableCache.memcpy ptr (fun k => w'.chip.main (env.geo.ba2addr ba + k)) 0
    chunksize = buf
  refine ⟨next.modifyNi fun i => { i with infoTableCache := buf }, ⟨chip'.trans chip, cache', ?_⟩, rfl⟩
  simp only [World.modifyNi, read, ← filled, same, chip]

/-- A block that the loader passes over. -/
theorem readInfoTable_unseen (left ba ptr start : Nat) (w : World) (more : ptr < env.geo.infoTableSize)
    (unseen : ¬Seen env.geo w ba) :
    ∃ w', (readInfoTable env (left + 1) ba ptr start).run w =
      (readInfoTable env left (ba + 1) ptr start).run w' := by
  obtain ⟨cache, w', chip, same, checked⟩ := checkBad_run reads spare ba w
  rw [readInfoTable, if_neg (by omega), ni_bind]
  by_cases good : w.ni.good ba = true
  · have reported : w.chip.reportsBad env.geo w.ni.lower ba = true := by
      by_contra fine
      exact unseen ⟨good, Bool.eq_false_of_not_eq_true fine⟩
    rw [if_pos good, Prog.run_bind, checked, reported]
    exact ⟨_, rfl⟩
  · rw [if_neg good]
    exact ⟨w, rfl⟩

omit reads spare in
theorem more_of_blocks {left ptr : Nat} (blocks : left < env.geo.size2blk (env.geo.infoTableSize - ptr)) :
    ptr < env.geo.infoTableSize := by
  by_contra done
  rw [Nat.sub_eq_zero_of_le (by omega), env.geo.size2blk_zero] at blocks
  omega

/-- With too few blocks to go, no table is read. -/
theorem readInfoTable_short (left ba ptr start : Nat) (w : World)
    (short : left < env.geo.size2blk (env.geo.infoTableSize - ptr)) :
    ((readInfoTable env left ba ptr start).run w).1 = none := by
  induction left generalizing ba ptr start w with
  | zero =>
    rw [readInfoTable, if_neg (more_of_blocks short).not_ge]
    rfl
  | succ left ih =>
    have more := more_of_blocks short
    by_cases seen : Seen env.geo w ba
    · obtain ⟨w', -, read⟩ := readInfoTable_seen reads spare left ba ptr start w more seen
      have blocks := env.geo.size2blk_chunk (env.geo.infoTableSize - ptr) (by omega)
      rw [← Nat.sub_add_eq] at blocks
      rw [read]
      by_cases refused : ptr = 0 ∧
          checkInfoTableHeader env.geo (InfoTableHeader.read w'.ni.infoTableCache) = false
      · rw [if_pos refused]
      · rw [if_neg refused]
        exact ih _ _ _ _ (by omega)
    · obtain ⟨w', read⟩ := readInfoTable_unseen reads spare left ba ptr start w more seen
      rw [read]
      exact ih _ _ _ _ (by omega)

/-- The header that the loader looks at, once it has read the first block. -/
def headerSeen (geo : Geometry) (ba : Nat) (w : World) : InfoTableHeader :=
  InfoTableHeader.read (w.ni.infoTableCache.memcpy 0 (fun k => w.chip.main (geo.ba2addr ba + k)) 0
    (min geo.infoTableSize geo.erasesize))

omit reads spare in
theorem Loaded.headerSeen_eq {ba : Nat} {w w' : World}
    (loaded : Loaded env.geo ba 0 (min (env.geo.infoTableSize - 0) env.geo.erasesize) w w') :
    InfoTableHeader.read w'.ni.infoTableCache = headerSeen env.geo ba w := by
  obtain ⟨cache, same⟩ := loaded.ni_eq
  rw [same, headerSeen, Nat.sub_zero]

/-- With as many blocks to go as the table takes, it is read if the loader takes each of them. -/
theorem readInfoTable_whole (left ba ptr start : Nat) (w : World)
    (whole : left = env.geo.size2blk (env.geo.infoTableSize - ptr))
    (taken : ∀ other, ba ≤ other → other < ba + left → Seen env.geo w other)
    (header : ptr = 0 → checkInfoTableHeader env.geo (headerSeen env.geo ba w) = true) :
    ∃ w', Loaded env.geo ba ptr (env.geo.infoTableSize - ptr) w w' ∧
      (readInfoTable env left ba ptr start).run w = (some (if ptr = 0 then ba else start, ba + left), w') := by
  induction left generalizing ba ptr start w with
  | zero =>
    have done : env.geo.infoTableSize ≤ ptr := by
      by_contra more
      have some := env.geo.size2blk_pos (env.geo.infoTableSize - ptr) (by omega)
      omega
    have pos := env.geo.infoTableSize_pos
    refine ⟨w, ⟨rfl, w.ni.pageCache, ?_⟩, ?_⟩
    · rw [Nat.sub_eq_zero_of_le done]
      have same : w.ni.infoTableCache.memcpy ptr (fun k => w.chip.main (env.geo.ba2addr ba + k)) 0 0 =
          w.ni.infoTableCache := funext fun k => Bytes.memcpy_outside _ _ _ _ _ _ (by omega)
      rw [same]
    · rw [readInfoTable, if_pos done, if_neg (by omega)]
      rfl
  | succ left ih =>
    have more := more_of_blocks ((Nat.lt_succ_self left).trans_eq whole)
    have blocks := env.geo.size2blk_chunk (env.geo.infoTableSize - ptr) (by omega)
    rw [← Nat.sub_add_eq] at blocks
    obtain ⟨w', loaded, read⟩ := readInfoTable_seen reads spare left ba ptr start w more
      (taken ba le_rfl (by omega))
    have accepted : ¬(ptr = 0 ∧
        checkInfoTableHeader env.geo (InfoTableHeader.read w'.ni.infoTableCache) = false) := by
      rintro ⟨rfl, refused⟩
      rw [loaded.headerSeen_eq, header rfl] at refused
      exact Bool.noConfusion refused
    have pos := env.geo.erasesize_pos
    obtain ⟨w'', rest, result⟩ := ih (ba + 1) (ptr + min (env.geo.infoTableSize - ptr) env.geo.erasesize)
      (if ptr = 0 then ba else start) w' (by omega)
      (fun other above below => (loaded.seen_iff other).mpr (taken other (by omega) (by omega)))
      (fun zero => by omega)
    have joined := loaded.trans rest (by omega)
    rw [read, if_neg accepted, result, if_neg (by omega)]
    refine ⟨w'', ?_, by rw [Nat.add_right_comm, Nat.add_assoc]⟩
    rwa [show min (env.geo.infoTableSize - ptr) env.geo.erasesize + (env.geo.infoTableSize -
      (ptr + min (env.geo.infoTableSize - ptr) env.geo.erasesize)) = env.geo.infoTableSize - ptr by omega]
      at joined

/-- A table that was read with no block to spare: the loader has taken each block. -/
theorem taken_of_read (left ba ptr start : Nat) (w : World)
    (whole : left = env.geo.size2blk (env.geo.infoTableSize - ptr))
    (read : ((readInfoTable env left ba ptr start).run w).1 ≠ none) :
    (∀ other, ba ≤ other → other < ba + left → Seen env.geo w other) ∧
      (ptr = 0 → checkInfoTableHeader env.geo (headerSeen env.geo ba w) = true) := by
  induction left generalizing ba ptr start w with
  | zero =>
    refine ⟨fun other above below => by omega, fun zero => ?_⟩
    have some := env.geo.size2blk_pos env.geo.infoTableSize env.geo.infoTableSize_pos
    rw [zero, Nat.sub_zero] at whole
    omega
  | succ left ih =>
    have more := more_of_blocks ((Nat.lt_succ_self left).trans_eq whole)
    have blocks := env.geo.size2blk_chunk (env.geo.infoTableSize - ptr) (by omega)
    rw [← Nat.sub_add_eq] at blocks
    have seen : Seen env.geo w ba := by
      by_contra unseen
      obtain ⟨w', same⟩ := readInfoTable_unseen reads spare left ba ptr start w more unseen
      rw [same] at read
      exact read (readInfoTable_short reads spare left (ba + 1) ptr start w' (by omega))
    obtain ⟨w', loaded, same⟩ := readInfoTable_seen reads spare left ba ptr start w more seen
    rw [same] at read
    by_cases refused : ptr = 0 ∧
        checkInfoTableHeader env.geo (InfoTableHeader.read w'.ni.infoTableCache) = false
    · rw [if_pos refused] at read
      exact absurd rfl read
    · rw [if_neg refused] at read
      obtain ⟨rest, -⟩ := ih _ _ _ _ (by omega) read
      refine ⟨fun other above below => ?_, fun zero => ?_⟩
      · obtain rfl | above := above.eq_or_lt
        · exact seen
        · exact (loaded.seen_iff other).mp (rest other above (by omega))
      · subst zero
        rw [← loaded.headerSeen_eq]
        exact Bool.eq_true_of_not_eq_false fun none => refused ⟨rfl, none⟩

end Blocks

section Admission

/-- What `nmbm_check_info_table` asks of the two tables: no logic block is mapped to a block between the
data and the end of the table or to the signature's, and the table's own blocks are good in it. -/
structure Admits (i : Instance) (startBa endBa : Nat) (blockState blockMapping : Nat → UInt32) : Prop where
  mappings : ∀ lb < i.dataBlockCount, ¬((i.dataBlockCount ≤ (blockMapping lb).toNat ∧
    (blockMapping lb).toNat < endBa) ∨ (blockMapping lb).toNat = i.signatureBa)
  states : ∀ ba, startBa ≤ ba → ba < endBa → i.good ba = true →
    getBlockStateRaw blockState ba = blockStGood

variable (i : Instance)

theorem checkMapping_isSome_iff (blockMapping : Nat → UInt32) (endBa left ba minimum : Nat) :
    (checkMapping i blockMapping endBa left ba minimum).isSome = true ↔
      ∀ lb, ba ≤ lb → lb < ba + left → ¬((i.dataBlockCount ≤ (blockMapping lb).toNat ∧
        (blockMapping lb).toNat < endBa) ∨ (blockMapping lb).toNat = i.signatureBa) := by
  induction left generalizing ba minimum with
  | zero => exact iff_of_true rfl fun lb low high => by omega
  | succ left ih =>
    rw [checkMapping]
    by_cases refused : (i.dataBlockCount ≤ (blockMapping ba).toNat ∧ (blockMapping ba).toNat < endBa) ∨
        (blockMapping ba).toNat = i.signatureBa
    · rw [if_pos refused]
      exact iff_of_false Bool.false_ne_true fun all => all ba le_rfl (by omega) refused
    · rw [if_neg refused, ih]
      constructor
      · intro rest lb low high
        obtain rfl | low := low.eq_or_lt
        · exact refused
        · exact rest lb low (by omega)
      · exact fun all lb low high => all lb (by omega) (by omega)

theorem checkTableStates_iff (blockState : Nat → UInt32) (left start : Nat) :
    checkTableStates i blockState left start = true ↔
      ∀ ba, start ≤ ba → ba < start + left → i.good ba = true →
        getBlockStateRaw blockState ba = blockStGood := by
  induction left generalizing start with
  | zero => exact iff_of_true rfl fun ba low high => by omega
  | succ left ih =>
    rw [checkTableStates]
    by_cases refused : i.good start = true ∧ getBlockStateRaw blockState start ≠ blockStGood
    · rw [if_pos refused]
      exact iff_of_false Bool.false_ne_true fun all =>
        refused.2 (all start le_rfl (by omega) refused.1)
    · rw [if_neg refused, ih]
      constructor
      · intro rest ba low high good
        obtain rfl | low := low.eq_or_lt
        · exact not_not.mp fun other => refused ⟨good, other⟩
        · exact rest ba low (by omega) good
      · exact fun all ba low high => all ba (by omega) (by omega)

theorem checkInfoTable_isSome_iff (startBa endBa : Nat) (data : Bytes) (low : startBa ≤ endBa) :
    (checkInfoTable i startBa endBa data).isSome = true ↔
      Admits i startBa endBa (wordsAt data (InfoTableHeader.read data).stateTableOff.toNat)
        (wordsAt data (InfoTableHeader.read data).mappingTableOff.toNat) := by
  have mapping := checkMapping_isSome_iff i (wordsAt data (InfoTableHeader.read data).mappingTableOff.toNat)
    endBa i.dataBlockCount 0 i.signatureBa
  have states := checkTableStates_iff i (wordsAt data (InfoTableHeader.read data).stateTableOff.toNat)
    (endBa - startBa) startBa
  rw [Nat.add_sub_cancel' low] at states
  rw [Nat.zero_add] at mapping
  rw [checkInfoTable]
  cases minimum : checkMapping i (wordsAt data (InfoTableHeader.read data).mappingTableOff.toNat) endBa
      i.dataBlockCount 0 i.signatureBa with
  | none =>
    rw [minimum] at mapping
    exact iff_of_false Bool.false_ne_true fun admits =>
      Bool.false_ne_true (mapping.mpr fun lb _ below => admits.mappings lb below)
  | some minimum' =>
    rw [minimum] at mapping
    dsimp only
    split_ifs with good
    · exact iff_of_true rfl ⟨fun lb below => mapping.mp rfl lb (Nat.zero_le lb) below, states.mp good⟩
    · exact iff_of_false Bool.false_ne_true fun admits => good (states.mpr admits.states)

end Admission

section Load

variable (env : Env)

/-- The image of the tables of an instance, as `nmbm_generate_info_table_cache` makes it. -/
def imageOf (made : Instance) : Bytes :=
  infoTableImage env (made.nextHeader env.geo) made.blockState made.blockMapping

/-- The instance has the tables and the write count that the image of `made` has. -/
structure SameTables (geo : Geometry) (made i : Instance) : Prop where
  writeCount : i.infoTable.writeCount = (made.nextHeader geo).writeCount
  states : ∀ unit, unit < geo.stateTableSize / 4 → i.blockState unit = made.blockState unit
  mappings : ∀ lb, lb < geo.blockCount → i.blockMapping lb = made.blockMapping lb

/-- The loader accepts the table from its first block on, up to where it was written, and has its
contents then. -/
def LoadsBack (made : Instance) (table : Nat × Nat) (tableLoaded : Bool) (w : World) : Prop :=
  ∃ found, ((tryLoadInfoTable env table.1 tableLoaded).run w).1 = some found ∧ found.endBa = table.2 ∧
    found.writeCount = (made.nextHeader env.geo).writeCount ∧
    SameTables env.geo made ((tryLoadInfoTable env table.1 tableLoaded).run w).2.ni

/-- The cache of the loader, with the first bytes of the image. -/
def overlaid (made : Instance) (w : World) (len : Nat) : Bytes :=
  w.ni.infoTableCache.memcpy 0 (imageOf env made) 0 len

/-- The table lies in one piece, in blocks that the loader takes, and the loader admits what is in it. A
table that is not newer than the one the loader has is left, so its contents must be the same. -/
structure Loadable (made : Instance) (table : Nat × Nat) (tableLoaded : Bool) (w : World) : Prop where
  whole : table.2 = table.1 + env.geo.tableBlocks
  taken : ∀ ba, table.1 ≤ ba → ba < table.2 → Seen env.geo w ba
  header : checkInfoTableHeader env.geo
    (InfoTableHeader.read (overlaid env made w (min env.geo.infoTableSize env.geo.erasesize))) = true
  admitted : Admits w.ni table.1 table.2
    (wordsAt (overlaid env made w env.geo.infoTableSize) made.infoTable.stateTableOff.toNat)
    (wordsAt (overlaid env made w env.geo.infoTableSize) made.infoTable.mappingTableOff.toNat)
  newer : tableLoaded = false ∨ w.ni.infoTable.writeCount < (made.nextHeader env.geo).writeCount ∨
    SameTables env.geo made w.ni

variable {env}

/-- The loader, once it has read a table: it is taken over if it is right, and newer. -/
theorem tryLoadInfoTable_read (ba : Nat) (tableLoaded : Bool) (w w' : World) (startBa endBa : Nat)
    (read : (readInfoTable env env.geo.tableBlocks ba 0 0).run w = (some (startBa, endBa), w')) :
    (tryLoadInfoTable env ba tableLoaded).run w =
      if checkHeader env w'.ni.infoTableCache env.geo.infoTableSize then
        match checkInfoTable w'.ni startBa endBa w'.ni.infoTableCache with
        | none => (none, w')
        | some top =>
          let h := InfoTableHeader.read w'.ni.infoTableCache
          (some { startBa := ba, endBa := endBa, writeCount := h.writeCount, mappingBlocksTopBa := top },
            if !tableLoaded || w'.ni.infoTable.writeCount < h.writeCount then
              w'.modifyNi fun i =>
                { i with
                  infoTable := h
                  blockState := wordsAt i.infoTableCache h.stateTableOff.toNat
                  blockMapping := wordsAt i.infoTableCache h.mappingTableOff.toNat }
            else w')
      else (none, w') := by
  change (readInfoTable env (env.geo.size2blk env.geo.infoTableSize) ba 0 0).run w = _ at read
  rw [tryLoadInfoTable, Prog.run_bind, read]
  dsimp only
  rw [ni_bind, Prog.run_ite]
  cases checkInfoTable w'.ni startBa endBa w'.ni.infoTableCache with
  | none => rfl
  | some top =>
    simp only [Prog.run_bind, Prog.run_ite, Prog.run_pure, setNi, Prog.run_modify]
    split_ifs <;> rfl

theorem tryLoadInfoTable_endBa (ba : Nat) (tableLoaded : Bool) (w w' : World) (startBa endBa : Nat)
    (read : (readInfoTable env env.geo.tableBlocks ba 0 0).run w = (some (startBa, endBa), w'))
    (found : FoundTable) (accepted : ((tryLoadInfoTable env ba tableLoaded).run w).1 = some found) :
    found.endBa = endBa := by
  rw [tryLoadInfoTable_read ba tableLoaded w w' startBa endBa read] at accepted
  split_ifs at accepted with summed
  cases checked : checkInfoTable w'.ni startBa endBa w'.ni.infoTableCache with
  | none =>
    rw [checked] at accepted
    exact absurd accepted (by simp)
  | some top =>
    rw [checked] at accepted
    obtain rfl := Option.some.inj accepted
    rfl

theorem RegionsInside.next {made : Instance} (regions : RegionsInside env.geo made.infoTable) :
    RegionsInside env.geo (made.nextHeader env.geo) :=
  ⟨regions.stateStart, regions.mappingStart, regions.stateEnd, regions.mappingEnd, regions.apart⟩

section Contents

variable {made : Instance} (regions : RegionsInside env.geo made.infoTable) {data : Bytes}
include regions

theorem infoTableHeaderSize_le : infoTableHeaderSize ≤ env.geo.infoTableSize := by
  have start := regions.stateStart
  have fits := regions.stateEnd
  omega

/-- The header passes as soon as an erase block holds it. -/
theorem header_of_le (w : World) (holds : infoTableHeaderSize ≤ env.geo.erasesize) :
    checkInfoTableHeader env.geo
      (InfoTableHeader.read (overlaid env made w (min env.geo.infoTableSize env.geo.erasesize))) = true := by
  have room := infoTableHeaderSize_le regions
  refine @checkInfoTableHeader_image env _ made.blockState made.blockMapping _ regions.next rfl rfl
    fun k inside => ?_
  rw [overlaid, Bytes.memcpy_inside _ _ _ _ _ _ (Nat.zero_le k) (by omega), Nat.zero_add, Nat.sub_zero]
  rfl

variable (same : ∀ k < env.geo.infoTableSize, data k = imageOf env made k)
include same

theorem read_imageOf : (InfoTableHeader.read data).writeCount = (made.nextHeader env.geo).writeCount ∧
    (InfoTableHeader.read data).stateTableOff = made.infoTable.stateTableOff ∧
    (InfoTableHeader.read data).mappingTableOff = made.infoTable.mappingTableOff := by
  have room := infoTableHeaderSize_le regions
  rw [read_infoTableImage fun k inside => same k (by omega)]
  exact ⟨rfl, rfl, rfl⟩

/-- The tables that are taken out of the image. -/
theorem sameTables_imageOf (i : Instance) : SameTables env.geo made
    { i with
      infoTable := InfoTableHeader.read data
      blockState := wordsAt data (InfoTableHeader.read data).stateTableOff.toNat
      blockMapping := wordsAt data (InfoTableHeader.read data).mappingTableOff.toNat } := by
  obtain ⟨count, states, mappings⟩ := read_imageOf regions same
  refine ⟨count, fun unit small => ?_, fun lb small => ?_⟩
  · simp only [states]
    exact wordsAt_states regions.next same unit small
  · simp only [mappings]
    exact wordsAt_mappings regions.next same lb small

end Contents

/-- Once the whole image was read, its contents decide. -/
theorem loadsBack_of_read {made : Instance} (regions : RegionsInside env.geo made.infoTable)
    (table : Nat × Nat) (low : table.1 ≤ table.2) (tableLoaded : Bool) (w w' : World)
    (read : (readInfoTable env env.geo.tableBlocks table.1 0 0).run w = (some table, w'))
    (image : ∀ k < env.geo.infoTableSize, w'.ni.infoTableCache k = imageOf env made k) :
    LoadsBack env made table tableLoaded w ↔
      Admits w'.ni table.1 table.2 (wordsAt w'.ni.infoTableCache made.infoTable.stateTableOff.toNat)
        (wordsAt w'.ni.infoTableCache made.infoTable.mappingTableOff.toNat) ∧
      (tableLoaded = false ∨ w'.ni.infoTable.writeCount < (made.nextHeader env.geo).writeCount ∨
        SameTables env.geo made w'.ni) := by
  have run := tryLoadInfoTable_read table.1 tableLoaded w w' _ _ read
  have admits := checkInfoTable_isSome_iff w'.ni table.1 table.2 w'.ni.infoTableCache low
  obtain ⟨count, states, mappings⟩ := read_imageOf regions image
  rw [states, mappings] at admits
  rw [if_pos (checkHeader_infoTableImage regions.next image rfl)] at run
  rw [← admits]
  cases checked : checkInfoTable w'.ni table.1 table.2 w'.ni.infoTableCache with
  | none =>
    rw [checked] at run
    refine iff_of_false ?_ fun both => Bool.false_ne_true both.1
    rintro ⟨found, accepted, -⟩
    rw [run] at accepted
    exact absurd accepted (by simp)
  | some top =>
    rw [checked] at run
    dsimp only at run
    rw [count] at run
    by_cases newer : (!tableLoaded ||
        decide (w'.ni.infoTable.writeCount < (made.nextHeader env.geo).writeCount)) = true
    · rw [if_pos newer] at run
      simp only [Bool.or_eq_true, Bool.not_eq_true', decide_eq_true_eq] at newer
      refine iff_of_true ⟨_, by rw [run], rfl, rfl, ?_⟩ ⟨rfl, newer.imp_right .inl⟩
      rw [run]
      exact sameTables_imageOf regions image w'.ni
    · rw [if_neg newer] at run
      simp only [Bool.or_eq_true, Bool.not_eq_true', decide_eq_true_eq, not_or] at newer
      constructor
      · rintro ⟨found, -, -, -, tables⟩
        rw [run] at tables
        exact ⟨rfl, .inr (.inr tables)⟩
      · rintro ⟨-, taken⟩
        refine ⟨_, by rw [run], rfl, rfl, ?_⟩
        rw [run]
        exact (taken.resolve_left newer.1).resolve_left newer.2

/-- The read of a table leaves all that the rest of the loader looks at but the cache. -/
theorem Loaded.kept {ba len : Nat} {w w' : World} (loaded : Loaded env.geo ba 0 len w w')
    {made : Instance} (startBa endBa : Nat) (blockState blockMapping : Nat → UInt32) :
    (Admits w'.ni startBa endBa blockState blockMapping ↔ Admits w.ni startBa endBa blockState blockMapping) ∧
      w'.ni.infoTable = w.ni.infoTable ∧ (SameTables env.geo made w'.ni ↔ SameTables env.geo made w.ni) := by
  obtain ⟨cache, same⟩ := loaded.ni_eq
  rw [same]
  exact ⟨⟨fun ⟨a, b⟩ => ⟨a, b⟩, fun ⟨a, b⟩ => ⟨a, b⟩⟩, rfl,
    ⟨fun ⟨a, b, c⟩ => ⟨a, b, c⟩, fun ⟨a, b, c⟩ => ⟨a, b, c⟩⟩⟩

/-- A table that is on flash, in one piece or not. -/
theorem loadsBack_iff (reads : ReadsWell env) (spare : 0 < env.geo.oobsize) {made : Instance}
    (regions : RegionsInside env.geo made.infoTable) (table : Nat × Nat) (tableLoaded : Bool) (w : World)
    (content : table.2 = table.1 + env.geo.tableBlocks → ∀ k < env.geo.infoTableSize,
      w.chip.main (env.geo.ba2addr table.1 + k) = imageOf env made k) :
    LoadsBack env made table tableLoaded w ↔ Loadable env made table tableLoaded w := by
  have blocks : env.geo.tableBlocks = env.geo.size2blk (env.geo.infoTableSize - 0) := rfl
  -- What the loader reads is the image.
  have filled (whole : table.2 = table.1 + env.geo.tableBlocks) (len : Nat)
      (small : len ≤ env.geo.infoTableSize) :
      w.ni.infoTableCache.memcpy 0 (fun k => w.chip.main (env.geo.ba2addr table.1 + k)) 0 len =
        overlaid env made w len :=
    Bytes.memcpy_source _ _ _ _ fun k inside => by
      rw [Nat.zero_add]
      exact content whole k (by omega)
  by_cases read : (∀ other, table.1 ≤ other → other < table.1 + env.geo.tableBlocks → Seen env.geo w other) ∧
      checkInfoTableHeader env.geo (headerSeen env.geo table.1 w) = true
  · obtain ⟨taken, header⟩ := read
    obtain ⟨w', loaded, result⟩ := readInfoTable_whole reads spare env.geo.tableBlocks table.1 0 0 w blocks taken
      fun _ => header
    rw [if_pos rfl] at result
    by_cases whole : table.2 = table.1 + env.geo.tableBlocks
    · have buf : w'.ni.infoTableCache = overlaid env made w env.geo.infoTableSize := by
        obtain ⟨cache, same⟩ := loaded.ni_eq
        rw [same]
        exact filled whole _ le_rfl
      have image (k : Nat) (inside : k < env.geo.infoTableSize) :
          w'.ni.infoTableCache k = imageOf env made k := by
        rw [buf, overlaid, Bytes.memcpy_inside _ _ _ _ _ _ (Nat.zero_le k) (by omega), Nat.zero_add,
          Nat.sub_zero]
      rw [← whole] at result taken
      rw [headerSeen, filled whole _ (Nat.min_le_left _ _)] at header
      obtain ⟨admits, before, tables⟩ := @Loaded.kept _ _ _ _ _ loaded made table.1 table.2
        (wordsAt (overlaid env made w env.geo.infoTableSize) made.infoTable.stateTableOff.toNat)
        (wordsAt (overlaid env made w env.geo.infoTableSize) made.infoTable.mappingTableOff.toNat)
      rw [loadsBack_of_read regions table (by omega) tableLoaded w w' result image, buf, admits, before, tables]
      exact ⟨fun ⟨admitted, newer⟩ => ⟨whole, taken, header, admitted, newer⟩,
        fun loadable => ⟨loadable.admitted, loadable.newer⟩⟩
    · refine iff_of_false ?_ fun loadable => whole loadable.whole
      rintro ⟨found, accepted, ends, -⟩
      exact whole (ends.symm.trans (tryLoadInfoTable_endBa table.1 tableLoaded w w' _ _ result found accepted))
  · have refused : ((readInfoTable env (env.geo.size2blk env.geo.infoTableSize) table.1 0 0).run w).1 = none := by
      by_contra some
      obtain ⟨taken, header⟩ := taken_of_read reads spare _ _ _ _ w blocks some
      exact read ⟨taken, header rfl⟩
    refine iff_of_false ?_ ?_
    · rintro ⟨found, accepted, -⟩
      rw [tryLoadInfoTable, Prog.run_bind, refused] at accepted
      exact absurd accepted (by simp)
    · intro loadable
      refine read ⟨fun other above below => loadable.taken other above (loadable.whole ▸ below), ?_⟩
      rw [headerSeen, filled loadable.whole _ (Nat.min_le_left _ _)]
      exact loadable.header

/-- A table that was written is loaded again, up to where it was written and with what was in it, exactly
if no block was passed over inside it, the loader takes its blocks, and the loader admits its contents: the
loader goes no further than the number of blocks that the table takes. -/
theorem infoTable_loads_back_iff {env : Env} {made : Instance} (regions : RegionsInside env.geo made.infoTable)
    (w : World) (cached : w.ni.infoTableCache = imageOf env made) (ba limit : Nat) (table : Nat × Nat)
    (written : ((writeInfoTable env ba limit).run w).1 = some table) (fate : Nat → LowerCall → Fate)
    (reads : ReadsWell { env with fate := fate }) (spare : 0 < env.geo.oobsize) (again : World)
    (same : again.chip = ((writeInfoTable env ba limit).run w).2.chip) (tableLoaded : Bool) :
    LoadsBack { env with fate := fate } made table tableLoaded again ↔
      Loadable { env with fate := fate } made table tableLoaded again := by
  obtain ⟨-, -, placed⟩ := writeInfoTable_placed env ba limit w table written
  refine @loadsBack_iff { env with fate := fate } reads spare made regions table tableLoaded again ?_
  intro whole k inside
  have content := placed.content whole k (Nat.zero_le k) inside
  rw [Nat.sub_zero, cached, ← same] at content
  exact content

end Load

section Sample

/-- The offsets that `nmbm_init_structure` gives are right. -/
theorem initStructure_regions (geo : Geometry) (lower : Options) :
    RegionsInside geo (initStructure geo lower).infoTable := by
  have header := le_align 32 geo.writesize geo.writesize_pos
  have states := le_align geo.stateTableSize geo.writesize geo.writesize_pos
  have mappings := le_align geo.mappingTableSize geo.writesize geo.writesize_pos
  have fits := geo.fits
  have whole : infoTableBytes geo.pageShift (geo.chipShift - geo.blockShift) = align 32 geo.writesize +
      align geo.stateTableSize geo.writesize + align geo.mappingTableSize geo.writesize := rfl
  have first : (UInt32.ofNat geo.stateTableOff).toNat = align 32 geo.writesize :=
    UInt32.toNat_ofNat_of_lt (show align 32 geo.writesize < 2 ^ 32 by omega)
  have second : (UInt32.ofNat geo.mappingTableOff).toNat =
      align 32 geo.writesize + align geo.stateTableSize geo.writesize :=
    UInt32.toNat_ofNat_of_lt (show align 32 geo.writesize + align geo.stateTableSize geo.writesize < 2 ^ 32 by
      omega)
  have size : geo.infoTableSize = infoTableBytes geo.pageShift (geo.chipShift - geo.blockShift) := rfl
  have room : infoTableHeaderSize = 32 := rfl
  refine ⟨?_, ?_, ?_, ?_, .inl ?_⟩ <;>
    simp only [initStructure, first, second] <;> omega

/-- 16 blocks of two small pages; an info table takes two blocks. -/
def wideGeometry : Geometry where
  pageShift := 6
  blockShift := 7
  chipShift := 11
  oobsize := 8
  page_le := by decide
  block_le := by decide
  fits := by decide

def wideEnv : Env := { quietEnv with geo := wideGeometry }

theorem wideEnv_reads : ReadsWell wideEnv where
  unflagged _ _ := rfl
  reads _ _ := Int.le_refl 0

/-- A new chip with some bad blocks, once they were looked for. -/
def scannedWorld (bad : List Nat) : World :=
  ((do
    scanBadblocks wideEnv
    setNi (buildMappingTable wideGeometry) : Routine Unit).run
    { ni := { initStructure wideGeometry sampleOptions with mgmtStartBa := 6, signatureBa := 15 }
      chip := blankChip bad
      tick := 0
      issuer := .other
      generated := []
      trace := [] }).2

/-- The image of its tables is made. -/
def imagedWorld (bad : List Nat) : World := ((generateInfoTableCache wideEnv).run (scannedWorld bad)).2

/-- The flash after a table was written into the management area, and an instance that was set up anew. -/
def reattached (bad : List Nat) : World :=
  ((writeInfoTable wideEnv 6 15).run (imagedWorld bad)).2.modifyNi fun _ =>
    { initStructure wideGeometry sampleOptions with dataBlockCount := 6, signatureBa := 15 }

theorem scannedWorld_regions {bad : List Nat}
    (same : (scannedWorld bad).ni.infoTable = (initStructure wideGeometry sampleOptions).infoTable) :
    RegionsInside wideGeometry (scannedWorld bad).ni.infoTable := by
  rw [same]
  exact initStructure_regions wideGeometry sampleOptions

set_option maxRecDepth 100000 in
theorem infoTable_loads_back : LoadsBack wideEnv (scannedWorld [3]).ni (6, 8) false (reattached [3]) :=
  (infoTable_loads_back_iff (scannedWorld_regions (by decide +kernel)) (imagedWorld [3]) rfl 6 15 (6, 8) (by decide +kernel)
    wideEnv.fate wideEnv_reads (by decide) (reattached [3]) rfl false).mpr
    { whole := by decide
      taken := fun ba low high => by
        obtain rfl | rfl : ba = 6 ∨ ba = 7 := by omega
        · exact ⟨by decide +kernel, by decide +kernel⟩
        · exact ⟨by decide +kernel, by decide +kernel⟩
      header := header_of_le (scannedWorld_regions (by decide +kernel)) (reattached [3]) (by decide)
      admitted := (checkInfoTable_isSome_iff _ _ _ _ (by decide)).mp (by decide +kernel)
      newer := .inl rfl }

set_option maxRecDepth 100000 in
/-- The second block of the management area is bad: the table goes on behind it, and the loader stops
in front of its last block. -/
theorem infoTable_lost :
    ¬∀ (env : Env) (made : Instance) (w : World) (ba limit : Nat) (table : Nat × Nat) (again : World),
      RegionsInside env.geo made.infoTable → w.ni.infoTableCache = imageOf env made →
      ((writeInfoTable env ba limit).run w).1 = some table → ReadsWell env →
      again.chip = ((writeInfoTable env ba limit).run w).2.chip →
      LoadsBack env made table false again := by
  intro all
  obtain ⟨found, loaded, -⟩ := all wideEnv (scannedWorld [7]).ni (imagedWorld [7]) 6 15 (6, 9) (reattached [7])
    (scannedWorld_regions (by decide +kernel)) rfl (by decide +kernel) wideEnv_reads rfl
  have none : ((tryLoadInfoTable wideEnv 6 false).run (reattached [7])).1 = none := by decide +kernel
  rw [none] at loaded
  exact absurd loaded (by simp)

end Sample

end Filogic.Nmbm
