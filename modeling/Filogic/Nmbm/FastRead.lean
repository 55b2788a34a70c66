import Filogic.Nmbm.MtdExact

/-! Reads of data alone, which the MTD device hands to `nmbm_read_range`, against its own loop. -/

namespace Filogic.Nmbm
open Lib

/-- Two worlds of one instance, which may differ in its page cache and in what is history. -/
structure Alike (i : Instance) (w w' : World) : Prop where
  ni_eq : ∃ cache, w.ni = { i with pageCache := cache }
  ni_eq' : ∃ cache, w'.ni = { i with pageCache := cache }
  chip_eq : w'.chip = w.chip
  tick_eq : w'.tick = w.tick

namespace Alike

variable {i : Instance} {w w' : World}

theorem refl (w : World) : Alike w.ni w w := ⟨⟨_, rfl⟩, ⟨_, rfl⟩, rfl, rfl⟩

/-- A step on the page cache of the first world. -/
theorem setCache (alike : Alike i w w') (f : Instance → Bytes) :
    Alike i (w.modifyNi fun i => { i with pageCache := f i }) w' := by
  obtain ⟨⟨cache, first⟩, second, chip, tick⟩ := alike
  refine ⟨⟨f w.ni, ?_⟩, second, chip, tick⟩
  simp only [World.modifyNi, first]

theorem lowerCall (env : Env) (call : LowerCall) : Agrees (Alike i) (lowerCall env call) := by
  intro w w' alike
  have tick := alike.tick_eq
  constructor
  · change env.fate w.tick call = env.fate w'.tick call
    rw [tick]
  · exact ⟨alike.ni_eq, alike.ni_eq', alike.chip_eq, congrArg (· + 1) tick⟩

theorem logicAddr_eq (env : Env) (alike : Alike i w w') (addr : Nat) :
    logicAddr env w.ni addr = logicAddr env i addr ∧ logicAddr env w'.ni addr = logicAddr env i addr := by
  obtain ⟨⟨_, first⟩, ⟨_, second⟩, -, -⟩ := alike
  rw [first, second]
  exact ⟨rfl, rfl⟩

theorem readPhysPage (env : Env) (addr : Nat) : Agrees (Alike i) (readPhysPage env addr) :=
  readPhysPage_agrees env (fun _ _ alike => alike.chip_eq) (lowerCall env) addr

end Alike

variable (env : Env)

section Step

variable {fuel off ptr : Nat} {s : ReadState} {w : World}

theorem readRangeFrom_done (none : s.remain = 0) :
    (readRangeFrom env fuel off ptr s).run w = (s, w) := by
  cases fuel with
  | zero => rfl
  | succ fuel =>
    rw [readRangeFrom, if_pos none]
    rfl

theorem readRangeFrom_unmapped (more : s.remain ≠ 0)
    (place : logicAddr env w.ni (off - off % env.geo.writesize) = none) :
    (readRangeFrom env (fuel + 1) off ptr s).run w = ({ s with ret := -eio }, w) := by
  have page : (readLogicPage env (off - off % env.geo.writesize)).run w = ((-eio, none), w) := by
    simp only [readLogicPage, Prog.run_bind, run_ni, place]
    rfl
  have stops : (-eio : Int) < 0 ∧ (-eio : Int) ≠ -ebadmsg := by decide
  rw [readRangeFrom, if_neg more]
  simp only [Geometry.chunk, Prog.run_bind, page]
  by_cases full : min (env.geo.writesize - off % env.geo.writesize) s.remain = env.geo.writesize
  · simp only [full, ne_eq, not_true_eq_false, if_false, if_true, Prog.run_bind, if_pos stops]
    rfl
  · simp only [full, ne_eq, not_false_eq_true, if_true, if_false, Prog.run_bind, if_pos stops]
    rfl

/-- The buffer with the bytes of a page in it, from the column of the offset on. -/
def takeChunk (geo : Geometry) (off ptr remain : Nat) (buf page : Bytes) : Bytes :=
  buf.memcpy ptr page (off % geo.writesize) (geo.chunk off remain).2

theorem readRangeFrom_mapped {paddr : Nat} (more : s.remain ≠ 0)
    (place : logicAddr env w.ni (off - off % env.geo.writesize) = some paddr) :
    let got := (readPhysPage env paddr).run w
    let chunksize := (env.geo.chunk off s.remain).2
    ∃ w', (∀ i w'', Alike i got.2 w'' → Alike i w' w'') ∧
      (readRangeFrom env (fuel + 1) off ptr s).run w =
        if got.1.1 < 0 ∧ got.1.1 ≠ -ebadmsg then
          ({ s with
              buf := if chunksize = env.geo.writesize then s.buf.memcpy ptr got.1.2.1 0 chunksize
                else s.buf
              ret := got.1.1 }, w')
        else
          (readRangeFrom env fuel (off + chunksize) (ptr + chunksize)
            { buf := takeChunk env.geo off ptr s.remain s.buf got.1.2.1
              remain := s.remain - chunksize
              eccError := s.eccError || got.1.1 = -ebadmsg
              maxBitflips := max got.1.1 s.maxBitflips
              ret := got.1.1 }).run w' := by
  intro got chunksize
  have page : (readLogicPage env (off - off % env.geo.writesize)).run w =
      ((got.1.1, some got.1.2), got.2) := readLogicPage_mapped env place
  have chunk_le : chunksize ≤ env.geo.writesize - off % env.geo.writesize := Nat.min_le_left _ _
  have pair : env.geo.chunk off s.remain = (off % env.geo.writesize, chunksize) := rfl
  rw [readRangeFrom, if_neg more]
  simp only [pair, Prog.run_bind, page]
  by_cases full : chunksize = env.geo.writesize
  · have start : off % env.geo.writesize = 0 := by
      have := Nat.mod_lt off env.geo.writesize_pos
      omega
    refine ⟨got.2, fun _ _ alike => alike, ?_⟩
    simp only [takeChunk, pair, full, ne_eq, not_true_eq_false, if_false, if_true, Prog.run_bind, start]
    split_ifs <;> rfl
  · refine ⟨got.2.modifyNi fun i =>
      { i with pageCache := i.pageCache.memcpy 0 got.1.2.1 0 env.geo.writesize },
      fun _ _ alike => alike.setCache _, ?_⟩
    have moved : s.buf.memcpy ptr (Bytes.memcpy got.2.ni.pageCache 0 got.1.2.1 0 env.geo.writesize)
        (off % env.geo.writesize) chunksize = takeChunk env.geo off ptr s.remain s.buf got.1.2.1 := by
      funext k
      rw [takeChunk, pair]
      by_cases inside : ptr ≤ k ∧ k < ptr + chunksize
      · rw [Bytes.memcpy_inside _ _ _ _ _ _ inside.1 inside.2,
          Bytes.memcpy_inside _ _ _ _ _ _ inside.1 inside.2,
          Bytes.memcpy_inside _ _ _ _ _ _ (Nat.zero_le _) (by omega), Nat.zero_add, Nat.sub_zero]
      · rw [Bytes.memcpy_outside _ _ _ _ _ _ (by omega), Bytes.memcpy_outside _ _ _ _ _ _ (by omega)]
    rw [← moved]
    simp only [full, ne_eq, not_false_eq_true, if_true, if_false, Prog.run_bind]
    split_ifs <;> rfl

end Step

section Loops

variable (lower : LowerMtd env.geo) (mode : OobMode)

/-- Both loops have come to the same byte of the range, which ends at `limit` or before. -/
structure Abreast (geo : Geometry) (limit off ptr : Nat) (s : ReadState) (g : Paged.ReadState) :
    Prop where
  left_eq : g.data.left = s.remain
  done_eq : g.data.done = ptr
  oob_eq : g.oob.left = 0
  ecc_eq : g.eccFailed = s.eccError
  flips_eq : g.maxBitflips = s.maxBitflips
  well : ¬(s.ret < 0 ∧ s.ret ≠ -ebadmsg)
  col_eq : s.remain ≠ 0 → g.data.col = off % geo.writesize
  addr_eq : s.remain ≠ 0 → g.addr = off - off % geo.writesize
  buf_eq : ∀ k < ptr, s.buf k = g.datbuf k
  inside : off + s.remain ≤ limit

variable {env} {limit off ptr : Nat} {s : ReadState} {g : Paged.ReadState}

/-- A chunk that is not the last one ends with its page. -/
theorem chunk_ends (geo : Geometry) (off remain : Nat)
    (more : remain - (geo.chunk off remain).2 ≠ 0) :
    (off + (geo.chunk off remain).2) % geo.writesize = 0 ∧
      off + (geo.chunk off remain).2 = off - off % geo.writesize + geo.writesize := by
  have column := Nat.mod_lt off geo.writesize_pos
  have place := Nat.div_add_mod off geo.writesize
  simp only [Geometry.chunk] at more ⊢
  rw [Nat.min_eq_left (by omega)]
  have end_ : off + (geo.writesize - off % geo.writesize) =
      geo.writesize * (off / geo.writesize + 1) := by
    rw [Nat.mul_succ]
    omega
  refine ⟨by rw [end_, Nat.mul_mod_right], by omega⟩

theorem Abreast.next (abreast : Abreast env.geo limit off ptr s g) (more : s.remain ≠ 0)
    (ret : Int) (page cache : Bytes) (good : ¬(ret < 0 ∧ ret ≠ -ebadmsg))
    (brought : ∀ j < env.geo.writesize, cache j = page j) :
    Abreast env.geo limit (off + (env.geo.chunk off s.remain).2) (ptr + (env.geo.chunk off s.remain).2)
      { buf := takeChunk env.geo off ptr s.remain s.buf page
        remain := s.remain - (env.geo.chunk off s.remain).2
        eccError := s.eccError || ret = -ebadmsg
        maxBitflips := max ret s.maxBitflips
        ret := ret }
      (g.next (lower.sizes mode) (-ebadmsg) (ret, cache)) := by
  obtain ⟨left, done, oob, ecc, flips, -, col, addr, buf, inside⟩ := abreast
  have taken : g.data.chunk (lower.sizes mode).writesize = (env.geo.chunk off s.remain).2 := by
    rw [Stream.chunk, left, col more]
    rfl
  have next : g.data.next (lower.sizes mode).writesize =
      ⟨0, ptr + (env.geo.chunk off s.remain).2, s.remain - (env.geo.chunk off s.remain).2⟩ := by
    rw [Stream.next, if_neg (left ▸ more), taken, done, left]
  have short : (env.geo.chunk off s.remain).2 ≤ s.remain := Nat.min_le_right _ _
  have fits : off % env.geo.writesize + (env.geo.chunk off s.remain).2 ≤ env.geo.writesize := by
    have column := Nat.mod_lt off env.geo.writesize_pos
    have := Nat.min_le_left (env.geo.writesize - off % env.geo.writesize) s.remain
    simp only [Geometry.chunk]
    omega
  constructor
  · simp only [Paged.ReadState.next, next]
  · simp only [Paged.ReadState.next, next]
  · simp only [Paged.ReadState.next, Stream.next, oob, if_true]
  · simp only [Paged.ReadState.next, ecc]
  · simp only [Paged.ReadState.next, flips, max_comm]
  · exact good
  · intro more'
    simp only [Paged.ReadState.next, next]
    exact (chunk_ends env.geo off s.remain more').1.symm
  · intro more'
    obtain ⟨start, end_⟩ := chunk_ends env.geo off s.remain more'
    simp only [Paged.ReadState.next, addr more]
    rw [start, end_]
    rfl
  · intro k early
    simp only [Paged.ReadState.next, takeChunk, left ▸ more, if_false, done, taken, col more]
    by_cases old : k < ptr
    · rw [Bytes.memcpy_outside _ _ _ _ _ _ (.inl old), Bytes.memcpy_outside _ _ _ _ _ _ (.inl old)]
      exact buf k old
    · rw [Bytes.memcpy_inside _ _ _ _ _ _ (by omega) early,
        Bytes.memcpy_inside _ _ _ _ _ _ (by omega) early, brought _ (by omega)]
  · simp only
    omega

theorem Abreast.finished (abreast : Abreast env.geo limit off ptr s g) (fuel : Nat) (w w' : World)
    (none : s.remain = 0) :
    let fast := ((readRangeFrom env fuel off ptr s).run w).1
    let slow := ((Paged.readPages (lower.sizes mode) (-ebadmsg)
      (readSingleBuffers env lower mode true false) fuel g).run w').1
    slow.1 = (if fast.ret < 0 ∧ fast.ret ≠ -ebadmsg then fast.ret
        else if fast.eccError then -ebadmsg else fast.maxBitflips) ∧
      slow.2.data.done + fast.remain = ptr + s.remain ∧
      ∀ k < slow.2.data.done, fast.buf k = slow.2.datbuf k := by
  have slow : (Paged.readPages (lower.sizes mode) (-ebadmsg)
      (readSingleBuffers env lower mode true false) fuel g).run w' = ((g.code (-ebadmsg), g), w') := by
    have ended : g.Done := ⟨abreast.left_eq.trans none, abreast.oob_eq⟩
    cases fuel with
    | zero => rfl
    | succ fuel =>
      rw [Paged.readPages, if_pos ended]
      rfl
  intro fast slow'
  simp only [fast, slow', slow, readRangeFrom_done env none, if_neg abreast.well, Paged.ReadState.code,
    abreast.ecc_eq, abreast.flips_eq, abreast.done_eq]
  exact ⟨trivial, trivial, abreast.buf_eq⟩

/-- From states that are abreast of each other both loops return the same code and bytes. -/
theorem readRangeFrom_abreast {i : Instance} (open_ : i.protectedMode = false)
    (fuel : Nat) (w w' : World) (alike : Alike i w w')
    (abreast : Abreast env.geo (env.geo.ba2addr i.dataBlockCount) off ptr s g)
    (enough : s.remain ≤ fuel) :
    let fast := ((readRangeFrom env fuel off ptr s).run w).1
    let slow := ((Paged.readPages (lower.sizes mode) (-ebadmsg)
      (readSingleBuffers env lower mode true false) fuel g).run w').1
    slow.1 = (if fast.ret < 0 ∧ fast.ret ≠ -ebadmsg then fast.ret
        else if fast.eccError then -ebadmsg else fast.maxBitflips) ∧
      slow.2.data.done + fast.remain = ptr + s.remain ∧
      ∀ k < slow.2.data.done, fast.buf k = slow.2.datbuf k := by
  induction fuel generalizing off ptr s g w w' with
  | zero => exact abreast.finished lower mode 0 w w' (by omega)
  | succ fuel ih =>
    by_cases more : s.remain = 0
    · exact abreast.finished lower mode (fuel + 1) w w' more
    have place := alike.logicAddr_eq env (off - off % env.geo.writesize)
    have accepted : refuseRead env w'.ni g.addr 0 = none := by
      obtain ⟨_, second⟩ := alike.ni_eq'
      have inside := abreast.inside
      have start := abreast.addr_eq more
      rw [second]
      simp only [refuseRead, open_]
      rw [if_neg Bool.false_ne_true, if_neg (by omega), if_neg (by omega)]
    have going : ¬g.Done := fun ended => more (abreast.left_eq ▸ ended.1)
    rw [Paged.readPages, if_neg going, Prog.run_bind]
    rw [← abreast.addr_eq more] at place
    cases mapped : logicAddr env i g.addr with
    | none =>
      rw [mapped] at place
      rw [readSingleBuffers_unmapped env lower mode accepted place.2,
        readRangeFrom_unmapped env more (abreast.addr_eq more ▸ place.1)]
      rw [if_pos (show (-eio : Int) < 0 ∧ (-eio : Int) ≠ -ebadmsg by decide)]
      refine ⟨rfl, ?_, fun k early => abreast.buf_eq k (abreast.done_eq ▸ early)⟩
      exact congrArg (· + s.remain) abreast.done_eq
    | some paddr =>
      rw [mapped] at place
      obtain ⟨same, after⟩ := Alike.readPhysPage env paddr w w' alike
      obtain ⟨w₁, alike₁, fast⟩ := @readRangeFrom_mapped env fuel off ptr s w paddr more
        (abreast.addr_eq more ▸ place.1)
      have both := alike₁ i _ after
      rw [fast, readSingleBuffers_mapped env lower mode accepted place.2, ← same]
      generalize (readPhysPage env paddr).run w = got at both ⊢
      by_cases failed : got.1.1 < 0 ∧ got.1.1 ≠ -ebadmsg
      · rw [if_pos failed, if_pos failed]
        refine ⟨(if_pos failed).symm, congrArg (· + s.remain) abreast.done_eq, fun k early => ?_⟩
        have early : k < ptr := abreast.done_eq ▸ early
        change (ite _ _ _ : Bytes) k = g.datbuf k
        rw [← abreast.buf_eq k early]
        split_ifs
        · exact Bytes.memcpy_outside _ _ _ _ _ _ (.inl early)
        · rfl
      · rw [if_neg failed, if_neg failed]
        have short : (env.geo.chunk off s.remain).2 ≤ s.remain := Nat.min_le_right _ _
        have pos : 0 < (env.geo.chunk off s.remain).2 := by
          have column := Nat.mod_lt off env.geo.writesize_pos
          simp only [Geometry.chunk]
          omega
        have next := abreast.next lower mode more got.1.1 got.1.2.1
          (g.cache.memcpy 0 got.1.2.1 0 env.geo.writesize) failed fun j inside => by
            rw [Bytes.memcpy_inside _ _ _ _ _ _ (Nat.zero_le _) (by omega), Nat.zero_add, Nat.sub_zero]
        obtain ⟨code, count, bytes⟩ := ih w₁ _ both next (by simp only; omega)
        refine ⟨code, count.trans ?_, bytes⟩
        simp only
        omega

end Loops

section Agree

variable (lower : LowerMtd env.geo) (mode : OobMode) (addr size : Nat) (buf cache : Bytes) (w : World)

/-- A request for data alone. -/
def dataRequest (buf : Bytes) (size : Nat) : Paged.Request where
  datbuf := buf
  oobbuf := fun _ => 0
  len := size
  ooblen := 0
  ooboffs := 0

/-- Both ways to read the range return the same code, length and bytes. The MTD layer sets the length
to zero before the call. -/
structure ReadsSame : Prop where
  code_eq : ((mtdReadData env lower mode (dataRequest buf size) addr cache).value w).1 =
    ((readRange env addr size buf).value w).ret
  retlen_eq : ((mtdReadData env lower mode (dataRequest buf size) addr cache).value w).2.data.done =
    ((readRange env addr size buf).value w).retlen.getD 0
  bytes_eq : ∀ k < ((readRange env addr size buf).value w).retlen.getD 0,
    ((readRange env addr size buf).value w).data k =
      ((mtdReadData env lower mode (dataRequest buf size) addr cache).value w).2.datbuf k

/-- The address is in the data blocks, and so is the end of the range. -/
def InDevice (geo : Geometry) (i : Instance) (addr size : Nat) : Prop :=
  addr < geo.ba2addr i.dataBlockCount ∧ addr + size ≤ geo.ba2addr i.dataBlockCount

variable {addr size w}

theorem readRange_refused (ret : Int) (refused : refuseRead env w.ni addr size = some ret) :
    (readRange env addr size buf).value w = .code ret buf fun _ => 0 := by
  simp only [Prog.value, readRange, Prog.run_bind, run_ni, refused]
  rfl

theorem readRange_accepted (accepted : refuseRead env w.ni addr size = none) (some : size ≠ 0) :
    let s := ((readRangeFrom env size addr 0
      { buf := buf, remain := size, eccError := false, maxBitflips := 0, ret := 0 }).run w).1
    (readRange env addr size buf).value w =
      { ret := if s.ret < 0 ∧ s.ret ≠ -ebadmsg then s.ret
          else if s.eccError then -ebadmsg else s.maxBitflips
        data := s.buf, oob := fun _ => 0, retlen := .some (size - s.remain) } := by
  simp only [Prog.value, readRange, Prog.run_bind, run_ni, accepted, if_neg some]
  rfl

theorem refuseRead_inside (inside : InDevice env.geo w.ni addr size) (open_ : w.ni.protectedMode = false) :
    refuseRead env w.ni addr size = none := by
  simp only [refuseRead, open_]
  rw [if_neg Bool.false_ne_true, if_neg (by have := inside.1; omega),
    if_neg (by have := inside.2; omega)]

theorem mtdReadData_run (some : size ≠ 0) :
    (mtdReadData env lower mode (dataRequest buf size) addr cache).value w =
      ((Paged.readPages (lower.sizes mode) (-ebadmsg) (readSingleBuffers env lower mode true false) size
        (.start (lower.sizes mode) (dataRequest buf size) (maskedAddr addr) cache)).run w).1 := by
  simp only [mtdReadData, Paged.readData, dataRequest, Prog.value, Nat.add_zero, ne_eq, some,
    not_false_eq_true, decide_true, not_true_eq_false, decide_false]

/-- On an address of 32 bits both ways are the same. -/
theorem readsSame_low (inside : InDevice env.geo w.ni addr size) (open_ : w.ni.protectedMode = false)
    (low : addr < 2 ^ 32) (some : size ≠ 0) : ReadsSame env lower mode addr size buf cache w := by
  have accepted := refuseRead_inside env inside open_
  have start : Abreast env.geo (env.geo.ba2addr w.ni.dataBlockCount) addr 0
      { buf := buf, remain := size, eccError := false, maxBitflips := 0, ret := 0 }
      (.start (lower.sizes mode) (dataRequest buf size) (maskedAddr addr) cache) := by
    have whole : maskedAddr addr = addr := Nat.mod_eq_of_lt low
    rw [whole]
    exact ⟨rfl, rfl, rfl, rfl, rfl, fun bad => absurd bad.1 (lt_irrefl 0), fun _ => rfl, fun _ => rfl, fun _ _ => rfl, inside.2⟩
  obtain ⟨code, count, bytes⟩ := readRangeFrom_abreast lower mode open_ size w w (Alike.refl w) start
    le_rfl
  have fast := readRange_accepted env buf accepted some
  have slow := @mtdReadData_run env lower mode addr size buf cache w some
  simp only [Nat.zero_add] at count
  constructor
  · rw [fast, slow]
    exact code
  · rw [fast, slow]
    simp only [Option.getD_some]
    omega
  · rw [fast, slow]
    intro k early
    simp only [Option.getD_some] at early
    exact bytes k (by omega)

theorem readsSame_empty (inside : InDevice env.geo w.ni addr 0) (open_ : w.ni.protectedMode = false) :
    ReadsSame env lower mode addr 0 buf cache w := by
  have accepted := refuseRead_inside env inside open_
  have fast : (readRange env addr 0 buf).value w = .code 0 buf fun _ => 0 := by
    simp only [Prog.value, readRange, Prog.run_bind, run_ni, accepted]
    rfl
  constructor
  · rw [fast]
    rfl
  · rw [fast]
    rfl
  · rw [fast]
    exact fun k early => absurd early (Nat.not_lt_zero k)

/-- A first page that fails ends the one way with nothing read. -/
theorem readRange_fails {paddr : Nat} (accepted : refuseRead env w.ni addr size = none)
    (some : size ≠ 0) (place : logicAddr env w.ni (addr - addr % env.geo.writesize) = .some paddr)
    (failed : ((readPhysPage env paddr).run w).1.1 < 0 ∧
      ((readPhysPage env paddr).run w).1.1 ≠ -ebadmsg) :
    ((readRange env addr size buf).value w).retlen.getD 0 = 0 := by
  rw [readRange_accepted env buf accepted some]
  obtain ⟨fuel, rfl⟩ := Nat.exists_eq_succ_of_ne_zero some
  obtain ⟨w', -, fast⟩ := @readRangeFrom_mapped env fuel addr 0
    { buf := buf, remain := fuel + 1, eccError := false, maxBitflips := 0, ret := 0 } w _ some place
  rw [fast, if_pos failed]
  exact Nat.sub_self _

/-- A first page that can be read leaves the other way with bytes. -/
theorem mtdReadData_reads {paddr : Nat} (some : size ≠ 0)
    (accepted : refuseRead env w.ni (maskedAddr addr - maskedAddr addr % env.geo.writesize) 0 = none)
    (place : logicAddr env w.ni (maskedAddr addr - maskedAddr addr % env.geo.writesize) = .some paddr)
    (passed : ¬(((readPhysPage env paddr).run w).1.1 < 0 ∧
      ((readPhysPage env paddr).run w).1.1 ≠ -ebadmsg)) :
    0 < ((mtdReadData env lower mode (dataRequest buf size) addr cache).value w).2.data.done := by
  rw [mtdReadData_run env lower mode buf cache some]
  obtain ⟨fuel, rfl⟩ := Nat.exists_eq_succ_of_ne_zero some
  rw [Paged.readPages, if_neg (fun ended => absurd ended.1 some), Prog.run_bind]
  have page := @readSingleBuffers_mapped env lower mode _ w true false cache paddr accepted place
  change (readSingleBuffers env lower mode true false (Paged.ReadState.start (lower.sizes mode)
    (dataRequest buf (fuel + 1)) (maskedAddr addr) cache).addr cache).run w = _ at page
  rw [show (Paged.ReadState.start (lower.sizes mode) (dataRequest buf (fuel + 1)) (maskedAddr addr)
    cache).cache = cache from rfl, page, if_neg passed]
  refine lt_of_lt_of_le ?_ (Paged.readPages_done_le _ _ _ _ _ _)
  have column := Nat.mod_lt (maskedAddr addr) env.geo.writesize_pos
  have first : (dataRequest buf (fuel + 1)).len ≠ 0 := some
  simp only [Paged.ReadState.next, Paged.ReadState.start, Stream.next, if_neg first, Stream.chunk,
    Nat.zero_add]
  change 0 < min (env.geo.writesize - maskedAddr addr % env.geo.writesize) (fuel + 1)
  omega

/-- Nothing is read of a protected instance either way. -/
theorem readsSame_protected (shut : w.ni.protectedMode = true) (some : size ≠ 0) :
    ReadsSame env lower mode addr size buf cache w := by
  have refused (addr size : Nat) : refuseRead env w.ni addr size = .some (-erofs) := by
    simp [refuseRead, shut]
  have fast := readRange_refused env buf _ (refused addr size)
  have slow : (mtdReadData env lower mode (dataRequest buf size) addr cache).value w =
      (-erofs, .start (lower.sizes mode) (dataRequest buf size) (maskedAddr addr) cache) := by
    rw [mtdReadData_run env lower mode buf cache some]
    obtain ⟨fuel, rfl⟩ := Nat.exists_eq_succ_of_ne_zero some
    rw [Paged.readPages, if_neg (fun ended => absurd ended.1 some), Prog.run_bind,
      readSingleBuffers_refused env lower mode (refused _ 0),
      if_pos (show (-erofs : Int) < 0 ∧ (-erofs : Int) ≠ -ebadmsg by decide)]
    rfl
  constructor
  · rw [fast, slow]
    rfl
  · rw [fast, slow]
    rfl
  · rw [fast]
    exact fun k early => absurd early (Nat.not_lt_zero k)

end Agree

section Differ

/-- Pages from 4 GiB on cannot be read. -/
def lowOnly (geo : Geometry) : Env where
  geo := geo
  fate _ call :=
    { ret := match call with
        | .readPage addr => if addr < 2 ^ 32 then 0 else -eio
        | _ => 0
      main := fun _ => 0
      oob := fun _ => 0
      flag := false }
  crcByte crc _ := crc

/-- An instance that maps every block of the chip to itself. -/
def wholeWorld (geo : Geometry) (protectedMode : Bool) : World where
  ni :=
    { Instance.zero sampleOptions with
      blockState := fun _ => 0xffffffff
      blockMapping := UInt32.ofNat
      dataBlockCount := geo.blockCount
      protectedMode := protectedMode }
  chip := blankChip []
  tick := 0
  issuer := .other
  generated := []
  trace := []

theorem Geometry.blockCount_mul (geo : Geometry) : geo.blockCount * geo.erasesize = geo.size := by
  rw [Geometry.blockCount, Geometry.erasesize, Geometry.size, ← Nat.pow_add,
    Nat.sub_add_cancel geo.block_le]

theorem logicAddr_whole (geo : Geometry) (protectedMode : Bool) (addr : Nat) (inside : addr < geo.size) :
    logicAddr (lowOnly geo) (wholeWorld geo protectedMode).ni addr = some addr := by
  have block : addr / geo.erasesize < geo.blockCount := by
    apply Nat.div_lt_of_lt_mul
    rwa [Nat.mul_comm, Geometry.blockCount_mul]
  have small := geo.blockCount_lt
  have word : (UInt32.ofNat (addr / geo.erasesize)).toNat = addr / geo.erasesize := by
    rw [UInt32.toNat_ofNat']
    exact Nat.mod_eq_of_lt (by omega)
  have mapped : unmapped (UInt32.ofNat (addr / geo.erasesize)) = false := by
    rw [unmapped, word]
    simpa using by omega
  have good (ba : Nat) :
      getBlockStateRaw (wholeWorld geo protectedMode).ni.blockState ba ≠ blockStBad := by
    have all : ∀ j < 16, (0xffffffff : UInt32) >>> UInt32.ofNat (j * 2) &&& blockStMask ≠ blockStBad := by
      decide
    exact all (ba % 16) (Nat.mod_lt _ (by decide))
  rw [logicAddr]
  change (if unmapped (UInt32.ofNat (addr / geo.erasesize)) = true then none
    else if getBlockStateRaw _ _ = blockStBad then none else some _) = _
  rw [mapped, if_neg Bool.false_ne_true, if_neg (good _)]
  change some ((UInt32.ofNat (addr / geo.erasesize)).toNat * geo.erasesize + addr % geo.erasesize) = _
  rw [word, Nat.mul_comm, Nat.div_add_mod]

/-- What a read of a page from 4 GiB on comes to after all tries, and one of a page below. -/
theorem lowOnly_high (geo : Geometry) (addr : Nat) (high : ¬addr < 2 ^ 32) (w : World) :
    ((readPhysPage (lowOnly geo) addr).run w).1.1 = -eio := by
  have failed (w : World) : ((lowerReadPage (lowOnly geo) addr).run w).1.1 = -eio := by
    simp only [lowerReadPage, lowerCall, lowOnly, Prog.run_bind, Prog.run_get, Prog.run_modify,
      Prog.run_pure, if_neg high]
    rfl
  have tries (n : Nat) (last : Int × Bytes × Bytes) (w : World) (ends : n = 0 → last.1 = -eio) :
      ((readPhysPageTries (lowOnly geo) addr n last).run w).1.1 = -eio := by
    induction n generalizing last w with
    | zero => exact ends rfl
    | succ n ih =>
      rw [readPhysPageTries, Prog.run_bind, failed, if_neg (by decide)]
      exact ih _ _ fun _ => failed w
  exact tries tryCount _ w fun none => absurd none (by decide)

theorem lowOnly_low (geo : Geometry) (addr : Nat) (low : addr < 2 ^ 32) (w : World) :
    ((readPhysPage (lowOnly geo) addr).run w).1.1 = 0 := by
  have read : ((lowerReadPage (lowOnly geo) addr).run w).1.1 = 0 := by
    simp only [lowerReadPage, lowerCall, lowOnly, Prog.run_bind, Prog.run_get, Prog.run_modify,
      Prog.run_pure, if_pos low]
    rfl
  have first : ((readPhysPageTries (lowOnly geo) addr 3 (0, fun _ => 0, fun _ => 0)).run w).1.1 = 0 := by
    rw [readPhysPageTries, Prog.run_bind, read, if_pos le_rfl]
    exact read
  exact first

variable {geo : Geometry} (lower : LowerMtd geo) (mode : OobMode) {addr size : Nat} (buf cache : Bytes)

/-- The page that is asked for fails, and the MTD device reads another one. -/
theorem readsSame_high (inside : addr < geo.size ∧ addr + size ≤ geo.size) (some : size ≠ 0)
    (high : ¬addr < 2 ^ 32) :
    ¬ReadsSame (lowOnly geo) lower mode addr size buf cache (wholeWorld geo false) := by
  intro same
  have retlen := same.retlen_eq
  have within : InDevice geo (wholeWorld geo false).ni addr size := by
    have device : geo.ba2addr (wholeWorld geo false).ni.dataBlockCount = geo.size :=
      geo.blockCount_mul
    rw [InDevice, device]
    exact inside
  have accepted := refuseRead_inside (lowOnly geo) within rfl
  have place (addr : Nat) := logicAddr_whole geo false addr
  have column := Nat.mod_le addr geo.writesize
  have page : ¬addr - addr % geo.writesize < 2 ^ 32 := by
    obtain ⟨m, whole⟩ : geo.writesize ∣ 2 ^ 32 := Nat.pow_dvd_pow 2 (pageShift_le (lowOnly geo))
    have behind : m ≤ addr / geo.writesize :=
      (Nat.le_div_iff_mul_le geo.writesize_pos).mpr (by rw [Nat.mul_comm, ← whole]; omega)
    have start := Nat.mul_le_mul_left geo.writesize behind
    have split := Nat.div_add_mod addr geo.writesize
    omega
  have masked : maskedAddr addr < 2 ^ 32 := Nat.mod_lt _ (by decide)
  have below := Nat.mod_le (maskedAddr addr) geo.writesize
  have less : maskedAddr addr ≤ addr := Nat.mod_le _ _
  have failed : ((readPhysPage (lowOnly geo) (addr - addr % geo.writesize)).run
      (wholeWorld geo false)).1.1 < 0 ∧ ((readPhysPage (lowOnly geo) (addr - addr % geo.writesize)).run
        (wholeWorld geo false)).1.1 ≠ -ebadmsg := by
    rw [lowOnly_high geo _ page]
    decide
  have passed : ¬(((readPhysPage (lowOnly geo) (maskedAddr addr - maskedAddr addr % geo.writesize)).run
      (wholeWorld geo false)).1.1 < 0 ∧ ((readPhysPage (lowOnly geo)
        (maskedAddr addr - maskedAddr addr % geo.writesize)).run
          (wholeWorld geo false)).1.1 ≠ -ebadmsg) := by
    rw [lowOnly_low geo _ (by omega)]
    decide
  have accepted' : refuseRead (lowOnly geo) (wholeWorld geo false).ni
      (maskedAddr addr - maskedAddr addr % geo.writesize) 0 = none := by
    have limit := within.1
    have near : InDevice geo (wholeWorld geo false).ni
        (maskedAddr addr - maskedAddr addr % geo.writesize) 0 := ⟨by omega, by omega⟩
    exact refuseRead_inside (lowOnly geo) near rfl
  have none := readRange_fails (lowOnly geo) buf accepted some (place _ (by omega)) failed
  have some_ := mtdReadData_reads (lowOnly geo) lower mode buf cache some accepted'
    (place _ (by omega)) passed
  rw [none] at retlen
  exact absurd retlen some_.ne'

/-- The two ways to read agree, for every lower device and state of an instance that is protected or
not, exactly on ranges whose address has 32 bits; nothing can be read of a protected instance, which
only one of them reports when there is nothing to read. -/
theorem readPaths_agree_iff (geo : Geometry) (protectedMode : Bool) (addr size : Nat)
    (inside : addr < geo.size ∧ addr + size ≤ geo.size) :
    (∀ fate crcByte, let env : Env := ⟨geo, fate, crcByte⟩
      ∀ (lower : LowerMtd env.geo) (mode : OobMode) (buf cache : Bytes) (w : World),
        w.ni.protectedMode = protectedMode → InDevice geo w.ni addr size →
        ReadsSame env lower mode addr size buf cache w) ↔
      if protectedMode then size ≠ 0 else size = 0 ∨ addr < 2 ^ 32 := by
  have device (shut : Bool) : InDevice geo (wholeWorld geo shut).ni addr size := by
    have whole : geo.ba2addr (wholeWorld geo shut).ni.dataBlockCount = geo.size := geo.blockCount_mul
    rw [InDevice, whole]
    exact inside
  have anyLower : LowerMtd geo :=
    { oobavail := 0, freeByte := id, avail_le := Nat.zero_le _, free_apart := fun _ none => by omega }
  cases protectedMode with
  | true =>
    rw [if_pos rfl]
    constructor
    · rintro same rfl
      have code := (same (fun _ _ => ⟨0, fun _ => 0, fun _ => 0, false⟩) (fun crc _ => crc) anyLower
        .raw (fun _ => 0) (fun _ => 0) (wholeWorld geo true) rfl (device true)).code_eq
      rw [readRange_refused _ _ (-erofs) (by simp [refuseRead, wholeWorld])] at code
      exact absurd (show (0 : Int) = -erofs from code) (by decide)
    · exact fun some fate crcByte lower mode buf cache w shut _ =>
        readsSame_protected _ lower mode buf cache shut some
  | false =>
    rw [if_neg Bool.false_ne_true]
    constructor
    · intro same
      by_contra none
      obtain ⟨some, high⟩ := not_or.mp none
      exact readsSame_high anyLower .raw (fun _ => 0) (fun _ => 0) inside some high
        (same (lowOnly geo).fate (lowOnly geo).crcByte anyLower .raw (fun _ => 0) (fun _ => 0)
          (wholeWorld geo false) rfl (device false))
    · intro ok fate crcByte env lower mode buf cache w open_ within
      by_cases none : size = 0
      · subst none
        exact readsSame_empty env lower mode buf cache within open_
      · exact readsSame_low env lower mode buf cache within open_ (ok.resolve_left none) none

/-- 8 GiB in blocks of 128 KiB. -/
def largeGeometry : Geometry where
  pageShift := 11
  blockShift := 17
  chipShift := 33
  oobsize := 64
  page_le := by decide
  block_le := by decide
  fits := by decide

def largeLower : LowerMtd largeGeometry where
  oobavail := 0
  freeByte := id
  avail_le := by decide
  free_apart := fun _ none => absurd none (Nat.not_lt_zero _)

/-- The byte at 4 GiB cannot be read, and the MTD device reads the one at 0. -/
theorem readPaths_differ :
    ¬∀ (env : Env) (lower : LowerMtd env.geo) (mode : OobMode) (addr size : Nat) (buf cache : Bytes)
      (w : World), InDevice env.geo w.ni addr size → ReadsSame env lower mode addr size buf cache w := by
  intro all
  have same := (all (lowOnly largeGeometry) largeLower .placeOob (2 ^ 32) 1 (fun _ => 0) (fun _ => 0)
    (wholeWorld largeGeometry false) (by unfold InDevice; decide +kernel)).retlen_eq
  exact absurd same (by decide +kernel)

/-- A page and a half below 4 GiB. -/
theorem readPaths_agree_sample :
    ReadsSame (lowOnly largeGeometry) largeLower .placeOob 1024 3000 (fun _ => 0) (fun _ => 0)
      (wholeWorld largeGeometry false) :=
  (readPaths_agree_iff largeGeometry false 1024 3000 (by decide)).mpr (.inr (by decide)) _ _ _ _ _ _ _
    rfl (by unfold InDevice; decide +kernel)

end Differ

end Filogic.Nmbm
