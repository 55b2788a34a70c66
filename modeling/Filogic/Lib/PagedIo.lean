import Filogic.Lib.Paged

/-! Two streams, the data of pages and their spare bytes, moved page by page through one cache: the
loops of a flash driver that writes or reads them together. -/

namespace Filogic.Lib.Paged

/-- The sizes of a page and of its spare area, and the spare bytes that the stream gets of it. -/
structure Sizes where
  writesize : Nat
  oobsize : Nat
  maxooblen : Nat

/-- A request: the two buffers, the bytes of each, and where the spare bytes start in the first
page. -/
structure Request where
  datbuf : Bytes
  oobbuf : Bytes
  len : Nat
  ooblen : Nat
  ooboffs : Nat

/-- One page handed to the layer below; a buffer that the request has no bytes for is missing. -/
structure PageWrite where
  addr : Nat
  data : Option Bytes
  oob : Option Bytes
  oobwrlen : Nat

/-- How far the writing has come. -/
structure WriteState where
  addr : Nat
  cache : Bytes
  data : Stream
  oob : Stream
  pages : List PageWrite

/-- How far the reading has come. -/
structure ReadState where
  addr : Nat
  cache : Bytes
  datbuf : Bytes
  oobbuf : Bytes
  data : Stream
  oob : Stream
  eccFailed : Bool
  maxBitflips : Int

section Loops

variable {σ : Type} (z : Sizes) (ops : Request)

namespace WriteState

variable (s : WriteState)

/-- The cache filled for the next page, each part only while its stream has bytes. -/
def fillCache : Bytes :=
  let cache :=
    if s.data.left = 0 then s.cache
    else fillPage s.cache 0 z.writesize z.writesize ops.datbuf s.data
  if s.oob.left = 0 then cache
  else fillPage cache z.writesize z.maxooblen z.oobsize ops.oobbuf s.oob

/-- The page that is then handed to the layer below. -/
def page : PageWrite where
  addr := s.addr
  data := if ops.len = 0 then none else some (s.fillCache z ops)
  oob := if ops.ooblen = 0 then none else some fun k => s.fillCache z ops (z.writesize + k)
  oobwrlen := if s.oob.left = 0 then 0 else s.oob.chunk z.maxooblen + s.oob.col

/-- Behind that page. -/
def next : WriteState where
  addr := s.addr + z.writesize
  cache := s.fillCache z ops
  data := s.data.next z.writesize
  oob := s.oob.next z.maxooblen
  pages := s.pages ++ [s.page z ops]

/-- The request is done. -/
def Done : Prop := s.data.left = 0 ∧ s.oob.left = 0

instance : Decidable s.Done := inferInstanceAs (Decidable (_ ∧ _))

end WriteState

/-- The loop that writes; each round has a byte of the request, so `fuel` bounds those left. -/
def writePages (write : PageWrite → Prog σ Int) :
    (fuel : Nat) → WriteState → Prog σ (Int × WriteState)
  | 0, s => pure (0, s)
  | fuel + 1, s =>
    if s.Done then pure (0, s)
    else do
      let ret ← write (s.page z ops)
      if ret ≠ 0 then pure (ret, s.next z ops)
      else writePages write fuel (s.next z ops)

def WriteState.start (addr : Nat) (cache : Bytes) : WriteState where
  addr := addr - addr % z.writesize
  cache := cache
  data := ⟨addr % z.writesize, 0, ops.len⟩
  oob := ⟨ops.ooboffs, 0, ops.ooblen⟩
  pages := []

/-- The whole write: the code, and what was handed down. -/
def writeData (write : PageWrite → Prog σ Int) (addr : Nat) (cache : Bytes) :
    Prog σ (Int × WriteState) :=
  writePages z ops write (ops.len + ops.ooblen) (.start z ops addr cache)

namespace ReadState

variable (s : ReadState)

/-- Behind the next page: what was read of it is moved out of the cache. -/
def next (badmsg : Int) (got : Int × Bytes) : ReadState where
  addr := s.addr + z.writesize
  cache := got.2
  datbuf :=
    if s.data.left = 0 then s.datbuf
    else s.datbuf.memcpy s.data.done got.2 s.data.col (s.data.chunk z.writesize)
  oobbuf :=
    if s.oob.left = 0 then s.oobbuf
    else s.oobbuf.memcpy s.oob.done got.2 (z.writesize + s.oob.col) (s.oob.chunk z.maxooblen)
  data := s.data.next z.writesize
  oob := s.oob.next z.maxooblen
  eccFailed := s.eccFailed || got.1 = badmsg
  maxBitflips := max s.maxBitflips got.1

def Done : Prop := s.data.left = 0 ∧ s.oob.left = 0

instance : Decidable s.Done := inferInstanceAs (Decidable (_ ∧ _))

/-- A page with an ECC error is delivered all the same, and reported at the end. -/
def code (badmsg : Int) : Int := if s.eccFailed then badmsg else s.maxBitflips

end ReadState

/-- The loop that reads. -/
def readPages (badmsg : Int) (read : Nat → Bytes → Prog σ (Int × Bytes)) :
    (fuel : Nat) → ReadState → Prog σ (Int × ReadState)
  | 0, s => pure (s.code badmsg, s)
  | fuel + 1, s =>
    if s.Done then pure (s.code badmsg, s)
    else do
      let got ← read s.addr s.cache
      if got.1 < 0 ∧ got.1 ≠ badmsg then pure (got.1, { s with cache := got.2 })
      else readPages badmsg read fuel (s.next z badmsg got)

def ReadState.start (addr : Nat) (cache : Bytes) : ReadState where
  addr := addr - addr % z.writesize
  cache := cache
  datbuf := ops.datbuf
  oobbuf := ops.oobbuf
  data := ⟨addr % z.writesize, 0, ops.len⟩
  oob := ⟨ops.ooboffs, 0, ops.ooblen⟩
  eccFailed := false
  maxBitflips := 0

/-- The whole read into the buffers of `ops`. -/
def readData (badmsg : Int) (read : Nat → Bytes → Prog σ (Int × Bytes)) (addr : Nat)
    (cache : Bytes) : Prog σ (Int × ReadState) :=
  readPages z badmsg read (ops.len + ops.ooblen) (.start z ops addr cache)

end Loops

section Written

variable (z : Sizes) (ops : Request) (addr : Nat) (cache : Bytes)

/-- The slices of page `k`, and the last page that either stream has bytes for. -/
def dataSlice (k : Nat) : Bytes := pageSlice ops.datbuf z.writesize (addr % z.writesize) ops.len k
def oobSlice (k : Nat) : Bytes := pageSlice ops.oobbuf z.maxooblen ops.ooboffs ops.ooblen k
def lastData : Nat := (addr % z.writesize + ops.len - 1) / z.writesize
def lastOob : Nat := (ops.ooboffs + ops.ooblen - 1) / z.maxooblen

/-- The state of the writing behind `k` pages. -/
def WriteState.behind (k : Nat) : WriteState := (next z ops)^[k] (start z ops addr cache)

/-- The page is page `k` of the request: what it has bytes for is there, and the rest erased. A
buffer that is missing leaves its part of the page erased. -/
structure PageWrite.Exact (k : Nat) (page : PageWrite) : Prop where
  addr_eq : page.addr = addr - addr % z.writesize + k * z.writesize
  data_eq : ∀ j < z.writesize, (page.data.map (· j)).getD 0xff = dataSlice z ops addr k j
  oob_eq : ∀ j < z.oobsize, (page.oob.map (· j)).getD 0xff = oobSlice z ops k j

/-- The data part of page `k` does not come from a page before: the request has no data at all, or
some for this page, or its last page of data is erased all over. -/
def FreshData (k : Nat) : Prop :=
  ops.len = 0 ∨ k ≤ lastData z ops addr ∨
    ∀ j < z.writesize, dataSlice z ops addr (lastData z ops addr) j = 0xff

def FreshOob (k : Nat) : Prop :=
  ops.ooblen = 0 ∨ k ≤ lastOob z ops ∨ ∀ j < z.oobsize, oobSlice z ops (lastOob z ops) j = 0xff

namespace WriteState

theorem behind_succ (k : Nat) :
    behind z ops addr cache (k + 1) = (behind z ops addr cache k).next z ops :=
  Function.iterate_succ_apply' _ _ _

theorem behind_streams (k : Nat) :
    (behind z ops addr cache k).addr = addr - addr % z.writesize + k * z.writesize ∧
      (behind z ops addr cache k).data =
        Stream.behind z.writesize (addr % z.writesize) ops.len k ∧
      (behind z ops addr cache k).oob = Stream.behind z.maxooblen ops.ooboffs ops.ooblen k := by
  induction k with
  | zero => simp [behind, Stream.behind, start]
  | succ k ih =>
    obtain ⟨address, data, oob⟩ := ih
    simp [behind_succ, next, Stream.behind_succ, address, data, oob, Nat.succ_mul, Nat.add_assoc]

theorem behind_pages (n : Nat) :
    (behind z ops addr cache n).pages =
      (List.range n).map fun k => (behind z ops addr cache k).page z ops := by
  induction n with
  | zero => rfl
  | succ n ih => simp [behind_succ, next, ih, List.range_succ]

theorem data_left_iff (pos : 0 < z.writesize) (k : Nat) :
    (behind z ops addr cache k).data.left ≠ 0 ↔ 0 < ops.len ∧ k ≤ lastData z ops addr := by
  rw [(behind_streams z ops addr cache k).2.1]
  exact Stream.left_pos_iff (Nat.mod_lt _ pos) ops.len k

theorem oob_left_iff (room : ops.ooboffs < z.maxooblen) (k : Nat) :
    (behind z ops addr cache k).oob.left ≠ 0 ↔ 0 < ops.ooblen ∧ k ≤ lastOob z ops := by
  rw [(behind_streams z ops addr cache k).2.2]
  exact Stream.left_pos_iff room ops.ooblen k

variable (pos : 0 < z.writesize) (room : ops.ooboffs < z.maxooblen) (wide : z.maxooblen ≤ z.oobsize)
include pos room wide

/-- What the cache holds when page `k` is handed down: the slices of the page, or those of the last
page that had any. -/
theorem fillCache_eq (k : Nat) :
    (ops.len ≠ 0 → ∀ j < z.writesize, (behind z ops addr cache k).fillCache z ops j =
      dataSlice z ops addr (min k (lastData z ops addr)) j) ∧
    (ops.ooblen ≠ 0 → ∀ j < z.oobsize,
      (behind z ops addr cache k).fillCache z ops (z.writesize + j) =
        oobSlice z ops (min k (lastOob z ops)) j) := by
  have column := Nat.mod_lt addr pos
  -- Neither part of the cache is touched when the other one is filled.
  have dataPart (s : WriteState) (j : Nat) (inside : j < z.writesize) (colO : s.oob.col < z.maxooblen) :
      s.fillCache z ops j = if s.data.left = 0 then s.cache j
        else fillPage s.cache 0 z.writesize z.writesize ops.datbuf s.data j := by
    rw [fillCache]
    by_cases more : s.oob.left = 0
    · rw [if_pos more]
      split_ifs <;> rfl
    · rw [if_neg more, fillPage_outside _ _ _ _ _ _ _ colO.le wide (.inl inside)]
      split_ifs <;> rfl
  have oobPart (s : WriteState) (j : Nat) (colD : s.data.col < z.writesize) :
      s.fillCache z ops (z.writesize + j) = if s.oob.left = 0 then s.cache (z.writesize + j)
        else fillPage (if s.data.left = 0 then s.cache
          else fillPage s.cache 0 z.writesize z.writesize ops.datbuf s.data)
          z.writesize z.maxooblen z.oobsize ops.oobbuf s.oob (z.writesize + j) := by
    rw [fillCache]
    by_cases more : s.oob.left = 0
    · rw [if_pos more, if_pos more]
      split_ifs
      · rfl
      · exact fillPage_outside _ _ _ _ _ _ _ colD.le le_rfl (.inr (by omega))
    · rw [if_neg more, if_neg more]
  have columns (k : Nat) : (behind z ops addr cache k).data.col < z.writesize ∧
      (behind z ops addr cache k).oob.col < z.maxooblen := by
    obtain ⟨-, data, oob⟩ := behind_streams z ops addr cache k
    rw [data, oob]
    exact ⟨Stream.behind_col column _ k, Stream.behind_col room _ k⟩
  constructor
  · intro some j inside
    induction k with
    | zero =>
      have more := (data_left_iff z ops addr cache pos 0).mpr ⟨by omega, Nat.zero_le _⟩
      rw [dataPart _ _ inside (columns 0).2, if_neg more, Nat.zero_min]
      rw [(behind_streams z ops addr cache 0).2.1] at more ⊢
      have filled := fillPage_slice (behind z ops addr cache 0).cache 0 z.writesize z.writesize
        (addr % z.writesize) ops.len 0 ops.datbuf column more j inside
      rwa [Nat.zero_add] at filled
    | succ k ih =>
      rw [dataPart _ _ inside (columns (k + 1)).2]
      have left := data_left_iff z ops addr cache pos (k + 1)
      by_cases more : (behind z ops addr cache (k + 1)).data.left = 0
      · have far : lastData z ops addr ≤ k := by
          by_contra near
          exact left.mpr ⟨by omega, by omega⟩ more
        rw [if_pos more, behind_succ]
        change (behind z ops addr cache k).fillCache z ops j = _
        rw [ih, Nat.min_eq_right far, Nat.min_eq_right (by omega)]
      · rw [if_neg more, Nat.min_eq_left (left.mp more).2]
        rw [(behind_streams z ops addr cache (k + 1)).2.1] at more ⊢
        have filled := fillPage_slice (behind z ops addr cache (k + 1)).cache 0 z.writesize
          z.writesize (addr % z.writesize) ops.len (k + 1) ops.datbuf column more j inside
        rwa [Nat.zero_add] at filled
  · intro some j inside
    induction k with
    | zero =>
      have more := (oob_left_iff z ops addr cache room 0).mpr ⟨by omega, Nat.zero_le _⟩
      rw [oobPart _ _ (columns 0).1, if_neg more, Nat.zero_min]
      rw [(behind_streams z ops addr cache 0).2.2] at more ⊢
      exact fillPage_slice _ z.writesize z.maxooblen z.oobsize ops.ooboffs ops.ooblen 0 ops.oobbuf
        room more j inside
    | succ k ih =>
      rw [oobPart _ _ (columns (k + 1)).1]
      have left := oob_left_iff z ops addr cache room (k + 1)
      by_cases more : (behind z ops addr cache (k + 1)).oob.left = 0
      · have far : lastOob z ops ≤ k := by
          by_contra near
          exact left.mpr ⟨by omega, by omega⟩ more
        rw [if_pos more, behind_succ]
        change (behind z ops addr cache k).fillCache z ops (z.writesize + j) = _
        rw [ih, Nat.min_eq_right far, Nat.min_eq_right (by omega)]
      · rw [if_neg more, Nat.min_eq_left (left.mp more).2]
        rw [(behind_streams z ops addr cache (k + 1)).2.2] at more ⊢
        exact fillPage_slice _ z.writesize z.maxooblen z.oobsize ops.ooboffs ops.ooblen (k + 1)
          ops.oobbuf room more j inside

/-- The data part of a page is what it should be exactly when it is not left over from a page
before. -/
theorem page_data_iff (k : Nat) :
    (∀ j < z.writesize, (((behind z ops addr cache k).page z ops).data.map (· j)).getD 0xff =
      dataSlice z ops addr k j) ↔ FreshData z ops addr k := by
  obtain ⟨dataFill, -⟩ := fillCache_eq z ops addr cache pos room wide k
  by_cases none : ops.len = 0
  · apply iff_of_true _ (.inl none)
    intro j inside
    simp [page, none, dataSlice, pageSlice_empty]
  · simp only [page, none, if_false, Option.map_some, Option.getD_some]
    by_cases near : k ≤ lastData z ops addr
    · apply iff_of_true _ (.inr (.inl near))
      intro j inside
      rw [dataFill none j inside, Nat.min_eq_left near]
    · have blank (j : Nat) : dataSlice z ops addr k j = 0xff :=
        pageSlice_beyond _ _ _ _ _ _ pos (by unfold lastData at near; omega)
      simp only [FreshData, none, near, false_or, blank]
      refine forall₂_congr fun j inside => ?_
      rw [dataFill none j inside, Nat.min_eq_right (by omega)]

theorem page_oob_iff (k : Nat) :
    (∀ j < z.oobsize, (((behind z ops addr cache k).page z ops).oob.map (· j)).getD 0xff =
      oobSlice z ops k j) ↔ FreshOob z ops k := by
  obtain ⟨-, oobFill⟩ := fillCache_eq z ops addr cache pos room wide k
  by_cases none : ops.ooblen = 0
  · apply iff_of_true _ (.inl none)
    intro j inside
    simp [page, none, oobSlice, pageSlice_empty]
  · simp only [page, none, if_false, Option.map_some, Option.getD_some]
    by_cases near : k ≤ lastOob z ops
    · apply iff_of_true _ (.inr (.inl near))
      intro j inside
      rw [oobFill none j inside, Nat.min_eq_left near]
    · have blank (j : Nat) : oobSlice z ops k j = 0xff :=
        pageSlice_beyond _ _ _ _ _ _ (by omega) (by unfold lastOob at near; omega)
      simp only [FreshOob, none, near, false_or, blank]
      refine forall₂_congr fun j inside => ?_
      rw [oobFill none j inside, Nat.min_eq_right (by omega)]

/-- The spare bytes up to the length handed down are those of the page, and there are none behind
them. -/
theorem page_oobwrlen (k j : Nat) (inside : j < z.maxooblen) :
    (if ((behind z ops addr cache k).page z ops).oobwrlen ≤ j then 0xff
      else (((behind z ops addr cache k).page z ops).oob.map (· j)).getD 0xff) =
      oobSlice z ops k j := by
  have left := oob_left_iff z ops addr cache room k
  have streams := (behind_streams z ops addr cache k).2.2
  by_cases more : (behind z ops addr cache k).oob.left = 0
  · have blank : oobSlice z ops k j = 0xff := by
      by_cases none : ops.ooblen = 0
      · rw [oobSlice, none, pageSlice_empty]
      · have far := mt left.mpr (not_not.mpr more)
        exact pageSlice_beyond _ _ _ _ _ _ (by omega) (by unfold lastOob at far; omega)
    simp [page, more, blank]
  · obtain ⟨some, near⟩ := left.mp more
    have own := (page_oob_iff z ops addr cache pos room wide k).mpr (.inr (.inl near)) j
      (inside.trans_le wide)
    simp only [page, more, if_false] at own ⊢
    rw [own]
    split_ifs with behind_
    · rw [streams] at more behind_
      exact (pageSlice_behind ops.oobbuf room ops.ooblen k j more (by omega)).symm
    · rfl

omit wide

/-- Each page takes a byte of the request, as long as there is one. -/
theorem left_le (n : Nat) (going : ∀ m < n, ¬(behind z ops addr cache m).Done) :
    (behind z ops addr cache n).data.left + (behind z ops addr cache n).oob.left + n ≤
      ops.len + ops.ooblen := by
  induction n with
  | zero => simp [behind, start]
  | succ n ih =>
    have before := ih fun m early => going m (by omega)
    have more := going n (by omega)
    obtain ⟨-, data, oob⟩ := behind_streams z ops addr cache n
    have colData := Stream.behind_col (Nat.mod_lt addr pos) ops.len n
    have colOob := Stream.behind_col room ops.ooblen n
    rw [← data] at colData
    rw [← oob] at colOob
    have fewer := Stream.next_left_lt z.writesize _ colData
    have fewer' := Stream.next_left_lt z.maxooblen _ colOob
    have same := Stream.next_left_le z.writesize (behind z ops addr cache n).data
    have same' := Stream.next_left_le z.maxooblen (behind z ops addr cache n).oob
    rw [behind_succ]
    simp only [next, Done] at more ⊢
    omega

end WriteState

/-- The pages were written one behind the other, each with code 0. -/
def Written {σ : Type} (write : PageWrite → Prog σ Int) : List PageWrite → σ → σ → Prop
  | [], s, s' => s = s'
  | page :: pages, s, s' =>
    (write page).value s = 0 ∧ Written write pages ((write page).after s) s'

theorem writePages_run {σ : Type} (write : PageWrite → Prog σ Int) (fuel : Nat) (s : WriteState)
    (w : σ) :
    ∃ n ≤ fuel, ((writePages z ops write fuel s).run w).1.2 = (WriteState.next z ops)^[n] s ∧
      (∀ m < n, ¬((WriteState.next z ops)^[m] s).Done) ∧
      (((writePages z ops write fuel s).run w).1.1 = 0 →
        (n = fuel ∨ ((WriteState.next z ops)^[n] s).Done) ∧
        ∃ pages, ((WriteState.next z ops)^[n] s).pages = s.pages ++ pages ∧
          Written write pages w ((writePages z ops write fuel s).run w).2) := by
  induction fuel generalizing s w with
  | zero => exact ⟨0, le_rfl, rfl, by simp, fun _ => ⟨.inl rfl, [], by simp, rfl⟩⟩
  | succ fuel ih =>
    rw [writePages]
    by_cases over_ : s.Done
    · rw [if_pos over_]
      exact ⟨0, Nat.zero_le _, rfl, by simp, fun _ => ⟨.inr over_, [], by simp, rfl⟩⟩
    · rw [if_neg over_, Prog.run_bind]
      by_cases failed : ((write (s.page z ops)).run w).1 ≠ 0
      · rw [if_pos failed]
        refine ⟨1, by omega, rfl, ?_, fun zero => absurd zero failed⟩
        intro m first
        rw [show m = 0 by omega]
        exact over_
      · rw [if_neg failed]
        obtain ⟨n, bound, state, going, ends⟩ := ih (s.next z ops) ((write (s.page z ops)).run w).2
        refine ⟨n + 1, by omega, state, ?_, ?_⟩
        · intro m early
          cases m with
          | zero => exact over_
          | succ m => exact going m (by omega)
        · intro zero
          obtain ⟨ended, pages, appended, written⟩ := ends zero
          refine ⟨ended.imp_left (by omega), s.page z ops :: pages, ?_, ?_⟩
          · rw [Function.iterate_succ_apply, appended]
            simp [WriteState.next]
          · exact ⟨not_not.mp failed, written⟩

/-- What is handed down stays so, and counts. -/
theorem writePages_grows {σ : Type} (write : PageWrite → Prog σ Int) (fuel : Nat) (s : WriteState)
    (w : σ) :
    (∃ more, ((writePages z ops write fuel s).run w).1.2.pages = s.pages ++ more) ∧
      s.data.done ≤ ((writePages z ops write fuel s).run w).1.2.data.done := by
  induction fuel generalizing s w with
  | zero => exact ⟨⟨[], (List.append_nil _).symm⟩, le_rfl⟩
  | succ fuel ih =>
    rw [writePages]
    split_ifs with ended
    · exact ⟨⟨[], (List.append_nil _).symm⟩, le_rfl⟩
    · rw [Prog.run_bind]
      split_ifs with failed
      · exact ⟨⟨_, rfl⟩, Stream.next_done_le _ _⟩
      · obtain ⟨⟨more, pages⟩, done⟩ := ih (s.next z ops) ((write (s.page z ops)).run w).2
        refine ⟨⟨s.page z ops :: more, ?_⟩, (Stream.next_done_le _ _).trans done⟩
        rw [pages]
        simp [WriteState.next]

/-- A write hands down the first pages of the request, and all of them when it returns 0. -/
theorem writeData_run {σ : Type} (pos : 0 < z.writesize) (room : ops.ooboffs < z.maxooblen)
    (write : PageWrite → Prog σ Int) (w : σ) :
    ∃ n, ((writeData z ops write addr cache).run w).1.2 = WriteState.behind z ops addr cache n ∧
      (((writeData z ops write addr cache).run w).1.1 = 0 →
        (WriteState.behind z ops addr cache n).Done ∧
        Written write (WriteState.behind z ops addr cache n).pages w
          ((writeData z ops write addr cache).run w).2) := by
  obtain ⟨n, bound, state, going, ends⟩ :=
    writePages_run z ops write (ops.len + ops.ooblen) (.start z ops addr cache) w
  refine ⟨n, state, fun zero => ?_⟩
  obtain ⟨ended, pages, appended, written⟩ := ends zero
  constructor
  · obtain rfl | over_ := ended
    · have left := WriteState.left_le z ops addr cache pos room _ going
      simp only [WriteState.Done]
      omega
    · exact over_
  · change ((WriteState.next z ops)^[n] _).pages = [] ++ pages at appended
    rw [List.nil_append] at appended
    rw [WriteState.behind, appended]
    exact written

end Written

namespace Written

variable {σ : Type} {write : PageWrite → Prog σ Int} {Ready Holds : PageWrite → σ → Prop}
  (stores : ∀ page s, Ready page s → (write page).value s = 0 → Holds page ((write page).after s))
  (keeps : ∀ page other s, page.addr ≠ other.addr → Ready page s → (write page).value s = 0 →
    (Ready other s → Ready other ((write page).after s)) ∧
      (Holds other s → Holds other ((write page).after s)))

include keeps in
theorem kept {pages : List PageWrite} {s s' : σ} (written : Written write pages s s')
    (other : PageWrite) (apart : ∀ page ∈ pages, page.addr ≠ other.addr)
    (distinct : pages.Pairwise fun a b => a.addr ≠ b.addr) (ready : ∀ page ∈ pages, Ready page s)
    (holds : Holds other s) : Holds other s' := by
  induction pages generalizing s with
  | nil => exact written ▸ holds
  | cons page pages ih =>
    obtain ⟨zero, rest⟩ := written
    obtain ⟨first, later⟩ := List.pairwise_cons.mp distinct
    have own := ready page List.mem_cons_self
    refine ih rest (fun p member => apart p (List.mem_cons_of_mem _ member)) later ?_ ?_
    · intro p member
      exact (keeps page p s (first p member) own zero).1 (ready p (List.mem_cons_of_mem _ member))
    · exact (keeps page other s (apart page List.mem_cons_self) own zero).2 holds

include stores keeps in
/-- Pages at addresses of their own are all there in the end. -/
theorem holds {pages : List PageWrite} {s s' : σ} (written : Written write pages s s')
    (distinct : pages.Pairwise fun a b => a.addr ≠ b.addr) (ready : ∀ page ∈ pages, Ready page s) :
    ∀ page ∈ pages, Holds page s' := by
  induction pages generalizing s with
  | nil => simp
  | cons page pages ih =>
    obtain ⟨zero, rest⟩ := written
    obtain ⟨first, later⟩ := List.pairwise_cons.mp distinct
    have own := ready page List.mem_cons_self
    have still : ∀ p ∈ pages, Ready p ((write page).after s) := fun p member =>
      (keeps page p s (first p member) own zero).1 (ready p (List.mem_cons_of_mem _ member))
    intro p member
    obtain rfl | member := List.mem_cons.mp member
    · exact rest.kept keeps p (fun q later' => (first q later').symm) later still
        (stores p s own zero)
    · exact ih rest later still p member

end Written

section Read

variable {σ : Type} (z : Sizes) (ops : Request) (addr : Nat) (badmsg : Int)
  (read : Nat → Bytes → Prog σ (Int × Bytes)) (Inv : σ → Prop) (kept : Nat → Prop)

/-- A read of page `k` that goes well brings the slices of the page, as far as there are any, and of
the spare bytes those that are `kept`. -/
def Brings (datbuf oobbuf : Bytes) (k : Nat) (cache : Bytes) : Prop :=
  (0 < ops.len ∧ k ≤ lastData z ops addr → ∀ j < z.writesize,
    cache j = pageSlice datbuf z.writesize (addr % z.writesize) ops.len k j) ∧
  (0 < ops.ooblen ∧ k ≤ lastOob z ops → ∀ j < z.maxooblen, kept j →
    cache (z.writesize + j) = pageSlice oobbuf z.maxooblen ops.ooboffs ops.ooblen k j)

/-- The reading has come to page `k`, with the bytes of the pages before in the buffers if none of
them had an ECC error. -/
structure ReadTo (datbuf oobbuf : Bytes) (k : Nat) (s : ReadState) : Prop where
  addr_eq : s.addr = addr - addr % z.writesize + k * z.writesize
  data_eq : s.data = Stream.behind z.writesize (addr % z.writesize) ops.len k
  oob_eq : s.oob = Stream.behind z.maxooblen ops.ooboffs ops.ooblen k
  datbuf_eq : s.eccFailed = false → ∀ i < s.data.done, s.datbuf i = datbuf i
  oobbuf_eq : s.eccFailed = false → ∀ i < s.oob.done, kept ((ops.ooboffs + i) % z.maxooblen) →
    s.oobbuf i = oobbuf i

variable (pos : 0 < z.writesize) (room : ops.ooboffs < z.maxooblen)

/-- Bytes taken from a page slice go on where the stream stands. -/
theorem slice_taken (buf dst page : Bytes) (size off len k at_ : Nat) (fits : off < size)
    (more : (Stream.behind size off len k).left ≠ 0)
    (brought : ∀ j < size, kept j → page (at_ + j) = pageSlice buf size off len k j)
    (before : ∀ i < (Stream.behind size off len k).done, kept ((off + i) % size) → dst i = buf i)
    (i : Nat) (inside : i < ((Stream.behind size off len k).next size).done)
    (asked : kept ((off + i) % size)) :
    dst.memcpy (Stream.behind size off len k).done page
      (at_ + (Stream.behind size off len k).col) ((Stream.behind size off len k).chunk size) i =
      buf i := by
  have taken := Stream.behind_byte fits len k (i - (Stream.behind size off len k).done) more
  obtain ⟨done, left, -⟩ := Stream.behind_done fits len k
  have column := Stream.behind_col fits len k
  simp only [Stream.next, more, if_false] at inside
  by_cases old : i < (Stream.behind size off len k).done
  · rw [Bytes.memcpy_outside _ _ _ _ _ _ (.inl old)]
    exact before i old asked
  · rw [Stream.chunk] at inside
    -- The place of byte `i` in page `k`.
    have place : off + i = k * size +
        ((Stream.behind size off len k).col + (i - (Stream.behind size off len k).done)) := by omega
    rw [place, Nat.mul_add_mod_self_right, Nat.mod_eq_of_lt (by omega)] at asked
    rw [Bytes.memcpy_inside _ _ _ _ _ _ (by omega) (by rw [Stream.chunk]; omega), Nat.add_assoc,
      brought _ (by omega) asked, pageSlice, if_pos (by omega)]
    congr 1
    omega

include pos room in
theorem ReadTo.next {datbuf oobbuf : Bytes} {k : Nat} {s : ReadState}
    (to_ : ReadTo z ops addr kept datbuf oobbuf k s) (got : Int × Bytes)
    (brought : got.1 ≠ badmsg → Brings z ops addr kept datbuf oobbuf k got.2) :
    ReadTo z ops addr kept datbuf oobbuf (k + 1) (s.next z badmsg got) := by
  have column := Nat.mod_lt addr pos
  have needData := Stream.left_pos_iff column ops.len k
  have needOob := Stream.left_pos_iff room ops.ooblen k
  refine ⟨?_, ?_, ?_, ?_, ?_⟩
  · simp only [ReadState.next, to_.addr_eq, Nat.succ_mul, Nat.add_assoc]
  · simp only [ReadState.next, to_.data_eq, Stream.behind_succ]
  · simp only [ReadState.next, to_.oob_eq, Stream.behind_succ]
  · intro clean i inside
    simp only [ReadState.next, Bool.or_eq_false_iff, decide_eq_false_iff_not] at clean inside ⊢
    have before := to_.datbuf_eq clean.1
    have brought := brought clean.2
    rw [to_.data_eq] at before inside ⊢
    by_cases more : (Stream.behind z.writesize (addr % z.writesize) ops.len k).left = 0
    · rw [if_pos more]
      rw [Stream.next, if_pos more] at inside
      exact before i inside
    · rw [if_neg more]
      have taken := slice_taken (fun _ => True) datbuf s.datbuf got.2 z.writesize
        (addr % z.writesize) ops.len k 0 column more
        (fun j inside _ => by rw [Nat.zero_add]; exact brought.1 (needData.mp more) j inside)
        (fun i inside _ => before i inside) i inside trivial
      rwa [Nat.zero_add] at taken
  · intro clean i inside asked
    simp only [ReadState.next, Bool.or_eq_false_iff, decide_eq_false_iff_not] at clean inside ⊢
    have before := to_.oobbuf_eq clean.1
    have brought := brought clean.2
    rw [to_.oob_eq] at before inside ⊢
    by_cases more : (Stream.behind z.maxooblen ops.ooboffs ops.ooblen k).left = 0
    · rw [if_pos more]
      rw [Stream.next, if_pos more] at inside
      exact before i inside asked
    · rw [if_neg more]
      exact slice_taken kept oobbuf s.oobbuf got.2 z.maxooblen ops.ooboffs ops.ooblen k z.writesize
        room more (brought.2 (needOob.mp more)) before i inside asked

/-- What a read returns that goes well: all the data, and the spare bytes that are kept. -/
structure Delivered (datbuf oobbuf : Bytes) (s : ReadState) : Prop where
  retlen : s.data.done = ops.len
  oobretlen : s.oob.done = ops.ooblen
  datbuf_eq : ∀ i < ops.len, s.datbuf i = datbuf i
  oobbuf_eq : ∀ i < ops.ooblen, kept ((ops.ooboffs + i) % z.maxooblen) → s.oobbuf i = oobbuf i

include pos room in
theorem ReadTo.delivered {datbuf oobbuf : Bytes} {k : Nat} {s : ReadState} (negative : badmsg < 0)
    (to_ : ReadTo z ops addr kept datbuf oobbuf k s) (ended : s.Done) (well : 0 ≤ s.code badmsg) :
    Delivered z ops kept datbuf oobbuf s := by
  have clean : s.eccFailed = false := by
    by_contra failed
    rw [ReadState.code, if_pos (by simpa using failed)] at well
    omega
  have data : s.data.done = ops.len := by
    rw [to_.data_eq]
    exact Stream.behind_over (Nat.mod_lt addr pos) ops.len k (to_.data_eq ▸ ended.1)
  have oob : s.oob.done = ops.ooblen := by
    rw [to_.oob_eq]
    exact Stream.behind_over room ops.ooblen k (to_.oob_eq ▸ ended.2)
  exact ⟨data, oob, data ▸ to_.datbuf_eq clean, oob ▸ to_.oobbuf_eq clean⟩

/-- What has been read stays read. -/
theorem readPages_done_le (fuel : Nat) (s : ReadState) (w : σ) :
    s.data.done ≤ ((readPages z badmsg read fuel s).run w).1.2.data.done := by
  induction fuel generalizing s w with
  | zero => exact le_rfl
  | succ fuel ih =>
    rw [readPages]
    split_ifs with ended
    · exact le_rfl
    · rw [Prog.run_bind]
      split_ifs with failed
      · exact le_rfl
      · exact le_trans (Stream.next_done_le z.writesize s.data) (ih (s.next z badmsg _) _)

variable (negative : badmsg < 0) {datbuf oobbuf : Bytes}
  (brings : ∀ k cache s, Inv s →
    Inv ((read (addr - addr % z.writesize + k * z.writesize) cache).after s) ∧
    (0 ≤ ((read (addr - addr % z.writesize + k * z.writesize) cache).value s).1 →
      Brings z ops addr kept datbuf oobbuf k
        ((read (addr - addr % z.writesize + k * z.writesize) cache).value s).2))

include pos room negative brings in
theorem readPages_delivers (fuel k : Nat) (s : ReadState) (w : σ) (inv : Inv w)
    (enough : s.data.left + s.oob.left ≤ fuel) (to_ : ReadTo z ops addr kept datbuf oobbuf k s)
    (well : 0 ≤ ((readPages z badmsg read fuel s).run w).1.1) :
    Delivered z ops kept datbuf oobbuf ((readPages z badmsg read fuel s).run w).1.2 := by
  induction fuel generalizing k s w with
  | zero =>
    have ended : s.Done := ⟨by omega, by omega⟩
    exact to_.delivered z ops addr badmsg kept pos room negative ended well
  | succ fuel ih =>
    rw [readPages] at well ⊢
    by_cases ended : s.Done
    · rw [if_pos ended] at well ⊢
      exact to_.delivered z ops addr badmsg kept pos room negative ended well
    · rw [if_neg ended, Prog.run_bind] at well ⊢
      obtain ⟨still, brought⟩ := brings k s.cache w inv
      rw [← to_.addr_eq] at still brought
      rw [Prog.value] at brought
      rw [Prog.after] at still
      generalize (read s.addr s.cache).run w = got at well still brought ⊢
      by_cases failed : got.1.1 < 0 ∧ got.1.1 ≠ badmsg
      · rw [if_pos failed] at well
        change 0 ≤ got.1.1 at well
        omega
      · rw [if_neg failed] at well ⊢
        have colData := Stream.behind_col (Nat.mod_lt addr pos) ops.len k
        have colOob := Stream.behind_col room ops.ooblen k
        rw [← to_.data_eq] at colData
        rw [← to_.oob_eq] at colOob
        have fewer := Stream.next_left_lt z.writesize _ colData
        have fewer' := Stream.next_left_lt z.maxooblen _ colOob
        have same := Stream.next_left_le z.writesize s.data
        have same' := Stream.next_left_le z.maxooblen s.oob
        refine ih (k + 1) _ _ still ?_ ?_ well
        · simp only [ReadState.next, ReadState.Done] at ended ⊢
          omega
        · exact to_.next z ops addr badmsg kept pos room got.1 fun clean => brought (by omega)

include pos room negative brings in
/-- A read that goes well brings the two streams whole. -/
theorem readData_delivers (cache : Bytes) (w : σ) (inv : Inv w)
    (well : 0 ≤ ((readData z ops badmsg read addr cache).run w).1.1) :
    Delivered z ops kept datbuf oobbuf ((readData z ops badmsg read addr cache).run w).1.2 := by
  refine readPages_delivers z ops addr badmsg read Inv kept pos room negative brings _ 0 _ w inv le_rfl
    ?_ well
  refine ⟨by simp [ReadState.start], rfl, rfl, ?_, ?_⟩ <;> simp [ReadState.start]

/-- The request has bytes for page `k`. -/
def Asked (k : Nat) : Prop :=
  0 < ops.len ∧ k ≤ lastData z ops addr ∨ 0 < ops.ooblen ∧ k ≤ lastOob z ops

variable (zero : ∀ k cache s, Inv s → Asked z ops addr k →
  Inv ((read (addr - addr % z.writesize + k * z.writesize) cache).after s) ∧
    ((read (addr - addr % z.writesize + k * z.writesize) cache).value s).1 = 0)

include pos room negative zero in
theorem readPages_zero (fuel k : Nat) (s : ReadState) (w : σ) (inv : Inv w)
    (addr_eq : s.addr = addr - addr % z.writesize + k * z.writesize)
    (data_eq : s.data = Stream.behind z.writesize (addr % z.writesize) ops.len k)
    (oob_eq : s.oob = Stream.behind z.maxooblen ops.ooboffs ops.ooblen k)
    (clean : s.eccFailed = false) (flips : s.maxBitflips = 0) :
    ((readPages z badmsg read fuel s).run w).1.1 = 0 := by
  have code : s.code badmsg = 0 := by simp [ReadState.code, clean, flips]
  induction fuel generalizing k s w with
  | zero => exact code
  | succ fuel ih =>
    rw [readPages]
    by_cases ended : s.Done
    · rw [if_pos ended]
      exact code
    · have asked : Asked z ops addr k := by
        have needData := Stream.left_pos_iff (Nat.mod_lt addr pos) ops.len k
        have needOob := Stream.left_pos_iff room ops.ooblen k
        rw [← data_eq] at needData
        rw [← oob_eq] at needOob
        obtain more | more := not_and_or.mp ended
        · exact .inl (needData.mp more)
        · exact .inr (needOob.mp more)
      obtain ⟨still, got⟩ := zero k s.cache w inv asked
      rw [← addr_eq] at still got
      rw [Prog.value] at got
      rw [if_neg ended, Prog.run_bind, if_neg (by omega)]
      refine ih (k + 1) _ _ still ?_ ?_ ?_ ?_ ?_ ?_
      · simp only [ReadState.next, addr_eq, Nat.succ_mul, Nat.add_assoc]
      · simp only [ReadState.next, data_eq, Stream.behind_succ]
      · simp only [ReadState.next, oob_eq, Stream.behind_succ]
      · simp [ReadState.next, clean, got, negative.ne']
      · simp [ReadState.next, flips, got]
      · simp [ReadState.next, ReadState.code, clean, flips, got, negative.ne']

include pos room negative zero in
/-- A read all of whose pages are read with code 0 returns 0. -/
theorem readData_zero (cache : Bytes) (w : σ) (inv : Inv w) :
    ((readData z ops badmsg read addr cache).run w).1.1 = 0 := by
  refine readPages_zero z ops addr badmsg read Inv pos room negative zero _ 0 _ w inv ?_ rfl rfl rfl
    rfl
  simp [ReadState.start]

end Read

end Filogic.Lib.Paged
