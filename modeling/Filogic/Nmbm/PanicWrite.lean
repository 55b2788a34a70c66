import Filogic.Nmbm.FastWrite

/-! Writes while the kernel panics, `nmbm_mtd_panic_write`: what the caller is told of the pages. -/

namespace Filogic.Nmbm
open Lib

variable (env : Env)

/-- A page handed to `nmbm_panic_write_single_page`, and what that returned. -/
structure PanicPage where
  addr : Nat
  ret : Int
  deriving DecidableEq, Repr

/-- How far the write has come: the page at hand, the cache, the data as the code has it in `col`, `wrlen`
and `len`, and the pages behind. -/
structure PanicState where
  page : Nat
  cache : Bytes
  data : Stream
  pages : List PanicPage

/-- The page cache as it is handed down. -/
def PanicState.filled (geo : Geometry) (buf : Bytes) (s : PanicState) : Bytes :=
  let chklen := s.data.chunk geo.writesize
  let cache := if chklen < geo.writesize then s.cache.memset 0 0xff geo.writesize else s.cache
  cache.memcpy s.data.col buf s.data.done chklen

/-- The loop of `nmbm_mtd_panic_write`; each round has a byte of the data, so `fuel` bounds those left. -/
def panicWritePages (buf : Bytes) : (fuel : Nat) → PanicState → Routine PanicState
  | 0, s => return s
  | fuel + 1, s =>
    if s.data.left = 0 then return s
    else do
      let cache := s.filled env.geo buf
      let reply ← panicWriteSinglePage env s.page cache
      let s := { s with
        cache := cache
        data := s.data.next env.geo.writesize
        pages := s.pages ++ [⟨s.page, reply.ret⟩] }
      if reply.ret ≠ 0 then return s
      else panicWritePages buf fuel { s with page := s.page + env.geo.writesize }

/-- `nmbm_mtd_panic_write`: the code, `*retlen`, and the pages handed down. -/
def mtdPanicWrite (to_ len : Nat) (buf cache : Bytes) : Routine (Int × Nat × List PanicPage) := do
  let s ← panicWritePages env buf len
    { page := maskedAddr to_ - maskedAddr to_ % env.geo.writesize
      cache := cache
      data := ⟨to_ % env.geo.writesize, 0, len⟩
      pages := [] }
  return (0, s.data.done, s.pages)

namespace Geometry

variable (geo : Geometry)

/-- Page `k` of a request at an address, and how many pages `len` bytes there touch. -/
def requestPage (addr k : Nat) : Nat := addr - addr % geo.writesize + k * geo.writesize

def requestPages (addr len : Nat) : Nat :=
  if len = 0 then 0 else (addr % geo.writesize + len - 1) / geo.writesize + 1

end Geometry

/-- The code is 0 exactly if every page of the request was programmed, and the length is of the pages
before the first one that was not. -/
structure PanicTruth (geo : Geometry) (to_ len : Nat) (out : Int × Nat × List PanicPage) : Prop where
  code_iff : out.1 = 0 ↔
    ∀ k < geo.requestPages to_ len, out.2.2[k]? = some ⟨geo.requestPage to_ k, 0⟩
  retlen_eq : ∀ n ≤ geo.requestPages to_ len,
    (∀ k < n, out.2.2[k]? = some ⟨geo.requestPage to_ k, 0⟩) →
    (n = geo.requestPages to_ len ∨ out.2.2[n]? ≠ some ⟨geo.requestPage to_ n, 0⟩) →
    out.2.1 = min len (n * geo.writesize - to_ % geo.writesize)

section Taken

/-- The tries to program a page in a panic, from a call of the lower device on: the number of the call
behind the one that goes well. -/
def panicTries (paddr : Nat) : (tries tick : Nat) → Option Nat
  | 0, _ => none
  | tries + 1, tick =>
    if (env.fate tick (.panicWritePage paddr)).ret = 0 then some (tick + 1)
    else panicTries paddr tries (tick + 2)

/-- The call behind the program of a page that is taken: the instance lets it be written, its block is
mapped and not bad, and one of the tries goes well. -/
def panicTaken (i : Instance) (addr tick : Nat) : Option Nat :=
  if refuseWrite env i addr 0 = none ∧ i.lower.panicWritePage = true then
    (logicAddr env i addr).bind fun paddr => panicTries env paddr tryCount tick
  else none

/-- Some pages in a row are taken. -/
def PanicTakes (i : Instance) : (pages addr tick : Nat) → Prop
  | 0, _, _ => True
  | pages + 1, addr, tick => ∃ t, panicTaken env i addr tick = some t ∧
      PanicTakes i pages (addr + env.geo.writesize) t

variable {env} {addr paddr : Nat} {data : Bytes} {w : World}

theorem panicWritePage_run (w : World) :
    (lowerWritePage env true paddr data none).run w =
      ((env.fate w.tick (.panicWritePage paddr)).ret,
        { w.note (.lower (.panicWritePage paddr)) with
          tick := w.tick + 1
          chip := if (env.fate w.tick (.panicWritePage paddr)).ret = 0 then
              w.chip.setPage env.geo paddr data none
            else w.chip.setPage env.geo paddr (env.fate w.tick (.panicWritePage paddr)).main
              (some (env.fate w.tick (.panicWritePage paddr)).oob) }) := by
  by_cases zero : (env.fate w.tick (.panicWritePage paddr)).ret = 0
  · rw [if_pos zero]
    simp only [lowerWritePage, Prog.run_bind, if_true]
    split_ifs with done
    · rfl
    · exact absurd zero done
  · rw [if_neg zero]
    simp only [lowerWritePage, Prog.run_bind, if_true]
    split_ifs with done
    · exact absurd done zero
    · rfl

theorem panicRetry_run (tries : Nat) (w : World) :
    let out := (retry env (lowerWritePage env true paddr data none) tries).run w
    out.1 = (panicTries env paddr tries w.tick).isSome ∧ out.2.ni = w.ni ∧
      ∀ t ∈ panicTries env paddr tries w.tick, out.2.tick = t := by
  induction tries generalizing w with
  | zero => exact ⟨rfl, rfl, fun t none => absurd none (by simp [panicTries])⟩
  | succ tries ih =>
    have first := @panicWritePage_run env paddr data w
    simp only [retry, panicTries, Prog.run_bind, first]
    split_ifs with zero
    · exact ⟨rfl, rfl, fun t here => Option.some.inj here⟩
    · exact ih _

theorem panicWriteSinglePage_refused {ret : Int} (refused : refuseWrite env w.ni addr 0 = some ret) :
    (panicWriteSinglePage env addr data).run w = (.plain ret, w) := by
  simp only [panicWriteSinglePage, Prog.run_bind, run_ni, refused]
  rfl

theorem panicWriteSinglePage_accepted (accepted : refuseWrite env w.ni addr 0 = none)
    (there : w.ni.lower.panicWritePage = true) :
    (panicWriteSinglePage env addr data).run w =
      (.plain ((writeLogicPage env true addr data none).run w).1,
        ((writeLogicPage env true addr data none).run w).2) := by
  simp only [panicWriteSinglePage, Prog.run_bind, run_ni, accepted, there, if_true]
  rfl

theorem panicWriteLogicPage_unmapped (place : logicAddr env w.ni addr = none) :
    (writeLogicPage env true addr data none).run w = (-eio, w) := by
  simp only [writeLogicPage, Prog.run_bind, run_ni, place]
  rfl

theorem panicWriteLogicPage_mapped (place : logicAddr env w.ni addr = some paddr)
    (writable : w.ni.lower.readOnly = false) :
    (writeLogicPage env true addr data none).run w =
      (if ((retry env (lowerWritePage env true paddr data none) tryCount).run w).1 then pure 0
        else do
          needRemap env (w.ni.blockMapping (env.geo.addr2ba addr)).toNat
          pure (-eio)).run ((retry env (lowerWritePage env true paddr data none) tryCount).run w).2 := by
  simp only [writeLogicPage, panicWritePhysPage, Prog.run_bind, run_ni, place, if_true, writable,
    Bool.false_eq_true, if_false]

theorem refuseWrite_writable {i : Instance} (accepted : refuseWrite env i addr 0 = none) :
    i.lower.readOnly = false := by
  rw [refuseWrite] at accepted
  split_ifs at accepted with shut
  exact Bool.eq_false_of_not_eq_true fun readOnly => shut (.inr readOnly)

/-- A page that is taken is reported so, and leaves the instance. -/
theorem panicWriteSinglePage_taken {t : Nat} (taken : panicTaken env w.ni addr w.tick = some t) :
    let out := (panicWriteSinglePage env addr data).run w
    out.1.ret = 0 ∧ out.2.ni = w.ni ∧ out.2.tick = t := by
  rw [panicTaken] at taken
  split_ifs at taken with free
  obtain ⟨paddr, place, tried⟩ := Option.bind_eq_some_iff.mp taken
  obtain ⟨success, kept, ticks⟩ := @panicRetry_run env paddr data tryCount w
  rw [tried, Option.isSome_some] at success
  rw [panicWriteSinglePage_accepted free.1 free.2,
    panicWriteLogicPage_mapped place (refuseWrite_writable free.1), success, if_pos rfl]
  exact ⟨rfl, kept, ticks t tried⟩

/-- A page that is not taken is reported, too. -/
theorem panicWriteSinglePage_failed (failed : panicTaken env w.ni addr w.tick = none) :
    ((panicWriteSinglePage env addr data).run w).1.ret ≠ 0 := by
  have codes : -erofs ≠ 0 ∧ -einval ≠ 0 ∧ -enotsupp ≠ 0 ∧ -eio ≠ 0 := by decide
  cases accepted : refuseWrite env w.ni addr 0 with
  | some ret =>
    rw [panicWriteSinglePage_refused accepted]
    rw [refuseWrite] at accepted
    split_ifs at accepted
    · rw [← Option.some.inj accepted]
      exact codes.1
    · rw [← Option.some.inj accepted]
      exact codes.2.1
    · rw [← Option.some.inj accepted]
      exact codes.2.1
  | none =>
    cases there : w.ni.lower.panicWritePage with
    | false =>
      simp only [panicWriteSinglePage, Prog.run_bind, run_ni, accepted, there, Bool.false_eq_true, if_false]
      exact codes.2.2.1
    | true =>
      rw [panicWriteSinglePage_accepted accepted there]
      rw [panicTaken, if_pos ⟨accepted, there⟩] at failed
      cases place : logicAddr env w.ni addr with
      | none =>
        rw [panicWriteLogicPage_unmapped place]
        exact codes.2.2.2
      | some paddr =>
        obtain ⟨success, -⟩ := @panicRetry_run env paddr data tryCount w
        rw [place, Option.bind_some] at failed
        rw [failed, Option.isSome_none] at success
        rw [panicWriteLogicPage_mapped place (refuseWrite_writable accepted), success,
          if_neg Bool.false_ne_true]
        exact codes.2.2.2

end Taken

section Loop

/-- Some pages in a row, all programmed. -/
def goodPages (geo : Geometry) (page n : Nat) : List PanicPage :=
  (List.range n).map fun k => ⟨page + k * geo.writesize, 0⟩

theorem goodPages_succ (geo : Geometry) (page n : Nat) :
    goodPages geo page (n + 1) = ⟨page, 0⟩ :: goodPages geo (page + geo.writesize) n := by
  rw [goodPages, goodPages, List.range_succ_eq_map, List.map_cons, List.map_map, Nat.zero_mul,
    Nat.add_zero]
  congr 1
  apply List.map_congr_left
  intro k _
  rw [Function.comp_apply, Nat.succ_mul, Nat.add_assoc, Nat.add_comm geo.writesize]

theorem goodPages_getElem (geo : Geometry) (page n k : Nat) (inside : k < n) :
    (goodPages geo page n)[k]? = some ⟨page + k * geo.writesize, 0⟩ := by
  rw [goodPages, List.getElem?_map, List.getElem?_range inside, Option.map_some]

/-- The pages that a stream of data has left. -/
def pagesLeft (size : Nat) (s : Stream) : Nat :=
  if s.left = 0 then 0 else (s.col + s.left - 1) / size + 1

theorem pagesLeft_next (size : Nat) (s : Stream) (room : s.col < size) (more : s.left ≠ 0) :
    pagesLeft size s = pagesLeft size (s.next size) + 1 := by
  rw [pagesLeft, pagesLeft, if_neg more, Stream.next, if_neg more]
  by_cases last : s.left ≤ size - s.col
  · have all : s.chunk size = s.left := Nat.min_eq_right last
    rw [if_pos (by rw [all, Nat.sub_self]), Nat.div_eq_of_lt (by omega)]
  · have part : s.chunk size = size - s.col := Nat.min_eq_left (by omega)
    have some_ : s.left - s.chunk size ≠ 0 := by omega
    rw [if_neg some_, Nat.div_eq_sub_div (by omega) (by omega), part,
      show 0 + (s.left - (size - s.col)) - 1 = s.col + s.left - 1 - size by omega]

variable {env} (buf : Bytes)

/-- The loop reports the pages that are taken up to the first one that is not. -/
theorem panicWritePages_run (n fuel : Nat) (s : PanicState) (w : World)
    (count : pagesLeft env.geo.writesize s.data = n) (room : s.data.col < env.geo.writesize)
    (enough : s.data.left ≤ fuel) :
    let out := ((panicWritePages env buf fuel s).run w).1
    (PanicTakes env w.ni n s.page w.tick ∧ out.data.done = s.data.done + s.data.left ∧
      out.pages = s.pages ++ goodPages env.geo s.page n) ∨
    (¬PanicTakes env w.ni n s.page w.tick ∧ ∃ m < n, ∃ ret ≠ 0, out.pages =
      s.pages ++ (goodPages env.geo s.page m ++ [⟨s.page + m * env.geo.writesize, ret⟩])) := by
  induction n generalizing fuel s w with
  | zero =>
    have none : s.data.left = 0 := by
      rw [pagesLeft] at count
      split_ifs at count with none
      exact none
    left
    have stopped : (panicWritePages env buf fuel s).run w = (s, w) := by
      cases fuel with
      | zero => rfl
      | succ fuel =>
        rw [panicWritePages, if_pos none]
        rfl
    rw [stopped, none]
    exact ⟨trivial, rfl, (List.append_nil _).symm⟩
  | succ n ih =>
    have more : s.data.left ≠ 0 := by
      intro none
      rw [pagesLeft, if_pos none] at count
      omega
    obtain ⟨fuel, rfl⟩ := Nat.exists_eq_succ_of_ne_zero (show fuel ≠ 0 by omega)
    have less := Stream.next_left_lt env.geo.writesize s.data room more
    have next := pagesLeft_next env.geo.writesize s.data room more
    have whole : (s.data.next env.geo.writesize).done + (s.data.next env.geo.writesize).left =
        s.data.done + s.data.left := by
      rw [Stream.next, if_neg more]
      dsimp only [Stream.chunk]
      omega
    have column : (s.data.next env.geo.writesize).col < env.geo.writesize := by
      rw [Stream.next, if_neg more]
      exact env.geo.writesize_pos
    rw [panicWritePages, if_neg more]
    simp only [Prog.run_bind, Prog.run_ite]
    cases taken : panicTaken env w.ni s.page w.tick with
    | none =>
      right
      have failed := @panicWriteSinglePage_failed env s.page (s.filled env.geo buf) w taken
      rw [if_pos failed]
      refine ⟨?_, 0, Nat.succ_pos n, _, failed, ?_⟩
      · rintro ⟨t, some_, -⟩
        rw [taken] at some_
        cases some_
      · rw [Nat.zero_mul]
        rfl
    | some t =>
      obtain ⟨zero, kept, tick⟩ :=
        @panicWriteSinglePage_taken env s.page (s.filled env.geo buf) w t taken
      rw [if_neg (not_not.mpr zero)]
      generalize (panicWriteSinglePage env s.page (s.filled env.geo buf)).run w = out at zero kept tick ⊢
      have takes : PanicTakes env w.ni (n + 1) s.page w.tick ↔
          PanicTakes env w.ni n (s.page + env.geo.writesize) t := by
        constructor
        · rintro ⟨t', same, rest⟩
          rw [taken] at same
          rw [Option.some.inj same]
          exact rest
        · exact fun rest => ⟨t, taken, rest⟩
      obtain ⟨all, done, pages⟩ | ⟨failed, m, before, ret, bad, pages⟩ := ih fuel
        { page := s.page + env.geo.writesize
          cache := s.filled env.geo buf
          data := s.data.next env.geo.writesize
          pages := s.pages ++ [⟨s.page, out.1.ret⟩] } out.2 (Nat.succ.inj (next.symm.trans count)) column
        (by dsimp only; omega)
      · left
        rw [kept, tick] at all
        refine ⟨takes.mpr all, done.trans whole, pages.trans ?_⟩
        rw [goodPages_succ, zero, List.append_assoc]
        rfl
      · right
        rw [kept, tick] at failed
        refine ⟨fun all => failed (takes.mp all), m + 1, by omega, ret, bad, pages.trans ?_⟩
        rw [goodPages_succ, zero, Nat.succ_mul, Nat.add_comm (m * _), ← Nat.add_assoc, List.append_assoc]
        rfl

end Loop

section Truth

variable {env} (to_ len : Nat) (buf cache : Bytes) (w : World)

/-- A panic write tells the truth exactly if there is nothing to write, or the address has no more than
32 bits and no page of the request fails. -/
theorem panicWrite_truth_iff :
    PanicTruth env.geo to_ len ((mtdPanicWrite env to_ len buf cache).value w) ↔
      len = 0 ∨ to_ < 2 ^ 32 ∧ PanicTakes env w.ni (env.geo.requestPages to_ len)
        (to_ - to_ % env.geo.writesize) w.tick := by
  let s : PanicState :=
    { page := maskedAddr to_ - maskedAddr to_ % env.geo.writesize
      cache := cache
      data := ⟨to_ % env.geo.writesize, 0, len⟩
      pages := [] }
  have column := Nat.mod_lt to_ env.geo.writesize_pos
  have count : pagesLeft env.geo.writesize s.data = env.geo.requestPages to_ len := rfl
  have run := panicWritePages_run buf (env.geo.requestPages to_ len) len s w count column le_rfl
  have value : (mtdPanicWrite env to_ len buf cache).value w =
      (0, ((panicWritePages env buf len s).run w).1.data.done,
        ((panicWritePages env buf len s).run w).1.pages) := rfl
  have start : to_ < 2 ^ 32 → s.page = to_ - to_ % env.geo.writesize := by
    intro low
    have whole : maskedAddr to_ = to_ := Nat.mod_eq_of_lt low
    change maskedAddr to_ - maskedAddr to_ % env.geo.writesize = _
    rw [whole]
  rw [value]
  generalize ((panicWritePages env buf len s).run w).1 = out at run ⊢
  constructor
  · intro truth
    have all := truth.code_iff.mp rfl
    by_cases none : len = 0
    · exact .inl none
    have some_ : 0 < env.geo.requestPages to_ len := by
      rw [Geometry.requestPages, if_neg none]
      exact Nat.succ_pos _
    obtain ⟨takes, -, pages⟩ | ⟨-, m, before, ret, bad, pages⟩ := run
    · right
      have first := all 0 some_
      rw [pages, List.nil_append, goodPages_getElem _ _ _ _ some_] at first
      have place := congrArg PanicPage.addr (Option.some.inj first)
      simp only [Nat.zero_mul, Nat.add_zero, Geometry.requestPage] at place
      have low : to_ < 2 ^ 32 := by
        have masked : maskedAddr to_ < 2 ^ 32 := Nat.mod_lt _ (by decide)
        have same := maskedAddr_mod env to_
        have below := Nat.mod_le to_ env.geo.writesize
        have below' := Nat.mod_le (maskedAddr to_) env.geo.writesize
        change maskedAddr to_ - maskedAddr to_ % env.geo.writesize = _ at place
        omega
      rw [start low] at takes
      exact ⟨low, takes⟩
    · have page := all m before
      have behind : (goodPages env.geo s.page m).length = m := by
        rw [goodPages, List.length_map, List.length_range]
      rw [pages, List.nil_append, List.getElem?_append_right behind.le, behind, Nat.sub_self] at page
      exact absurd (congrArg PanicPage.ret (Option.some.inj page)) bad
  · rintro (none | ⟨low, takes⟩)
    · subst none
      obtain ⟨-, done, pages⟩ | ⟨-, m, before, -⟩ := run
      · constructor
        · exact iff_of_true rfl fun k inside => absurd inside (Nat.not_lt_zero k)
        · intro n inside _ _
          rw [Nat.zero_min]
          exact done
      · exact absurd before (Nat.not_lt_zero m)
    · rw [← start low] at takes
      obtain ⟨-, done, pages⟩ | ⟨failed, -⟩ := run
      · have programmed : ∀ k < env.geo.requestPages to_ len,
            out.pages[k]? = some ⟨env.geo.requestPage to_ k, 0⟩ := by
          intro k inside
          rw [pages, List.nil_append, goodPages_getElem _ _ _ _ inside, start low]
          rfl
        refine ⟨iff_of_true rfl programmed, ?_⟩
        intro n inside _ last
        have all : n = env.geo.requestPages to_ len := by
          rcases last with all | failed
          · exact all
          · by_contra short
            exact failed (programmed n (by omega))
        have enough : len ≤ n * env.geo.writesize - to_ % env.geo.writesize := by
          rw [all, Geometry.requestPages]
          split_ifs with none
          · exact none.trans_le (Nat.zero_le _)
          · have behind := Nat.lt_mul_div_succ (to_ % env.geo.writesize + len - 1) env.geo.writesize_pos
            rw [Nat.mul_comm] at behind
            omega
        rw [Nat.min_eq_left enough]
        exact done.trans (Nat.zero_add len)
      · exact absurd takes failed

/-- A chip that takes no page in a panic, below an instance that would. -/
def panickedEnv : Env := sampleEnv fun _ call =>
  match call with
  | .panicWritePage _ => true
  | _ => false

def panickedWorld : World :=
  mappedWorld.modifyNi fun i => { i with lower := { i.lower with panicWritePage := true } }

/-- One byte for a page that cannot be programmed: the code is 0. -/
theorem panicWrite_untrue : ¬∀ (env : Env) (to_ len : Nat) (buf cache : Bytes) (w : World),
    PanicTruth env.geo to_ len ((mtdPanicWrite env to_ len buf cache).value w) := by
  intro all
  have truth := all panickedEnv 0 1 (fun _ => 7) (fun _ => 0) panickedWorld
  exact absurd (truth.code_iff.mp rfl 0 (by decide)) (by decide +kernel)

end Truth

end Filogic.Nmbm
