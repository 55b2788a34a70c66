import Mathlib

/-! `an8855_port_fdb_dump`: the search through the address table that reports the entries of a port,
against what the table holds and the commands that fail. -/

namespace Filogic.Dsa.FdbDump

/-- `struct an8855_fdb` -/
structure Fdb where
  vid : BitVec 16
  portMask : BitVec 8
  aging : BitVec 8
  mac : List (BitVec 8)
  noarp : Bool
  live : BitVec 8
  type : BitVec 8
  fid : BitVec 8
  ivl : BitVec 8

/-- What the callback gets of an entry -/
structure Report where
  mac : List (BitVec 8)
  vid : BitVec 16
  noarp : Bool
  deriving DecidableEq

/-- The four registers `ATRD0` to `ATRD3` -/
abbrev Regs := Nat → BitVec 32

/-- How the switch answers a search command: the access register when it is no longer busy, or none in
time; and what the four registers show of each bank from then on. -/
structure Answer where
  response : Option (BitVec 32)
  shows : Nat → Regs

section Code

/-- `an8855_fdb_read` -/
def fdbRead (reg : Regs) : Fdb where
  live := (reg 0 &&& 0x1).setWidth 8
  type := ((reg 0 >>> 3) &&& 0x3).setWidth 8
  ivl := ((reg 0 >>> 9) &&& 0x1).setWidth 8
  vid := ((reg 0 >>> 10) &&& 0xfff).setWidth 16
  fid := ((reg 0 >>> 25) &&& 0xf).setWidth 8
  aging := ((reg 1 >>> 3) &&& 0x1ff).setWidth 8
  portMask := (reg 3 &&& 0xff).setWidth 8
  mac := [((reg 2 >>> 24) &&& 0xff).setWidth 8, ((reg 2 >>> 16) &&& 0xff).setWidth 8,
    ((reg 2 >>> 8) &&& 0xff).setWidth 8, ((reg 2 >>> 0) &&& 0xff).setWidth 8,
    ((reg 1 >>> 24) &&& 0xff).setWidth 8, ((reg 1 >>> 16) &&& 0xff).setWidth 8]
  noarp := decide ((reg 0 >>> 1) &&& 0x3 ≠ 0)

/-- The state of the dump, with what the commands and the callback have returned. -/
structure Dump where
  rsp : BitVec 32
  flag : Bool
  ret : Int
  locked : Bool
  reports : List Report
  commands : List Int
  callbacks : List Int

def cnt : Nat := 512

def num : Nat := 4

/-- `(rsp >> ATC_HASH) & ATC_HASH_MASK` -/
def indexOf (rsp : BitVec 32) : BitVec 32 := (rsp >>> 16) &&& 0x1ff

/-- `(rsp >> ATC_HIT) & ATC_HIT_MASK` -/
def banksOf (rsp : BitVec 32) : BitVec 32 := (rsp >>> 12) &&& 0xf

/-- `an8855_fdb_cmd`, which leaves `rsp` as it was when the command is not done in time; and the flag
that the caller takes from `rsp`. -/
def fdbCmd (response : Option (BitVec 32)) (s : Dump) : Dump :=
  let ret := if response = none then -110 else 0
  let rsp := response.getD s.rsp
  { s with
    ret, rsp
    flag := decide ((indexOf rsp).toNat = cnt - 1)
    commands := s.commands ++ [ret] }

variable (port : Nat) (cb : Nat → Int)

/-- The entry in a bank when it is alive and of the port -/
def reported (reg : Regs) : Option Report :=
  let fdb := fdbRead reg
  if fdb.live ≠ 0 ∧ fdb.portMask.getLsbD port = true then some ⟨fdb.mac, fdb.vid, fdb.noarp⟩
  else none

/-- One turn of the loop over the banks -/
def bank (shows : Nat → Regs) (s : Dump) (i : Nat) : Dump :=
  if (banksOf s.rsp).getLsbD i = true then
    match reported port (shows i) with
    | none => s
    | some report =>
        { s with
          ret := cb s.reports.length
          reports := s.reports ++ [report]
          callbacks := s.callbacks ++ [cb s.reports.length] }
  else s

def bankLoop (shows : Nat → Regs) (s : Dump) : Dump :=
  (List.range num).foldl (bank port cb shows) s

/-- `mutex_unlock` and `return 0` -/
def leave (s : Dump) : Dump := { s with locked := false, ret := 0 }

/-- The loop over the further commands, of which `n` is the next. -/
def searchLoop (seq : Nat → Answer) : Nat → Nat → Dump → Option Dump
  | 0, _, _ => none
  | fuel + 1, n, s =>
      if s.flag = true then some (leave s)
      else
        let s := fdbCmd (seq n).response s
        if banksOf s.rsp = 0 then some (leave s)
        else searchLoop seq fuel (n + 1) (bankLoop port cb (seq n).shows s)

/-- `an8855_port_fdb_dump` -/
def portFdbDump (seq : Nat → Answer) (fuel : Nat) : Option Dump :=
  let s : Dump := ⟨0, false, 0, true, [], [], []⟩
  let s := fdbCmd (seq 0).response s
  if s.ret < 0 then some (leave s)
  else if banksOf s.rsp = 0 then some (leave s)
  else searchLoop port cb seq fuel 1 (bankLoop port cb (seq 0).shows s)

end Code

section Claims

/-- The entries of a port in the table, by line and bank -/
def entries (table : Nat → Nat → Regs) (port : Nat) : List Report :=
  (List.range cnt).flatMap fun line => (List.range num).filterMap fun i => reported port (table line i)

/-- The lines in which the search hits some bank -/
def linesHit (hits : Nat → BitVec 32) : List Nat := (List.range cnt).filter fun line => hits line ≠ 0

/-- The answers are those of a search through the table: as long as the commands are done, they tell
the lines with a hit one after the other, and then that there is none. Each entry that is alive and
of the port is hit. -/
structure Searched (table : Nat → Nat → Regs) (port : Nat) (hits : Nat → BitVec 32)
    (seq : Nat → Answer) : Prop where
  covers : ∀ line < cnt, ∀ i < num, (reported port (table line i)).isSome = true →
    (hits line).getLsbD i = true
  line : ∀ n rsp, (seq n).response = some rsp → (∀ i < n, (seq i).response.isSome = true) →
    ∀ line, (linesHit hits)[n]? = some line →
      (indexOf rsp).toNat = line ∧ banksOf rsp = hits line ∧ (seq n).shows = table line
  behind : ∀ n rsp, (seq n).response = some rsp → (∀ i < n, (seq i).response.isSome = true) →
    (linesHit hits)[n]? = none → banksOf rsp = 0

/-- The dump ends without the mutex. When no command fails it has reported the entries of the port,
each once and no other; a failure of a command or of the callback is returned. -/
structure Dumped (port : Nat) (seq : Nat → Answer) (s : Dump) : Prop where
  unlocked : s.locked = false
  listed : (∀ x ∈ s.commands, 0 ≤ x) → ∀ table hits, Searched table port hits seq →
    s.reports = entries table port
  told : (∃ x ∈ s.commands ++ s.callbacks, x < 0) → s.ret < 0

/-- The search is over with a response: it is of the last line, or hits no bank. -/
def Over (rsp : BitVec 32) : Prop := (indexOf rsp).toNat = cnt - 1 ∨ banksOf rsp = 0

instance (rsp : BitVec 32) : Decidable (Over rsp) := by unfold Over; infer_instance

/-- What is reported of an answer -/
def reportsOf (port : Nat) (a : Answer) : List Report :=
  (List.range num).filterMap fun i =>
    if (banksOf (a.response.getD 0)).getLsbD i = true then reported port (a.shows i) else none

/-- All commands are done up to one whose response ends the search, and the callback takes all that
is reported until then. -/
def Unfailing (port : Nat) (cb : Nat → Int) (seq : Nat → Answer) : Prop :=
  ∃ last, (∀ n ≤ last, ∃ rsp, (seq n).response = some rsp ∧ (Over rsp ↔ n = last)) ∧
    ∀ j < ((List.range (last + 1)).flatMap fun n => reportsOf port (seq n)).length, 0 ≤ cb j

end Claims

section Banks

variable (port : Nat) (cb : Nat → Int)

/-- Nothing that was called has returned an error. -/
def Good (s : Dump) : Prop := (∀ x ∈ s.commands, 0 ≤ x) ∧ ∀ x ∈ s.callbacks, 0 ≤ x

/-- What the loop over some banks leaves: their reports in order, each with its call. -/
theorem foldl_bank (shows : Nat → Regs) (banks : List Nat) (s : Dump) :
    let new := banks.filterMap fun i =>
      if (banksOf s.rsp).getLsbD i = true then reported port (shows i) else none
    let s' := banks.foldl (bank port cb shows) s
    s'.rsp = s.rsp ∧ s'.flag = s.flag ∧ s'.commands = s.commands ∧ s'.reports = s.reports ++ new ∧
      s'.callbacks =
        s.callbacks ++ (List.range' s.reports.length new.length).map cb := by
  induction banks generalizing s with
  | nil => simp
  | cons i banks ih =>
    dsimp only
    rw [List.foldl_cons]
    by_cases hit : (banksOf s.rsp).getLsbD i = true
    · cases entry : reported port (shows i) with
      | none =>
        have step : bank port cb shows s i = s := by simp [bank, entry]
        rw [step]
        simpa [hit, entry] using ih s
      | some report =>
        have step : bank port cb shows s i =
            { s with
              ret := cb s.reports.length
              reports := s.reports ++ [report]
              callbacks := s.callbacks ++ [cb s.reports.length] } := by simp [bank, hit, entry]
        rw [step]
        obtain ⟨rsp, flag, commands, reports, callbacks⟩ := ih
          { s with
            ret := cb s.reports.length
            reports := s.reports ++ [report]
            callbacks := s.callbacks ++ [cb s.reports.length] }
        refine ⟨rsp, flag, commands, ?_, ?_⟩
        · rw [reports]
          simp [hit, entry]
        · rw [callbacks]
          simp [hit, entry, List.range'_succ]
    · have step : bank port cb shows s i = s := by simp [bank, hit]
      rw [step]
      simpa [hit] using ih s

theorem bankLoop_good (shows : Nat → Regs) (s : Dump) :
    Good (bankLoop port cb shows s) ↔ Good s ∧
      ∀ j, s.reports.length ≤ j → j < (bankLoop port cb shows s).reports.length → 0 ≤ cb j := by
  obtain ⟨-, -, commands, reports, callbacks⟩ := foldl_bank port cb shows (List.range num) s
  unfold Good bankLoop
  rw [commands, callbacks, reports, List.length_append]
  constructor
  · rintro ⟨first, second⟩
    refine ⟨⟨first, fun x member => second x (by simp [member])⟩, fun j least most => ?_⟩
    apply second
    apply List.mem_append_right
    exact List.mem_map.mpr ⟨j, by simp; omega, rfl⟩
  · rintro ⟨⟨first, second⟩, calls⟩
    refine ⟨first, fun x member => ?_⟩
    rcases List.mem_append.mp member with old | new
    · exact second x old
    · obtain ⟨j, within, rfl⟩ := List.mem_map.mp new
      simp only [List.mem_range'_1] at within
      exact calls j within.1 (by omega)

theorem bankLoop_flag (shows : Nat → Regs) (s : Dump) :
    (bankLoop port cb shows s).flag = s.flag :=
  (foldl_bank port cb shows (List.range num) s).2.1

/-- Without a hit nothing is reported. -/
theorem reportsOf_none {a : Answer} {rsp : BitVec 32} (answered : a.response = some rsp)
    (miss : banksOf rsp = 0) : reportsOf port a = [] := by
  unfold reportsOf
  rw [answered, Option.getD_some, miss]
  simp

theorem bankLoop_reports {a : Answer} {rsp : BitVec 32} (s : Dump)
    (answered : a.response = some rsp) :
    (bankLoop port cb a.shows (fdbCmd a.response s)).reports = s.reports ++ reportsOf port a := by
  have reports :=
    (foldl_bank port cb a.shows (List.range num) (fdbCmd a.response s)).2.2.2.1
  unfold bankLoop reportsOf
  rw [reports, answered]
  rfl

end Banks

section Search

variable (port : Nat) (cb : Nat → Int) (seq : Nat → Answer)

theorem fdbCmd_good {response : Option (BitVec 32)} {s : Dump} :
    Good (fdbCmd response s) ↔ Good s ∧ response.isSome = true := by
  unfold Good fdbCmd
  cases response <;> simp [or_imp, forall_and]

/-- An error stays in what has been returned. -/
theorem searchLoop_good {fuel n : Nat} {s r : Dump} (ended : searchLoop port cb seq fuel n s = some r)
    (good : Good r) : Good s := by
  induction fuel generalizing n s with
  | zero => cases ended
  | succ fuel ih =>
    unfold searchLoop at ended
    dsimp only at ended
    split_ifs at ended with flag miss
    · cases ended
      exact good
    · cases ended
      exact (fdbCmd_good.mp good).1
    · have looped := ih ended
      exact (fdbCmd_good.mp ((bankLoop_good port cb _ _).mp looped).1).1

theorem searchLoop_leaves {fuel n : Nat} {s r : Dump}
    (ended : searchLoop port cb seq fuel n s = some r) : r.locked = false ∧ r.ret = 0 := by
  induction fuel generalizing n s with
  | zero => cases ended
  | succ fuel ih =>
    unfold searchLoop at ended
    dsimp only at ended
    split_ifs at ended with flag miss
    · cases ended
      exact ⟨rfl, rfl⟩
    · cases ended
      exact ⟨rfl, rfl⟩
    · exact ih ended

/-- The commands from one on are done, and the search is over with the last. -/
def Clear (n last : Nat) : Prop :=
  ∀ i, n ≤ i → i ≤ last → ∃ rsp, (seq i).response = some rsp ∧ (Over rsp ↔ i = last)

variable {seq}

theorem Clear.next {n last : Nat} (clear : Clear seq n last) : Clear seq (n + 1) last :=
  fun i least most => clear i (by omega) most

/-- One command that is done, with the loop over its banks. -/
theorem searchLoop_step {n : Nat} {s : Dump} {rsp : BitVec 32} (flag : s.flag = false)
    (answered : (seq n).response = some rsp) (fuel : Nat) :
    searchLoop port cb seq (fuel + 1) n s =
      if banksOf rsp = 0 then some (leave (fdbCmd (seq n).response s))
      else searchLoop port cb seq fuel (n + 1)
        (bankLoop port cb (seq n).shows (fdbCmd (seq n).response s)) := by
  rw [searchLoop, if_neg (by simp [flag]), answered]
  rfl

/-- What the command and the loop over its banks add to the calls. -/
theorem step_good {n : Nat} {s : Dump} {rsp : BitVec 32}
    (answered : (seq n).response = some rsp) :
    Good (bankLoop port cb (seq n).shows (fdbCmd (seq n).response s)) ↔
      Good s ∧ ∀ j, s.reports.length ≤ j → j < (s.reports ++ reportsOf port (seq n)).length →
        0 ≤ cb j := by
  rw [bankLoop_good, fdbCmd_good, bankLoop_reports port cb s answered, answered]
  simp [fdbCmd]

theorem step_flag {n : Nat} {s : Dump} {rsp : BitVec 32} (answered : (seq n).response = some rsp) :
    (bankLoop port cb (seq n).shows (fdbCmd (seq n).response s)).flag =
      decide ((indexOf rsp).toNat = cnt - 1) := by
  rw [bankLoop_flag, answered]
  rfl

/-- A search whose commands are done reports their entries, and ends. -/
theorem searchLoop_clear (k : Nat) {n : Nat} {s : Dump} (flag : s.flag = false)
    (clear : Clear seq n (n + k)) :
    ∃ r, (∃ fuel, searchLoop port cb seq fuel n s = some r) ∧
      r.reports = s.reports ++ (List.range' n (k + 1)).flatMap (fun i => reportsOf port (seq i)) ∧
      (Good r ↔ Good s ∧ ∀ j, s.reports.length ≤ j → j < r.reports.length → 0 ≤ cb j) := by
  induction k generalizing n s with
  | zero =>
    obtain ⟨rsp, answered, ends⟩ := clear n (by omega) (by omega)
    by_cases miss : banksOf rsp = 0
    · refine ⟨leave (fdbCmd (seq n).response s),
        ⟨1, by rw [searchLoop_step port cb flag answered, if_pos miss]⟩, ?_, ?_⟩
      · simp [reportsOf_none port answered miss, leave, fdbCmd]
      · have same : Good (leave (fdbCmd (seq n).response s)) ↔
            Good (fdbCmd (seq n).response s) := Iff.rfl
        have length : (leave (fdbCmd (seq n).response s)).reports = s.reports := rfl
        rw [same, fdbCmd_good, length, answered]
        simp only [Option.isSome_some, and_true]
        exact ⟨fun good => ⟨good, fun j least most => by omega⟩, And.left⟩
    · have last : (indexOf rsp).toNat = cnt - 1 := (ends.mpr rfl).resolve_right miss
      have over_ := step_flag port cb (s := s) answered
      refine ⟨leave (bankLoop port cb (seq n).shows (fdbCmd (seq n).response s)), ⟨2, ?_⟩, ?_, ?_⟩
      · rw [searchLoop_step port cb flag answered, if_neg miss, searchLoop,
          if_pos (by rw [over_]; exact decide_eq_true last)]
      · simp [leave, bankLoop_reports port cb s answered]
      · have same : Good (leave (bankLoop port cb (seq n).shows (fdbCmd (seq n).response s))) ↔
            Good (bankLoop port cb (seq n).shows (fdbCmd (seq n).response s)) := Iff.rfl
        rw [same, step_good port cb answered]
        simp [leave, bankLoop_reports port cb s answered]
  | succ k ih =>
    obtain ⟨rsp, answered, ends⟩ := clear n (by omega) (by omega)
    have goesOn : ¬ Over rsp := fun last => by
      have := ends.mp last
      omega
    have next : (bankLoop port cb (seq n).shows (fdbCmd (seq n).response s)).flag = false := by
      rw [step_flag port cb answered]
      exact decide_eq_false fun last => goesOn (.inl last)
    obtain ⟨r, ⟨fuel, ended⟩, reports, good⟩ := ih next (n := n + 1) (by
      rw [show n + 1 + k = n + (k + 1) by omega]
      exact clear.next)
    refine ⟨r, ⟨fuel + 1, ?_⟩, ?_, ?_⟩
    · rw [searchLoop_step port cb flag answered, if_neg fun miss => goesOn (.inr miss)]
      exact ended
    · rw [reports, bankLoop_reports port cb s answered, List.append_assoc]
      congr 1
    · rw [good, step_good port cb answered, bankLoop_reports port cb s answered]
      have less : (s.reports ++ reportsOf port (seq n)).length ≤ r.reports.length := by
        rw [reports, bankLoop_reports port cb s answered]
        simp
      constructor
      · rintro ⟨⟨before, first⟩, behind⟩
        refine ⟨before, fun j least most => ?_⟩
        by_cases early : j < (s.reports ++ reportsOf port (seq n)).length
        · exact first j least early
        · exact behind j (by omega) most
      · rintro ⟨before, calls⟩
        refine ⟨⟨before, fun j least most => calls j least (by omega)⟩, fun j least most => ?_⟩
        refine calls j ?_ most
        rw [List.length_append] at least
        omega

/-- A search that ends without an error has had its commands done. -/
theorem clear_of_good {fuel n : Nat} {s r : Dump} (flag : s.flag = false)
    (ended : searchLoop port cb seq fuel n s = some r) (good : Good r) :
    ∃ k, Clear seq n (n + k) := by
  induction fuel generalizing n s with
  | zero => cases ended
  | succ fuel ih =>
    cases answered : (seq n).response with
    | none =>
      exfalso
      rw [searchLoop, if_neg (by simp [flag])] at ended
      dsimp only at ended
      rw [answered] at ended
      have failed : ¬ Good (fdbCmd none s) := by simp [fdbCmd_good]
      split_ifs at ended with miss
      · cases ended
        exact failed good
      · have looped := searchLoop_good port cb seq ended good
        exact failed ((bankLoop_good port cb _ _).mp looped).1
    | some rsp =>
      by_cases last : Over rsp
      · exact ⟨0, fun i least most => ⟨rsp, by rw [show i = n by omega, answered],
          iff_of_true last (by omega)⟩⟩
      · rw [searchLoop_step port cb flag answered, if_neg fun miss => last (.inr miss)] at ended
        have next : (bankLoop port cb (seq n).shows (fdbCmd (seq n).response s)).flag = false := by
          rw [step_flag port cb answered]
          exact decide_eq_false fun index => last (.inl index)
        obtain ⟨k, clear⟩ := ih next ended
        refine ⟨k + 1, fun i least most => ?_⟩
        by_cases here : i = n
        · exact ⟨rsp, by rw [here, answered], iff_of_false last (by omega)⟩
        · rw [show n + (k + 1) = n + 1 + k by omega] at most ⊢
          exact clear i (by omega) most

/-- Another bound on the loop does not change what it leaves. -/
theorem searchLoop_unique {fuel fuel' n : Nat} {s r r' : Dump}
    (first : searchLoop port cb seq fuel n s = some r)
    (second : searchLoop port cb seq fuel' n s = some r') : r = r' := by
  induction fuel generalizing fuel' n s with
  | zero => cases first
  | succ fuel ih =>
    cases fuel' with
    | zero => cases second
    | succ fuel' =>
      unfold searchLoop at first second
      dsimp only at first second
      split_ifs at first second with flag miss
      · exact Option.some.inj (first.symm.trans second)
      · exact Option.some.inj (first.symm.trans second)
      · exact ih first second

/-- A first command that fails leaves no hit, so the dump is the search from the start. -/
theorem portFdbDump_eq (fuel : Nat) :
    portFdbDump port cb seq fuel =
      searchLoop port cb seq (fuel + 1) 0 ⟨0, false, 0, true, [], [], []⟩ := by
  unfold portFdbDump
  rw [searchLoop]
  cases (seq 0).response with
  | none => rfl
  | some rsp => rfl

end Search

section Table

variable {port : Nat} {seq : Nat → Answer} {table : Nat → Nat → Regs} {hits : Nat → BitVec 32}

/-- The entries of a port in a line of the table -/
def lineEntries (table : Nat → Nat → Regs) (port line : Nat) : List Report :=
  (List.range num).filterMap fun i => reported port (table line i)

theorem mem_linesHit (hits : Nat → BitVec 32) {line : Nat} :
    line ∈ linesHit hits ↔ line < cnt ∧ hits line ≠ 0 := by
  simp [linesHit]

theorem linesHit_sorted (hits : Nat → BitVec 32) : (linesHit hits).Pairwise (· < ·) :=
  List.Pairwise.filter _ List.pairwise_lt_range

/-- Lines without a hit have no entry to report. -/
theorem entries_eq (searched : Searched table port hits seq) :
    entries table port = (linesHit hits).flatMap (lineEntries table port) := by
  have miss (line : Nat) (inside : line < cnt) (none_ : hits line = 0) :
      lineEntries table port line = [] := by
    apply List.filterMap_eq_nil_iff.mpr
    intro i member
    by_contra some_
    have hit := searched.covers line inside i (List.mem_range.mp member)
      (Option.isSome_iff_ne_none.mpr some_)
    rw [none_] at hit
    simp at hit
  have lines (lines : List Nat) (inside : ∀ line ∈ lines, line < cnt) :
      lines.flatMap (lineEntries table port) =
        (lines.filter fun line => hits line ≠ 0).flatMap (lineEntries table port) := by
    induction lines with
    | nil => rfl
    | cons line lines ih =>
      have behind := ih fun line member => inside line (by simp [member])
      by_cases hit : hits line = 0
      · simp [hit, behind, miss line (inside line (by simp)) hit]
      · rw [List.filter_cons_of_pos (by simpa using hit), List.flatMap_cons, List.flatMap_cons,
          behind]
  exact lines (List.range cnt) fun line member => List.mem_range.mp member

/-- What is reported of the answer for a line -/
theorem reportsOf_line (searched : Searched table port hits seq) {n line : Nat} {rsp : BitVec 32}
    (answered : (seq n).response = some rsp)
    (before : ∀ i < n, (seq i).response.isSome = true) (here : (linesHit hits)[n]? = some line) :
    reportsOf port (seq n) = lineEntries table port line := by
  obtain ⟨-, banks, shows⟩ := searched.line n rsp answered before line here
  have inside := ((mem_linesHit hits).mp (List.mem_of_getElem? here)).1
  unfold reportsOf lineEntries
  rw [answered, Option.getD_some, banks, shows]
  apply List.filterMap_congr
  intro i member
  by_cases hit : (hits line).getLsbD i = true
  · rw [if_pos hit]
  · rw [if_neg hit]
    by_contra some_
    exact hit (searched.covers line inside i (List.mem_range.mp member)
      (Option.isSome_iff_ne_none.mpr (Ne.symm some_)))

/-- A line that is not the last with a hit is not the last of the table. -/
theorem line_behind {n line : Nat} (here : (linesHit hits)[n]? = some line)
    (last : line = cnt - 1) : (linesHit hits).length = n + 1 := by
  obtain ⟨within, value⟩ := List.getElem?_eq_some_iff.mp here
  by_contra more
  have next : n + 1 < (linesHit hits).length := by omega
  have sorted := linesHit_sorted hits
  have greater := List.pairwise_iff_getElem.mp sorted n (n + 1) within next (by omega)
  have inside := (mem_linesHit hits).mp (List.getElem_mem next)
  omega

/-- The answers of a search that ends report the entries of the table. -/
theorem reports_searched (searched : Searched table port hits seq) {last : Nat}
    (clear : Clear seq 0 last) :
    (List.range' 0 (last + 1)).flatMap (fun i => reportsOf port (seq i)) = entries table port := by
  have before (n : Nat) (within : n ≤ last) : ∀ i < n, (seq i).response.isSome = true := by
    intro i less
    obtain ⟨rsp, answered, -⟩ := clear i (by omega) (by omega)
    rw [answered]
    rfl
  have lines (m : Nat) (within : m ≤ last + 1) (hit : m ≤ (linesHit hits).length) :
      (List.range' 0 m).flatMap (fun i => reportsOf port (seq i)) =
        ((linesHit hits).take m).flatMap (lineEntries table port) := by
    induction m with
    | zero => rfl
    | succ m ih =>
      obtain ⟨rsp, answered, -⟩ := clear m (by omega) (by omega)
      have here : (linesHit hits)[m]? = some (linesHit hits)[m] := List.getElem?_eq_getElem (by omega)
      rw [List.range'_concat, List.flatMap_append, ih (by omega) (by omega),
        List.take_succ_eq_append_getElem (by omega), List.flatMap_append, List.flatMap_singleton,
        List.flatMap_singleton, Nat.zero_add, Nat.one_mul,
        reportsOf_line searched answered (before m (by omega)) here]
  rw [entries_eq searched]
  by_cases short : last < (linesHit hits).length
  · obtain ⟨rsp, answered, ends⟩ := clear last (by omega) (by omega)
    have here : (linesHit hits)[last]? = some (linesHit hits)[last] :=
      List.getElem?_eq_getElem short
    obtain ⟨index, banks, -⟩ := searched.line last rsp answered (before last (by omega)) _ here
    have hit := ((mem_linesHit hits).mp (List.getElem_mem short)).2
    have index_ : (indexOf rsp).toNat = cnt - 1 := by
      rcases ends.mpr rfl with index | miss
      · exact index
      · rw [banks] at miss
        exact absurd miss hit
    have length := line_behind here (index.symm.trans index_)
    rw [lines (last + 1) (by omega) (by omega), List.take_of_length_le (by omega)]
  · have end_ : (linesHit hits)[(linesHit hits).length]? = none := by simp
    obtain ⟨rsp, answered, ends⟩ := clear (linesHit hits).length (by omega) (by omega)
    have miss := searched.behind _ rsp answered (before _ (by omega)) end_
    have same := ends.mp (.inr miss)
    rw [← same, List.range'_concat, List.flatMap_append, lines _ (by omega) (by omega),
      List.take_of_length_le (by omega)]
    simp [reportsOf_none port answered miss]

end Table

section Settled

/-- The dump of the address table is right exactly when nothing fails until the search is over. -/
theorem dumped_iff (port : Nat) (cb : Nat → Int) (seq : Nat → Answer) :
    (∃ fuel s, portFdbDump port cb seq fuel = some s ∧ Dumped port seq s) ↔
      Unfailing port cb seq := by
  have fresh : Good ⟨0, false, 0, true, [], [], []⟩ := ⟨by simp, by simp⟩
  constructor
  · rintro ⟨fuel, s, ended, dumped⟩
    rw [portFdbDump_eq] at ended
    obtain ⟨-, ret⟩ := searchLoop_leaves port cb seq ended
    have good : Good s := by
      have none_ : ¬ ∃ x ∈ s.commands ++ s.callbacks, x < 0 := fun bad => by
        have := dumped.told bad
        omega
      constructor
      · intro x member
        by_contra bad
        exact none_ ⟨x, List.mem_append_left _ member, by omega⟩
      · intro x member
        by_contra bad
        exact none_ ⟨x, List.mem_append_right _ member, by omega⟩
    obtain ⟨last, clear⟩ := clear_of_good port cb rfl ended good
    rw [Nat.zero_add] at clear
    obtain ⟨r, ⟨fuel', ended'⟩, reports, calls⟩ := searchLoop_clear port cb last
      (s := ⟨0, false, 0, true, [], [], []⟩) rfl (by rw [Nat.zero_add]; exact clear)
    rw [searchLoop_unique port cb ended ended'] at good
    refine ⟨last, fun n within => clear n (by omega) within, fun j less => ?_⟩
    apply (calls.mp good).2 j (by simp)
    rw [reports, List.nil_append, ← List.range_eq_range']
    exact less
  · rintro ⟨last, done, calls⟩
    have clear : Clear seq 0 last := fun i _ within => done i within
    obtain ⟨r, ⟨fuel, ended⟩, reports, good⟩ := searchLoop_clear port cb last
      (s := ⟨0, false, 0, true, [], [], []⟩) rfl (by rw [Nat.zero_add]; exact clear)
    obtain ⟨unlocked, ret⟩ := searchLoop_leaves port cb seq ended
    have fine : Good r := by
      refine good.mpr ⟨fresh, fun j _ less => calls j ?_⟩
      rw [reports, List.nil_append, ← List.range_eq_range'] at less
      exact less
    obtain ⟨first, second⟩ := fine
    obtain ⟨fuel, ended⟩ : ∃ fuel', searchLoop port cb seq (fuel' + 1) 0
        ⟨0, false, 0, true, [], [], []⟩ = some r := by
      cases fuel with
      | zero => cases ended
      | succ fuel => exact ⟨fuel, ended⟩
    refine ⟨fuel, r, by rw [portFdbDump_eq, ended], unlocked, fun _ table hits searched => ?_, ?_⟩
    · rw [reports, List.nil_append, reports_searched searched clear]
    · rintro ⟨x, member, bad⟩
      rcases List.mem_append.mp member with old | new
      · have := first x old
        omega
      · have := second x new
        omega

/-- The first command is not done in time, and the dump returns 0. -/
theorem start_failure_lost :
    let seq : Nat → Answer := fun _ => ⟨none, fun _ _ => 0⟩
    ∃ s, portFdbDump 0 (fun _ => 0) seq 0 = some s ∧ s.ret = 0 ∧ s.commands = [-110] ∧
      ¬ Dumped 0 seq s := by
  refine ⟨_, rfl, rfl, rfl, fun dumped => ?_⟩
  exact absurd (dumped.told ⟨-110, by decide, by decide⟩) (by decide)

end Settled

end Filogic.Dsa.FdbDump
