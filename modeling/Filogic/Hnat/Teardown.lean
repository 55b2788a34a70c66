import Filogic.Hnat.Netdev

/-! The array of external interfaces, slot by slot: a null-terminated array of pointers that
`ext_if_del` closes up, and the two loops that empty it by index while it does. -/

namespace Filogic.Hnat
open Lib

/-- `ext_if[]` and the entries by pointer, the two ports, the calls of `dev_hold` and `dev_put`, and
those of `kfree` on entries. -/
structure ExtIfs where
  extIf : Nat → Option Nat
  name : Nat → Name
  dev : Nat → Option Nat
  gPpdev : Option Nat
  gWandev : Option Nat
  holds : List Nat
  puts : List Nat
  freed : List Nat

/-- The loop of `get_ext_device_number` from slot `i` on. -/
def extDeviceNumberFrom (extIf : Nat → Option Nat) : (left i : Nat) → Nat
  | 0, i => i
  | left + 1, i =>
    match extIf i with
    | none => i
    | some _ => extDeviceNumberFrom extIf left (i + 1)

/-- `get_ext_device_number` -/
def getExtDeviceNumber (extIf : Nat → Option Nat) : Nat := extDeviceNumberFrom extIf maxExtDevs 0

/-- `ext_if_add` -/
def extIfAddPtr (entry : Nat) (s : ExtIfs) : ExtIfs :=
  let len := getExtDeviceNumber s.extIf
  if len < maxExtDevs then { s with extIf := Function.update s.extIf len (some entry) } else s

/-- The inner loop of `ext_if_del` from slot `j` on, with `left` slots before the last one. -/
def shiftDown : (left j : Nat) → (Nat → Option Nat) → Nat → Option Nat
  | 0, j, extIf => Function.update extIf j none
  | left + 1, j, extIf =>
    match extIf j with
    | none => Function.update extIf j none
    | some _ => shiftDown left (j + 1) (Function.update extIf j (extIf (j + 1)))

/-- The outer loop of `ext_if_del` from slot `i` on. -/
def extIfDelFrom (entry : Nat) : (left i : Nat) → (Nat → Option Nat) → Nat → Option Nat
  | 0, _, extIf => extIf
  | left + 1, i, extIf =>
    if extIf i = some entry then shiftDown (maxExtDevs - 1 - i) i extIf
    else extIfDelFrom entry left (i + 1) extIf

/-- `ext_if_del` -/
def extIfDel (entry : Nat) (s : ExtIfs) : ExtIfs :=
  { s with extIf := extIfDelFrom entry maxExtDevs 0 s.extIf }

/-- The first entry before the end of the array that meets a test. -/
def findExtIf (extIf : Nat → Option Nat) (test : Nat → Bool) : (left i : Nat) → Option Nat
  | 0, _ => none
  | left + 1, i =>
    match extIf i with
    | none => none
    | some entry => if test entry then some entry else findExtIf extIf test left (i + 1)

/-- `extif_set_dev` -/
def extifSetDevPtr (dev : Nat) (name : Name) (s : ExtIfs) : ExtIfs :=
  match findExtIf s.extIf (fun e => s.name e = name ∧ s.dev e = none) maxExtDevs 0 with
  | some e => { s with dev := Function.update s.dev e (some dev), holds := s.holds ++ [dev] }
  | none => s

/-- `extif_put_dev` -/
def extifPutDevPtr (dev : Nat) (s : ExtIfs) : ExtIfs :=
  match findExtIf s.extIf (fun e => s.dev e = some dev) maxExtDevs 0 with
  | some e => { s with dev := Function.update s.dev e none, puts := s.puts ++ [dev] }
  | none => s

/-- The loop of `hnat_release_netdev` and the one at `err_out1` of `hnat_probe`, from slot `i` on;
only the first drops the references. -/
def emptyExtIf (drops : Bool) : (left i : Nat) → ExtIfs → ExtIfs
  | 0, _, s => s
  | left + 1, i, s =>
    match s.extIf i with
    | none => s
    | some entry =>
      let s := if drops then { s with puts := s.puts ++ (s.dev entry).toList } else s
      let s := extIfDel entry s
      emptyExtIf drops left (i + 1) { s with freed := s.freed ++ [entry] }

/-- `hnat_release_netdev` -/
def hnatReleaseNetdev (s : ExtIfs) : ExtIfs :=
  let s := emptyExtIf true maxExtDevs 0 s
  { s with puts := s.puts ++ s.gPpdev.toList ++ s.gWandev.toList }

/-- `hnat_probe` from the label `err_out1` on -/
def probeErrOut1 (s : ExtIfs) : ExtIfs := emptyExtIf false maxExtDevs 0 s

/-- A compact array. -/
def packed (entries : List Nat) : Nat → Option Nat := fun k => entries[k]?

/-- What a teardown shall have done: each entry is freed once, each device that an entry or a port
held is put once, and no slot is left. -/
structure TornDown (entries : List Nat) (before after : ExtIfs) : Prop where
  freed : after.freed.Perm (before.freed ++ entries)
  puts : after.puts.Perm (before.puts ++ entries.filterMap before.dev ++
    before.gPpdev.toList ++ before.gWandev.toList)
  empty : ∀ k, after.extIf k = none

/-- A call that changes the array or its entries. -/
inductive ExtIfEvent where
  | add (entry : Nat)
  | del (entry : Nat)
  | setDev (dev : Nat) (name : Name)
  | putDev (dev : Nat)

def extIfStep (s : ExtIfs) : ExtIfEvent → ExtIfs
  | .add entry => extIfAddPtr entry s
  | .del entry => extIfDel entry s
  | .setDev dev name => extifSetDevPtr dev name s
  | .putDev dev => extifPutDevPtr dev s

/-- The entries that were added and not deleted since, in the order of their addition. -/
def record (owned : List Nat) : ExtIfEvent → List Nat
  | .add entry => owned ++ [entry]
  | .del entry => owned.erase entry
  | .setDev _ _ | .putDev _ => owned

/-- The array while the slots from `i` up to `j` have moved down by one. -/
def shifted (entries : List Nat) (i j : Nat) : Nat → Option Nat :=
  fun k => if k < i ∨ j ≤ k then entries[k]? else entries[k + 1]?

theorem update_shifted (entries : List Nat) (i j : Nat) (reached : i ≤ j) :
    Function.update (shifted entries i j) j entries[j + 1]? = shifted entries i (j + 1) := by
  funext k
  by_cases at_ : k = j
  · rw [at_, Function.update_self, shifted, if_neg (by omega)]
  · rw [Function.update_of_ne at_]
    unfold shifted
    congr 1
    apply propext
    omega

theorem shifted_end (entries : List Nat) (i j : Nat) (reached : i ≤ j)
    (past : entries.length ≤ j + 1) :
    Function.update (shifted entries i j) j none = packed (entries.eraseIdx i) := by
  funext k
  rw [packed, List.getElem?_eraseIdx]
  have beyond (n : Nat) (high : j + 1 ≤ n) : entries[n]? = none :=
    List.getElem?_eq_none_iff.mpr (past.trans high)
  by_cases at_ : k = j
  · rw [at_, Function.update_self, if_neg (by omega), beyond (j + 1) (le_refl _)]
  · rw [Function.update_of_ne at_, shifted]
    by_cases low : k < i
    · rw [if_pos (Or.inl low), if_pos low]
    · rw [if_neg low]
      by_cases high : j ≤ k
      · rw [if_pos (Or.inr high), beyond k (by omega), beyond (k + 1) (by omega)]
      · rw [if_neg (by omega)]

theorem shiftDown_shifted (entries : List Nat) (short : entries.length ≤ maxExtDevs)
    (i left j : Nat) (count : left + j = maxExtDevs - 1) (reached : i ≤ j) :
    shiftDown left j (shifted entries i j) = packed (entries.eraseIdx i) := by
  have slot : shifted entries i j j = entries[j]? := if_pos (Or.inr (le_refl j))
  induction left generalizing j with
  | zero =>
    apply shifted_end entries i j reached
    unfold maxExtDevs at *
    omega
  | succ left ih =>
    rw [shiftDown, slot]
    rcases found : entries[j]? with _ | entry
    · have past := List.getElem?_eq_none_iff.mp found
      exact shifted_end entries i j reached (by omega)
    · have next : shifted entries i j (j + 1) = entries[j + 1]? := if_pos (Or.inr (by omega))
      dsimp only
      rw [next, update_shifted entries i j reached]
      exact ih (j + 1) (by omega) (by omega) (if_pos (Or.inr (le_refl _)))

/-- `ext_if_del` on a compact array takes the first occurrence of the pointer out of it. -/
theorem extIfDelFrom_packed (entries : List Nat) (short : entries.length ≤ maxExtDevs)
    (entry left i : Nat) (count : left + i = maxExtDevs) (before : entry ∉ entries.take i) :
    extIfDelFrom entry left i (packed entries) = packed (entries.erase entry) := by
  induction left generalizing i with
  | zero =>
    rw [List.take_of_length_le (by omega)] at before
    rw [List.erase_of_not_mem before]
    rfl
  | succ left ih =>
    rw [extIfDelFrom]
    split_ifs with found
    · have here : entries[i]? = some entry := found
      obtain ⟨below, at_⟩ := List.getElem?_eq_some_iff.mp here
      have parts : entries = entries.take i ++ entry :: entries.drop (i + 1) := by
        rw [← at_, ← List.drop_eq_getElem_cons below, List.take_append_drop]
      have first : entries.idxOf entry = i := by
        rw [parts, List.idxOf_append, if_neg before, List.idxOf_cons_self, List.length_take]
        omega
      have start : packed entries = shifted entries i i := by
        funext k
        exact (if_pos (by omega)).symm
      rw [start, shiftDown_shifted entries short i _ i (by omega) (le_refl i),
        List.erase_eq_eraseIdx_of_idxOf first]
    · apply ih (i + 1) (by omega)
      rw [List.take_add_one, List.mem_append]
      rintro (early | last)
      · exact before early
      · exact found (Option.mem_toList.mp last)

theorem extIfDel_packed (entries : List Nat) (short : entries.length ≤ maxExtDevs) (entry : Nat)
    (s : ExtIfs) (array : s.extIf = packed entries) :
    (extIfDel entry s).extIf = packed (entries.erase entry) := by
  change extIfDelFrom entry maxExtDevs 0 s.extIf = _
  rw [array]
  exact extIfDelFrom_packed entries short entry maxExtDevs 0 rfl (by simp)

theorem extDeviceNumberFrom_packed (entries : List Nat) (left i : Nat)
    (count : left + i = maxExtDevs) (short : entries.length ≤ maxExtDevs)
    (reached : i ≤ entries.length) :
    extDeviceNumberFrom (packed entries) left i = entries.length := by
  induction left generalizing i with
  | zero =>
    rw [extDeviceNumberFrom]
    omega
  | succ left ih =>
    rw [extDeviceNumberFrom]
    rcases found : packed entries i with _ | entry
    · have past := List.getElem?_eq_none_iff.mp found
      dsimp only
      omega
    · obtain ⟨below, -⟩ := List.getElem?_eq_some_iff.mp found
      exact ih (i + 1) (by omega) (by omega)

theorem extIfAddPtr_packed (entries : List Nat) (short : entries.length ≤ maxExtDevs) (entry : Nat)
    (s : ExtIfs) (array : s.extIf = packed entries) :
    (extIfAddPtr entry s).extIf =
      if entries.length < maxExtDevs then packed (entries ++ [entry]) else packed entries := by
  have number : getExtDeviceNumber s.extIf = entries.length := by
    rw [getExtDeviceNumber, array]
    exact extDeviceNumberFrom_packed entries maxExtDevs 0 rfl short (Nat.zero_le _)
  unfold extIfAddPtr
  rw [number]
  dsimp only
  split_ifs with room
  · rw [array]
    funext k
    unfold packed
    dsimp only
    rcases Nat.lt_trichotomy k entries.length with low | rfl | high
    · rw [Function.update_of_ne (by omega), List.getElem?_append_left low]
    · rw [Function.update_self, List.getElem?_concat_length]
    · rw [Function.update_of_ne (by omega), List.getElem?_eq_none_iff.mpr (by omega),
        List.getElem?_eq_none_iff.mpr (by simp; omega)]
  · exact array

/-- The array is compact and holds the owned entries, each of them once. -/
def Tidy (s : ExtIfs) (owned : List Nat) : Prop :=
  s.extIf = packed owned ∧ owned.Nodup ∧ owned.length ≤ maxExtDevs

/-- An addition is of an entry that is not in the array and finds room. -/
def RoomFor (owned : List Nat) : ExtIfEvent → Prop
  | .add entry => entry ∉ owned ∧ owned.length < maxExtDevs
  | .del _ | .setDev _ _ | .putDev _ => True

/-- The array beside the list of what was added and not deleted. -/
def tidyStep (s : ExtIfs × List Nat) (event : ExtIfEvent) : ExtIfs × List Nat :=
  (extIfStep s.1 event, record s.2 event)

theorem tidy_step_iff (s : ExtIfs × List Nat) (event : ExtIfEvent) (tidy : Tidy s.1 s.2) :
    RoomFor s.2 event ↔ Tidy (tidyStep s event).1 (tidyStep s event).2 := by
  obtain ⟨array, nodup, short⟩ := tidy
  cases event with
  | add entry =>
    have after := extIfAddPtr_packed s.2 short entry s.1 array
    constructor
    · rintro ⟨fresh, room⟩
      rw [if_pos room] at after
      refine ⟨after, ?_, ?_⟩
      · exact List.nodup_append.mpr ⟨nodup, List.nodup_singleton entry, by
          intro a old b new
          rw [List.mem_singleton.mp new]
          rintro rfl
          exact fresh old⟩
      · change (s.2 ++ [entry]).length ≤ maxExtDevs
        rw [List.length_append, List.length_singleton]
        exact room
    · rintro ⟨-, nodup', short'⟩
      constructor
      · intro old
        exact (List.disjoint_of_nodup_append nodup') old (List.mem_singleton_self entry)
      · have length : (s.2 ++ [entry]).length ≤ maxExtDevs := short'
        rw [List.length_append, List.length_singleton] at length
        exact length
  | del entry =>
    apply iff_of_true trivial
    refine ⟨extIfDel_packed s.2 short entry s.1 array, nodup.erase entry, ?_⟩
    exact (List.length_erase_le).trans short
  | setDev dev name =>
    apply iff_of_true trivial
    have same : (extifSetDevPtr dev name s.1).extIf = s.1.extIf := by
      unfold extifSetDevPtr
      split <;> rfl
    exact ⟨same.trans array, nodup, short⟩
  | putDev dev =>
    apply iff_of_true trivial
    have same : (extifPutDevPtr dev s.1).extIf = s.1.extIf := by
      unfold extifPutDevPtr
      split <;> rfl
    exact ⟨same.trans array, nodup, short⟩

/-- One round of the emptying loop. -/
def emptyRound (drops : Bool) (entry : Nat) (s : ExtIfs) : ExtIfs :=
  let s := if drops then { s with puts := s.puts ++ (s.dev entry).toList } else s
  { extIfDel entry s with freed := s.freed ++ [entry] }

theorem emptyRound_packed (drops : Bool) (entries : List Nat)
    (short : entries.length ≤ maxExtDevs) (entry : Nat) (s : ExtIfs)
    (array : s.extIf = packed entries) :
    (emptyRound drops entry s).extIf = packed (entries.erase entry) := by
  cases drops <;> exact extIfDel_packed entries short entry _ array

/-- Once the index has left zero, something stays in the array. -/
theorem emptyExtIf_leaves (drops : Bool) (left i : Nat) (entries : List Nat)
    (short : entries.length ≤ maxExtDevs) (s : ExtIfs) (array : s.extIf = packed entries)
    (some_ : entries ≠ []) (moved : 0 < i) :
    ∃ entry, (emptyExtIf drops left i s).extIf 0 = some entry := by
  induction left generalizing i entries s with
  | zero =>
    obtain ⟨entry, rest, rfl⟩ := List.exists_cons_of_ne_nil some_
    exact ⟨entry, by rw [emptyExtIf, array]; rfl⟩
  | succ left ih =>
    rw [emptyExtIf]
    rcases found : s.extIf i with _ | entry
    · obtain ⟨entry, rest, rfl⟩ := List.exists_cons_of_ne_nil some_
      exact ⟨entry, by dsimp only; rw [array]; rfl⟩
    · rw [array] at found
      obtain ⟨below, at_⟩ := List.getElem?_eq_some_iff.mp found
      have member : entry ∈ entries := at_ ▸ List.getElem_mem below
      have length := List.length_erase_of_mem member
      have some' : entries.erase entry ≠ [] := by
        intro none_
        rw [none_, List.length_nil] at length
        omega
      exact ih (i + 1) (entries.erase entry) (List.length_erase_le.trans short)
        (emptyRound drops entry s) (emptyRound_packed drops entries short entry s array) some'
        (Nat.succ_pos i)

theorem emptyExtIf_two (drops : Bool) (first second : Nat) (rest : List Nat)
    (short : (first :: second :: rest).length ≤ maxExtDevs) (s : ExtIfs)
    (array : s.extIf = packed (first :: second :: rest)) :
    ∃ entry, (emptyExtIf drops maxExtDevs 0 s).extIf 0 = some entry := by
  have found : s.extIf 0 = some first := by
    rw [array]
    rfl
  have round : emptyExtIf drops maxExtDevs 0 s =
      emptyExtIf drops (maxExtDevs - 1) 1 (emptyRound drops first s) := by
    change emptyExtIf drops (maxExtDevs - 1 + 1) 0 s = _
    rw [emptyExtIf, found]
    rfl
  have array' := emptyRound_packed drops _ short first s array
  rw [List.erase_cons_head] at array'
  rw [round]
  exact emptyExtIf_leaves drops _ 1 (second :: rest)
    ((Nat.le_succ _).trans short) _ array' (List.cons_ne_nil second rest) Nat.one_pos

theorem emptyExtIf_none (drops : Bool) (s : ExtIfs) (array : s.extIf = packed []) :
    emptyExtIf drops maxExtDevs 0 s = s := by
  have found : s.extIf 0 = none := by
    rw [array]
    rfl
  change emptyExtIf drops (maxExtDevs - 1 + 1) 0 s = s
  rw [emptyExtIf, found]

theorem emptyExtIf_one (drops : Bool) (entry : Nat) (s : ExtIfs)
    (array : s.extIf = packed [entry]) :
    emptyExtIf drops maxExtDevs 0 s = emptyRound drops entry s ∧
      ∀ k, (emptyRound drops entry s).extIf k = none := by
  have found : s.extIf 0 = some entry := by
    rw [array]
    rfl
  have short : [entry].length ≤ maxExtDevs := Nat.le_of_ble_eq_true rfl
  have array' := emptyRound_packed drops [entry] short entry s array
  rw [List.erase_cons_head] at array'
  have empty : ∀ k, (emptyRound drops entry s).extIf k = none := by
    intro k
    rw [array']
    rfl
  constructor
  · change emptyExtIf drops (maxExtDevs - 2 + 1 + 1) 0 s = _
    rw [emptyExtIf, found]
    change emptyExtIf drops (maxExtDevs - 2 + 1) 1 (emptyRound drops entry s) = _
    rw [emptyExtIf, empty 1]
  · exact empty

/-- The removal tears the array down exactly if it has at most one entry. -/
theorem releaseNetdev_iff (entries : List Nat) (short : entries.length ≤ maxExtDevs) (s : ExtIfs)
    (array : s.extIf = packed entries) :
    entries.length ≤ 1 ↔ TornDown entries s (hnatReleaseNetdev s) := by
  match entries with
  | [] =>
    apply iff_of_true (Nat.zero_le 1)
    unfold hnatReleaseNetdev
    rw [emptyExtIf_none true s array]
    exact ⟨by simp, by simp, fun k => congrFun array k⟩
  | [entry] =>
    apply iff_of_true (le_refl 1)
    obtain ⟨loop, empty⟩ := emptyExtIf_one true entry s array
    unfold hnatReleaseNetdev
    rw [loop]
    refine ⟨List.Perm.refl _, ?_, empty⟩
    rcases holds : s.dev entry with _ | dev <;> simp [emptyRound, extIfDel, holds]
  | first :: second :: rest =>
    apply iff_of_false (by simp)
    intro down
    obtain ⟨entry, stays⟩ := emptyExtIf_two true first second rest short s array
    exact nomatch (down.empty 0).symm.trans stays

theorem no_puts_iff (puts devs : List Nat) (ppdev wandev : Option Nat) :
    puts.Perm (puts ++ devs ++ ppdev.toList ++ wandev.toList) ↔
      devs = [] ∧ ppdev = none ∧ wandev = none := by
  constructor
  · intro perm
    have lengths := perm.length_eq
    simp only [List.length_append] at lengths
    refine ⟨List.length_eq_zero_iff.mp (by omega), ?_, ?_⟩
    · exact Option.toList_eq_nil_iff.mp (List.length_eq_zero_iff.mp (by omega))
    · exact Option.toList_eq_nil_iff.mp (List.length_eq_zero_iff.mp (by omega))
  · rintro ⟨rfl, rfl, rfl⟩
    simp

/-- The error path of the probe does so exactly if, besides, nothing is held. -/
theorem probeErrOut1_iff (entries : List Nat) (short : entries.length ≤ maxExtDevs) (s : ExtIfs)
    (array : s.extIf = packed entries) :
    (entries.length ≤ 1 ∧ (∀ entry ∈ entries, s.dev entry = none) ∧ s.gPpdev = none ∧
      s.gWandev = none) ↔ TornDown entries s (probeErrOut1 s) := by
  have held : (∀ entry ∈ entries, s.dev entry = none) ↔ entries.filterMap s.dev = [] :=
    List.filterMap_eq_nil_iff.symm
  rw [held]
  match entries with
  | [] =>
    unfold probeErrOut1
    rw [emptyExtIf_none false s array]
    constructor
    · rintro ⟨-, nothing⟩
      exact ⟨by simp, (no_puts_iff s.puts _ _ _).mpr nothing, fun k => congrFun array k⟩
    · intro down
      exact ⟨Nat.zero_le 1, (no_puts_iff s.puts _ _ _).mp down.puts⟩
  | [entry] =>
    obtain ⟨loop, empty⟩ := emptyExtIf_one false entry s array
    unfold probeErrOut1
    rw [loop]
    constructor
    · rintro ⟨-, nothing⟩
      exact ⟨List.Perm.refl _, (no_puts_iff s.puts _ _ _).mpr nothing, empty⟩
    · intro down
      exact ⟨le_refl 1, (no_puts_iff s.puts _ _ _).mp down.puts⟩
  | first :: second :: rest =>
    apply iff_of_false (by simp)
    intro down
    obtain ⟨entry, stays⟩ := emptyExtIf_two false first second rest short s array
    exact nomatch (down.empty 0).symm.trans stays

/-- The array as `hnat_probe` gets it. -/
def noExtIfs (s : ExtIfs) : ExtIfs × List Nat := ({ s with extIf := packed [] }, [])

/-- Where the interface array is kept and emptied right: the two teardowns, for any content; and
additions, deletions and device events in any order, from an empty array on. -/
theorem extIfs_iff (s : ExtIfs) :
    (∀ entries : List Nat, entries.length ≤ maxExtDevs → s.extIf = packed entries →
      (entries.length ≤ 1 ↔ TornDown entries s (hnatReleaseNetdev s)) ∧
      ((entries.length ≤ 1 ∧ (∀ entry ∈ entries, s.dev entry = none) ∧ s.gPpdev = none ∧
        s.gWandev = none) ↔ TornDown entries s (probeErrOut1 s))) ∧
    ∀ events : List ExtIfEvent,
      Along tidyStep (fun s => RoomFor s.2) (noExtIfs s) events ↔
        ∀ early late, events = early ++ late →
          Tidy (run tidyStep (noExtIfs s) early).1 (run tidyStep (noExtIfs s) early).2 := by
  constructor
  · intro entries short array
    exact ⟨releaseNetdev_iff entries short s array, probeErrOut1_iff entries short s array⟩
  · intro events
    exact along_iff_prefixes tidyStep (fun s => RoomFor s.2) (fun s => Tidy s.1 s.2)
      (fun s event tidy => tidy_step_iff s event tidy) (noExtIfs s) events
      ⟨rfl, List.nodup_nil, Nat.zero_le _⟩

/-- The entries that the pointers of the array stand for. -/
def ExtIfs.entries (s : ExtIfs) (pointers : List Nat) : List ExtdevEntry :=
  pointers.map fun p => ⟨s.name p, s.dev p⟩

/-- The emptying loop, pointer by pointer, does what `releaseExtIf` does to the list of entries: it
leaves the same ones, and drops the references that it takes off. -/
theorem emptyExtIf_refines (left i : Nat) (pointers : List Nat)
    (short : pointers.length ≤ maxExtDevs) (nodup : pointers.Nodup) (s : ExtIfs) (t : HnatDevs)
    (array : s.extIf = packed pointers) (same : t.extIf = s.entries pointers) :
    ∃ rest dropped, (emptyExtIf true left i s).extIf = packed rest ∧
      (releaseExtIf left i t).extIf = s.entries rest ∧
      (emptyExtIf true left i s).puts = s.puts ++ dropped ∧
      ∀ d, (releaseExtIf left i t).refs d = t.refs d - dropped.count d := by
  induction left generalizing i pointers s t with
  | zero =>
    exact ⟨pointers, [], array, same, (List.append_nil _).symm, fun d => by simp [releaseExtIf]⟩
  | succ left ih =>
    have at_ : t.extIf[i]? = (s.extIf i).map fun p => ⟨s.name p, s.dev p⟩ := by
      rw [same, array, ExtIfs.entries, List.getElem?_map]
      rfl
    rw [emptyExtIf, releaseExtIf]
    rcases found : s.extIf i with _ | p
    · rw [found, Option.map_none] at at_
      rw [at_]
      exact ⟨pointers, [], array, same, (List.append_nil _).symm, fun d => by simp⟩
    · rw [found, Option.map_some] at at_
      rw [at_]
      rw [array] at found
      obtain ⟨below, here⟩ := List.getElem?_eq_some_iff.mp found
      have erased : pointers.erase p = pointers.eraseIdx i := by
        rw [← here]
        exact nodup.erase_getElem i below
      have array' := emptyRound_packed true pointers short p s array
      dsimp only
      obtain ⟨rest, dropped, extIf, list, puts, refs⟩ := ih (i + 1) (pointers.erase p)
        (List.length_erase_le.trans short) (nodup.erase p) (emptyRound true p s)
        { putIfAny (s.dev p) t with extIf := t.extIf.eraseIdx i } array'
        (by rw [erased, same]; exact List.eraseIdx_map ..)
      refine ⟨rest, (s.dev p).toList ++ dropped, extIf, list, ?_, ?_⟩
      · rw [← List.append_assoc]
        exact puts
      · intro d
        have first : (putIfAny (s.dev p) t).refs d = t.refs d - (s.dev p).toList.count d := by
          rw [putIfAny_refs]
          rcases s.dev p with _ | dev
          · rfl
          · simp [points, List.count_singleton]
        refine (refs d).trans ?_
        rw [List.count_append]
        push_cast
        rw [first]
        ring

/-- Two entries without a device. -/
def twoEntries : ExtIfs :=
  { extIf := packed [1, 2], name := fun _ => [], dev := fun _ => none, gPpdev := none
    gWandev := none, holds := [], puts := [], freed := [] }

theorem emptyExtIf_refines_two :
    let t : HnatDevs := ⟨true, [], [], twoEntries.entries [1, 2], [], none, none, fun _ => 0⟩
    ∃ rest dropped, (emptyExtIf true maxExtDevs 0 twoEntries).extIf = packed rest ∧
      (releaseExtIf maxExtDevs 0 t).extIf = twoEntries.entries rest ∧
      (emptyExtIf true maxExtDevs 0 twoEntries).puts = [] ++ dropped ∧
      ∀ d, (releaseExtIf maxExtDevs 0 t).refs d = 0 - dropped.count d :=
  emptyExtIf_refines maxExtDevs 0 [1, 2] (by decide) (by decide) twoEntries _ rfl rfl

theorem extIfs_iff_two :
    (TornDown [1] { twoEntries with extIf := packed [1] }
      (hnatReleaseNetdev { twoEntries with extIf := packed [1] })) ∧
    ¬TornDown [1, 2] twoEntries (hnatReleaseNetdev twoEntries) ∧
    Tidy (run tidyStep (noExtIfs twoEntries) [.add 1, .add 2, .putDev 0, .del 1]).1 [2] := by
  refine ⟨?_, ?_, ?_⟩
  · have one := (extIfs_iff { twoEntries with extIf := packed [1] }).1 [1] (by decide) rfl
    exact one.1.mp (by decide)
  · have two := (extIfs_iff twoEntries).1 [1, 2] (by decide) rfl
    exact fun down => absurd (two.1.mpr down) (by decide)
  · have tidy := ((extIfs_iff twoEntries).2 [.add 1, .add 2, .putDev 0, .del 1]).mp
      (by simp [Along, RoomFor, tidyStep, record, noExtIfs, maxExtDevs]) _ []
      (List.append_nil _).symm
    exact tidy

/-- The second entry is neither freed nor taken out. -/
theorem second_entry_stays : ¬∀ (s : ExtIfs) (entries : List Nat), entries.length ≤ maxExtDevs →
    s.extIf = packed entries → TornDown entries s (hnatReleaseNetdev s) := by
  intro all
  have gone := (all twoEntries [1, 2] (by decide) rfl).empty 0
  revert gone
  decide

end Filogic.Hnat
