import Filogic.Jffs2.Scanned
import Filogic.Lib.Loop

/-! `mtd_parse_jffs2data` on a block of any content: the loop with its 32 bit offset and with every
read of the buffer, and the blocks that it gets through. -/

namespace Filogic.Jffs2.Parsed
open Lib

/-- A number in the block; `none` stands for a read that leaves the `erasesize` bytes of `buf`. -/
def readAt (block : List UInt8) (ofs len : Nat) : Option Nat :=
  if ofs + len ≤ block.length then some (field block ofs len) else none

/-- `!strncmp(name, dir, n)` with the name in the block, whose bytes are read one after another. -/
def strncmp (block : List UInt8) : Nat → Nat → List UInt8 → Option Bool
  | 0, _, _ => some true
  | n + 1, p, dir => do
      let c ← block[p]?
      if c ≠ dir.headD 0 then return false
      else if c = 0 then return true
      else strncmp block n (p + 1) dir.tail

/-- `ofs` and the variables of the file. -/
structure Parse where
  ofs : Nat
  scan : Scan

section Loop

variable (dir block : List UInt8)

/-- `target_ino` after a dirent. -/
def targetIno (ofs : Nat) (st : Scan) : Option Nat :=
  if dir ≠ [] then do
    let pino ← readAt block (ofs + 12) 4
    if pino = 1 then
      let nsize ← readAt block (ofs + 28) 1
      let same ← strncmp block nsize (ofs + 40) dir
      if same then readAt block (ofs + 20) 4 else return st.targetIno
    else return st.targetIno
  else return st.targetIno

/-- What the loop takes from a dirent. -/
def parseDirent (ofs : Nat) (st : Scan) : Option Scan := do
  let target ← targetIno dir block ofs st
  let ino ← readAt block (ofs + 20) 4
  let version ← readAt block (ofs + 16) 4
  return ⟨target, max st.lastIno ino, max st.lastVersion version⟩

/-- A round of the loop of `mtd_parse_jffs2data`. -/
def parseRound (s : Parse) : Option (Round Parse Scan) :=
  if s.ofs < block.length then do
    let magic ← readAt block s.ofs 2
    if magic ≠ 0x1985 then return .over_ s.scan
    else
      let totlen ← readAt block (s.ofs + 4) 4
      let ofs := (s.ofs + padLen totlen) % 2 ^ 32
      let nodetype ← readAt block (s.ofs + 2) 2
      if nodetype = 0xe001 then
        let scan ← parseDirent dir block s.ofs s.scan
        return .on ⟨ofs, scan⟩
      else return .on ⟨ofs, s.scan⟩
  else return .over_ s.scan

/-- The scan comes to an end, all its reads are in the block, and each round moves on by a node
header at least. -/
def ScanEnds (st : Scan) : Prop :=
  (∃ result, Ends (fun s out => parseRound dir block s = some out) ⟨0, st⟩ result) ∧
    ∀ s, Relation.ReflTransGen (fun s s' => parseRound dir block s = some (.on s')) ⟨0, st⟩ s →
      (parseRound dir block s).isSome ∧
        ∀ s', parseRound dir block s = some (.on s') → s.ofs + 12 ≤ s'.ofs

end Loop

section Chain

variable (dir block : List UInt8)

/-- The places that the length fields lead to from the start of the block. -/
inductive Linked : Nat → Prop where
  | start : Linked 0
  | next {p : Nat} (here : Linked p) (inside : p < block.length)
      (isMagic : magic (block.drop p) = 0x1985) :
      Linked (p + (totlen (block.drop p) + 3) / 4 * 4)

/-- As far as the name is that of the directory, it lies in the block. -/
def NameFits (p : Nat) : Prop :=
  p + 29 ≤ block.length ∧ ∀ k < nsize (block.drop p),
    (∀ j < k, block[p + 40 + j]? = some (dir.getD j 0) ∧ dir.getD j 0 ≠ 0) →
      p + 40 + k < block.length

/-- A node whose length is that of a header at least, does not wrap, and whose fields lie in the
block. -/
structure NodeFits (p : Nat) : Prop where
  start : p + 2 ≤ block.length
  header : magic (block.drop p) = 0x1985 → p + 8 ≤ block.length ∧ 9 ≤ totlen (block.drop p) ∧
    p + (totlen (block.drop p) + 3) / 4 * 4 < 2 ^ 32
  dirent : magic (block.drop p) = 0x1985 → isDirent (block.drop p) →
    p + 24 ≤ block.length ∧ (dir ≠ [] → pino (block.drop p) = 1 → NameFits dir block p)

end Chain

section Reads

theorem field_drop (block : List UInt8) (p off len : Nat) :
    field (block.drop p) off len = field block (p + off) len := by
  rw [field, field, List.drop_drop]

theorem readAt_inside {block : List UInt8} {ofs len : Nat} (inside : ofs + len ≤ block.length) :
    readAt block ofs len = some (field block ofs len) := if_pos inside

theorem strncmp_on {block : List UInt8} {n p : Nat} {dir : List UInt8} {c : UInt8}
    (byte : block[p]? = some c) (same : c = dir.headD 0) (nonzero : c ≠ 0) :
    strncmp block (n + 1) p dir = strncmp block n (p + 1) dir.tail := by
  simp only [strncmp, byte, Option.bind_eq_bind, Option.bind_some]
  rw [if_neg (not_not_intro same), if_neg nonzero]

theorem strncmp_over {block : List UInt8} {n p : Nat} {dir : List UInt8} {c : UInt8}
    (byte : block[p]? = some c) (stops : ¬(c = dir.headD 0 ∧ c ≠ 0)) :
    strncmp block (n + 1) p dir = some (decide (c = dir.headD 0)) := by
  simp only [strncmp, byte, Option.bind_eq_bind, Option.bind_some]
  by_cases differ : c = dir.headD 0
  · have zero : c = 0 := by
      by_contra nonzero
      exact stops ⟨differ, nonzero⟩
    rw [if_neg (not_not_intro differ), if_pos zero, decide_eq_true differ]
    rfl
  · rw [if_pos differ, decide_eq_false differ]
    rfl

/-- The comparison reads up to the first difference, the first zero or the end of the name. -/
theorem strncmp_isSome (block : List UInt8) (n p : Nat) (dir : List UInt8) :
    (strncmp block n p dir).isSome ↔ ∀ k < n,
      (∀ j < k, block[p + j]? = some (dir.getD j 0) ∧ dir.getD j 0 ≠ 0) → p + k < block.length := by
  induction n generalizing p dir with
  | zero => simp [strncmp]
  | succ n ih =>
    have first : dir.getD 0 0 = dir.headD 0 := by cases dir <;> rfl
    have later : ∀ j, dir.getD (j + 1) 0 = dir.tail.getD j 0 := by
      intro j
      cases dir <;> simp
    cases byte : block[p]? with
    | none =>
      have out := List.getElem?_eq_none_iff.mp byte
      simp only [strncmp, byte]
      constructor
      · intro isSome
        cases isSome
      · intro fits
        have := fits 0 (by omega) (by simp)
        omega
    | some c =>
      obtain ⟨inside, -⟩ := List.getElem?_eq_some_iff.mp byte
      by_cases goes : c = dir.headD 0 ∧ c ≠ 0
      · rw [strncmp_on byte goes.1 goes.2, ih]
        have shift : ∀ j, block[p + (j + 1)]? = block[p + 1 + j]? := by
          intro j
          rw [show p + (j + 1) = p + 1 + j by omega]
        constructor
        · intro fits k less same
          cases k with
          | zero => exact inside
          | succ k =>
            have tail : ∀ j < k, block[p + 1 + j]? = some (dir.tail.getD j 0) ∧
                dir.tail.getD j 0 ≠ 0 := by
              intro j below
              have := same (j + 1) (by omega)
              rwa [later, shift] at this
            have := fits k (by omega) tail
            omega
        · intro fits k less same
          have whole : ∀ j < k + 1, block[p + j]? = some (dir.getD j 0) ∧ dir.getD j 0 ≠ 0 := by
            intro j below
            cases j with
            | zero =>
              rw [first, Nat.add_zero, byte, ← goes.1]
              exact ⟨rfl, goes.2⟩
            | succ j =>
              rw [later, shift]
              exact same j (by omega)
          have := fits (k + 1) (by omega) whole
          omega
      · rw [strncmp_over byte goes]
        refine ⟨fun _ => ?_, fun _ => rfl⟩
        intro k less same
        cases k with
        | zero => exact inside
        | succ k =>
          obtain ⟨equal, nonzero⟩ := same 0 (by omega)
          rw [first, Nat.add_zero, byte] at equal
          rw [first] at nonzero
          have equal := Option.some.inj equal
          exact absurd ⟨equal, equal ▸ nonzero⟩ goes

end Reads

section Rounds

variable {dir block : List UInt8}

theorem targetIno_isSome {p : Nat} (st : Scan) (inside : p + 24 ≤ block.length) :
    (targetIno dir block p st).isSome ↔
      (dir ≠ [] → pino (block.drop p) = 1 → NameFits dir block p) := by
  by_cases root : dir = []
  · simp [targetIno, root]
  by_cases below : pino (block.drop p) = 1
  · have isPino : field block (p + 12) 4 = 1 := by rwa [← field_drop]
    have size : field block (p + 28) 1 = nsize (block.drop p) := (field_drop block p 28 1).symm
    simp only [targetIno, ne_eq, root, not_false_eq_true, ↓reduceIte, below, forall_const,
      readAt_inside (show p + 12 + 4 ≤ block.length by omega), Option.bind_eq_bind,
      Option.bind_some, isPino, NameFits, ← strncmp_isSome]
    by_cases sized : p + 29 ≤ block.length
    · rw [readAt_inside (show p + 28 + 1 ≤ block.length by omega), Option.bind_some, size]
      cases compared : strncmp block (nsize (block.drop p)) (p + 40) dir with
      | none => simp
      | some same =>
        rw [Option.bind_some, readAt_inside (show p + 20 + 4 ≤ block.length by omega)]
        cases same <;> simp [sized]
    · have : readAt block (p + 28) 1 = none := if_neg (by omega)
      simp [this, sized]
  · have isPino : field block (p + 12) 4 ≠ 1 := by rwa [← field_drop]
    simp only [targetIno, ne_eq, root, not_false_eq_true, ↓reduceIte, below, IsEmpty.forall_iff,
      implies_true, readAt_inside (show p + 12 + 4 ≤ block.length by omega), Option.bind_eq_bind,
      Option.bind_some, isPino]
    simp

theorem parseDirent_isSome (p : Nat) (st : Scan) :
    (parseDirent dir block p st).isSome ↔ p + 24 ≤ block.length ∧
      (dir ≠ [] → pino (block.drop p) = 1 → NameFits dir block p) := by
  by_cases inside : p + 24 ≤ block.length
  · rw [← targetIno_isSome st inside]
    simp only [parseDirent, readAt_inside (show p + 20 + 4 ≤ block.length by omega),
      readAt_inside (show p + 16 + 4 ≤ block.length by omega)]
    cases targetIno dir block p st <;> simp [inside]
  · have : readAt block (p + 20) 4 = none := if_neg (by omega)
    simp only [parseDirent, this]
    cases targetIno dir block p st <;> simp [inside]

theorem parseRound_out {s : Parse} (out : block.length ≤ s.ofs) :
    parseRound dir block s = some (.over_ s.scan) := if_neg (by omega)

theorem parseRound_blank {s : Parse} (start : s.ofs + 2 ≤ block.length)
    (blank : magic (block.drop s.ofs) ≠ 0x1985) :
    parseRound dir block s = some (.over_ s.scan) := by
  rw [magic, field_drop, Nat.add_zero] at blank
  simp only [parseRound, if_pos (show s.ofs < block.length by omega), readAt_inside start,
    Option.bind_eq_bind, Option.bind_some]
  rw [if_pos blank]
  rfl

/-- A header that the end of the block cuts. -/
theorem parseRound_cut {s : Parse} (inside : s.ofs < block.length)
    (cut : block.length < s.ofs + 2 ∨
      magic (block.drop s.ofs) = 0x1985 ∧ block.length < s.ofs + 8) :
    parseRound dir block s = none := by
  simp only [parseRound, if_pos inside]
  by_cases start : s.ofs + 2 ≤ block.length
  · obtain ⟨isMagic, short⟩ := cut.resolve_left (by omega)
    rw [magic, field_drop, Nat.add_zero] at isMagic
    have none : readAt block (s.ofs + 4) 4 = none := if_neg (by omega)
    simp [readAt_inside start, isMagic, none]
  · have none : readAt block s.ofs 2 = none := if_neg start
    simp [none]

theorem parseRound_node {s : Parse} (header : s.ofs + 8 ≤ block.length)
    (isMagic : magic (block.drop s.ofs) = 0x1985) :
    parseRound dir block s =
      (if isDirent (block.drop s.ofs) then parseDirent dir block s.ofs s.scan
        else some s.scan).map
          fun scan => .on ⟨(s.ofs + padLen (totlen (block.drop s.ofs))) % 2 ^ 32, scan⟩ := by
  rw [magic, field_drop, Nat.add_zero] at isMagic
  have size : field block (s.ofs + 4) 4 = totlen (block.drop s.ofs) := (field_drop _ _ _ _).symm
  have kind : isDirent (block.drop s.ofs) = true ↔ field block (s.ofs + 2) 2 = 0xe001 := by
    rw [← field_drop, isDirent, nodetype]
    exact decide_eq_true_iff
  simp only [parseRound, if_pos (show s.ofs < block.length by omega),
    readAt_inside (show s.ofs + 2 ≤ block.length by omega),
    readAt_inside (show s.ofs + 4 + 4 ≤ block.length by omega),
    readAt_inside (show s.ofs + 2 + 2 ≤ block.length by omega), Option.bind_eq_bind,
    Option.bind_some, isMagic, size, kind]
  by_cases dirent : field block (s.ofs + 2) 2 = 0xe001
  · simp only [dirent, ↓reduceIte, ne_eq, not_true_eq_false]
    cases parseDirent dir block s.ofs s.scan <;> rfl
  · simp [dirent]

theorem totlen_lt (bytes : List UInt8) : totlen bytes < 2 ^ 32 := field_lt bytes 4 4

/-- The 32 bit step is a step of a header's length exactly where nothing wraps. -/
theorem advance_iff (p t : Nat) (short : t < 2 ^ 32) :
    p + 12 ≤ (p + padLen t) % 2 ^ 32 ↔ 9 ≤ t ∧ p + (t + 3) / 4 * 4 < 2 ^ 32 := by
  unfold padLen
  by_cases wraps : t + 3 < 2 ^ 32
  · rw [Nat.mod_eq_of_lt wraps]
    omega
  · have : (t + 3) % 2 ^ 32 / 4 = 0 := by omega
    rw [this]
    omega

theorem advance_eq {p t : Nat} (bound : p + (t + 3) / 4 * 4 < 2 ^ 32) :
    (p + padLen t) % 2 ^ 32 = p + (t + 3) / 4 * 4 := by
  have : (t + 3) % 2 ^ 32 = t + 3 := Nat.mod_eq_of_lt (by omega)
  rw [padLen, this, Nat.mod_eq_of_lt bound]

/-- One round, from anywhere in the block. -/
theorem round_iff {s : Parse} (inside : s.ofs < block.length) :
    ((parseRound dir block s).isSome ∧
      ∀ s', parseRound dir block s = some (.on s') → s.ofs + 12 ≤ s'.ofs) ↔
    NodeFits dir block s.ofs := by
  by_cases start : s.ofs + 2 ≤ block.length
  · by_cases isMagic : magic (block.drop s.ofs) = 0x1985
    · by_cases header : s.ofs + 8 ≤ block.length
      · have advance := advance_iff s.ofs _ (totlen_lt (block.drop s.ofs))
        rw [parseRound_node header isMagic]
        by_cases dirent : isDirent (block.drop s.ofs) = true
        · rw [if_pos dirent]
          have reads := @parseDirent_isSome dir block s.ofs s.scan
          constructor
          · rintro ⟨isSome, moves⟩
            rw [Option.isSome_map] at isSome
            obtain ⟨scan, parsed⟩ := Option.isSome_iff_exists.mp isSome
            have := moves _ (by rw [parsed]; rfl)
            exact ⟨start, fun _ => ⟨header, advance.mp this⟩, fun _ _ => reads.mp isSome⟩
          · intro fits
            refine ⟨?_, ?_⟩
            · rw [Option.isSome_map]
              exact reads.mpr (fits.dirent isMagic dirent)
            · intro s' on
              obtain ⟨scan, -, here⟩ := Option.map_eq_some_iff.mp on
              cases here
              exact advance.mpr (fits.header isMagic).2
        · rw [if_neg dirent]
          constructor
          · rintro ⟨-, moves⟩
            have := moves _ rfl
            exact ⟨start, fun _ => ⟨header, advance.mp this⟩, fun _ yes => absurd yes dirent⟩
          · intro fits
            refine ⟨rfl, ?_⟩
            intro s' on
            cases on
            exact advance.mpr (fits.header isMagic).2
      · rw [parseRound_cut inside (.inr ⟨isMagic, by omega⟩)]
        constructor
        · rintro ⟨isSome, -⟩
          cases isSome
        · intro fits
          exact absurd (fits.header isMagic).1 header
    · rw [parseRound_blank start isMagic]
      constructor
      · intro _
        exact ⟨start, fun yes => absurd yes isMagic, fun yes => absurd yes isMagic⟩
      · intro _
        refine ⟨rfl, ?_⟩
        intro s' on
        cases on
  · rw [parseRound_cut inside (.inl (by omega))]
    constructor
    · rintro ⟨isSome, -⟩
      cases isSome
    · intro fits
      exact absurd fits.start start

/-- A round that goes on has passed a node. -/
theorem round_on {s s' : Parse} (on : parseRound dir block s = some (.on s')) :
    s.ofs < block.length ∧ magic (block.drop s.ofs) = 0x1985 ∧
      s'.ofs = (s.ofs + padLen (totlen (block.drop s.ofs))) % 2 ^ 32 := by
  by_cases inside : s.ofs < block.length
  · by_cases cut : block.length < s.ofs + 2 ∨
        magic (block.drop s.ofs) = 0x1985 ∧ block.length < s.ofs + 8
    · rw [parseRound_cut inside cut] at on
      cases on
    · by_cases isMagic : magic (block.drop s.ofs) = 0x1985
      · rw [parseRound_node (by grind) isMagic] at on
        obtain ⟨scan, -, here⟩ := Option.map_eq_some_iff.mp on
        cases here
        exact ⟨inside, isMagic, rfl⟩
      · rw [parseRound_blank (by omega) isMagic] at on
        cases on
  · rw [parseRound_out (by omega)] at on
    cases on

end Rounds

section Scan

variable {dir block : List UInt8}

theorem linked_of_visited {st : Scan} {s : Parse}
    (fits : ∀ p, Linked block p → p < block.length → NodeFits dir block p)
    (visited : Relation.ReflTransGen (fun s s' => parseRound dir block s = some (.on s'))
      ⟨0, st⟩ s) :
    Linked block s.ofs := by
  induction visited with
  | refl => exact .start
  | tail _ on ih =>
    obtain ⟨inside, isMagic, moved⟩ := round_on on
    rw [moved, advance_eq ((fits _ ih inside).header isMagic).2.2]
    exact .next ih inside isMagic

theorem visited_of_linked {st : Scan} {p : Nat} (ends : ScanEnds dir block st)
    (linked : Linked block p) :
    ∃ scan, Relation.ReflTransGen (fun s s' => parseRound dir block s = some (.on s'))
      ⟨0, st⟩ ⟨p, scan⟩ := by
  induction linked with
  | start => exact ⟨st, .refl⟩
  | @next p _ inside isMagic ih =>
    obtain ⟨scan, visited⟩ := ih
    have sound := ends.2 _ visited
    have fits := (round_iff (s := ⟨p, scan⟩) inside).mp sound
    obtain ⟨header, -, bound⟩ := fits.header isMagic
    have on := @parseRound_node dir block ⟨p, scan⟩ header isMagic
    obtain ⟨out, isSome⟩ := Option.isSome_iff_exists.mp sound.1
    rw [on] at isSome
    obtain ⟨scan', -, here⟩ := Option.map_eq_some_iff.mp isSome
    subst here
    rw [isSome] at on
    rw [advance_eq bound] at on
    exact ⟨scan', visited.tail on⟩

/-- The scan of a block ends as it should exactly where every node that the length fields lead to
fits. -/
theorem scanEnds_iff (dir block : List UInt8) (st : Scan) :
    ScanEnds dir block st ↔
      ∀ p, Linked block p → p < block.length → NodeFits dir block p := by
  constructor
  · intro ends p linked inside
    obtain ⟨scan, visited⟩ := visited_of_linked ends linked
    exact (round_iff (s := ⟨p, scan⟩) inside).mp (ends.2 _ visited)
  · intro fits
    have sound : ∀ s : Parse, Linked block s.ofs → (parseRound dir block s).isSome ∧
        ∀ s', parseRound dir block s = some (.on s') → s.ofs + 12 ≤ s'.ofs := by
      intro s linked
      by_cases inside : s.ofs < block.length
      · exact round_iff inside |>.mpr (fits _ linked inside)
      · rw [parseRound_out (by omega)]
        refine ⟨rfl, ?_⟩
        intro s' on
        cases on
    refine ⟨?_, fun s visited => sound s (linked_of_visited fits visited)⟩
    apply Ends.of_measure (fun s => Linked block s.ofs) (fun s => block.length - s.ofs)
    · intro s linked
      exact Option.isSome_iff_exists.mp (sound s linked).1
    · intro s s' linked on
      obtain ⟨inside, isMagic, moved⟩ := round_on on
      have moves := (sound s linked).2 s' on
      rw [advance_eq ((fits _ linked inside).header isMagic).2.2] at moved
      refine ⟨?_, by omega⟩
      rw [moved]
      exact .next linked inside isMagic
    · exact .start

/-- A node of length zero, at which the loop stays for ever. -/
def zeroLength : List UInt8 := [0x85, 0x19, 0x03, 0x20, 0, 0, 0, 0] ++ List.replicate 65528 0xff

theorem zeroLength_round (st : Scan) :
    parseRound [] zeroLength ⟨0, st⟩ = some (.on ⟨0, st⟩) := by
  have size : zeroLength.length = 65536 := by
    rw [zeroLength, List.length_append, List.length_replicate]
    rfl
  have front : ∀ off len, off + len ≤ 8 → field (zeroLength.drop 0) off len =
      field [0x85, 0x19, 0x03, 0x20, 0, 0, 0, 0] off len := fun off len inside =>
    field_append _ _ off len inside
  have isMagic : magic (zeroLength.drop 0) = 0x1985 := front 0 2 (by decide)
  have short : totlen (zeroLength.drop 0) = 0 := front 4 4 (by decide)
  have plain : ¬ isDirent (zeroLength.drop 0) = true := by
    rw [isDirent, nodetype, front 2 2 (by decide)]
    decide
  rw [parseRound_node (by rw [size]; exact Nat.le_of_ble_eq_true rfl) isMagic, if_neg plain, short]
  rfl

theorem zeroLength_stays :
    (¬ ∃ result, Ends (fun s out => parseRound [] zeroLength s = some out) ⟨0, ⟨1, 0, 0⟩⟩ result) ∧
      ¬ ScanEnds [] zeroLength ⟨1, 0, 0⟩ := by
  have never : ∀ s result, s = ⟨0, ⟨1, 0, 0⟩⟩ →
      ¬ Ends (fun s out => parseRound [] zeroLength s = some out) s result := by
    intro s result here ends
    induction ends with
    | last over_ =>
      rw [here, zeroLength_round] at over_
      cases over_
    | next on _ ih =>
      rw [here, zeroLength_round] at on
      cases on
      exact ih rfl
  refine ⟨?_, ?_⟩
  · rintro ⟨result, ends⟩
    exact never _ result rfl ends
  · rintro ⟨⟨result, ends⟩, -⟩
    exact never _ result rfl ends

end Scan

end Filogic.Jffs2.Parsed
