import Filogic.Bootargs.Parse
import Filogic.Lib.Seek

/-! The parser of the output of veritysetup, which splits the lines in the buffer that it has read. -/

namespace Filogic.Bootargs.Summary
open Lib

def nul : Char := Char.ofNat 0

def cr : Char := Char.ofNat 13

def lf : Char := Char.ofNat 10

def blank (c : Char) : Bool := c = ' ' || c = Char.ofNat 9

/-- The file that has been read; `summary_len` is a `uint32_t`. -/
structure File where
  content : Text
  fits : content.length < 2 ^ 32

/-- `veritysummary`, with the terminator that `read_file` puts behind the content. -/
def File.buffer (file : File) : Text := file.content ++ [nul]

section Code

/-- `strcrlf`; the outer `none` stands for an access outside of the buffer, here and below. -/
def strcrlf (buf : Text) (str : Nat) : Option (Option Nat) :=
  (seek (fun c => c = nul || c = cr || c = lf) (buf.drop str) str).map fun found =>
    if found.2 = nul then none else some found.1

/-- `strnull` on what is in the buffer from `str` on -/
def strnull : Text → Nat → Nat → Option (Option Nat)
  | _, _, 0 => some none
  | [], _, _ + 1 => none
  | c :: rest, str, len + 1 => if c = nul then some (some str) else strnull rest (str + 1) len

def ltrim (buf : Text) (str : Nat) : Option Nat :=
  (seek (fun c => !blank c) (buf.drop str) str).map Prod.fst

/-- `strchr` for a character other than the terminator -/
def strchr (buf : Text) (str : Nat) (wanted : Char) : Option (Option Nat) :=
  (seek (fun c => c = nul || c = wanted) (buf.drop str) str).map fun found =>
    if found.2 = wanted then some found.1 else none

/-- `rtrim_len` -/
def rtrimLen (buf : Text) (str : Nat) : Nat → Option Text
  | 0 => some buf
  | len + 1 =>
      match buf[str + len]? with
      | none => none
      | some c => if blank c then rtrimLen (buf.set (str + len) nul) str len else some buf

/-- The length of the line ending at a place: CR and LF are one. -/
def endingLen (buf : Text) (pcrlf : Nat) : Option Nat := do
  let first ← buf[pcrlf]?
  if first = cr then
    let second ← buf[pcrlf + 1]?
    return if second = lf then 2 else 1
  else return 1

/-- The first step of `parse_verity_summary`: the lines are counted in a `uint32_t`. -/
def countLines (buf : Text) : Nat → Nat → Nat → Option Nat
  | 0, _, _ => none
  | fuel + 1, ptr, lines => do
      let pcrlf ← strcrlf buf ptr
      match pcrlf with
      | none => return lines
      | some pcrlf =>
          let len ← endingLen buf pcrlf
          countLines buf fuel (pcrlf + len) ((lines + 1) % 2 ^ 32)

/-- The line from `ptr` on is ended: the buffer, `peol` and `pcrlf`. -/
def endLine (summaryLen : Nat) (buf : Text) (ptr : Nat) : Option (Text × Nat × Nat) := do
  let pcrlf ← strcrlf buf ptr
  match pcrlf with
  | some peol =>
      let len ← endingLen buf peol
      let buf ← put buf peol nul
      return (buf, peol, peol + len)
  | none =>
      -- a null pointer is never read behind, so it is an access outside of the buffer
      let peol ← strnull (buf.drop ptr) ptr (summaryLen - ptr + 1)
      let peol ← peol
      return (buf, peol, peol + 1)

/-- The key and the value of a line that is ended, when it has a colon. -/
def splitLine (buf : Text) (ptr peol : Nat) : Option (Text × Option (Nat × Nat)) := do
  let pkey ← ltrim buf ptr
  let psep ← strchr buf pkey ':'
  match psep with
  | none => return (buf, none)
  | some psep =>
      let buf ← put buf psep nul
      let buf ← rtrimLen buf pkey (psep - pkey)
      let value ← ltrim buf (psep + 1)
      let buf ← rtrimLen buf value (peol - value)
      return (buf, some (pkey, value))

/-- The second step of `parse_verity_summary`, with the table of so many lines. -/
def parseLines (summaryLen lines : Nat) :
    Nat → Text → Nat → List (Nat × Nat) → Option (Text × List (Nat × Nat))
  | 0, _, _, _ => none
  | fuel + 1, buf, ptr, stored => do
      let (buf, peol, pcrlf) ← endLine summaryLen buf ptr
      let (buf, pair) ← splitLine buf ptr peol
      let stored := stored ++ pair.toList
      if stored.length > lines then none
      else if pcrlf ≥ summaryLen then return (buf, stored)
      else parseLines summaryLen lines fuel buf pcrlf stored

/-- The string at a place in the buffer -/
def stringAt (buf : Text) (str : Nat) : Text := (buf.drop str).takeWhile (· ≠ nul)

/-- `parse_verity_summary`: the pairs in `summary_lines` -/
def parseVeritySummary (fuel : Nat) (file : File) : Option (List (Text × Text)) := do
  let lines ← countLines file.buffer fuel 0 1
  let (buf, stored) ← parseLines file.content.length lines fuel file.buffer 0 []
  return stored.map fun pair => (stringAt buf pair.1, stringAt buf pair.2)

end Code

section Claims

/-- The lines of a text, by CR, LF, CR and LF together, or the terminator. -/
def linesFrom : Bool → Text → List Text
  | _, [] => [[]]
  | afterCr, c :: rest =>
      if c = lf ∧ afterCr = true then linesFrom false rest
      else if c = nul ∨ c = cr ∨ c = lf then [] :: linesFrom (c = cr) rest
      else (linesFrom false rest).modifyHead (c :: ·)

def linesOf (content : Text) : List Text := linesFrom false content

def trim (text : Text) : Text := (text.dropWhile blank).rdropWhile blank

/-- The pair of a line that has a colon: what is before the first one, and behind it. -/
def keyValue (line : Text) : Option (Text × Text) :=
  if ':' ∈ line then
    some (trim (line.takeWhile (· ≠ ':')), trim ((line.dropWhile (· ≠ ':')).drop 1))
  else none

/-- The parser comes to its end inside the buffer and the table, and without a terminator in the
content the pairs are those of the lines. -/
def Parsed (file : File) : Prop :=
  ∃ fuel pairs, parseVeritySummary fuel file = some pairs ∧
    (nul ∉ file.content → pairs = (linesOf file.content).filterMap keyValue)

/-- As many lines of the file have a colon, at most, as there are lines up to the first terminator in
it. -/
def Allocated (file : File) : Prop :=
  ((linesOf file.content).filterMap keyValue).length ≤
    (linesOf (file.content.takeWhile (· ≠ nul))).length % 2 ^ 32

end Claims

section Trims

/-- What `rtrim_len` makes of a text: the blanks at its end become terminators. -/
def rtrimmed (text : Text) : Text :=
  text.rdropWhile blank ++ List.replicate (text.length - (text.rdropWhile blank).length) nul

theorem rtrimmed_length (text : Text) : (rtrimmed text).length = text.length := by
  have shorter := (List.rdropWhile_prefix blank text).length_le
  simp only [rtrimmed, List.length_append, List.length_replicate]
  omega

theorem rtrimLen_eq (text before after : Text) :
    rtrimLen (before ++ text ++ after) before.length text.length =
      some (before ++ rtrimmed text ++ after) := by
  induction text using List.reverseRecOn generalizing after with
  | nil => simp [rtrimLen, rtrimmed]
  | append_singleton text c ih =>
    rw [List.length_append, List.length_singleton, rtrimLen]
    have there : (before ++ (text ++ [c]) ++ after)[before.length + text.length]? = some c := by
      simp [List.append_assoc]
    rw [there]
    dsimp only
    by_cases trims : blank c = true
    · have stored : (before ++ (text ++ [c]) ++ after).set (before.length + text.length) nul =
          before ++ text ++ nul :: after := by
        simp [List.append_assoc, List.set_append_right]
      have dropped := List.rdropWhile_concat_pos blank text c trims
      have shorter := (List.rdropWhile_prefix blank text).length_le
      rw [if_pos trims, stored, ih (nul :: after)]
      simp only [rtrimmed, dropped, List.length_append, List.length_singleton, List.append_assoc,
        Option.some.injEq, List.append_cancel_left_eq]
      rw [show text.length + 1 - (text.rdropWhile blank).length =
        text.length - (text.rdropWhile blank).length + 1 by omega, List.replicate_succ',
        List.append_assoc]
      rfl
    · rw [if_neg trims]
      have kept : rtrimmed (text ++ [c]) = text ++ [c] := by
        simp [rtrimmed, List.rdropWhile_concat_neg blank text c trims]
      rw [kept]

/-- The string that is left of a trimmed text -/
theorem stringAt_rtrimmed (text before after : Text) (plain : nul ∉ text) :
    stringAt (before ++ rtrimmed text ++ nul :: after) before.length = text.rdropWhile blank := by
  have inside : ∀ c ∈ text.rdropWhile blank, decide (c ≠ nul) = true := by
    intro c member
    have here := (List.rdropWhile_prefix blank text).subset member
    exact decide_eq_true fun same => plain (same ▸ here)
  unfold stringAt rtrimmed
  rw [List.append_assoc, List.drop_left, List.append_assoc, List.takeWhile_append_of_pos inside]
  cases text.length - (text.rdropWhile blank).length <;> simp [List.replicate_succ]

/-- A string that is ended in the first part of the buffer -/
theorem stringAt_append (done after : Text) (str : Nat) (ended : nul ∈ done.drop str) :
    stringAt (done ++ after) str = stringAt done str := by
  unfold stringAt
  have inside : str ≤ done.length := by
    by_contra outside
    rw [List.drop_eq_nil_of_le (by omega)] at ended
    cases ended
  have stops : (done.drop str).takeWhile (· ≠ nul) ≠ done.drop str := by
    intro all
    have none_ := List.takeWhile_eq_self_iff.mp all nul ended
    simp at none_
  rw [List.drop_append_of_le_length inside, List.takeWhile_append, if_neg]
  intro same
  exact stops ((List.takeWhile_prefix _).eq_of_length same)

end Trims

section Lines

def Free (line : Text) : Prop := ∀ c ∈ line, c ≠ nul ∧ c ≠ cr ∧ c ≠ lf

/-- What a line ends with, when something is behind it. -/
inductive Ending : Text → Text → Prop where
  | nul (rest : Text) : Ending [nul] rest
  | lf (rest : Text) : Ending [lf] rest
  | crlf (rest : Text) : Ending [cr, lf] rest
  | cr (rest : Text) (other : rest.head? ≠ some lf) : Ending [cr] rest

inductive Lines : Text → List Text → Prop where
  | last (line : Text) (free : Free line) : Lines line [line]
  | more (line ending rest : Text) (lines : List Text) (free : Free line)
      (ends : Ending ending rest) (behind : Lines rest lines) :
      Lines (line ++ ending ++ rest) (line :: lines)

theorem Lines.cons {c : Char} {text : Text} {lines : List Text} (free : c ≠ nul ∧ c ≠ cr ∧ c ≠ lf)
    (split : Lines text lines) : Lines (c :: text) (lines.modifyHead (c :: ·)) := by
  have longer (line : Text) (free' : Free line) : Free (c :: line) := by
    intro d member
    rcases List.mem_cons.mp member with rfl | member
    · exact free
    · exact free' d member
  cases split with
  | last line free' => exact .last _ (longer _ free')
  | more line ending rest lines free' ends behind =>
    exact .more (c :: line) ending rest lines (longer line free') ends behind

theorem Lines.length_pos {text : Text} {lines : List Text} (split : Lines text lines) :
    0 < lines.length := by
  cases split <;> simp

theorem linesFrom_true (text : Text) (other : text.head? ≠ some lf) :
    linesFrom true text = linesFrom false text := by
  cases text with
  | nil => rfl
  | cons c rest =>
    have differs : c ≠ lf := fun same => other (by rw [same]; rfl)
    simp [linesFrom, differs]

theorem lines_linesOf (content : Text) : Lines content (linesOf content) := by
  unfold linesOf
  match content with
  | [] => exact .last [] (by simp [Free])
  | c :: rest =>
    have behind := lines_linesOf rest
    unfold linesOf at behind
    rw [linesFrom, if_neg (by simp)]
    by_cases ends : c = nul ∨ c = cr ∨ c = lf
    · rw [if_pos ends]
      by_cases isCr : c = cr
      · subst isCr
        match rest with
        | [] => exact .more [] [cr] [] _ (by simp [Free]) (.cr [] (by simp)) behind
        | d :: rest' =>
          by_cases isLf : d = lf
          · subst isLf
            have short := lines_linesOf rest'
            exact .more [] [cr, lf] rest' _ (by simp [Free]) (.crlf rest') short
          · have other : (d :: rest').head? ≠ some lf := by simpa using isLf
            simp only [decide_true]
            rw [linesFrom_true _ other]
            exact .more [] [cr] (d :: rest') _ (by simp [Free]) (.cr _ other) behind
      · simp only [isCr, decide_false]
        rcases ends with rfl | isCr' | rfl
        · exact .more [] [nul] rest _ (by simp [Free]) (.nul rest) behind
        · exact absurd isCr' isCr
        · exact .more [] [lf] rest _ (by simp [Free]) (.lf rest) behind
    · rw [if_neg ends]
      push Not at ends
      exact behind.cons ends
termination_by content.length

end Lines

section Scans

variable (done line after : Text)

/-- The scans pass over a line. -/
theorem strcrlf_line (t : Char) (free : Free line) (stops : t = nul ∨ t = cr ∨ t = lf) :
    strcrlf (done ++ (line ++ t :: after)) done.length =
      some (if t = nul then none else some (done.length + line.length)) := by
  unfold strcrlf
  rw [seek_drop _ done line after t]
  · rfl
  · intro c member
    obtain ⟨a, b, d⟩ := free c member
    simp [a, b, d]
  · simpa [or_assoc] using stops

theorem strnull_line (len : Nat) (i : Nat) (free : Free line) (long : line.length < len) :
    strnull (line ++ nul :: after) i len = some (some (i + line.length)) := by
  induction line generalizing i len with
  | nil =>
    cases len with
    | zero => simp at long
    | succ len => simp [strnull]
  | cons c line ih =>
    cases len with
    | zero => simp at long
    | succ len =>
      have other := (free c (by simp)).1
      simp only [List.length_cons] at long
      rw [List.cons_append, strnull, if_neg other, ih len (i + 1)
        (fun d member => free d (by simp [member])) (by omega)]
      simp only [List.length_cons, Option.some.injEq]
      omega

theorem ltrim_lead (lead rest : Text) (c : Char) (blanks : ∀ d ∈ lead, blank d = true)
    (solid : blank c = false) (starts : rest.head? = some c) :
    ltrim (done ++ lead ++ rest) done.length = some (done.length + lead.length) := by
  cases rest with
  | nil => cases starts
  | cons d rest =>
    obtain rfl := Option.some.inj starts
    unfold ltrim
    rw [List.append_assoc, seek_drop _ done lead rest d]
    · rfl
    · intro e member
      simp [blanks e member]
    · simp [solid]

theorem endingLen_eq (before behind : Text) (t : Char) :
    endingLen (before ++ t :: behind) before.length =
      if t = cr then behind.head?.map (fun d => if d = lf then 2 else 1) else some 1 := by
  have here : (before ++ t :: behind)[before.length]? = some t := by simp
  have next : (before ++ t :: behind)[before.length + 1]? = behind.head? := by
    rw [List.getElem?_append_right (by omega), Nat.add_sub_cancel_left, List.getElem?_cons_succ,
      List.head?_eq_getElem?]
  unfold endingLen
  rw [here, next]
  simp only [Option.bind_eq_bind, Option.bind_some]
  split_ifs with first
  · cases behind.head? <;> rfl
  · rfl

/-- What stands behind a line, up to the end of the buffer -/
theorem ending_shape {ending rest : Text} (ends : Ending ending rest) (after : Text) :
    ∃ t tail, ending = t :: tail ∧ (t = nul ∨ t = cr ∨ t = lf) ∧ (t = nul → tail = []) ∧
      endingLen (line ++ t :: (tail ++ rest ++ nul :: after)) line.length = some ending.length := by
  cases ends with
  | nul =>
    refine ⟨nul, [], rfl, .inl rfl, fun _ => rfl, ?_⟩
    rw [endingLen_eq, if_neg (by decide)]
    rfl
  | lf =>
    refine ⟨lf, [], rfl, .inr (.inr rfl), fun _ => rfl, ?_⟩
    rw [endingLen_eq, if_neg (by decide)]
    rfl
  | crlf =>
    refine ⟨cr, [lf], rfl, .inr (.inl rfl), fun same => absurd same (by decide), ?_⟩
    rw [endingLen_eq, if_pos rfl]
    rfl
  | cr _ other =>
    refine ⟨cr, [], rfl, .inr (.inl rfl), fun _ => rfl, ?_⟩
    rw [endingLen_eq, if_pos rfl]
    cases rest with
    | nil => rfl
    | cons d rest =>
      have differs : d ≠ lf := by simpa using other
      simp [differs]

end Scans

section Steps

variable (done line : Text) (free : Free line)

include free in
theorem endLine_more {ending rest : Text} (ends : Ending ending rest) :
    ∃ tail, ending.length = tail.length + 1 ∧
      endLine (done.length + (line ++ ending ++ rest).length)
        (done ++ (line ++ ending ++ rest) ++ [nul]) done.length =
      some (done ++ line ++ nul :: (tail ++ rest ++ [nul]), done.length + line.length,
        done.length + line.length + ending.length) := by
  obtain ⟨t, tail, rfl, stops, none_, len⟩ := ending_shape (done ++ line) ends []
  have shape : done ++ (line ++ t :: tail ++ rest) ++ [nul] =
      done ++ (line ++ t :: (tail ++ rest ++ [nul])) := by simp [List.append_assoc]
  rw [List.length_append] at len
  refine ⟨tail, rfl, ?_⟩
  unfold endLine
  rw [shape, strcrlf_line done line _ t free stops]
  simp only [Option.bind_eq_bind, Option.bind_some]
  by_cases isNul : t = nul
  · rw [if_pos isNul]
    dsimp only
    rw [List.drop_left, isNul, strnull_line line _ _ _ free (by simp), none_ isNul]
    simp [List.append_assoc]
  · have stored := put_at (done ++ line) (tail ++ rest ++ [nul]) t nul
    rw [List.length_append] at stored
    rw [if_neg isNul]
    dsimp only
    rw [← List.append_assoc, len, Option.bind_some, stored]
    rfl

include free in
theorem endLine_last :
    endLine (done.length + line.length) (done ++ line ++ [nul]) done.length =
      some (done ++ line ++ [nul], done.length + line.length,
        done.length + line.length + 1) := by
  unfold endLine
  rw [List.append_assoc, strcrlf_line done line [] nul free (.inl rfl), if_pos rfl]
  simp only [Option.bind_eq_bind, Option.bind_some]
  rw [List.drop_left, strnull_line line [] _ _ free (by omega)]
  rfl

theorem strchr_line (done line after : Text) (t wanted : Char)
    (passed : ∀ c ∈ line, c ≠ nul ∧ c ≠ wanted) (stops : t = nul ∨ t = wanted) :
    strchr (done ++ (line ++ t :: after)) done.length wanted =
      some (if t = wanted then some (done.length + line.length) else none) := by
  unfold strchr
  rw [seek_drop _ done line after t]
  · rfl
  · intro c member
    obtain ⟨a, b⟩ := passed c member
    simp [a, b]
  · simpa using stops

/-- A text behind its blanks -/
def Led (text : Text) : Prop := ∀ c, text.head? = some c → blank c = false

theorem Led.starts {text : Text} (led : Led text) (t : Char) (stops : blank t = false)
    (rest : Text) : ∃ c, blank c = false ∧ (text ++ t :: rest).head? = some c := by
  cases text with
  | nil => exact ⟨t, stops, rfl⟩
  | cons c text => exact ⟨c, led c rfl, rfl⟩

theorem splitLine_without (lead text after : Text) (blanks : ∀ d ∈ lead, blank d = true)
    (led : Led text) (free : Free text) (none_ : ':' ∉ text) :
    splitLine (done ++ (lead ++ text) ++ nul :: after) done.length
        (done.length + (lead ++ text).length) =
      some (done ++ (lead ++ text) ++ nul :: after, none) := by
  obtain ⟨c, solid, starts⟩ := led.starts nul (by decide) after
  have pkey := ltrim_lead done lead _ c blanks solid starts
  have psep := strchr_line (done ++ lead) text after nul ':'
    (fun c member => ⟨(free c member).1, fun same => none_ (same ▸ member)⟩) (.inl rfl)
  have shape : done ++ (lead ++ text) ++ nul :: after = done ++ lead ++ (text ++ nul :: after) := by
    simp [List.append_assoc]
  rw [if_neg (by decide), List.length_append] at psep
  unfold splitLine
  rw [shape, pkey]
  simp only [Option.bind_eq_bind, Option.bind_some]
  rw [psep]
  rfl

/-- The key and the value of a line with a colon are trimmed where they stand. -/
theorem splitLine_with (lead key lead' value after : Text) (blanks : ∀ d ∈ lead, blank d = true)
    (led : Led key) (blanks' : ∀ d ∈ lead', blank d = true) (led' : Led value) (free : Free key)
    (first : ':' ∉ key) :
    let front := done ++ lead
    let behind := front ++ rtrimmed key ++ nul :: lead'
    splitLine (done ++ (lead ++ key ++ ':' :: (lead' ++ value)) ++ nul :: after) done.length
        (done.length + (lead ++ key ++ ':' :: (lead' ++ value)).length) =
      some (behind ++ rtrimmed value ++ nul :: after, some (front.length, behind.length)) := by
  intro front behind
  let mid := front ++ rtrimmed key ++ [nul]
  have midLength : mid.length = front.length + key.length + 1 := by
    simp only [mid, List.length_append, rtrimmed_length, List.length_singleton]
  have behindLength : behind.length = mid.length + lead'.length := by
    simp only [behind, mid, List.length_append, List.length_cons, List.length_nil]
    omega
  have total : done.length + (lead ++ key ++ ':' :: (lead' ++ value)).length - behind.length =
      value.length := by
    simp only [behindLength, midLength, front, List.length_append, List.length_cons]
    omega
  have frontLength : done.length + lead.length = front.length := List.length_append.symm
  have shape : done ++ (lead ++ key ++ ':' :: (lead' ++ value)) ++ nul :: after =
      front ++ (key ++ ':' :: (lead' ++ value ++ nul :: after)) := by
    simp [front, List.append_assoc]
  obtain ⟨c, solid, starts⟩ := led.starts ':' (by decide) (lead' ++ value ++ nul :: after)
  obtain ⟨c', solid', starts'⟩ := led'.starts nul (by decide) after
  have pkey := ltrim_lead done lead _ c blanks solid starts
  have psep := strchr_line front key (lead' ++ value ++ nul :: after) ':' ':'
    (fun c member => ⟨(free c member).1, fun same => first (same ▸ member)⟩) (.inr rfl)
  have cut := put_at (front ++ key) (lead' ++ value ++ nul :: after) ':' nul
  have trimmed := rtrimLen_eq key front (nul :: (lead' ++ value ++ nul :: after))
  have pvalue := ltrim_lead mid lead' _ c' blanks' solid' starts'
  have trimmed' := rtrimLen_eq value behind (nul :: after)
  have midShape : front ++ rtrimmed key ++ nul :: (lead' ++ value ++ nul :: after) =
      mid ++ lead' ++ (value ++ nul :: after) := by simp [mid, List.append_assoc]
  have behindShape : mid ++ lead' ++ (value ++ nul :: after) = behind ++ value ++ nul :: after := by
    simp [mid, behind, List.append_assoc]
  rw [List.length_append] at cut
  rw [if_pos rfl] at psep
  unfold splitLine
  rw [shape, pkey, frontLength]
  simp only [Option.bind_eq_bind, Option.bind_some]
  rw [psep]
  simp only [Option.bind_some]
  rw [← List.append_assoc front key, cut]
  simp only [Option.bind_some]
  rw [Nat.add_sub_cancel_left, trimmed]
  simp only [Option.bind_some]
  rw [midShape, ← midLength, pvalue]
  simp only [Option.bind_some]
  rw [← behindLength, total, behindShape, trimmed']
  rfl

/-- A place in a text that a terminator follows -/
theorem nul_mem_drop (text : Text) {str : Nat} (within : str ≤ text.length) :
    nul ∈ (text ++ [nul]).drop str := by
  rw [List.drop_append_of_le_length within]
  simp

theorem led_dropWhile (text : Text) : Led (text.dropWhile blank) := by
  intro c starts
  have first := List.head?_dropWhile_not blank text
  rw [starts] at first
  simpa using first

def texts (buf : Text) (pair : Nat × Nat) : Text × Text :=
  (stringAt buf pair.1, stringAt buf pair.2)

/-- The strings of a pair are ended in the buffer. -/
def Settled (buf : Text) (pair : Nat × Nat) : Prop :=
  nul ∈ buf.drop pair.1 ∧ nul ∈ buf.drop pair.2

theorem Settled.append {buf : Text} {pair : Nat × Nat} (settled : Settled buf pair) (after : Text) :
    Settled (buf ++ after) pair ∧ texts (buf ++ after) pair = texts buf pair := by
  have inside {str : Nat} (ended : nul ∈ buf.drop str) : nul ∈ (buf ++ after).drop str := by
    rw [List.drop_append]
    exact List.mem_append_left _ ended
  refine ⟨⟨inside settled.1, inside settled.2⟩, ?_⟩
  unfold texts
  rw [stringAt_append _ _ _ settled.1, stringAt_append _ _ _ settled.2]

theorem keyValue_colon (key value : Text) (first : ':' ∉ key) :
    keyValue (key ++ ':' :: value) = some (trim key, trim value) := by
  have passed : ∀ c ∈ key, decide (c ≠ ':') = true :=
    fun c member => decide_eq_true fun same => first (same ▸ member)
  unfold keyValue
  rw [if_pos (by simp), List.takeWhile_append_of_pos passed, List.dropWhile_append_of_pos passed]
  simp

include free in
/-- One line of the second step: the buffer keeps its length, and the pair is the one of the line. -/
theorem splitLine_line (after : Text) :
    ∃ line' pair, splitLine (done ++ line ++ nul :: after) done.length (done.length + line.length) =
        some (done ++ line' ++ nul :: after, pair) ∧
      line'.length = line.length ∧
      pair.map (texts (done ++ line' ++ [nul])) = keyValue line ∧
      ∀ p ∈ pair.toList, Settled (done ++ line' ++ [nul]) p := by
  have blanks (text : Text) : ∀ d ∈ text.takeWhile blank, blank d = true :=
    fun d member => List.mem_takeWhile_imp member
  have plain {text : Text} (within : ∀ c ∈ text, c ∈ line) : nul ∉ text :=
    fun member => (free nul (within nul member)).1 rfl
  by_cases colon : ':' ∈ line
  · obtain ⟨k, v, rfl, first⟩ := List.eq_append_cons_of_mem colon
    have keyShape : k.takeWhile blank ++ k.dropWhile blank = k := List.takeWhile_append_dropWhile
    have valueShape : v.takeWhile blank ++ v.dropWhile blank = v :=
      List.takeWhile_append_dropWhile
    have keyThere : ∀ c ∈ k.dropWhile blank, c ∈ k ++ ':' :: v :=
      fun c member => List.mem_append_left _ ((List.dropWhile_sublist blank).subset member)
    have valueThere : ∀ c ∈ v.dropWhile blank, c ∈ k ++ ':' :: v := fun c member => by
      simp [(List.dropWhile_sublist blank).subset member]
    have split := splitLine_with done (k.takeWhile blank) (k.dropWhile blank) (v.takeWhile blank)
      (v.dropWhile blank) after (blanks k) (led_dropWhile k) (blanks v) (led_dropWhile v)
      (fun c member => free c (keyThere c member))
      fun member => first ((List.dropWhile_sublist blank).subset member)
    dsimp only at split
    rw [keyShape, valueShape] at split
    let front := done ++ k.takeWhile blank
    let behind := front ++ rtrimmed (k.dropWhile blank) ++ nul :: v.takeWhile blank
    let line' := k.takeWhile blank ++ rtrimmed (k.dropWhile blank) ++
      nul :: (v.takeWhile blank ++ rtrimmed (v.dropWhile blank))
    have whole : done ++ line' ++ [nul] = behind ++ rtrimmed (v.dropWhile blank) ++ [nul] := by
      simp [line', behind, front, List.append_assoc]
    have whole' : done ++ line' ++ [nul] = front ++ rtrimmed (k.dropWhile blank) ++
        nul :: (v.takeWhile blank ++ rtrimmed (v.dropWhile blank) ++ [nul]) := by
      simp [line', front, List.append_assoc]
    refine ⟨line', some (front.length, behind.length), ?_, ?_, ?_, ?_⟩
    · rw [split]
      simp [line', behind, front, List.append_assoc]
    · have keyLength := congrArg List.length keyShape
      have valueLength := congrArg List.length valueShape
      simp only [List.length_append] at keyLength valueLength
      simp only [line', List.length_append, List.length_cons, rtrimmed_length]
      omega
    · rw [keyValue_colon k v first, Option.map_some, texts]
      dsimp only
      rw [whole, stringAt_rtrimmed _ behind [] (plain valueThere), ← whole, whole',
        stringAt_rtrimmed _ front _ (plain keyThere)]
      rfl
    · intro p member
      simp only [Option.toList_some, List.mem_singleton] at member
      subst member
      constructor
      · exact nul_mem_drop _ (by simp [line', front])
      · exact nul_mem_drop _ (by simp [line', behind, front])
  · have shape : line.takeWhile blank ++ line.dropWhile blank = line :=
      List.takeWhile_append_dropWhile
    have there : ∀ c ∈ line.dropWhile blank, c ∈ line :=
      fun c member => (List.dropWhile_sublist blank).subset member
    have split := splitLine_without done _ _ after (blanks line) (led_dropWhile line)
      (fun c member => free c (there c member)) fun member => colon (there ':' member)
    rw [shape] at split
    exact ⟨line, none, split, rfl, by simp [keyValue, colon], by simp⟩

end Steps

section Runs

theorem lines_nil {lines : List Text} (split : Lines [] lines) : lines = [[]] := by
  generalize text : ([] : Text) = content at split
  cases split with
  | last line free => rw [← text]
  | more line ending rest lines free ends behind =>
    exfalso
    have length := congrArg List.length text
    cases ends <;> simp at length

theorem filterMap_line (line : Text) (lines : List Text) :
    (line :: lines).filterMap keyValue = (keyValue line).toList ++ lines.filterMap keyValue := by
  cases pair : keyValue line <;> simp [pair]

/-- The pairs that are stored before a line stay what they are, and the one of the line is added. -/
theorem texts_line {done line' : Text} (after : Text) {stored : List (Nat × Nat)} {line : Text}
    {pair : Option (Nat × Nat)} (settled : ∀ p ∈ stored, Settled done p)
    (found : pair.map (texts (done ++ line' ++ [nul])) = keyValue line)
    (new : ∀ p ∈ pair.toList, Settled (done ++ line' ++ [nul]) p) :
    (∀ p ∈ stored ++ pair.toList, Settled (done ++ line' ++ nul :: after) p) ∧
      (stored ++ pair.toList).map (texts (done ++ line' ++ nul :: after)) =
        stored.map (texts done) ++ (keyValue line).toList := by
  have shape : done ++ line' ++ nul :: after = done ++ line' ++ [nul] ++ after := by simp
  have shape' : done ++ line' ++ nul :: after = done ++ (line' ++ nul :: after) := by simp
  constructor
  · intro p member
    rcases List.mem_append.mp member with old | added
    · rw [shape']
      exact ((settled p old).append _).1
    · rw [shape]
      exact ((new p added).append _).1
  · rw [List.map_append, ← found]
    congr 1
    · apply List.map_congr_left
      intro p old
      rw [shape']
      exact ((settled p old).append _).2
    · cases pair with
      | none => rfl
      | some p =>
        simp only [Option.toList_some, List.map_cons, List.map_nil, Option.map_some]
        rw [shape, ((new p (by simp)).append _).2]

/-- The second step stores the pairs of the lines, when the table has room for them, and only then
comes to its end. -/
theorem parseLines_lines {rest : Text} {lines : List Text} (split : Lines rest lines) (cap : Nat)
    (done : Text) (stored : List (Nat × Nat)) (settled : ∀ p ∈ stored, Settled done p) :
    (stored.length + (lines.filterMap keyValue).length ≤ cap → ∀ fuel, lines.length ≤ fuel →
      ∃ buf' stored', parseLines (done.length + rest.length) cap fuel (done ++ rest ++ [nul])
          done.length stored = some (buf', stored') ∧
        stored'.map (texts buf') = stored.map (texts done) ++ lines.filterMap keyValue) ∧
    (∀ fuel r, parseLines (done.length + rest.length) cap fuel (done ++ rest ++ [nul])
      done.length stored = some r → stored.length + (lines.filterMap keyValue).length ≤ cap) := by
  induction split generalizing done stored with
  | last line free =>
    obtain ⟨line', pair, splits, length, found, new⟩ := splitLine_line done line free []
    obtain ⟨-, kept⟩ := texts_line [] settled found new
    have count : pair.toList.length = (keyValue line).toList.length := by
      rw [← found]
      cases pair <;> rfl
    have step (fuel : Nat) : parseLines (done.length + line.length) cap (fuel + 1)
        (done ++ line ++ [nul]) done.length stored =
        if (stored ++ pair.toList).length > cap then none
        else some (done ++ line' ++ [nul], stored ++ pair.toList) := by
      rw [parseLines, endLine_last done line free]
      simp only [Option.bind_eq_bind, Option.bind_some]
      rw [splits]
      simp only [Option.bind_some]
      rw [if_pos (show done.length + line.length + 1 ≥ done.length + line.length by omega)]
      rfl
    rw [filterMap_line, List.filterMap_nil, List.append_nil, ← count]
    constructor
    · intro room fuel enough
      cases fuel with
      | zero => simp at enough
      | succ fuel =>
        refine ⟨_, _, (step fuel).trans (if_neg ?_), kept⟩
        rw [List.length_append]
        omega
    · intro fuel r ended
      cases fuel with
      | zero => cases ended
      | succ fuel =>
        rw [step] at ended
        split_ifs at ended with full
        rw [List.length_append] at full
        omega
  | more line ending rest lines free ends behind ih =>
    obtain ⟨tail, endingLength, ended⟩ := endLine_more done line free ends
    obtain ⟨line', pair, splits, length, found, new⟩ :=
      splitLine_line done line free (tail ++ rest ++ [nul])
    obtain ⟨settled', kept⟩ := texts_line tail settled found new
    have count : pair.toList.length = (keyValue line).toList.length := by
      rw [← found]
      cases pair <;> rfl
    have nextLength : (done ++ line' ++ nul :: tail).length =
        done.length + line.length + ending.length := by
      simp only [List.length_append, List.length_cons]
      omega
    have shape : done ++ line' ++ nul :: (tail ++ rest ++ [nul]) =
        done ++ line' ++ nul :: tail ++ rest ++ [nul] := by simp
    have total : done.length + (line ++ ending ++ rest).length =
        (done ++ line' ++ nul :: tail).length + rest.length := by
      rw [nextLength]
      simp only [List.length_append]
      omega
    have step (fuel : Nat) : parseLines (done.length + (line ++ ending ++ rest).length) cap (fuel + 1)
        (done ++ (line ++ ending ++ rest) ++ [nul]) done.length stored =
        if (stored ++ pair.toList).length > cap then none
        else if rest = [] then some (done ++ line' ++ nul :: tail ++ rest ++ [nul], stored ++ pair.toList)
        else parseLines ((done ++ line' ++ nul :: tail).length + rest.length) cap fuel
          (done ++ line' ++ nul :: tail ++ rest ++ [nul]) (done ++ line' ++ nul :: tail).length
          (stored ++ pair.toList) := by
      rw [parseLines, ended]
      simp only [Option.bind_eq_bind, Option.bind_some]
      rw [splits]
      simp only [Option.bind_some]
      rw [shape, total, ← nextLength]
      have last : ((done ++ line' ++ nul :: tail).length ≥
          (done ++ line' ++ nul :: tail).length + rest.length) = (rest = []) := by
        rw [← List.length_eq_zero_iff]
        apply propext
        omega
      simp only [last]
      rfl
    obtain ⟨room_, only_⟩ := ih (done ++ line' ++ nul :: tail) (stored ++ pair.toList) settled'
    have sum : (stored ++ pair.toList).length = stored.length + pair.toList.length :=
      List.length_append
    rw [sum] at room_ only_ step
    rw [filterMap_line, List.length_append, ← count]
    constructor
    · intro room fuel enough
      cases fuel with
      | zero => simp at enough
      | succ fuel =>
        rw [step, if_neg (by omega)]
        by_cases over_ : rest = []
        · subst over_
          have none_ : lines.filterMap keyValue = [] := by
            rw [lines_nil behind]
            simp [keyValue]
          refine ⟨_, _, if_pos rfl, ?_⟩
          rw [none_, List.append_nil (keyValue line).toList, ← kept]
          apply List.map_congr_left
          intro p member
          rw [List.append_nil]
          exact ((settled' p member).append _).2
        · obtain ⟨buf', stored', ended', same⟩ := room_ (by omega) fuel (by simpa using enough)
          refine ⟨buf', stored', (if_neg over_).trans ended', ?_⟩
          rw [same, kept, List.append_assoc]
    · intro fuel r ended'
      cases fuel with
      | zero => cases ended'
      | succ fuel =>
        rw [step] at ended'
        split_ifs at ended' with full over_
        · subst over_
          have none_ : lines.filterMap keyValue = [] := by
            rw [lines_nil behind]
            simp [keyValue]
          rw [none_, List.length_nil]
          omega
        · have := only_ fuel r ended'
          omega

/-- The first step counts the lines up to the first terminator. -/
theorem countLines_lines {rest : Text} {lines : List Text} (split : Lines rest lines)
    (plain : nul ∉ rest) (done after : Text) (count fuel : Nat) (small : count < 2 ^ 32) :
    countLines (done ++ rest ++ nul :: after) fuel done.length count =
      if lines.length ≤ fuel then some ((count + (lines.length - 1)) % 2 ^ 32) else none := by
  induction split generalizing done count fuel with
  | last line free =>
    cases fuel with
    | zero => rfl
    | succ fuel =>
      rw [countLines, List.append_assoc, strcrlf_line done line after nul free (.inl rfl)]
      simpa using (Nat.mod_eq_of_lt small).symm
  | more line ending rest lines free ends behind ih =>
    cases fuel with
    | zero => rfl
    | succ fuel =>
      obtain ⟨t, tail, rfl, stops, -, len⟩ := ending_shape (done ++ line) ends after
      have other : t ≠ nul := fun same => plain (by simp [same])
      have shape : done ++ (line ++ t :: tail ++ rest) ++ nul :: after =
          done ++ (line ++ t :: (tail ++ rest ++ nul :: after)) := by simp [List.append_assoc]
      have shape' : done ++ (line ++ t :: (tail ++ rest ++ nul :: after)) =
          done ++ line ++ t :: tail ++ rest ++ nul :: after := by simp [List.append_assoc]
      have next : (done ++ line ++ t :: tail).length =
          done.length + line.length + (t :: tail).length := by
        simp only [List.length_append]
      have some_ : 1 ≤ lines.length := behind.length_pos
      rw [List.length_append] at len
      rw [countLines, shape, strcrlf_line done line _ t free stops, if_neg other]
      simp only [Option.bind_eq_bind, Option.bind_some]
      rw [← List.append_assoc done line, len]
      simp only [Option.bind_some]
      rw [List.append_assoc done line, shape', ← next, ih (fun member => plain (by simp [member])) _ _ _
        (Nat.mod_lt _ (by decide)), List.length_cons]
      by_cases enough : lines.length ≤ fuel
      · rw [if_pos enough, if_pos (by omega)]
        congr 1
        omega
      · rw [if_neg enough, if_neg (by omega)]

theorem buffer_shape (file : File) : ∃ after,
    file.buffer = [] ++ file.content.takeWhile (· ≠ nul) ++ nul :: after := by
  have shape : file.content.takeWhile (· ≠ nul) ++ file.content.dropWhile (· ≠ nul) =
    file.content := List.takeWhile_append_dropWhile
  unfold File.buffer
  cases behind : file.content.dropWhile (· ≠ nul) with
  | nil =>
    rw [behind, List.append_nil] at shape
    exact ⟨[], by rw [shape]; rfl⟩
  | cons c rest =>
    have first := List.head?_dropWhile_not (· ≠ nul) file.content
    rw [behind] at first
    have same : c = nul := by simpa using first
    rw [behind, same] at shape
    refine ⟨rest ++ [nul], ?_⟩
    calc file.content ++ [nul]
        = file.content.takeWhile (· ≠ nul) ++ nul :: rest ++ [nul] := by rw [shape]
      _ = [] ++ file.content.takeWhile (· ≠ nul) ++ nul :: (rest ++ [nul]) := by
          rw [List.nil_append, List.append_assoc]
          rfl

/-- How many lines the first step sizes the table for -/
def lineCount (file : File) : Nat := (linesOf (file.content.takeWhile (· ≠ nul))).length

theorem countLines_file (file : File) (fuel : Nat) :
    countLines file.buffer fuel 0 1 =
      if lineCount file ≤ fuel then some (lineCount file % 2 ^ 32) else none := by
  obtain ⟨after, shape⟩ := buffer_shape file
  have split := lines_linesOf (file.content.takeWhile (· ≠ nul))
  have plain : nul ∉ file.content.takeWhile (· ≠ nul) := fun member => by
    have := List.mem_takeWhile_imp member
    simp at this
  have counted := countLines_lines split plain [] after 1 fuel (by decide)
  have some_ : 1 ≤ lineCount file := by
    exact split.length_pos
  rw [shape]
  refine counted.trans ?_
  unfold lineCount at some_ ⊢
  rw [Nat.add_sub_cancel' some_]

/-- The file is parsed right exactly when the table that the first step sizes has room for the pairs
of the second. -/
theorem parsed_iff (file : File) : Parsed file ↔ Allocated file := by
  obtain ⟨room, only⟩ := parseLines_lines (lines_linesOf file.content) (lineCount file % 2 ^ 32) []
    [] (by simp)
  simp only [List.length_nil, Nat.zero_add, List.nil_append, List.map_nil] at room only
  constructor
  · rintro ⟨fuel, pairs, ended, -⟩
    unfold parseVeritySummary at ended
    rw [countLines_file] at ended
    split_ifs at ended with enough
    · simp only [Option.bind_eq_bind, Option.bind_some] at ended
      obtain ⟨r, parsed, -⟩ := Option.bind_eq_some_iff.mp ended
      exact only fuel r parsed
    · cases ended
  · intro allocated
    let fuel := max (lineCount file) (linesOf file.content).length
    obtain ⟨buf', stored', ended, same⟩ := room allocated fuel (le_max_right _ _)
    refine ⟨fuel, stored'.map (texts buf'), ?_, fun _ => same⟩
    unfold parseVeritySummary
    rw [countLines_file, if_pos (le_max_left _ _)]
    simp only [Option.bind_eq_bind, Option.bind_some]
    unfold File.buffer
    rw [ended]
    rfl

/-- A terminator comes before two lines with a colon: the table is for one. -/
theorem nul_hides_lines :
    ¬ Parsed ⟨nul :: "a:b".toList ++ lf :: "c:d".toList, by decide⟩ := by
  have stuck (fuel : Nat) : parseVeritySummary fuel
      ⟨nul :: "a:b".toList ++ lf :: "c:d".toList, by decide⟩ = none := by
    match fuel with
    | 0 => rfl
    | 1 => decide
    | 2 => decide
    | fuel + 3 => rfl
  rintro ⟨fuel, pairs, ended, -⟩
  rw [stuck] at ended
  cases ended

end Runs

end Filogic.Bootargs.Summary
