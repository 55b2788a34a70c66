import Filogic.Bootargs.Parse

/-! How `get_arg_next` reads a text that is put in front of a blank or of the end. -/

namespace Filogic.Bootargs

/-- Whether the quotes are open after a text; none if the text has a blank outside of them. -/
def through : Bool → Text → Option Bool
  | inQuote, [] => some inQuote
  | inQuote, c :: rest =>
      if isspace c && !inQuote then none
      else through (if c = quote then !inQuote else inQuote) rest

/-- The position of the first `=` of a text, but for one at its start, where `equals` stays `0`. -/
def equalsOf : Nat → Nat → Text → Nat
  | _, equals, [] => equals
  | i, equals, c :: rest => equalsOf (i + 1) (if equals = 0 && c = '=' then i else equals) rest

/-- The length of the key of an argument. -/
def keylenOf (text : Text) : Nat :=
  if equalsOf 0 0 text ≠ 0 then equalsOf 0 0 text else text.length

/-- The parameter and the value of an argument. -/
def pairOf (text : Text) : Text × Option Text :=
  (text.take (keylenOf text),
    if keylenOf text < text.length then some (text.drop (keylenOf text + 1)) else none)

/-- Nothing follows, or a blank does. -/
def Bounded (rest : Text) (inQuote : Bool) : Prop :=
  ∀ c tail, rest = c :: tail → isspace c = true ∧ inQuote = false

/-- Wherever the loop stops, it has gone through a text up to a bound. -/
theorem scan_eq (str : Text) (i equals : Nat) (inQuote : Bool) :
    ∃ text rest after, str = text ++ rest ∧ through inQuote text = some after ∧
      Bounded rest after ∧
      scan i equals inQuote str = (i + text.length, equalsOf i equals text) := by
  induction str generalizing i equals inQuote with
  | nil =>
    have bounded : Bounded [] inQuote := fun _ _ same => absurd same.symm (List.cons_ne_nil _ _)
    exact ⟨[], [], inQuote, rfl, rfl, bounded, rfl⟩
  | cons c tail ih =>
    by_cases stops : (isspace c && !inQuote) = true
    · have both := Bool.and_eq_true_iff.mp stops
      refine ⟨[], c :: tail, inQuote, rfl, rfl, ?_, ?_⟩
      · rintro d rest same
        obtain ⟨rfl, _⟩ := List.cons.inj same
        exact ⟨both.1, by simpa using both.2⟩
      · simp [scan, stops, equalsOf]
    · obtain ⟨text, rest, after, split, goes, bounded, stop⟩ :=
        ih (i + 1) (if equals = 0 && c = '=' then i else equals)
          (if c = quote then !inQuote else inQuote)
      refine ⟨c :: text, rest, after, by rw [split]; rfl, ?_, bounded, ?_⟩
      · rw [through, if_neg stops]
        exact goes
      · rw [scan, if_neg stops, stop, equalsOf, List.length_cons]
        exact Prod.ext (by dsimp only; omega) rfl

/-- A text that is read again as one argument: no blank outside of its quotes, and no quote in front
that would be dropped. -/
def Readable (text : Text) (after : Bool) : Prop :=
  text ≠ [] ∧ text.head? ≠ some quote ∧ through false text = some after

theorem readable_cons {text : Text} {after : Bool} (readable : Readable text after) :
    ∃ c rest, text = c :: rest ∧ c ≠ quote ∧ isspace c = false := by
  obtain ⟨some, front, goes⟩ := readable
  cases text with
  | nil => exact absurd rfl some
  | cons c rest =>
    refine ⟨c, rest, rfl, fun same => front (by rw [same]; rfl), ?_⟩
    by_contra blank
    simp [through, Bool.eq_true_of_not_eq_false blank] at goes

/-- Where the text of an argument comes from: after blanks and perhaps a quote, up to a bound. -/
theorem getArgNext_some {str p n : Text} {keylen : Nat}
    (next : getArgNext str = some (p, keylen, n)) :
    ∃ blanks text inQuote after, str = blanks ++ (if inQuote then quote :: (text ++ n) else text ++ n) ∧
      (∀ c ∈ blanks, isspace c = true) ∧ p = text ++ n ∧ keylen = keylenOf text ∧
      through inQuote text = some after ∧ Bounded n after ∧
      (inQuote = false → Readable text after) := by
  unfold getArgNext at next
  cases front : skipSpaces str with
  | nil => simp [front] at next
  | cons c rest =>
    have parted : str = str.takeWhile isspace ++ c :: rest := by
      rw [← front, skipSpaces, List.takeWhile_append_dropWhile]
    have solid : isspace c = false := by
      have head := List.head?_dropWhile_not isspace str
      rw [skipSpaces] at front
      simpa [front] using head
    simp only [front] at next
    obtain ⟨text, after', after, split, goes, bounded, stop⟩ :=
      scan_eq (if c = quote then rest else c :: rest) 0 0 (c = quote)
    rw [stop, split, Nat.zero_add] at next
    simp only [List.drop_left, Option.some.injEq, Prod.mk.injEq] at next
    obtain ⟨rfl, rfl, rfl⟩ := next
    refine ⟨str.takeWhile isspace, text, c = quote, after, ?_,
      fun c member => List.mem_takeWhile_imp member, rfl, rfl, goes, bounded, ?_⟩
    · rw [← split]
      by_cases quoted : c = quote
      · simpa [quoted] using parted
      · simpa [quoted] using parted
    · intro unquoted
      have quoted : ¬c = quote := of_decide_eq_false unquoted
      rw [if_neg quoted] at split
      rw [unquoted] at goes
      refine ⟨?_, ?_, goes⟩
      · intro empty
        rw [empty, List.nil_append] at split
        rw [(bounded c rest split.symm).1] at solid
        exact absurd solid (by decide)
      · intro same
        cases text with
        | nil => cases same
        | cons d tail =>
          obtain ⟨head, _⟩ := List.cons.inj split
          exact quoted (head.trans (Option.some.inj same))

theorem argsWithin_nil (fuel : Nat) : argsWithin fuel [] = [] := by
  cases fuel <;> rfl

/-- The rest after an argument is shorter. -/
theorem getArgNext_shorter {str p n : Text} {keylen : Nat}
    (next : getArgNext str = some (p, keylen, n)) : n.length < str.length := by
  obtain ⟨blanks, text, inQuote, after, split, _, _, _, _, _, readable⟩ := getArgNext_some next
  cases inQuote with
  | true =>
    have lengths := congrArg List.length split
    simp at lengths
    omega
  | false =>
    have some := List.length_pos_iff.mpr (readable rfl).1
    have lengths := congrArg List.length split
    simp at lengths
    omega

/-- As many calls as there are characters are enough. -/
theorem argsWithin_agree (a b : Nat) (str : Text) (enough : str.length ≤ a)
    (enough' : str.length ≤ b) : argsWithin a str = argsWithin b str := by
  induction a generalizing b str with
  | zero =>
    obtain rfl := List.length_eq_zero_iff.mp (Nat.le_zero.mp enough)
    rw [argsWithin_nil, argsWithin_nil]
  | succ a ih =>
    cases b with
    | zero =>
      obtain rfl := List.length_eq_zero_iff.mp (Nat.le_zero.mp enough')
      rw [argsWithin_nil, argsWithin_nil]
    | succ b =>
      cases next : getArgNext str with
      | none => simp only [argsWithin, next]
      | some got =>
        obtain ⟨p, keylen, n⟩ := got
        have shorter := getArgNext_shorter next
        simp only [argsWithin, next]
        rw [ih b n (by omega) (by omega)]

theorem args_none {str : Text} (next : getArgNext str = none) : args str = [] := by
  unfold args
  cases str.length with
  | zero => rfl
  | succ fuel => simp only [argsWithin, next]

theorem args_some {str p n : Text} {keylen : Nat}
    (next : getArgNext str = some (p, keylen, n)) :
    args str = ⟨p, keylen, p.length - n.length⟩ :: args n := by
  have shorter := getArgNext_shorter next
  unfold args
  rw [argsWithin_agree str.length (n.length + 1 + (str.length - n.length - 1)) str le_rfl
    (by omega)]
  rw [Nat.add_right_comm, argsWithin]
  simp only [next]
  rw [argsWithin_agree _ n.length n (by omega) le_rfl]

theorem keylenOf_le (text : Text) : keylenOf text ≤ text.length := by
  have bound : ∀ (t : Text) i e, e < i ∨ e = 0 → equalsOf i e t < i + t.length ∨ equalsOf i e t = 0 := by
    intro t
    induction t with
    | nil =>
      intro i e below
      simpa [equalsOf] using below
    | cons c rest ih =>
      intro i e below
      rw [equalsOf, List.length_cons]
      have later := ih (i + 1) (if e = 0 && c = '=' then i else e) (by split_ifs <;> omega)
      omega
  have here := bound text 0 0 (.inr rfl)
  unfold keylenOf
  split_ifs <;> omega

/-- The argument that a text is read as. -/
theorem pair_of_text (text n : Text) :
    (Arg.mk (text ++ n) (keylenOf text) ((text ++ n).length - n.length)).pair = pairOf text := by
  have len : (text ++ n).length - n.length = text.length := by simp
  have key := keylenOf_le text
  simp only [Arg.pair, Arg.text, pairOf, len, List.take_left, List.take_append_of_le_length key]

/-- Texts one after another, each with a blank after it but for the last. -/
def joined (texts : List Text) : Text := (texts.flatMap fun text => text ++ [' ']).dropLast

theorem joined_cons {text : Text} {rest : List Text} (some : rest ≠ []) :
    joined (text :: rest) = text ++ ' ' :: joined rest := by
  have tail : (rest.flatMap fun text => text ++ [' ']) ≠ [] := by
    cases rest with
    | nil => exact absurd rfl some
    | cons next later => simp
  rw [joined, List.flatMap_cons, List.dropLast_append_of_ne_nil tail, List.append_assoc]
  rfl

theorem joined_singleton (text : Text) : joined [text] = text := by
  simp [joined]

/-- Texts that are read one by one, the last of which may have its quotes open. -/
def AllReadable : List Text → Prop
  | [] => True
  | [text] => ∃ after, Readable text after
  | text :: rest => Readable text false ∧ AllReadable rest

end Filogic.Bootargs
