import Filogic.Bootargs.Items

/-! Where the arguments of a joined text are found: each at its own place, or one of them is another. -/

namespace Filogic.Bootargs

/-- A character that `get_arg_next` never passes over. -/
def solid (c : Char) : Bool := !isspace c && decide (c ≠ quote)

def Skipped (text : Text) : Prop := ∀ c ∈ text, solid c = false

theorem Skipped.append {a b : Text} (left : Skipped a) (right : Skipped b) : Skipped (a ++ b) := by
  intro c member
  obtain first | second := List.mem_append.mp member
  · exact left c first
  · exact right c second

/-- What a call of `get_arg_next` passes over in front of its argument. -/
theorem getArgNext_place {str p n : Text} {keylen : Nat}
    (next : getArgNext str = some (p, keylen, n)) :
    ∃ skipped text after, str = skipped ++ (text ++ n) ∧ p = text ++ n ∧ keylen = keylenOf text ∧
      Skipped skipped ∧ Bounded n after ∧ (skipped = [] → Readable text after) := by
  obtain ⟨blanks, text, inQuote, after, split, blank, rfl, rfl, _, bounded, readable⟩ :=
    getArgNext_some next
  have front : Skipped blanks := by
    intro c member
    simp [solid, blank c member]
  cases inQuote with
  | false => exact ⟨blanks, text, after, split, rfl, rfl, front, bounded, fun _ => readable rfl⟩
  | true =>
    have both : Skipped (blanks ++ [quote]) := front.append (by simp [Skipped, solid])
    refine ⟨blanks ++ [quote], text, after, ?_, rfl, rfl, both, bounded, fun empty => ?_⟩
    · simpa using split
    · simp at empty

/-- A text is known by its parameter and value. -/
def textOf (pair : Text × Option Text) : Text :=
  match pair.2 with
  | none => pair.1
  | some value => pair.1 ++ '=' :: value

theorem textOf_pairOf (text : Text) : textOf (pairOf text) = text := by
  unfold textOf
  cases value : (pairOf text).2 with
  | none => exact (text_without_value text value).symm
  | some v => exact (text_of_pair text v value).symm

theorem pairOf_injective {text text' : Text} (same : pairOf text = pairOf text') : text = text' := by
  rw [← textOf_pairOf text, same, textOf_pairOf]

/-- The first argument of a string that is known to have one, and the rest. -/
theorem split_cons {str text : Text} {rest : List (Text × Option Text)}
    (reads : split str = pairOf text :: rest) :
    ∃ skipped n after, str = skipped ++ (text ++ n) ∧ Skipped skipped ∧ Bounded n after ∧
      (skipped = [] → Readable text after) ∧ split n = rest := by
  unfold split at reads
  cases next : getArgNext str with
  | none =>
    rw [args_none next] at reads
    exact absurd reads (by simp)
  | some got =>
    obtain ⟨p, keylen, n⟩ := got
    obtain ⟨skipped, found, after, place, rfl, rfl, passed, bounded, readable⟩ :=
      getArgNext_place next
    rw [args_some next, List.map_cons, pair_of_text, List.cons.injEq] at reads
    obtain rfl := pairOf_injective reads.1
    exact ⟨skipped, n, after, place, passed, bounded, readable, reads.2⟩

section Weight

/-- How many characters of a text can not be passed over. -/
def weight (text : Text) : Nat := text.countP solid

@[simp] theorem weight_append (a b : Text) : weight (a ++ b) = weight a + weight b :=
  List.countP_append

theorem weight_joined (texts : List Text) :
    weight (joined texts) = (texts.map weight).sum := by
  induction texts with
  | nil => rfl
  | cons text rest ih =>
    cases rest with
    | nil => simp [joined_singleton]
    | cons next later =>
      have blank : weight [' '] = 0 := by decide
      rw [joined_cons (List.cons_ne_nil _ _), List.append_cons, weight_append, weight_append, blank,
        ih]
      simp

end Weight

section Aligned

/-- What is written for an argument shows where it is: it is the argument, or it starts as the argument
does up to some solid character. -/
def Alike (written text : Text) : Prop :=
  (written = text ∧ Skipped text) ∨
    ∃ u v v', written = u ++ v ∧ text = u ++ v' ∧ ∃ c ∈ u, solid c = true

/-- A solid character is not moved by what is passed over in front of it. -/
theorem no_shift {u skipped s s' : Text} (some : ∃ c ∈ u, solid c = true)
    (passed : Skipped skipped) (same : u ++ s = skipped ++ (u ++ s')) : skipped = [] := by
  have here : (u ++ s).findIdx solid = u.findIdx solid := by
    rw [List.findIdx_append, if_pos (List.findIdx_lt_length.mpr some)]
  have there : (skipped ++ (u ++ s')).findIdx solid = u.findIdx solid + skipped.length := by
    have none : ¬skipped.findIdx solid < skipped.length := by
      intro found
      obtain ⟨c, member, hard⟩ := List.findIdx_lt_length.mp found
      exact absurd hard (by simp [passed c member])
    rw [List.findIdx_append, if_neg none, List.findIdx_append,
      if_pos (List.findIdx_lt_length.mpr some)]
  rw [same, there] at here
  exact List.length_eq_zero_iff.mp (by omega)

/-- An argument that is read as asked, with those after it, is read at the start. -/
theorem aligned (pieces : List (Text × Text)) (written text passed rest : Text) (after : Bool)
    (head : Alike written text) (alike : ∀ p ∈ pieces, Alike p.1 p.2)
    (place : joined (written :: pieces.map Prod.fst) = passed ++ (text ++ rest))
    (skipped : Skipped passed) (bounded : Bounded rest after)
    (reads : split rest = (pieces.map Prod.snd).map pairOf) : passed = [] := by
  induction pieces generalizing written text passed rest after with
  | nil =>
    rw [List.map_nil, joined_singleton] at place
    obtain ⟨rfl, _⟩ | ⟨u, v, v', rfl, rfl, some⟩ := head
    · have lengths := congrArg List.length place
      rw [List.length_append, List.length_append] at lengths
      exact List.length_eq_zero_iff.mp (by omega)
    · rw [List.append_assoc] at place
      exact no_shift some skipped place
  | cons next more ih =>
    rw [List.map_cons, joined_cons (List.cons_ne_nil _ _)] at place
    obtain ⟨rfl, light⟩ | ⟨u, v, v', rfl, rfl, some⟩ := head
    · by_contra moved
      obtain ⟨between, n, after', rfl, light', bounded', readable, later⟩ := split_cons reads
      have long : 0 < between.length := by
        apply List.length_pos_iff.mpr
        rintro rfl
        obtain ⟨c, tail, same, _, hard⟩ := readable_cons (readable rfl)
        have blank := (bounded c (tail ++ n) (by rw [same]; rfl)).1
        rw [blank] at hard
        cases hard
      have long' := List.length_pos_iff.mpr moved
      -- the next argument is found at least as far behind its place as this one
      have place' : joined (next.1 :: more.map Prod.fst) =
          (passed ++ written ++ between).drop (written.length + 1) ++ (next.2 ++ n) := by
        have dropped := congrArg (List.drop (written.length + 1)) place
        rw [List.append_cons, List.drop_left' (by simp)] at dropped
        rw [dropped, ← List.drop_append_of_le_length (by simp; omega)]
        simp
      have start := ih next.1 next.2 _ n after'
        (alike next List.mem_cons_self) (fun p member => alike p (List.mem_cons_of_mem _ member))
        place'
        (fun c member => ((skipped.append light).append light') c (List.mem_of_mem_drop member))
        bounded' later
      rw [List.drop_eq_nil_iff] at start
      simp only [List.length_append] at start
      omega
    · rw [List.append_assoc, List.append_assoc] at place
      exact no_shift some skipped place

end Aligned

end Filogic.Bootargs
