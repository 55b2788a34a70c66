import Filogic.Bootargs.Reading

/-! What `merge_bootargs` writes for each argument. -/

namespace Filogic.Bootargs

/-- A new pair as `main` makes it: its name is a plain word, and it is not marked yet. Its value may be
any text. -/
structure WellFormed (kvp : Kvpair) : Prop where
  name_some : kvp.name ≠ []
  name_plain : ∀ c ∈ kvp.name, isspace c = false ∧ c ≠ quote ∧ c ≠ '='
  fresh : kvp.deleted = false

/-- The new pairs: one for each of their names. -/
structure NewPairs where
  pairs : List Kvpair
  names : (pairs.map Kvpair.name).Nodup
  wellFormed : ∀ kvp ∈ pairs, WellFormed kvp

/-- The parameter and value that a new pair stands for. -/
def Kvpair.pair (kvp : Kvpair) : Text × Option Text :=
  (kvp.name, kvp.value.map fun value => written value kvp.quotedValue)

def NewPairs.find (new : NewPairs) (name : Text) : Option Kvpair :=
  new.pairs.find? fun kvp => kvp.name = name

/-- The new pairs that no argument is overwritten by. -/
def NewPairs.missing (new : NewPairs) (names : List Text) : List Kvpair :=
  new.pairs.filter fun kvp => kvp.name ∉ names

/-- The arguments as they should be afterwards. -/
def expected (bootargs : Text) (new : NewPairs) : List (Text × Option Text) :=
  ((split bootargs).map fun arg =>
    match new.find arg.1 with
    | some kvp => kvp.pair
    | none => arg) ++
  (new.missing ((split bootargs).map Prod.fst)).map Kvpair.pair

section Marks

/-- The new pairs with those marked that a list of names has. -/
def marked (names : List Text) (pairs : List Kvpair) : List Kvpair :=
  pairs.map fun kvp => { kvp with deleted := decide (kvp.name ∈ names) }

variable (new : NewPairs)

/-- What an item is written as. -/
def pieceOf (existing : Kvpair) : Text :=
  match new.find existing.name with
  | some kvp => printArg existing.name kvp.value kvp.quotedValue
  | none => printArg existing.name existing.value existing.quotedValue

end Marks

section Texts

theorem equalsOf_set (text : Text) (i equals : Nat) (set : equals ≠ 0) :
    equalsOf i equals text = equals := by
  induction text generalizing i with
  | nil => rfl
  | cons c rest ih => simpa [equalsOf, set] using ih (i + 1)

/-- The key of an argument with a value is followed by `=`. -/
theorem text_of_pair (text : Text) (value : Text) (has : (pairOf text).2 = some value) :
    text = (pairOf text).1 ++ '=' :: value := by
  have at_key : ∀ (t : Text) i, 0 < i → equalsOf i 0 t ≠ 0 →
      ∃ j, equalsOf i 0 t = i + j ∧ t[j]? = some '=' := by
    intro t
    induction t with
    | nil => exact fun _ _ none => absurd rfl none
    | cons c rest ih =>
      intro i positive some
      rw [equalsOf] at some ⊢
      by_cases sign : c = '='
      · refine ⟨0, ?_, by simp [sign]⟩
        simp only [sign, decide_true, Bool.and_self, if_true]
        exact equalsOf_set rest _ i (by omega)
      · simp only [sign, decide_false, Bool.and_false, Bool.false_eq_true, if_false] at some ⊢
        obtain ⟨j, same, found⟩ := ih (i + 1) (by omega) some
        exact ⟨j + 1, by omega, by simpa using found⟩
  have shorter : keylenOf text < text.length := by
    by_contra whole
    simp [pairOf, whole] at has
  have key : keylenOf text = equalsOf 0 0 text ∧ equalsOf 0 0 text ≠ 0 := by
    unfold keylenOf at shorter ⊢
    by_cases none : equalsOf 0 0 text = 0
    · rw [if_neg (fun some => some none)] at shorter
      omega
    · rw [if_pos none]
      exact ⟨rfl, none⟩
  have sign : text[keylenOf text]? = some '=' := by
    cases text with
    | nil => exact absurd rfl key.2
    | cons c rest =>
      have start : equalsOf 0 0 (c :: rest) = equalsOf 1 0 rest := by simp [equalsOf]
      rw [key.1, start]
      obtain ⟨j, same, found⟩ := at_key rest 1 (by decide) (start ▸ key.2)
      rw [same, Nat.add_comm, List.getElem?_cons_succ, found]
  have dropped : value = text.drop (keylenOf text + 1) := by
    simpa [pairOf, shorter] using has.symm
  obtain ⟨bound, char⟩ := List.getElem?_eq_some_iff.mp sign
  rw [dropped, pairOf, ← char, ← List.drop_eq_getElem_cons bound, List.take_append_drop]

theorem text_without_value (text : Text) (has : (pairOf text).2 = none) :
    text = (pairOf text).1 := by
  have whole : ¬keylenOf text < text.length := by
    intro shorter
    simp [pairOf, shorter] at has
  rw [pairOf, List.take_of_length_le (by omega)]

variable {kvp : Kvpair} (wellFormed : WellFormed kvp)

end Texts

end Filogic.Bootargs
