import Mathlib

/-! The C library's conversions of strings to numbers, as the switch tool uses them. A string has no
null character, and an `unsigned long` has 64 bits. -/

namespace Filogic.SwitchTool

/-- `isspace` -/
def isSpace (c : Char) : Bool := c.toNat = 32 || (9 ≤ c.toNat && c.toNat ≤ 13)

/-- The value of a character as a digit, which is below the radix for a digit of it. -/
def digitOf (c : Char) : Nat :=
  if 48 ≤ c.toNat ∧ c.toNat ≤ 57 then c.toNat - 48
  else if 97 ≤ c.toNat ∧ c.toNat ≤ 122 then c.toNat - 87
  else if 65 ≤ c.toNat ∧ c.toNat ≤ 90 then c.toNat - 55
  else 36

/-- Blanks and a sign in front of a number. -/
def signed (s : List Char) : Bool × List Char :=
  let t := s.dropWhile isSpace
  (t.head? = some '-', if t.head? = some '-' ∨ t.head? = some '+' then t.tail else t)

/-- `0x` in front of a digit. -/
def isHex (t : List Char) : Bool :=
  (t.take 2 = ['0', 'x'] || t.take 2 = ['0', 'X']) && (t.drop 2).head?.any fun c => digitOf c < 16

/-- The digits in front, as a number, and what follows them. -/
def digits (radix : Nat) (t : List Char) : List Char := t.takeWhile fun c => digitOf c < radix

def number (radix : Nat) (ds : List Char) : Nat := ds.foldl (fun n c => n * radix + digitOf c) 0

/-- What `strtoul` returns, where it sets `*endptr`, and whether it sets `errno`. -/
structure Strtoul where
  value : Nat
  endptr : List Char
  erange : Bool
deriving DecidableEq, Repr

def strtoul (base : Nat) (s : List Char) : Strtoul :=
  let (negative, t) := signed s
  let radix :=
    if base = 0 then (if isHex t then 16 else if t.head? = some '0' then 8 else 10) else base
  let t := if radix = 16 ∧ isHex t then t.drop 2 else t
  let ds := digits radix t
  if ds = [] then ⟨0, s, false⟩
  else if number radix ds ≥ 2 ^ 64 then ⟨2 ^ 64 - 1, t.drop ds.length, true⟩
  else if negative then ⟨(2 ^ 64 - number radix ds) % 2 ^ 64, t.drop ds.length, false⟩
  else ⟨number radix ds, t.drop ds.length, false⟩

/-- `atoi`: the `long` of `strtol`, kept within its bounds, as an `int`. -/
def atoi (s : List Char) : Int :=
  let (negative, t) := signed s
  let n := number 10 (digits 10 t)
  (if negative then max (-(n : Int)) (-2 ^ 63) else min (n : Int) (2 ^ 63 - 1)).bmod (2 ^ 32)

/-- A string of decimal digits. -/
def Decimal (s : List Char) : Prop := s ≠ [] ∧ ∀ c ∈ s, 48 ≤ c.toNat ∧ c.toNat ≤ 57

instance (s : List Char) : Decidable (Decimal s) :=
  -- the instance for finite types would run through all characters
  have : Decidable (∀ c ∈ s, 48 ≤ c.toNat ∧ c.toNat ≤ 57) := List.decidableBAll _ s
  inferInstanceAs (Decidable (s ≠ [] ∧ _))

/-- The number that a decimal string denotes. -/
def denoted (s : List Char) : Nat := s.foldl (fun n c => n * 10 + (c.toNat - 48)) 0

section Decimals

variable {s : List Char}

theorem digitOf_decimal {c : Char} (digit : 48 ≤ c.toNat ∧ c.toNat ≤ 57) :
    digitOf c = c.toNat - 48 :=
  if_pos digit

theorem Decimal.signed (decimal : Decimal s) : signed s = (false, s) := by
  obtain ⟨c, rest, rfl⟩ := List.exists_cons_of_ne_nil decimal.1
  have digit := decimal.2 c List.mem_cons_self
  have kept : (c :: rest).dropWhile isSpace = c :: rest := by
    apply List.dropWhile_cons_of_neg
    simp only [isSpace]
    grind
  have minus : c ≠ '-' := by
    rintro rfl
    exact absurd digit (by decide)
  have plus : c ≠ '+' := by
    rintro rfl
    exact absurd digit (by decide)
  simp [SwitchTool.signed, kept, minus, plus]

theorem Decimal.digits (decimal : Decimal s) : digits 10 s = s := by
  rw [SwitchTool.digits, List.takeWhile_eq_self_iff]
  intro c member
  have digit := decimal.2 c member
  rw [digitOf_decimal digit]
  simp only [decide_eq_true_eq]
  omega

theorem Decimal.number (decimal : Decimal s) : number 10 s = denoted s := by
  have general : ∀ (t : List Char) (n : Nat), (∀ c ∈ t, 48 ≤ c.toNat ∧ c.toNat ≤ 57) →
      t.foldl (fun n c => n * 10 + digitOf c) n = t.foldl (fun n c => n * 10 + (c.toNat - 48)) n := by
    intro t
    induction t with
    | nil => exact fun _ _ => rfl
    | cons c t ih =>
      intro n all
      simp only [List.foldl_cons, digitOf_decimal (all c List.mem_cons_self)]
      exact ih _ fun c' member => all c' (List.mem_cons_of_mem c member)
  exact general s 0 decimal.2

/-- A decimal string is taken as a whole, and as its number unless that is too large. -/
theorem strtoul_decimal (decimal : Decimal s) :
    strtoul 10 s = if denoted s < 2 ^ 64 then ⟨denoted s, [], false⟩ else ⟨2 ^ 64 - 1, [], true⟩ := by
  have nonempty := decimal.1
  have small : ¬(10 = 16 ∧ isHex s = true) := by omega
  simp only [strtoul, decimal.signed, decimal.digits, decimal.number, OfNat.ofNat_ne_zero,
    ↓reduceIte, if_neg small, if_neg nonempty, List.drop_length, Bool.false_eq_true]
  by_cases fits : denoted s < 2 ^ 64
  · rw [if_pos fits, if_neg (by omega)]
  · rw [if_neg fits, if_pos (by omega)]

theorem atoi_decimal (decimal : Decimal s) :
    atoi s = (min (denoted s : Int) (2 ^ 63 - 1)).bmod (2 ^ 32) := by
  simp only [atoi, decimal.signed, decimal.digits, decimal.number, Bool.false_eq_true, ↓reduceIte]

end Decimals

end Filogic.SwitchTool
