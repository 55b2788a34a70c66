import Mathlib

/-! The command line in the device tree: how it is split into arguments, what is kept of each, and how
the new one is put together. A text is the characters of a C string before its terminator. -/

namespace Filogic.Bootargs

abbrev Text := List Char

def quote : Char := Char.ofNat 0x22

/-- `isspace` of the C library in its own locale. -/
def isspace (c : Char) : Bool :=
  c = ' ' || (decide (9 ≤ c.toNat) && decide (c.toNat ≤ 13))

def skipSpaces (str : Text) : Text := str.dropWhile isspace

/-- The loop of `get_arg_next`: where it stops, and `equals`. -/
def scan : Nat → Nat → Bool → Text → Nat × Nat
  | i, equals, _, [] => (i, equals)
  | i, equals, inQuote, c :: rest =>
      if isspace c && !inQuote then (i, equals)
      else
        scan (i + 1) (if equals = 0 && c = '=' then i else equals)
          (if c = quote then !inQuote else inQuote) rest

/-- `get_arg_next`: the string from the argument on, the length of its key, and the string from its
end on. -/
def getArgNext (args : Text) : Option (Text × Nat × Text) :=
  match skipSpaces args with
  | [] => none
  | c :: rest =>
      let args := if c = quote then rest else c :: rest
      let (i, equals) := scan 0 0 (c = quote) args
      some (args, if equals ≠ 0 then equals else i, args.drop i)

/-- What a call of `get_arg_next` gives: `p`, `keylen` and `len`. -/
structure Arg where
  p : Text
  keylen : Nat
  len : Nat
  deriving DecidableEq, Repr

/-- The calls until there is no argument left; each one takes a character at least. -/
def argsWithin : Nat → Text → List Arg
  | 0, _ => []
  | fuel + 1, n =>
      match getArgNext n with
      | none => []
      | some (p, keylen, n) => ⟨p, keylen, p.length - n.length⟩ :: argsWithin fuel n

def args (str : Text) : List Arg := argsWithin str.length str

def Arg.text (a : Arg) : Text := a.p.take a.len

/-- The parameter and its value by the rules of `get_arg_next`: what is before and after the `=`. -/
def Arg.pair (a : Arg) : Text × Option Text :=
  (a.p.take a.keylen, if a.keylen < a.len then some (a.text.drop (a.keylen + 1)) else none)

def split (str : Text) : List (Text × Option Text) := (args str).map Arg.pair

/-- `struct kvpair` -/
structure Kvpair where
  name : Text
  value : Option Text
  quotedValue : Bool
  deleted : Bool
  deriving DecidableEq, Repr

/-- The difference of two numbers below `2 ^ 64` as a `size_t`. -/
def sizeSub (a b : Nat) : Nat := if b ≤ a then a - b else 2 ^ 64 - (b - a)

def strndup (str : Text) (n : Nat) : Text := str.take n

/-- One item of `parse_bootargs`. -/
def item (a : Arg) : Kvpair :=
  if a.keylen < a.len then
    if a.p[a.keylen + 1]? = some quote then
      ⟨strndup a.p a.keylen,
        some (strndup (a.p.drop (a.keylen + 2)) (sizeSub a.len (a.keylen + 3))), true, false⟩
    else
      ⟨strndup a.p a.keylen,
        some (strndup (a.p.drop (a.keylen + 1)) (sizeSub a.len (a.keylen + 1))), false, false⟩
  else ⟨strndup a.p a.keylen, none, false, false⟩

/-- `parse_bootargs` -/
def parseBootargs (bootargs : Text) : List Kvpair := (args bootargs).map item

/-- `kvpair_find` -/
def kvpairFind (pairs : List Kvpair) (name : Text) : Option Nat :=
  pairs.findIdx? fun kvp => kvp.name = name

/-- What stands after the `=` for a value. -/
def written (value : Text) (quoted : Bool) : Text :=
  if quoted then quote :: value ++ [quote] else value

/-- An argument as `merge_bootargs` writes it, without the blank after it. -/
def printArg (name : Text) (value : Option Text) (quoted : Bool) : Text :=
  match value with
  | none => name
  | some value => name ++ '=' :: written value quoted

/-- The room that `merge_bootargs` estimates for a list, before it is cut to a `uint32_t`. -/
def estimate (pairs : List Kvpair) : Nat :=
  (pairs.map fun kvp => kvp.name.length + (kvp.value.map List.length).getD 0 + 4).sum

end Filogic.Bootargs
