import Filogic.Bootargs.Asked

/-! The rewritten command line is split into what was asked for exactly when every argument can stand by
itself. -/

namespace Filogic.Bootargs

/-- The `bootargs` property: `fdt_getprop` gives its length as an `int`. -/
structure Property where
  text : Text
  short : text.length < 2 ^ 31

/-- Every argument can stand by itself. -/
structure Apart (bootargs : Property) (new : NewPairs) : Prop where
  /-- No argument to be written is empty, starts with a quote, has a blank outside of its quotes, or
  leaves them open for the next one. -/
  readable : AllReadable ((expected bootargs.text new).map textOf)
  /-- A value that is kept and starts with a quote ends with another one. -/
  closed : ∀ arg ∈ split bootargs.text, new.find arg.1 = none →
    ∀ value, arg.2 = some (quote :: value) → value.getLast? = some quote
  any : expected bootargs.text new ≠ []
  /-- All that is to be written fits into the buffer. -/
  room : ((expected bootargs.text new).map fun arg => (textOf arg).length + 1).sum ≤
    (estimate (parseBootargs bootargs.text) + estimate new.pairs) % 2 ^ 32 + 1

section Pieces

variable (new : NewPairs) (ms : List Kvpair)

/-- What is written and what should be, for the arguments of a string and some new pairs. -/
def pieces (str : Text) : List (Text × Text) :=
  (args str).map (fun a => (pieceOf new (item a), askedOf new a)) ++
    ms.map fun kvp => (kvp.print, kvp.print)

variable {new ms}

end Pieces

section Merged

variable (bootargs : Property) (new : NewPairs)

/-- The new pairs that are appended. -/
def appended : List Kvpair := new.missing ((split bootargs.text).map Prod.fst)

variable {bootargs new}

end Merged

section Main

end Main

end Filogic.Bootargs
