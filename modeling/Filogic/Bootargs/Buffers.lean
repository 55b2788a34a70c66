import Filogic.Bootargs.Asked
import Filogic.Bootargs.Summary

/-! The buffers of the command line: where `parse_bootargs` reads and what it asks `strndup` for, and
where `merge_bootargs` writes. -/

namespace Filogic.Bootargs.Buffers
open Lib
open Summary (nul)

/-- A string in the device tree, whose length is an `int` -/
structure CString where
  text : Text
  plain : nul ∉ text
  short : text.length < 2 ^ 31

def CString.buffer (str : CString) : Text := str.text ++ [nul]

section Parse

/-- What `parse_bootargs` has counted and filled, and the lengths that it has given `strndup` -/
structure Filled where
  count : Nat
  items : List Kvpair
  lengths : List Nat

end Parse

section Merge

/-- The bytes that `merge_bootargs` allocates: `len + 1` is a `uint32_t`. -/
def allocated (items newPairs : List Kvpair) : Nat :=
  ((estimate items + estimate newPairs) % 2 ^ 32 + 1) % 2 ^ 32

end Merge

section Claims

end Claims

section Reads

variable (str : CString)

/-- The place of what is left of the string -/
def CString.place (rest : Text) : Nat := str.text.length - rest.length

variable {str}

/-- The lengths that `strndup` is given for an argument -/
def sizes (a : Arg) : List Nat :=
  if a.keylen < a.len then
    if a.p[a.keylen + 1]? = some quote then [a.keylen, sizeSub a.len (a.keylen + 3)]
    else [a.keylen, sizeSub a.len (a.keylen + 1)]
  else [a.keylen]

theorem place_self (str : CString) : str.place str.text = 0 := Nat.sub_self _

end Reads

section Writes

end Writes

section Settled

end Settled

end Filogic.Bootargs.Buffers
