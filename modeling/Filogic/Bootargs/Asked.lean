import Filogic.Bootargs.Aligned

/-! What is written for each argument against what should be, and how far both are read alike. -/

namespace Filogic.Bootargs

section Asked

variable (new : NewPairs)

def Kvpair.print (kvp : Kvpair) : Text := printArg kvp.name kvp.value kvp.quotedValue

/-- What should be written for an argument. -/
def askedOf (a : Arg) : Text :=
  match new.find a.pair.1 with
  | some kvp => kvp.print
  | none => a.text

variable {new} {text n : Text}

end Asked

section Joined

/-- What stands behind the first of several texts. -/
theorem joined_eq (text : Text) (rest : List Text) :
    ∃ stuff, joined (text :: rest) = text ++ stuff ∧
      (stuff = [] ∧ rest = [] ∨ stuff = ' ' :: joined rest) ∧
      weight stuff = (rest.map weight).sum := by
  cases rest with
  | nil => exact ⟨[], by simp [joined_singleton], .inl ⟨rfl, rfl⟩, rfl⟩
  | cons next later =>
    refine ⟨' ' :: joined (next :: later), joined_cons (List.cons_ne_nil _ _), .inr rfl, ?_⟩
    have blank : solid ' ' = false := by decide
    rw [← weight_joined]
    simp [weight, blank]

variable {text written : Text} {pieces : List (Text × Text)}

end Joined

section Lone

variable {new : NewPairs}

end Lone

end Filogic.Bootargs
