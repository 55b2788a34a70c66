import Mathlib

/-! Lists of pairs that match their first parts with their second parts one to one, and the lookup
in either direction. -/

namespace Filogic.Lib

variable {α β : Type*}

/-- No two pairs have one part in common and not the other. -/
def OneToOne (pairs : List (α × β)) : Prop :=
  ∀ p ∈ pairs, ∀ q ∈ pairs, p.1 = q.1 ↔ p.2 = q.2

/-- The second part of the first pair with this first part. -/
def image [DecidableEq α] (pairs : List (α × β)) (a : α) : Option β := (pairs.find? (·.1 = a)).map Prod.snd

/-- The first part of the first pair with this second part. -/
def preimage [DecidableEq β] (pairs : List (α × β)) (b : β) : Option α := (pairs.find? (·.2 = b)).map Prod.fst

theorem OneToOne.nil : OneToOne ([] : List (α × β)) := fun _ none_ => nomatch none_

theorem OneToOne.sublist {pairs rest : List (α × β)} (matched : OneToOne pairs)
    (sub : ∀ p ∈ rest, p ∈ pairs) : OneToOne rest :=
  fun p hp q hq => matched p (sub p hp) q (sub q hq)

theorem oneToOne_cons (p : α × β) (pairs : List (α × β)) :
    OneToOne (p :: pairs) ↔ OneToOne pairs ∧ ∀ q ∈ pairs, q.1 = p.1 ↔ q.2 = p.2 := by
  constructor
  · intro matched
    apply And.intro
    · exact matched.sublist fun q member => List.mem_cons_of_mem p member
    · exact fun q member => matched q (List.mem_cons_of_mem p member) p List.mem_cons_self
  · rintro ⟨matched, fits⟩ q hq r hr
    rcases List.mem_cons.mp hq with rfl | inQ
    · rcases List.mem_cons.mp hr with rfl | inR
      · exact iff_of_true rfl rfl
      · rw [eq_comm, fits r inR, eq_comm]
    · rcases List.mem_cons.mp hr with rfl | inR
      · exact fits q inQ
      · exact matched q inQ r inR

theorem OneToOne.image_iff [DecidableEq α] {pairs : List (α × β)} (matched : OneToOne pairs)
    (a : α) (b : β) :
    image pairs a = some b ↔ (a, b) ∈ pairs := by
  unfold image
  constructor
  · intro found
    obtain ⟨p, first, rfl⟩ := Option.map_eq_some_iff.mp found
    have key : p.1 = a := by simpa using List.find?_some first
    rw [← key]
    exact List.mem_of_find?_eq_some first
  · intro member
    rcases first : pairs.find? (·.1 = a) with _ | p
    · have none_ := List.find?_eq_none.mp first (a, b) member
      simp at none_
    · have key : p.1 = a := by simpa using List.find?_some first
      have value := (matched p (List.mem_of_find?_eq_some first) (a, b) member).mp key
      rw [first, Option.map_some, value]

theorem OneToOne.preimage_iff [DecidableEq β] {pairs : List (α × β)} (matched : OneToOne pairs)
    (a : α) (b : β) :
    preimage pairs b = some a ↔ (a, b) ∈ pairs := by
  unfold preimage
  constructor
  · intro found
    obtain ⟨p, first, rfl⟩ := Option.map_eq_some_iff.mp found
    have key : p.2 = b := by simpa using List.find?_some first
    rw [← key]
    exact List.mem_of_find?_eq_some first
  · intro member
    rcases first : pairs.find? (·.2 = b) with _ | p
    · have none_ := List.find?_eq_none.mp first (a, b) member
      simp at none_
    · have key : p.2 = b := by simpa using List.find?_some first
      have value := (matched p (List.mem_of_find?_eq_some first) (a, b) member).mpr key
      rw [first, Option.map_some, value]

end Filogic.Lib
