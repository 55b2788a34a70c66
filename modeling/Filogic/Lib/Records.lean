import Mathlib.Tactic

/-! Records one behind another, each of the length that its header says, with padding to four bytes. -/

namespace Filogic.Lib

section Records

variable (header : Nat) (size : Nat → Nat) (stop : Nat)

/-- The record at an offset has a header, and ends where the others do or before. -/
def RecordFits (o : Nat) : Prop := header ≤ size o ∧ o + size o ≤ stop

instance (o : Nat) : Decidable (RecordFits header size stop o) :=
  inferInstanceAs (Decidable (_ ∧ _))

def nextRecord (o : Nat) : Nat := o + (size o + 3) / 4 * 4

/-- The records that a walk from an offset on comes to, up to the first that does not fit. -/
inductive Walk : Nat → Nat → Prop
  | here {o : Nat} (fits : RecordFits header size stop o) : Walk o o
  | on {o last : Nat} (fits : RecordFits header size stop o)
      (rest : Walk (nextRecord size o) last) : Walk o last

/-- The walk takes up all bytes, but for padding at the end. -/
structure WalksThrough (start : Nat) : Prop where
  first : start = stop ∨ RecordFits header size stop start
  next : ∀ o, Walk header size stop start o →
    stop ≤ nextRecord size o ∨ RecordFits header size stop (nextRecord size o)

variable {header size stop} {start o : Nat}

theorem nextRecord_le (size : Nat → Nat) (o : Nat) : o + size o ≤ nextRecord size o := by
  unfold nextRecord
  omega

namespace Walk

theorem start_le (walk : Walk header size stop start o) : start ≤ o := by
  induction walk with
  | here fits => exact le_rfl
  | @on o last fits rest ih => exact le_trans (le_trans (Nat.le_add_right o _) (nextRecord_le size o)) ih

theorem fits (walk : Walk header size stop start o) : RecordFits header size stop o := by
  induction walk with
  | here fits => exact fits
  | on _ _ ih => exact ih

theorem snoc (walk : Walk header size stop start o)
    (next : RecordFits header size stop (nextRecord size o)) :
    Walk header size stop start (nextRecord size o) := by
  induction walk with
  | here fits => exact on fits (here next)
  | on fits _ ih => exact on fits (ih next)

/-- A walk that takes up all bytes has a last record, if any. -/
theorem exists_last (whole : WalksThrough header size stop start) (some_ : 0 < header)
    (walk : Walk header size stop start o) :
    ∃ last, Walk header size stop start last ∧ stop ≤ nextRecord size last := by
  induction left : stop - o using Nat.strong_induction_on generalizing o with
  | _ n ih =>
    obtain ended | next := whole.next o walk
    · exact ⟨o, walk, ended⟩
    · have ahead : o + 1 ≤ nextRecord size o := by
        have some_size := walk.fits.1
        have := nextRecord_le size o
        omega
      have inside := next.2
      exact ih _ (by have := next.1; omega) (walk.snoc next) rfl

end Walk

end Records

end Filogic.Lib
