import Mathlib

/-! What is held of some goods, and whether something was given back that was not held. -/

namespace Filogic.Lib

/-- The goods that are held, each as often as it was taken. -/
structure Ledger (α : Type*) where
  held : Multiset α
  fault : Bool

namespace Ledger

variable {α : Type*}

def empty : Ledger α := ⟨0, false⟩

def take (a : α) (l : Ledger α) : Ledger α := { l with held := a ::ₘ l.held }

@[simp] theorem take_held (a : α) (l : Ledger α) : (l.take a).held = a ::ₘ l.held := rfl
@[simp] theorem take_fault (a : α) (l : Ledger α) : (l.take a).fault = l.fault := rfl

variable [DecidableEq α]

/-- Giving back what is not held is a fault. -/
def giveBack (l : Ledger α) (a : α) : Ledger α :=
  if a ∈ l.held then { l with held := l.held.erase a } else { l with fault := true }

/-- Giving back some goods, in any order. -/
def giveAll (l : Ledger α) (goods : Multiset α) : Ledger α :=
  ⟨l.held - goods, l.fault || !decide (goods ≤ l.held)⟩

@[simp] theorem giveAll_zero (l : Ledger α) : l.giveAll 0 = l := by
  simp [giveAll]

theorem giveBack_eq (l : Ledger α) (a : α) : l.giveBack a = l.giveAll {a} := by
  unfold giveBack giveAll
  rw [Multiset.sub_singleton]
  split_ifs with member
  · simp [member]
  · simp [member]

theorem giveAll_add (l : Ledger α) (goods more : Multiset α) :
    l.giveAll (goods + more) = (l.giveAll goods).giveAll more := by
  have parts : goods + more ≤ l.held ↔ goods ≤ l.held ∧ more ≤ l.held - goods := by
    constructor
    · intro both
      exact ⟨le_trans (Multiset.le_add_right goods more) both, le_tsub_of_add_le_left both⟩
    · rintro ⟨first, second⟩
      exact (Multiset.add_le_add_left second).trans (add_tsub_cancel_of_le first).le
  unfold giveAll
  simp only [parts, Bool.decide_and, Bool.not_and, Bool.or_assoc, tsub_add_eq_tsub_tsub]

/-- What was taken last is given back. -/
@[simp] theorem giveBack_take (l : Ledger α) (a : α) : (l.take a).giveBack a = l := by
  have member : a ∈ (l.take a).held := Multiset.mem_cons_self a l.held
  rw [giveBack, if_pos member, take_held, Multiset.erase_cons_head]
  rfl

theorem giveAll_first (goods rest : Multiset α) :
    (⟨goods + rest, false⟩ : Ledger α).giveAll goods = ⟨rest, false⟩ := by
  simp [giveAll]

/-- Nothing is held, and nothing went wrong. -/
def Settled (l : Ledger α) : Prop := l.held = 0 ∧ l.fault = false

/-- A ledger is settled by giving back just what it holds. -/
theorem giveAll_settled (l : Ledger α) (goods : Multiset α) (sound : l.fault = false) :
    (l.giveAll goods).Settled ↔ l.held = goods := by
  unfold Settled giveAll
  simp only [sound, Bool.false_or, Bool.not_eq_false', decide_eq_true_eq, tsub_eq_zero_iff_le]
  exact le_antisymm_iff.symm

end Ledger

end Filogic.Lib
