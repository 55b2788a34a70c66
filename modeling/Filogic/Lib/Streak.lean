import Filogic.Lib.Runs

/-! How long a condition has held without a break, counters of it, and loops that treat the
members of an array one by one. -/

namespace Filogic.Lib

universe u

/-- The length of the unbroken run of `true` that a history, newest first, starts with. -/
def streak : List Bool → Nat
  | true :: earlier => streak earlier + 1
  | _ => 0

@[simp] theorem streak_nil : streak [] = 0 := rfl
@[simp] theorem streak_true (earlier : List Bool) :
    streak (true :: earlier) = streak earlier + 1 := rfl
@[simp] theorem streak_false (earlier : List Bool) : streak (false :: earlier) = 0 := rfl

section Sweep

variable {δ : Type u}

/-- Updating the members of a list of places one after the other. -/
theorem foldl_update {ι : Type*} [DecidableEq ι] (f : ι → δ → δ) (places : List ι)
    (nodup : places.Nodup) (array : ι → δ) (i : ι) :
    places.foldl (fun array j => Function.update array j (f j (array j))) array i =
      if i ∈ places then f i (array i) else array i := by
  induction places generalizing array with
  | nil => simp
  | cons j rest ih =>
    obtain ⟨fresh, nodup⟩ := List.nodup_cons.mp nodup
    rw [List.foldl_cons, ih nodup]
    by_cases first : i = j
    · subst first
      simp [fresh]
    · simp [first]

/-- `for (i = 0; i < n; i++)` over an array whose members are treated one by one; the flag is
raised by any of them. -/
def sweep (body : Nat → δ → δ × Bool) (n : Nat) (array : Nat → δ) : (Nat → δ) × Bool :=
  (List.range n).foldl (fun s i =>
    (Function.update s.1 i (body i (s.1 i)).1, s.2 || (body i (s.1 i)).2)) (array, false)

theorem sweep_succ (body : Nat → δ → δ × Bool) (n : Nat) (array : Nat → δ) :
    sweep body (n + 1) array =
      (Function.update (sweep body n array).1 n (body n ((sweep body n array).1 n)).1,
        (sweep body n array).2 || (body n ((sweep body n array).1 n)).2) := by
  simp [sweep, List.range_succ]

theorem sweep_fst (body : Nat → δ → δ × Bool) (n : Nat) (array : Nat → δ) (i : Nat) :
    (sweep body n array).1 i = if i < n then (body i (array i)).1 else array i := by
  induction n with
  | zero => simp [sweep]
  | succ n ih =>
    rw [sweep_succ]
    by_cases last : i = n
    · subst last
      simp [ih]
    · have earlier : i < n + 1 ↔ i < n := by omega
      simp [last, ih, earlier]

theorem sweep_snd (body : Nat → δ → δ × Bool) (n : Nat) (array : Nat → δ) :
    (sweep body n array).2 = true ↔ ∃ i < n, (body i (array i)).2 = true := by
  induction n with
  | zero => simp [sweep]
  | succ n ih =>
    rw [sweep_succ, sweep_fst]
    simp only [lt_irrefl, if_false, Bool.or_eq_true, ih]
    constructor
    · rintro (⟨i, below, hit⟩ | hit)
      · exact ⟨i, by omega, hit⟩
      · exact ⟨n, by omega, hit⟩
    · rintro ⟨i, below, hit⟩
      rcases Nat.lt_succ_iff_lt_or_eq.mp below with below | rfl
      · exact Or.inl ⟨i, below, hit⟩
      · exact Or.inr hit

end Sweep

end Filogic.Lib
