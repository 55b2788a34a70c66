import Mathlib

/-! Places in a row around a ring of `n` places, counted from 0 without a bound and taken
modulo `n`. -/

namespace Filogic.Lib

def around (n start len : Nat) : List Nat := (List.range' start len).map (· % n)

namespace around

variable (n start : Nat)

@[simp] theorem zero : around n start 0 = [] := rfl

@[simp] theorem length (len : Nat) : (around n start len).length = len := by
  simp [around]

theorem succ (len : Nat) :
    around n start (len + 1) = around n start len ++ [(start + len) % n] := by
  simp [around, List.range'_concat]

theorem cons (len : Nat) :
    around n start (len + 1) = start % n :: around n (start + 1) len := rfl

theorem append (a b : Nat) :
    around n start (a + b) = around n start a ++ around n (start + a) b := by
  rw [around, ← List.range'_append_1, List.map_append]
  rfl

theorem mem (len d : Nat) : d ∈ around n start len ↔ ∃ j < len, d = (start + j) % n := by
  simp only [around, List.mem_map, List.mem_range'_1]
  constructor
  · rintro ⟨place, bounds, rfl⟩
    exact ⟨place - start, by omega, by rw [show start + (place - start) = place by omega]⟩
  · rintro ⟨j, below, rfl⟩
    exact ⟨start + j, by omega, rfl⟩

/-- Within one time around, places differ. -/
theorem inj (i j : Nat) (first : i < n) (second : j < n)
    (same : (start + i) % n = (start + j) % n) : i = j := by
  have congruent : i ≡ j [MOD n] := Nat.ModEq.add_left_cancel' start same
  rwa [Nat.ModEq, Nat.mod_eq_of_lt first, Nat.mod_eq_of_lt second] at congruent

theorem mem_iff (len j : Nat) (below : j < n) (short : len ≤ n) :
    (start + j) % n ∈ around n start len ↔ j < len := by
  rw [mem]
  constructor
  · rintro ⟨i, less, same⟩
    rw [inj n start j i below (by omega) same]
    exact less
  · exact fun less => ⟨j, less, rfl⟩

theorem nodup (len : Nat) (short : len ≤ n) : (around n start len).Nodup := by
  induction len with
  | zero => simp
  | succ len ih =>
    rw [succ, List.nodup_append]
    refine ⟨ih (by omega), by simp, ?_⟩
    rintro a before b last rfl
    rw [List.mem_singleton] at last
    rw [last, mem_iff n start len len (by omega) (by omega)] at before
    exact lt_irrefl _ before

/-- All places are met in one time around. -/
theorem reach (d : Nat) (below : d < n) : ∃ j < n, d = (start + j) % n := by
  refine ⟨(d + (n - start % n)) % n, Nat.mod_lt _ (by omega), ?_⟩
  have rest := Nat.mod_lt start (show 0 < n by omega)
  rw [Nat.add_mod_mod, ← Nat.mod_add_mod,
    show start % n + (d + (n - start % n)) = d + n by omega, Nat.add_mod_right,
    Nat.mod_eq_of_lt below]

/-- The places that are not among the first ones are those that follow. -/
theorem mem_rest (len d : Nat) (short : len ≤ n) (below : d < n) :
    d ∈ around n (start + len) (n - len) ↔ d ∉ around n start len := by
  obtain ⟨j, less, rfl⟩ := reach n start d below
  rw [mem_iff n start len j less short]
  constructor
  · intro member
    obtain ⟨i, bound, same⟩ := (mem ..).mp member
    rw [Nat.add_assoc] at same
    have := inj n start j (len + i) less (by omega) same
    omega
  · intro late
    exact (mem ..).mpr ⟨j - len, by omega, by rw [Nat.add_assoc, Nat.add_sub_cancel' (by omega)]⟩

theorem congr (a b len : Nat) (same : a % n = b % n) : around n a len = around n b len := by
  unfold around
  rw [List.range'_eq_map_range, List.range'_eq_map_range, List.map_map, List.map_map]
  apply List.map_congr_left
  intro i _
  change (a + i) % n = (b + i) % n
  rw [Nat.add_mod, same, ← Nat.add_mod]

/-- Without the first place. -/
theorem mem_tail (len d : Nat) (short : len + 1 ≤ n) :
    d ∈ around n (start + 1) len ↔ d ∈ around n start (len + 1) ∧ d ≠ start % n := by
  have nodup := nodup n start (len + 1) short
  rw [cons] at nodup ⊢
  have outside := (List.nodup_cons.mp nodup).1
  rw [List.mem_cons]
  constructor
  · intro mem
    exact ⟨Or.inr mem, fun same => outside (same ▸ mem)⟩
  · rintro ⟨first | rest, other⟩
    · exact absurd first other
    · exact rest

/-- How many places the second is ahead of the first. -/
def ahead (a b : Nat) : Nat := (b + n - a) % n

/-- The places behind the first, up to the second -/
def between (a b : Nat) : List Nat := around n (a + 1) (ahead n a b)

theorem ahead_eq (a b : Nat) (first : a < n) (second : b < n) :
    ahead n a b = if a ≤ b then b - a else b + n - a := by
  unfold ahead
  split_ifs
  · rw [show b + n - a = b - a + n by omega, Nat.add_mod_right, Nat.mod_eq_of_lt (by omega)]
  · rw [Nat.mod_eq_of_lt (by omega)]

theorem next_eq (b : Nat) (below : b < n) : (b + 1) % n = if b + 1 = n then 0 else b + 1 := by
  split_ifs with last
  · rw [last, Nat.mod_self]
  · rw [Nat.mod_eq_of_lt (by omega)]

theorem ahead_lt (a b : Nat) (below : a < n) : ahead n a b < n := Nat.mod_lt _ (by omega)

theorem add_ahead (a b : Nat) (first : a < n) (second : b < n) : (a + ahead n a b) % n = b := by
  rw [ahead_eq n a b first second]
  split_ifs
  · rw [show a + (b - a) = b by omega, Nat.mod_eq_of_lt second]
  · rw [show a + (b + n - a) = b + n by omega, Nat.add_mod_right, Nat.mod_eq_of_lt second]

theorem ahead_next (a b : Nat) (first : a < n) (second : b < n) (room : a ≠ (b + 1) % n) :
    ahead n a ((b + 1) % n) = ahead n a b + 1 := by
  have next := next_eq n b second
  have below := Nat.mod_lt (b + 1) (show 0 < n by omega)
  rw [ahead_eq n a _ first below, ahead_eq n a b first second]
  split_ifs at next ⊢ <;> omega

theorem next_ahead (a b : Nat) (first : a < n) (second : b < n) (other : a ≠ b) :
    ahead n a b = ahead n ((a + 1) % n) b + 1 := by
  have next := next_eq n a first
  have below := Nat.mod_lt (a + 1) (show 0 < n by omega)
  rw [ahead_eq n _ b below second, ahead_eq n a b first second]
  split_ifs at next ⊢ <;> omega

@[simp] theorem between_self (a : Nat) (below : a < n) : between n a a = [] := by
  unfold between
  rw [ahead_eq n a a below below, if_pos (Nat.le_refl a), Nat.sub_self, zero]

theorem between_eq_nil (a b : Nat) (first : a < n) (second : b < n) :
    between n a b = [] ↔ a = b := by
  constructor
  · intro empty
    have none_ : ahead n a b = 0 := by
      rw [← length n (a + 1) (ahead n a b)]
      exact congrArg List.length empty
    have same := add_ahead n a b first second
    rwa [none_, Nat.add_zero, Nat.mod_eq_of_lt first] at same
  · rintro rfl
    exact between_self n a first

/-- The second place moves on. -/
theorem between_next (a b : Nat) (first : a < n) (second : b < n) (room : a ≠ (b + 1) % n) :
    between n a ((b + 1) % n) = between n a b ++ [(b + 1) % n] := by
  unfold between
  rw [ahead_next n a b first second room, succ]
  congr 2
  rw [show a + 1 + ahead n a b = a + ahead n a b + 1 by omega, Nat.add_mod,
    add_ahead n a b first second]
  exact Nat.add_mod_mod b 1 n

/-- The first place moves on. -/
theorem next_between (a b : Nat) (first : a < n) (second : b < n) (other : a ≠ b) :
    between n a b = (a + 1) % n :: between n ((a + 1) % n) b := by
  unfold between
  rw [next_ahead n a b first second other, cons]
  congr 1
  apply congr
  rw [Nat.mod_add_mod]

theorem next_notMem (a b : Nat) (first : a < n) (second : b < n) (room : a ≠ (b + 1) % n) :
    (b + 1) % n ∉ between n a b := by
  have nodup : (between n a ((b + 1) % n)).Nodup :=
    nodup n _ _ (Nat.le_of_lt (ahead_lt n a _ first))
  rw [between_next n a b first second room] at nodup
  exact fun member => (List.nodup_append.mp nodup).2.2 _ member _ (List.mem_singleton_self _) rfl

end around

end Filogic.Lib
