import Mathlib

/-! Strings in buffers of a fixed size: the string ends at the first terminator, and the copies of the
C library, which are none where they would read or write outside the buffer. -/

namespace Filogic.Lib

universe u

variable {α : Type u} [DecidableEq α] (nul : α)

/-- The string that a buffer holds. -/
def cstring (buf : List α) : List α := buf.takeWhile (· ≠ nul)

def strcpy (buf src : List α) : Option (List α) :=
  if src.length < buf.length then some (src ++ nul :: buf.drop (src.length + 1)) else none

/-- All `n` bytes are written, with terminators after a string that is shorter. -/
def strncpy (buf src : List α) (n : Nat) : Option (List α) :=
  if n ≤ buf.length then
    some (src.take n ++ List.replicate (n - src.length) nul ++ buf.drop n)
  else none

def strcat (buf src : List α) : Option (List α) :=
  if nul ∈ buf ∧ (cstring nul buf).length + src.length < buf.length then
    some (cstring nul buf ++ (src ++ nul :: buf.drop ((cstring nul buf).length + src.length + 1)))
  else none

/-- `snprintf(buf, sizeof(buf), "%s", src)` -/
def snprintf (buf src : List α) : List α :=
  if buf.length = 0 then buf
  else
    let kept := src.take (buf.length - 1)
    kept ++ nul :: buf.drop (kept.length + 1)

variable {nul}

theorem cstring_append (src rest : List α) (plain : nul ∉ src) :
    cstring nul (src ++ nul :: rest) = src := by
  unfold cstring
  rw [List.takeWhile_append_of_pos]
  · simp
  · intro a member
    have other : a ≠ nul := fun same => plain (same ▸ member)
    simpa using other

theorem cstring_plain (buf : List α) : nul ∉ cstring nul buf := by
  intro member
  simpa using List.mem_takeWhile_imp member

theorem cstring_length_lt (buf : List α) (ends : nul ∈ buf) :
    (cstring nul buf).length < buf.length := by
  have le := (List.takeWhile_prefix (l := buf) fun a => decide (a ≠ nul)).length_le
  rcases Nat.lt_or_eq_of_le le with less | same
  · exact less
  · have all := (List.takeWhile_prefix (l := buf) fun a => decide (a ≠ nul)).eq_of_length same
    exact absurd (all ▸ ends) (cstring_plain buf)

/-- A buffer holds a string that ends inside it. -/
structure Holding (nul : α) (size : Nat) (src buf : List α) : Prop where
  length : buf.length = size
  ends : nul ∈ buf
  text : cstring nul buf = src

theorem Holding.append {src rest : List α} {size : Nat} (plain : nul ∉ src)
    (length : src.length + (rest.length + 1) = size) : Holding nul size src (src ++ nul :: rest) :=
  ⟨by simp [← length], by simp, cstring_append src rest plain⟩

theorem strcpy_holding (buf src : List α) (plain : nul ∉ src) (room : src.length < buf.length) :
    ∃ after, strcpy nul buf src = some after ∧ Holding nul buf.length src after :=
  ⟨_, if_pos room, .append plain (by simp; omega)⟩

theorem snprintf_holding (buf src : List α) (plain : nul ∉ src) (room : 0 < buf.length) :
    Holding nul buf.length (src.take (buf.length - 1)) (snprintf nul buf src) := by
  unfold snprintf
  rw [if_neg (by omega)]
  refine .append (fun member => plain (List.mem_of_mem_take member)) ?_
  simp
  omega

theorem strcat_holding (size : Nat) (buf first src : List α) (held : Holding nul size first buf)
    (plain : nul ∉ src) (room : first.length + src.length < size) :
    ∃ after, strcat nul buf src = some after ∧ Holding nul size (first ++ src) after := by
  obtain ⟨length, ends, rfl⟩ := held
  refine ⟨_, if_pos ⟨ends, by omega⟩, ?_⟩
  rw [← List.append_assoc]
  refine .append ?_ ?_
  · rw [List.mem_append]
    rintro (left | right)
    · exact cstring_plain buf left
    · exact plain right
  · simp
    omega

/-- A shorter string is padded. -/
theorem strncpy_short (buf src : List α) (n : Nat) (plain : nul ∉ src) (inside : n ≤ buf.length)
    (short : src.length < n) :
    ∃ after, strncpy nul buf src n = some after ∧ Holding nul buf.length src after := by
  refine ⟨_, if_pos inside, ?_⟩
  obtain ⟨k, pads⟩ : ∃ k, n - src.length = k + 1 := ⟨n - src.length - 1, by omega⟩
  rw [List.take_of_length_le short.le, pads, List.replicate_succ, List.append_assoc,
    List.cons_append]
  refine .append plain ?_
  simp
  omega

omit [DecidableEq α] in
/-- A longer string is cut, and ends only where a terminator stands already. -/
theorem strncpy_long (buf src : List α) (n : Nat) (inside : n ≤ buf.length) (long : n ≤ src.length) :
    strncpy nul buf src n = some (src.take n ++ buf.drop n) := by
  rw [strncpy, if_pos inside, Nat.sub_eq_zero_of_le long, List.replicate_zero, List.append_nil]

/-- With a terminator behind the part that is written, the string is cut there. -/
theorem strncpy_cut (buf src rest : List α) (n : Nat) (plain : nul ∉ src) (inside : n ≤ buf.length)
    (behind : buf.drop n = nul :: rest) :
    ∃ after, strncpy nul buf src n = some after ∧ Holding nul buf.length (src.take n) after ∧
      after.drop n = nul :: rest := by
  have length : n + (rest.length + 1) = buf.length := by
    have dropped := congrArg List.length behind
    simp at dropped
    omega
  rcases Nat.lt_or_ge src.length n with short | long
  · obtain ⟨after, copied, held⟩ := strncpy_short buf src n plain inside short
    refine ⟨after, copied, by rwa [List.take_of_length_le short.le], ?_⟩
    rw [strncpy, if_pos inside] at copied
    obtain rfl := Option.some.inj copied
    rw [List.drop_append_of_le_length (by simp; omega), List.drop_of_length_le (by simp; omega),
      List.nil_append, behind]
  · refine ⟨_, strncpy_long buf src n inside long, ?_, ?_⟩
    · rw [behind]
      refine .append (fun member => plain (List.mem_of_mem_take member)) ?_
      rw [List.length_take, Nat.min_eq_left long, length]
    · rw [List.drop_append_of_le_length (by simp; omega),
        List.drop_of_length_le (by simp), List.nil_append, behind]

omit [DecidableEq α] in
/-- A string as long as the buffer leaves none. -/
theorem strncpy_full (buf src : List α) (plain : nul ∉ src) (long : buf.length ≤ src.length) :
    ∃ after, strncpy nul buf src buf.length = some after ∧ nul ∉ after := by
  refine ⟨_, strncpy_long buf src _ (le_refl _) long, ?_⟩
  rw [List.drop_length, List.append_nil]
  exact fun member => plain (List.mem_of_mem_take member)

end Filogic.Lib
