import Filogic.Lib.Prog
import Filogic.Lib.Bytes

/-! A stream of bytes cut into pages: the first page takes it from a column on, the pages behind it
from their start. The page buffer is filled up with 0xff around the bytes of the page. -/

namespace Filogic.Lib

/-- How far a stream has come: the column in the page at hand, the bytes that are done and those
that are left. -/
structure Stream where
  col : Nat
  done : Nat
  left : Nat
  deriving DecidableEq, Repr

namespace Stream

/-- The bytes of the page at hand. -/
def chunk (size : Nat) (s : Stream) : Nat := min (size - s.col) s.left

/-- The stream behind the page at hand; a stream that is exhausted stays as it is. -/
def next (size : Nat) (s : Stream) : Stream :=
  if s.left = 0 then s
  else { col := 0, done := s.done + s.chunk size, left := s.left - s.chunk size }

/-- The stream of `len` bytes from column `off` on, behind its first `k` pages. -/
def behind (size off len k : Nat) : Stream := (next size)^[k] ⟨off, 0, len⟩

theorem behind_succ (size off len k : Nat) :
    behind size off len (k + 1) = (behind size off len k).next size :=
  Function.iterate_succ_apply' _ _ _

theorem next_left_lt (size : Nat) (s : Stream) (room : s.col < size) (more : s.left ≠ 0) :
    (s.next size).left < s.left := by
  rw [next, if_neg more]
  simp only [chunk]
  omega

theorem next_done_le (size : Nat) (s : Stream) : s.done ≤ (s.next size).done := by
  rw [next]
  split_ifs
  · exact le_rfl
  · exact Nat.le_add_right _ _

theorem next_left_le (size : Nat) (s : Stream) : (s.next size).left ≤ s.left := by
  rw [next]
  split_ifs
  · exact le_rfl
  · exact Nat.sub_le _ _

section

variable {size off : Nat} (fits : off < size) (len : Nat)
include fits

theorem behind_done (k : Nat) :
    (behind size off len k).done = min len (k * size - off) ∧
      (behind size off len k).left = len - min len (k * size - off) ∧
      (behind size off len k).col = if k = 0 ∨ len = 0 then off else 0 := by
  induction k with
  | zero => simp [behind]
  | succ k ih =>
    obtain ⟨done, left, col⟩ := ih
    have far : (k + 1) * size = k * size + size := Nat.succ_mul k size
    have start : k = 0 → k * size = 0 := by
      rintro rfl
      exact Nat.zero_mul _
    have later : k ≠ 0 → size ≤ k * size := fun more => Nat.le_mul_of_pos_left _ (by omega)
    rw [behind_succ, next]
    by_cases ended : len - min len (k * size - off) = 0
    · rw [left, if_pos ended, done, left, col]
      refine ⟨by omega, by omega, ?_⟩
      by_cases first : k = 0
      · have := start first
        have none : len = 0 := by omega
        simp [none]
      · simp [first]
    · have some : len ≠ 0 := by omega
      have column : (behind size off len k).col = if k = 0 then off else 0 := by
        rw [col]
        simp [some]
      rw [left, if_neg ended]
      simp only [chunk, done, left, column, some, or_false, Nat.add_eq_zero_iff, one_ne_zero,
        and_false, if_false, and_true]
      by_cases first : k = 0
      · have := start first
        rw [if_pos first]
        omega
      · have := later first
        rw [if_neg first]
        omega

theorem behind_col (k : Nat) : (behind size off len k).col < size := by
  rw [(behind_done fits len k).2.2]
  split_ifs <;> omega

/-- A stream that is exhausted is done. -/
theorem behind_over (k : Nat) (none : (behind size off len k).left = 0) :
    (behind size off len k).done = len := by
  obtain ⟨done, left, -⟩ := behind_done fits len k
  omega

/-- Where the bytes of the page at hand come from. -/
theorem behind_byte (k j : Nat) (more : (behind size off len k).left ≠ 0) :
    k * size + ((behind size off len k).col + j) = off + ((behind size off len k).done + j) := by
  obtain ⟨done, left, col⟩ := behind_done fits len k
  have some : len ≠ 0 := by omega
  rw [col, done]
  by_cases first : k = 0
  · subst first
    simp
  · have later : size ≤ k * size := Nat.le_mul_of_pos_left _ (by omega)
    simp only [first, some, or_self, if_false]
    omega

/-- The last page that the stream has bytes for. -/
theorem left_pos_iff (k : Nat) :
    (behind size off len k).left ≠ 0 ↔ 0 < len ∧ k ≤ (off + len - 1) / size := by
  obtain ⟨-, left, -⟩ := behind_done fits len k
  rw [left, Nat.le_div_iff_mul_le (by omega)]
  omega

end

end Stream

/-- Page `k` of a stream in a buffer: the bytes that lie in it, with 0xff around them. -/
def pageSlice (buf : Bytes) (size off len k : Nat) : Bytes := fun j =>
  if j < size ∧ off ≤ k * size + j ∧ k * size + j < off + len then buf (k * size + j - off)
  else 0xff

theorem pageSlice_empty (buf : Bytes) (size off k j : Nat) : pageSlice buf size off 0 k j = 0xff :=
  if_neg (by omega)

theorem pageSlice_beyond (buf : Bytes) (size off len k j : Nat) (pos : 0 < size)
    (beyond : (off + len - 1) / size < k) : pageSlice buf size off len k j = 0xff := by
  rw [Nat.div_lt_iff_lt_mul pos] at beyond
  exact if_neg (by omega)

/-- Behind the bytes of the page at hand there are none. -/
theorem pageSlice_behind (buf : Bytes) {size off : Nat} (fits : off < size) (len k j : Nat)
    (more : (Stream.behind size off len k).left ≠ 0)
    (behind : (Stream.behind size off len k).col + (Stream.behind size off len k).chunk size ≤ j) :
    pageSlice buf size off len k j = 0xff := by
  obtain ⟨done, left, -⟩ := Stream.behind_done fits len k
  have place := Stream.behind_byte fits len k 0 more
  rw [Stream.chunk] at behind
  exact if_neg (by omega)

/-- The page buffer from `start` on, `width` bytes of it, filled for the page at hand. -/
def fillPage (cache : Bytes) (start size width : Nat) (buf : Bytes) (s : Stream) : Bytes :=
  ((cache.memset start 0xff s.col).memcpy (start + s.col) buf s.done (s.chunk size)).memset
    (start + s.col + s.chunk size) 0xff (width - s.col - s.chunk size)

theorem fillPage_outside (cache : Bytes) (start size width : Nat) (buf : Bytes) (s : Stream) (j : Nat)
    (room : s.col ≤ size) (wide : size ≤ width) (outside : j < start ∨ start + width ≤ j) :
    fillPage cache start size width buf s j = cache j := by
  have short : s.chunk size ≤ size - s.col := Nat.min_le_left _ _
  rw [fillPage, Bytes.memset_outside _ _ _ _ _ (by omega), Bytes.memcpy_outside _ _ _ _ _ _ (by omega),
    Bytes.memset_outside _ _ _ _ _ (by omega)]

/-- A page that the stream has bytes for is filled with its slice. -/
theorem fillPage_slice (cache : Bytes) (start size width off len k : Nat) (buf : Bytes)
    (fits : off < size) (more : (Stream.behind size off len k).left ≠ 0)
    (j : Nat) (inside : j < width) :
    fillPage cache start size width buf (Stream.behind size off len k) (start + j) =
      pageSlice buf size off len k j := by
  obtain ⟨done, left, col⟩ := Stream.behind_done fits len k
  have start_ : k = 0 → k * size = 0 := by
    rintro rfl
    exact Nat.zero_mul _
  have later : k ≠ 0 → size ≤ k * size := fun more => Nat.le_mul_of_pos_left _ (by omega)
  rw [left] at more
  have column : (Stream.behind size off len k).col = if k = 0 then off else 0 := by
    rw [col]
    simp [show len ≠ 0 by omega]
  have length : (Stream.behind size off len k).chunk size =
      min (size - if k = 0 then off else 0) (len - min len (k * size - off)) := by
    rw [Stream.chunk, left, column]
  rw [fillPage, pageSlice, length, done, column]
  by_cases first : k = 0
  · have zero := start_ first
    simp only [first, if_true, Nat.zero_mul, Nat.zero_sub, Nat.min_zero, Nat.sub_zero, Nat.zero_add]
    by_cases before : j < off
    · rw [Bytes.memset_outside _ _ _ _ _ (by omega), Bytes.memcpy_outside _ _ _ _ _ _ (by omega),
        Bytes.memset_inside _ _ _ _ _ (by omega) (by omega), if_neg (by omega)]
    · by_cases own : j < size ∧ j < off + len
      · rw [Bytes.memset_outside _ _ _ _ _ (by omega),
          Bytes.memcpy_inside _ _ _ _ _ _ (by omega) (by omega), if_pos (by omega)]
        congr 1
        omega
      · rw [Bytes.memset_inside _ _ _ _ _ (by omega) (by omega), if_neg (by omega)]
  · have := later first
    simp only [first, if_false, Nat.add_zero, Nat.sub_zero]
    by_cases own : j < size ∧ k * size + j < off + len
    · rw [Bytes.memset_outside _ _ _ _ _ (by omega),
        Bytes.memcpy_inside _ _ _ _ _ _ (by omega) (by omega), if_pos (by omega)]
      congr 1
      omega
    · rw [Bytes.memset_inside _ _ _ _ _ (by omega) (by omega), if_neg (by omega)]

end Filogic.Lib
