import Mathlib

/-! Byte buffers as functions of the offset, with the C library's block operations, and
counted loops whose iterations own disjoint offsets. -/

namespace Filogic.Lib

/-- A buffer, by offset. Bounds are the business of the code that indexes it. -/
abbrev Bytes := Nat → UInt8

namespace Bytes

def memset (m : Bytes) (start : Nat) (v : UInt8) (len : Nat) : Bytes :=
  fun k => if start ≤ k ∧ k < start + len then v else m k

def memcpy (m : Bytes) (start : Nat) (src : Bytes) (offset len : Nat) : Bytes :=
  fun k => if start ≤ k ∧ k < start + len then src (offset + (k - start)) else m k

/-- `if (src) memcpy(m + start, src + offset, len)` -/
def memcpyOpt (m : Bytes) (start : Nat) (src : Option Bytes) (offset len : Nat) : Bytes :=
  match src with
  | none => m
  | some src => m.memcpy start src offset len

/-- Swap the bytes at two offsets. -/
def exchange (m : Bytes) (i j : Nat) : Bytes :=
  fun k => m (Equiv.swap i j k)

def slice (m : Bytes) (start len : Nat) : List UInt8 :=
  (List.range len).map (fun k => m (start + k))

/-- Put a list of bytes into the buffer. -/
def splice (m : Bytes) (start : Nat) (bytes : List UInt8) : Bytes :=
  fun k => if start ≤ k ∧ k < start + bytes.length then bytes.getD (k - start) 0 else m k

theorem memset_inside (m : Bytes) (start : Nat) (v : UInt8) (len k : Nat)
    (low : start ≤ k) (high : k < start + len) : m.memset start v len k = v :=
  if_pos ⟨low, high⟩

theorem memset_outside (m : Bytes) (start : Nat) (v : UInt8) (len k : Nat)
    (outside : k < start ∨ start + len ≤ k) : m.memset start v len k = m k :=
  if_neg (by omega)

theorem memcpy_inside (m : Bytes) (start : Nat) (src : Bytes) (offset len k : Nat)
    (low : start ≤ k) (high : k < start + len) :
    m.memcpy start src offset len k = src (offset + (k - start)) :=
  if_pos ⟨low, high⟩

theorem memcpy_outside (m : Bytes) (start : Nat) (src : Bytes) (offset len k : Nat)
    (outside : k < start ∨ start + len ≤ k) : m.memcpy start src offset len k = m k :=
  if_neg (by omega)

/-- Two copies in a row are one. -/
theorem memcpy_append (m src : Bytes) (start a b : Nat) :
    (m.memcpy start src 0 a).memcpy (start + a) (fun k => src (a + k)) 0 b =
      m.memcpy start src 0 (a + b) := by
  funext k
  by_cases low : start ≤ k
  · by_cases first : k < start + a
    · rw [memcpy_outside _ _ _ _ _ _ (.inl first), memcpy_inside _ _ _ _ _ _ low first,
        memcpy_inside _ _ _ _ _ _ low (by omega)]
    · by_cases second : k < start + a + b
      · rw [memcpy_inside _ _ _ _ _ _ (by omega) second, memcpy_inside _ _ _ _ _ _ low (by omega)]
        congr 1
        omega
      · rw [memcpy_outside _ _ _ _ _ _ (by omega), memcpy_outside _ _ _ _ _ _ (by omega),
          memcpy_outside _ _ _ _ _ _ (by omega)]
  · rw [memcpy_outside _ _ _ _ _ _ (by omega), memcpy_outside _ _ _ _ _ _ (by omega),
      memcpy_outside _ _ _ _ _ _ (by omega)]

/-- A copy depends on the bytes it copies. -/
theorem memcpy_source (m : Bytes) {src src' : Bytes} (start offset offset' : Nat) {len : Nat}
    (same : ∀ k < len, src (offset + k) = src' (offset' + k)) :
    m.memcpy start src offset len = m.memcpy start src' offset' len := by
  funext k
  by_cases inside : start ≤ k ∧ k < start + len
  · rw [memcpy_inside _ _ _ _ _ _ inside.1 inside.2, memcpy_inside _ _ _ _ _ _ inside.1 inside.2]
    exact same _ (by omega)
  · rw [memcpy_outside _ _ _ _ _ _ (by omega), memcpy_outside _ _ _ _ _ _ (by omega)]

theorem memcpyOpt_outside (m : Bytes) (start : Nat) (src : Option Bytes) (offset len k : Nat)
    (outside : k < start ∨ start + len ≤ k) : m.memcpyOpt start src offset len k = m k := by
  cases src with
  | none => rfl
  | some src => exact memcpy_outside m start src offset len k outside

/-- A null source leaves what was there. -/
theorem memcpyOpt_inside (m : Bytes) (start : Nat) (src : Option Bytes) (offset len k : Nat)
    (low : start ≤ k) (high : k < start + len) :
    m.memcpyOpt start src offset len k =
      (src.map (fun src => src (offset + (k - start)))).getD (m k) := by
  cases src with
  | none => rfl
  | some src => exact memcpy_inside m start src offset len k low high

theorem slice_length (m : Bytes) (start len : Nat) : (m.slice start len).length = len := by
  rw [slice, List.length_map, List.length_range]

theorem slice_getD (m : Bytes) (start len k : Nat) (bound : k < len) :
    (m.slice start len).getD k 0 = m (start + k) := by
  simp only [slice, List.getD_eq_getElem?_getD, List.getElem?_map, List.getElem?_range bound,
    Option.map_some, Option.getD_some]

theorem slice_congr (m n : Bytes) (start start' len : Nat)
    (same : ∀ k, k < len → m (start + k) = n (start' + k)) :
    m.slice start len = n.slice start' len := by
  apply List.map_congr_left
  intro k member
  exact same k (List.mem_range.mp member)

theorem slice_eq_replicate (m : Bytes) (start len : Nat) (v : UInt8)
    (same : ∀ k, k < len → m (start + k) = v) : m.slice start len = List.replicate len v := by
  rw [List.eq_replicate_iff]
  refine ⟨slice_length m start len, ?_⟩
  intro b member
  obtain ⟨k, inside, rfl⟩ := List.mem_map.mp member
  exact same k (List.mem_range.mp inside)

theorem slice_eq_list (m : Bytes) (start len : Nat) (bytes : List UInt8)
    (length : bytes.length = len) (same : ∀ k, k < len → m (start + k) = bytes.getD k 0) :
    m.slice start len = bytes := by
  apply List.ext_getElem
  · rw [slice_length, length]
  · intro k low high
    have short : k < len := length ▸ high
    simp only [slice, List.getElem_map, List.getElem_range]
    rw [same k short]
    simp only [List.getD_eq_getElem?_getD, List.getElem?_eq_getElem high, Option.getD_some]

theorem splice_inside (m : Bytes) (start : Nat) (bytes : List UInt8) (k : Nat)
    (low : start ≤ k) (high : k < start + bytes.length) :
    m.splice start bytes k = bytes.getD (k - start) 0 :=
  if_pos ⟨low, high⟩

theorem splice_outside (m : Bytes) (start : Nat) (bytes : List UInt8) (k : Nat)
    (outside : k < start ∨ start + bytes.length ≤ k) : m.splice start bytes k = m k :=
  if_neg (by omega)

/-- Swapping two cells and renaming the offsets commute, for a renaming that is injective
on the offsets concerned. -/
theorem exchange_rename (m n : Bytes) (place : Nat → Nat) (i j k : Nat)
    (injective : ∀ a ∈ [i, j, k], ∀ b ∈ [i, j, k], place a = place b → a = b)
    (same : ∀ a ∈ [i, j, k], n (place a) = m a) :
    n.exchange (place i) (place j) (place k) = m.exchange i j k := by
  have move : Equiv.swap (place i) (place j) (place k) = place (Equiv.swap i j k) := by
    by_cases atI : k = i
    · subst atI; rw [Equiv.swap_apply_left, Equiv.swap_apply_left]
    by_cases atJ : k = j
    · subst atJ; rw [Equiv.swap_apply_right, Equiv.swap_apply_right]
    · rw [Equiv.swap_apply_of_ne_of_ne atI atJ, Equiv.swap_apply_of_ne_of_ne]
      · exact fun h => atI (injective k (by simp) i (by simp) h)
      · exact fun h => atJ (injective k (by simp) j (by simp) h)
  rw [exchange, exchange, move]
  apply same
  rw [Equiv.swap_apply_def]
  split_ifs <;> simp

end Bytes

/-- `for (i = 0; i < n; i++) body` -/
def forRange {σ : Type*} (body : Nat → σ → σ) : Nat → σ → σ
  | 0, s => s
  | n + 1, s => body n (forRange body n s)

theorem forRange_proj {σ τ : Type*} (f : σ → τ) (body : Nat → σ → σ) (body' : Nat → τ → τ)
    (step : ∀ i s, f (body i s) = body' i (f s)) (n : Nat) (s : σ) :
    f (forRange body n s) = forRange body' n (f s) := by
  induction n with
  | zero => rfl
  | succ n ih => rw [forRange, forRange, step, ih]

/-- A loop whose iteration `i` writes only the offsets it owns: each offset below the bound
gets what its own iteration writes there. -/
theorem forRange_owned (body : Nat → Bytes → Bytes) (own : Nat → Nat)
    (write : Nat → UInt8 → UInt8) (n : Nat)
    (outside : ∀ i < n, ∀ m k, own k ≠ i → body i m k = m k)
    (inside : ∀ i < n, ∀ m k, own k = i → body i m k = write k (m k)) (m : Bytes) (k : Nat) :
    forRange body n m k = if own k < n then write k (m k) else m k := by
  induction n with
  | zero => rw [forRange, if_neg (Nat.not_lt_zero _)]
  | succ n ih =>
    have before := ih (fun i lt => outside i (by omega)) (fun i lt => inside i (by omega))
    rw [forRange]
    by_cases here : own k = n
    · rw [inside n (by omega) _ k here, before, if_neg (by omega), if_pos (by omega)]
    · rw [outside n (by omega) _ k here, before]
      by_cases earlier : own k < n
      · rw [if_pos earlier, if_pos (by omega)]
      · rw [if_neg earlier, if_neg (by omega)]

end Filogic.Lib
