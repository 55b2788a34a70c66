import Filogic.Nmbm.States

/-! The signature as bytes: what is read back is what was written, and its checksum is right. -/

namespace Filogic.Nmbm
open Lib

section Words

/-- A byte of a word, put back to its place. -/
theorem byte_bit (w s : UInt32) (n j : Nat) (shift : (s.toBitVec % 32).toNat = n) (bound : j < 32) :
    ((w >>> s).toUInt8.toUInt32 <<< s).toBitVec.getLsbD j =
      (decide (n ≤ j ∧ j < n + 8) && w.toBitVec.getLsbD j) := by
  rw [UInt32.toBitVec_shiftLeft, BitVec.shiftLeft_eq', BitVec.getLsbD_shiftLeft,
    UInt8.toBitVec_toUInt32, BitVec.getLsbD_setWidth, UInt32.toBitVec_toUInt8,
    BitVec.getLsbD_setWidth, UInt32.toBitVec_shiftRight, BitVec.ushiftRight_eq',
    BitVec.getLsbD_ushiftRight, shift]
  by_cases low : n ≤ j
  · rw [Nat.add_sub_cancel' low]
    by_cases high : j < n + 8
    · simp [bound, low, high, show j - n < 8 by omega, show j - n < 32 by omega]
    · simp [high, show ¬j - n < 8 by omega]
  · simp [low]

theorem word_of_bytes (w : UInt32) :
    (w >>> 0).toUInt8.toUInt32 ||| ((w >>> 8).toUInt8.toUInt32 <<< 8) |||
      ((w >>> 16).toUInt8.toUInt32 <<< 16) ||| ((w >>> 24).toUInt8.toUInt32 <<< 24) = w := by
  have first : (w >>> 0).toUInt8.toUInt32 = (w >>> 0).toUInt8.toUInt32 <<< 0 := by simp
  rw [first]
  apply uint32_ext
  intro j bound
  simp only [UInt32.toBitVec_or, BitVec.getLsbD_or]
  rw [byte_bit w 0 0 j (by decide) bound, byte_bit w 8 8 j (by decide) bound,
    byte_bit w 16 16 j (by decide) bound, byte_bit w 24 24 j (by decide) bound]
  cases w.toBitVec.getLsbD j with
  | false => simp
  | true =>
    simp only [Bool.and_true, ← Bool.decide_or, decide_eq_true_eq]
    omega

/-- A word of an array. -/
theorem word32_wordBytes (words : Nat → UInt32) (n : Nat) : word32 (wordBytes words) (4 * n) = words n := by
  have byte (k : Nat) (small : k < 4) :
      wordBytes words (4 * n + k) = (words n >>> UInt32.ofNat (8 * k)).toUInt8 := by
    rw [wordBytes, le32, show (4 * n + k) / 4 = n by omega, show (4 * n + k) % 4 = k by omega]
  have zero := byte 0 (by decide)
  rw [Nat.add_zero] at zero
  rw [word32, zero, byte 1 (by decide), byte 2 (by decide), byte 3 (by decide)]
  exact word_of_bytes (words n)

/-- A word is its four bytes, wherever they are. -/
theorem word32_move {a b : Bytes} (off off' : Nat) (same : ∀ k < 4, a (off + k) = b (off' + k)) :
    word32 a off = word32 b off' := by
  rw [word32, word32, show a off = b off' from same 0 (by decide), same 1 (by decide), same 2 (by decide),
    same 3 (by decide)]

theorem word32_congr {a b : Bytes} (off : Nat) (same : ∀ k < 4, a (off + k) = b (off + k)) :
    word32 a off = word32 b off := word32_move off off same

end Words

section Checksum

variable (env : Env)

theorem updateChecksum_outside (base : Bytes) (k : Nat) (outside : k < 12 ∨ 16 ≤ k) :
    updateChecksum env base k = base k := by
  rw [updateChecksum, Bytes.memcpy_outside _ _ _ _ _ _ (by omega), Bytes.memset_outside _ _ _ _ _ (by omega)]

theorem crc32_append (crc : UInt32) (a b : List UInt8) :
    crc32 env crc (a ++ b) = crc32 env (crc32 env crc a) b := List.foldl_append

theorem slice_append (m : Bytes) (start a b : Nat) :
    m.slice start (a + b) = m.slice start a ++ m.slice (start + a) b := by
  rw [Bytes.slice, List.range_add, List.map_append, List.map_map]
  simp only [Bytes.slice, Function.comp_def, Nat.add_assoc]

/-- `nmbm_check_header` accepts what `nmbm_update_checksum` sealed. -/
theorem checkHeader_updateChecksum (base : Bytes) (size : Nat) (length : (word32 base 8).toNat = size)
    (room : headerSize < size) {data : Bytes} (same : ∀ k < size, data k = updateChecksum env base k) :
    checkHeader env data size = true := by
  have header : headerSize = 16 := rfl
  -- Without its checksum the data is the image that was sealed.
  have cleared (k : Nat) (inside : k < size) : data.memset 12 0 4 k = base.memset 12 0 4 k := by
    by_cases field : 12 ≤ k ∧ k < 12 + 4
    · rw [Bytes.memset_inside _ _ _ _ _ field.1 field.2, Bytes.memset_inside _ _ _ _ _ field.1 field.2]
    · rw [Bytes.memset_outside _ _ _ _ _ (by omega), same k inside, updateChecksum,
        Bytes.memcpy_outside _ _ _ _ _ _ (by omega)]
  have unsealed (k : Nat) (inside : k < size) (before : k < 12 ∨ 16 ≤ k) : data k = base k := by
    rw [← Bytes.memset_outside data 12 0 4 k (by omega), cleared k inside,
      Bytes.memset_outside _ _ _ _ _ (by omega)]
  have length' : (word32 data 8).toNat = size := by
    rw [← length]
    exact congrArg _ (word32_congr 8 fun k small => unsealed _ (by omega) (by omega))
  have head : (data.memset 12 0 4).slice 0 headerSize = (base.memset 12 0 4).slice 0 headerSize :=
    Bytes.slice_congr _ _ _ _ _ fun k small => cleared _ (by omega)
  have tail : data.slice headerSize (size - headerSize) =
      (base.memset 12 0 4).slice headerSize (size - headerSize) :=
    Bytes.slice_congr _ _ _ _ _ fun k small => by
      rw [← cleared _ (by omega), Bytes.memset_outside _ _ _ _ _ (by omega)]
  have whole := slice_append (base.memset 12 0 4) 0 headerSize (size - headerSize)
  rw [Nat.zero_add, Nat.add_sub_cancel' room.le] at whole
  have sum : word32 data 12 = crc32 env 0 ((base.memset 12 0 4).slice 0 size) := by
    rw [← word32_wordBytes (fun _ => crc32 env 0 ((base.memset 12 0 4).slice 0 size)) 0]
    refine word32_move _ _ fun k small => ?_
    rw [same _ (by omega), updateChecksum, Bytes.memcpy_inside _ _ _ _ _ _ (by omega) (by omega), length]
    congr 1
    omega
  simp only [checkHeader, length', lt_irrefl, if_false, head, tail]
  rw [if_pos room, ← crc32_append, ← whole, decide_eq_true_eq]
  exact sum

end Checksum

section Signature

variable (s : Signature)

theorem halves_of (n : UInt64) : n.toUInt32.toUInt64 ||| ((n >>> 32).toUInt32.toUInt64 <<< 32) = n := by
  apply UInt64.toBitVec_inj.mp
  apply BitVec.eq_of_getLsbD_eq
  intro j bound
  have shift : ((32 : UInt64).toBitVec % 64).toNat = 32 := by decide
  rw [UInt64.toBitVec_or, BitVec.getLsbD_or, UInt32.toBitVec_toUInt64, BitVec.getLsbD_setWidth,
    UInt64.toBitVec_toUInt32, BitVec.getLsbD_setWidth, UInt64.toBitVec_shiftLeft, BitVec.shiftLeft_eq',
    BitVec.getLsbD_shiftLeft, UInt32.toBitVec_toUInt64, BitVec.getLsbD_setWidth,
    UInt64.toBitVec_toUInt32, BitVec.getLsbD_setWidth, UInt64.toBitVec_shiftRight,
    BitVec.ushiftRight_eq', BitVec.getLsbD_ushiftRight, shift]
  by_cases low : j < 32
  · simp [low, bound]
  · rw [Nat.add_sub_cancel' (Nat.le_of_not_lt low)]
    simp [low, bound, show j - 32 < 32 by omega, show j - 32 < 64 by omega]

/-- What is read is what was written. -/
theorem read_words {data : Bytes} (same : ∀ k < signatureSize, data k = wordBytes s.words k) :
    Signature.read data = s := by
  have word (n : Nat) (inside : 4 * n + 4 ≤ signatureSize) : word32 data (4 * n) = s.words n := by
    rw [← word32_wordBytes s.words n]
    exact word32_congr (4 * n) fun k small => same _ (by omega)
  obtain ⟨magic, version, size, checksum, nandSize, blockSize, pageSize, spareSize, mgmtStartPb,
    maxTryCount⟩ := s
  have tries : data 40 = maxTryCount := by
    rw [same 40 (by decide)]
    change ((maxTryCount.toUInt32 >>> 0).toUInt8) = maxTryCount
    simp
  rw [Signature.read, word 0 (by decide), word 1 (by decide), word 2 (by decide), word 3 (by decide),
    word 4 (by decide), word 5 (by decide), word 6 (by decide), word 7 (by decide), word 8 (by decide),
    word 9 (by decide), tries]
  simp only [Signature.words, halves_of]

/-- The signature with the checksum that `nmbm_update_checksum` gives it. -/
def sealed (env : Env) (s : Signature) : Signature :=
  { s with checksum := crc32 env 0 ((wordBytes s.words).slice 0 signatureSize) }

theorem sealed_words (env : Env) (n : Nat) (other : n ≠ 3) : (sealed env s).words n = s.words n := by
  unfold Signature.words
  split <;> first | rfl | exact absurd rfl other

/-- `nmbm_check_header` accepts what was sealed. -/
theorem checkHeader_sealed (env : Env) (cleared : s.checksum = 0)
    (size : s.size = UInt32.ofNat signatureSize) {data : Bytes}
    (same : ∀ k < signatureSize, data k = wordBytes (sealed env s).words k) :
    checkHeader env data signatureSize = true := by
  have length : (word32 (wordBytes s.words) 8).toNat = signatureSize := by
    rw [show (8 : Nat) = 4 * 2 from rfl, word32_wordBytes]
    change s.size.toNat = signatureSize
    rw [size]
    decide
  have image (k : Nat) : (wordBytes s.words).memset 12 0 4 k = wordBytes s.words k := by
    by_cases field : 12 ≤ k ∧ k < 12 + 4
    · rw [Bytes.memset_inside _ _ _ _ _ field.1 field.2, wordBytes, show k / 4 = 3 by omega]
      change 0 = le32 s.checksum k
      rw [cleared, le32, UInt32.zero_shiftRight]
      rfl
    · exact Bytes.memset_outside _ _ _ _ _ (by omega)
  refine checkHeader_updateChecksum env (wordBytes s.words) signatureSize length (by decide)
    fun k inside => (same k inside).trans ?_
  by_cases field : 12 ≤ k ∧ k < 12 + 4
  · rw [updateChecksum, Bytes.memcpy_inside _ _ _ _ _ _ field.1 field.2, length, wordBytes,
      show k / 4 = 3 by omega, Bytes.slice_congr _ _ _ _ _ fun k _ => image (0 + k)]
    change le32 (sealed env s).checksum k = le32 (sealed env s).checksum _
    rw [le32, le32, show (0 + (k - 12)) % 4 = k % 4 by omega]
  · rw [updateChecksum_outside env _ _ (by omega), wordBytes, wordBytes, sealed_words s env _ (by omega)]

end Signature

end Filogic.Nmbm
