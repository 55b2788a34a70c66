import Filogic.Atenl.FrameReply

/-! The bulk commands on the EEPROM image: what a write leaves in the image, and what a read of the same
range returns. Both loops go by words of two bytes, whose order they turn. -/

namespace Filogic.Atenl
open Lib

/-- The loop of `HQA_CMD_WRITE_EEPROM_BULK` with the image that it writes to. -/
def storePairs (offset : Nat) : Nat → Nat → Bytes → Run Bytes
  | _, 0, eeprom => pure eeprom
  | i, n + 1, eeprom => do
      let val ← be16 (4 + 2 * i)
      storePairs offset (i + 1) n
        (eeprom.splice (offset + i * 2) [UInt8.ofNat val, UInt8.ofNat (val / 256)])

/-- `atenl_hqa_eeprom_bulk` for `HQA_CMD_WRITE_EEPROM_BULK`. -/
def eepromBulkWrite (eepromSize : Nat) (eeprom : Bytes) : Run (BitVec 16 × Bytes) := do
  let offset ← be16 0
  let len ← be16 2
  if offset ≥ eepromSize ∨ len > declaredSize - 2 then return (einval, eeprom)
  else
    let eeprom ← storePairs offset 0 ((len + 1) / 2) eeprom
    return (0, eeprom)

/-- `an->eeprom_size` after `atenl_eeprom_init_max_size`, which knows no other chips. -/
def eepromSizeOf (chipId : BitVec 16) : Nat :=
  match precalChip chipId with
  | some chip => chip.eepromSize
  | none => 0

/-- The other byte of the word. -/
def turned (p : Nat) : Nat := p / 2 * 2 + (1 - p % 2)

theorem turned_turned (p : Nat) : turned (turned p) = p := by
  unfold turned
  omega

/-- What the words of a request carry for the `p`-th byte from the offset on. -/
def carried (m : Bytes) (p : Nat) : UInt8 := m (30 + turned p)

section Loops

theorem field_two (m : Bytes) (off : Nat) :
    field m off 2 = (m (26 + off)).toNat * 256 + (m (27 + off)).toNat := by
  simp [field, ofBytes, Bytes.slice, List.range_succ, show 26 + off + 1 = 27 + off by omega]

theorem field_two_low (m : Bytes) (off : Nat) : UInt8.ofNat (field m off 2) = m (27 + off) := by
  apply UInt8.toNat_inj.mp
  have low := (m (27 + off)).toNat_lt
  rw [field_two, UInt8.toNat_ofNat']
  omega

theorem field_two_high (m : Bytes) (off : Nat) :
    UInt8.ofNat (field m off 2 / 256) = m (26 + off) := by
  apply UInt8.toNat_inj.mp
  have low := (m (27 + off)).toNat_lt
  have high := (m (26 + off)).toNat_lt
  rw [field_two, UInt8.toNat_ofNat']
  omega

/-- A write puts every byte of its words into the image. -/
theorem storePairs_apply (offset i n : Nat) (eeprom m : Bytes) (inside : i + n ≤ 785) :
    storePairs offset i n eeprom m =
      some (fun k => if offset + 2 * i ≤ k ∧ k < offset + 2 * (i + n) then carried m (k - offset)
        else eeprom k, m) := by
  induction n generalizing i eeprom with
  | zero =>
    simp only [storePairs, pure_apply]
    congr 2
    funext k
    rw [if_neg (by omega)]
  | succ n ih =>
    simp only [storePairs, bind_apply, be16_inside m (4 + 2 * i) (by omega), Option.bind_some]
    rw [ih (i + 1) _ (by omega)]
    congr 2
    funext k
    by_cases later : offset + 2 * (i + 1) ≤ k ∧ k < offset + 2 * (i + 1 + n)
    · rw [if_pos later, if_pos (by omega)]
    · rw [if_neg later]
      by_cases low : k = offset + 2 * i
      · rw [if_pos (by omega), Bytes.splice_inside _ _ _ _ (by omega) (by simp; omega),
          show k - (offset + i * 2) = 0 by omega, List.getD_cons_zero, field_two_low, carried,
          turned]
        congr 1
        omega
      · by_cases high : k = offset + 2 * i + 1
        · rw [if_pos (by omega), Bytes.splice_inside _ _ _ _ (by omega) (by simp; omega),
            show k - (offset + i * 2) = 1 by omega, List.getD_cons_succ, List.getD_cons_zero,
            field_two_high, carried, turned]
          congr 1
          omega
        · rw [if_neg (by omega), Bytes.splice_outside _ _ _ _ (by simp; omega)]

/-- A read turns the words back, and gives zero for those that start behind the EEPROM. -/
theorem readPairs_apply (env : Env) (offset i n : Nat) (m : Bytes) (inside : i + n ≤ 786) :
    ∃ reply, readPairs env offset i n m = some ((), reply) ∧
      (∀ q, 2 * i ≤ q → q < 2 * (i + n) → reply (28 + q) =
        if offset + q / 2 * 2 ≥ env.eepromSize then 0 else env.eeprom (offset + turned q)) ∧
      ∀ k, k < 28 + 2 * i → reply k = m k := by
  induction n generalizing i m with
  | zero => exact ⟨m, rfl, fun q lower upper => by omega, fun _ _ => rfl⟩
  | succ n ih =>
    simp only [readPairs, bind_apply]
    rw [store_inside _ _ _ (by split_ifs <;> simp <;> omega)]
    simp only [Option.bind_some]
    obtain ⟨reply, run, later, before⟩ := ih (i + 1) _ (by omega)
    refine ⟨reply, run, ?_, ?_⟩
    · intro q lower upper
      by_cases here : q < 2 * (i + 1)
      · rw [before _ (by omega), Bytes.splice_inside _ _ _ _ (by omega) (by split_ifs <;> simp <;> omega)]
        have word : q / 2 * 2 = 2 * i := by omega
        rw [word]
        by_cases behind : offset + 2 * i ≥ env.eepromSize
        · rw [if_pos behind, if_pos behind]
          by_cases low : q = 2 * i
          · rw [show 28 + q - (26 + (2 + 2 * i)) = 0 by omega, List.getD_cons_zero]
          · rw [show 28 + q - (26 + (2 + 2 * i)) = 1 by omega, List.getD_cons_succ,
              List.getD_cons_zero]
        · rw [if_neg behind, if_neg behind]
          by_cases low : q = 2 * i
          · rw [show 28 + q - (26 + (2 + 2 * i)) = 0 by omega, List.getD_cons_zero, turned]
            congr 1
            omega
          · rw [show 28 + q - (26 + (2 + 2 * i)) = 1 by omega, List.getD_cons_succ,
              List.getD_cons_zero, turned]
            congr 1
            omega
      · exact later q (by omega) (by omega)
    · intro k below
      rw [before k (by omega), Bytes.splice_outside _ _ _ _ (by omega)]

/-- With the image left out, this is the loop as it works on the frame. -/
theorem writePairs_eq (offset i n : Nat) (eeprom m : Bytes) :
    writePairs i n m = (storePairs offset i n eeprom m).map fun result => ((), result.2) := by
  induction n generalizing i eeprom with
  | zero => rfl
  | succ n ih =>
    simp only [writePairs, storePairs, bind_apply]
    by_cases inside : 28 + (4 + 2 * i) ≤ 1600
    · simp only [be16_inside m _ inside, Option.bind_some]
      exact ih _ _
    · simp only [be16, bind_apply, fetch_outside _ _ _ (show 1600 < 26 + (4 + 2 * i) + 2 by omega),
        Option.bind_none, Option.map_none]

end Loops

section Commands

variable (eepromSize : Nat) (eeprom m : Bytes)

/-- The request passes the two checks. -/
def BulkAccepted : Prop := field m 0 2 < eepromSize ∧ field m 2 2 ≤ 2046

/-- The bytes that a request asks for, as far as they lie in the EEPROM. -/
def InRange (k : Nat) : Prop :=
  field m 0 2 ≤ k ∧ k < field m 0 2 + field m 2 2 ∧ k < eepromSize

/-- Nothing else changes, and a read of the same range returns the bytes of the request. -/
structure StoredRight (after : Bytes) : Prop where
  outside : ∀ k, ¬InRange eepromSize m k → after k = eeprom k
  back : ∀ (env : Env) (request : Bytes), env.eepromSize = eepromSize → env.eeprom = after →
    field request 0 2 = field m 0 2 → field request 2 2 = field m 2 2 →
    ∃ reply, hqaEepromBulk env true request = some (0, reply) ∧
      ∀ j, InRange eepromSize m (field m 0 2 + j) → reply (28 + j) = m (30 + j)

/-- A bulk write that is accepted stays in its range and can be read back. -/
def BulkRight : Prop :=
  BulkAccepted eepromSize m → ∃ after,
    eepromBulkWrite eepromSize eeprom m = some ((0, after), m) ∧
      StoredRight eepromSize eeprom m after

/-- The image after a write whose words lie within the frame. -/
def bulkImage : Bytes := fun k =>
  if field m 0 2 ≤ k ∧ k < field m 0 2 + 2 * ((field m 2 2 + 1) / 2) then carried m (k - field m 0 2)
  else eeprom k

/-- What is accepted goes on to the loop. -/
theorem eepromBulkWrite_loop (accepted : BulkAccepted eepromSize m) :
    eepromBulkWrite eepromSize eeprom m =
      (storePairs (field m 0 2) 0 ((field m 2 2 + 1) / 2) eeprom m).map
        fun result => ((0, result.1), result.2) := by
  have passes : ¬(field m 0 2 ≥ eepromSize ∨ field m 2 2 > declaredSize - 2) := by
    have bounds := accepted
    simp only [BulkAccepted] at bounds
    simp only [declaredSize]
    omega
  simp only [eepromBulkWrite, bind_apply, be16_inside m 0 (by decide), be16_inside m 2 (by decide),
    Option.bind_some, if_neg passes]
  cases storePairs (field m 0 2) 0 ((field m 2 2 + 1) / 2) eeprom m <;> rfl

theorem eepromBulkWrite_whole (accepted : BulkAccepted eepromSize m) (whole : field m 2 2 ≤ 1570) :
    eepromBulkWrite eepromSize eeprom m = some ((0, bulkImage eeprom m), m) := by
  rw [eepromBulkWrite_loop eepromSize eeprom m accepted,
    storePairs_apply _ 0 _ eeprom m (by omega), Option.map_some]
  simp only [Nat.mul_zero, Nat.add_zero, Nat.zero_add]
  rfl

/-- Data of which the frame holds only the first part are fetched from behind the buffer. -/
theorem eepromBulkWrite_cut (accepted : BulkAccepted eepromSize m) (cut : 1570 < field m 2 2) :
    eepromBulkWrite eepromSize eeprom m = none := by
  have outside : ¬(writePairs 0 ((field m 2 2 + 1) / 2) m).isSome := by
    rw [writePairs_isSome_iff]
    omega
  rw [eepromBulkWrite_loop eepromSize eeprom m accepted]
  rw [writePairs_eq (field m 0 2) 0 _ eeprom, Option.isSome_map, Option.not_isSome_iff_eq_none]
    at outside
  rw [outside, Option.map_none]

/-- A read of the same range turns every word back that starts in the EEPROM. -/
theorem bulkImage_back (whole : field m 2 2 ≤ 1570) (accepted : BulkAccepted eepromSize m)
    (env : Env) (request : Bytes) (size : env.eepromSize = eepromSize)
    (image : env.eeprom = bulkImage eeprom m) (same : field request 0 2 = field m 0 2)
    (sameLen : field request 2 2 = field m 2 2) :
    ∃ reply, hqaEepromBulk env true request = some (0, reply) ∧
      ∀ j, InRange eepromSize m (field m 0 2 + j) → reply (28 + j) = m (30 + j) := by
  have passes : ¬(field m 0 2 ≥ env.eepromSize ∨ field m 2 2 > declaredSize - 2) := by
    have bounds := accepted
    simp only [BulkAccepted] at bounds
    simp only [declaredSize]
    omega
  obtain ⟨reply, run, words, _⟩ := readPairs_apply env (field m 0 2) 0 ((field m 2 2 + 1) / 2)
    (request.splice 22 [UInt8.ofNat ((field m 2 2 + 2) / 256), UInt8.ofNat (field m 2 2 + 2)])
    (by omega)
  refine ⟨reply, ?_, ?_⟩
  · simp only [hqaEepromBulk, bind_apply, be16_inside request 0 (by decide),
      be16_inside request 2 (by decide), Option.bind_some, same, sameLen, if_neg passes, if_true,
      setLen_apply, run, pure_apply]
  · intro j inRange
    simp only [InRange] at inRange
    rw [words j (by omega) (by omega), if_neg (by omega), image, bulkImage, if_pos (by
      unfold turned
      omega), Nat.add_sub_cancel_left, carried, turned_turned]

/-- A bulk write keeps to its range exactly when its data lie within the frame and each byte that its
words reach outside of the range has the value already: the loop goes on to the end of its last word
and does not look at the size of the EEPROM. -/
theorem bulkRight_iff (chipId : BitVec 16) :
    BulkRight (eepromSizeOf chipId) eeprom m ↔
      (BulkAccepted (eepromSizeOf chipId) m → field m 2 2 ≤ 1570 ∧
        ∀ k, field m 0 2 ≤ k → k < field m 0 2 + 2 * ((field m 2 2 + 1) / 2) →
          ¬InRange (eepromSizeOf chipId) m k → eeprom k = carried m (k - field m 0 2)) := by
  constructor
  · intro right accepted
    obtain ⟨after, run, stored⟩ := right accepted
    have whole : field m 2 2 ≤ 1570 := by
      by_contra cut
      rw [eepromBulkWrite_cut _ eeprom m accepted (by omega)] at run
      simp at run
    rw [eepromBulkWrite_whole _ eeprom m accepted whole] at run
    have image : bulkImage eeprom m = after := by
      simpa using run
    refine ⟨whole, fun k lower upper outside => ?_⟩
    rw [← stored.outside k outside, ← image, bulkImage, if_pos ⟨lower, upper⟩]
  · intro clean accepted
    obtain ⟨whole, kept⟩ := clean accepted
    refine ⟨bulkImage eeprom m, eepromBulkWrite_whole _ eeprom m accepted whole, ?_, ?_⟩
    · intro k outside
      rw [bulkImage]
      split_ifs with reached
      · exact (kept k reached.1 reached.2 outside).symm
      · rfl
    · exact bulkImage_back _ eeprom m whole accepted

/-- Four bytes at offset 4094. -/
def acrossTheEnd : Bytes := fun k => [0x0f, 0xfe, 0, 4, 1, 2, 3, 4].getD (k - 26) 0

/-- The second word goes to the pre-calibration data. -/
theorem acrossTheEnd_reaches_precal :
    ¬BulkRight (eepromSizeOf 0x7986) (fun _ => 0xff) acrossTheEnd := by
  intro right
  have accepted : BulkAccepted (eepromSizeOf 0x7986) acrossTheEnd := by
    unfold BulkAccepted
    decide
  obtain ⟨after, run, stored⟩ := right accepted
  rw [eepromBulkWrite_whole _ _ _ accepted (by decide)] at run
  have image : bulkImage (fun _ => 0xff) acrossTheEnd = after := by
    simpa using run
  have outside : ¬InRange (eepromSizeOf 0x7986) acrossTheEnd 4096 := by
    unfold InRange
    decide
  have kept := stored.outside 4096 outside
  rw [← image] at kept
  exact absurd kept (by decide)

end Commands

end Filogic.Atenl
