import Filogic.Lib.Bytes

/-! Little-endian words of a byte buffer, as the unsigned integers that a load gives, and the
order of their bytes. -/

namespace Filogic.Lib

def le16 (a b : UInt8) : UInt16 := a.toUInt16 ||| b.toUInt16 <<< 8

def le32 (a b c d : UInt8) : UInt32 :=
  a.toUInt32 ||| b.toUInt32 <<< 8 ||| c.toUInt32 <<< 16 ||| d.toUInt32 <<< 24

def Bytes.u16 (m : Bytes) (k : Nat) : UInt16 := le16 (m k) (m (k + 1))

def Bytes.u32 (m : Bytes) (k : Nat) : UInt32 := le32 (m k) (m (k + 1)) (m (k + 2)) (m (k + 3))

/-- The byte of a word by its place. -/
def byte32 (x : UInt32) (k : Nat) : UInt8 := (x >>> (8 * UInt32.ofNat k)).toUInt8

/-- A fact about a byte, from its 256 cases. -/
theorem forall_byte {P : UInt8 → Prop} (all : ∀ n : Fin 256, P (UInt8.ofNat n.val)) (b : UInt8) :
    P b := by
  have same := all ⟨b.toNat, b.toNat_lt⟩
  rwa [UInt8.ofNat_toNat] at same

theorem byte32_or (x y : UInt32) (k : Nat) : byte32 (x ||| y) k = byte32 x k ||| byte32 y k := by
  rw [byte32, UInt32.shiftRight_or, UInt32.toUInt8_or]
  rfl

theorem byte32_le32 (a b c d : UInt8) :
    byte32 (le32 a b c d) 0 = a ∧ byte32 (le32 a b c d) 1 = b ∧
      byte32 (le32 a b c d) 2 = c ∧ byte32 (le32 a b c d) 3 = d := by
  have placed (n : UInt8) : ∀ j k : Fin 4,
      byte32 (n.toUInt32 <<< UInt32.ofNat (8 * j.val)) k.val = if j = k then n else 0 := by
    revert n
    apply forall_byte
    decide +kernel
  have sum (k : Fin 4) : byte32 (le32 a b c d) k.val = (if 0 = k then a else 0) |||
      (if 1 = k then b else 0) ||| (if 2 = k then c else 0) ||| (if 3 = k then d else 0) := by
    rw [← placed a 0 k, ← placed b 1 k, ← placed c 2 k, ← placed d 3 k, ← byte32_or, ← byte32_or,
      ← byte32_or, show a.toUInt32 <<< UInt32.ofNat (8 * (0 : Fin 4).val) = a.toUInt32 by simp]
    rfl
  refine ⟨(sum 0).trans ?_, (sum 1).trans ?_, (sum 2).trans ?_, (sum 3).trans ?_⟩ <;> simp

theorem le32_inj (a b c d a' b' c' d' : UInt8) :
    le32 a b c d = le32 a' b' c' d' ↔ a = a' ∧ b = b' ∧ c = c' ∧ d = d' := by
  obtain ⟨first, second, third, fourth⟩ := byte32_le32 a b c d
  obtain ⟨first', second', third', fourth'⟩ := byte32_le32 a' b' c' d'
  constructor
  · intro same
    rw [same] at first second third fourth
    exact ⟨first.symm.trans first', second.symm.trans second', third.symm.trans third',
      fourth.symm.trans fourth'⟩
  · rintro ⟨rfl, rfl, rfl, rfl⟩
    rfl

theorem le16_low (a b : UInt8) : (le16 a b).toUInt8 = a := by
  have none_ : (b.toUInt16 <<< 8).toUInt8 = 0 := by
    revert b
    apply forall_byte
    decide +kernel
  rw [le16, UInt16.toUInt8_or, none_]
  simp

theorem le16_high (a b : UInt8) : (le16 a b >>> 8).toUInt8 = b := by
  have none_ : a.toUInt16 >>> 8 = 0 := by
    revert a
    apply forall_byte
    decide +kernel
  have back : (b.toUInt16 <<< 8 >>> 8).toUInt8 = b := by
    revert b
    apply forall_byte
    decide +kernel
  rw [le16, UInt16.shiftRight_or, none_, UInt16.toUInt8_or, back]
  simp

theorem le16_toNat (a b : UInt8) : (le16 a b).toNat = a.toNat + 256 * b.toNat := by
  have low := a.toNat_lt
  have high := b.toNat_lt
  have shifted : (b.toUInt16 <<< 8).toNat = b.toNat <<< 8 := by
    rw [UInt16.toNat_shiftLeft]
    change b.toNat <<< 8 % 2 ^ 16 = _
    rw [Nat.shiftLeft_eq]
    omega
  rw [le16, UInt16.toNat_or, shifted, UInt8.toNat_toUInt16, Nat.lor_comm,
    ← Nat.shiftLeft_add_eq_or_of_lt low, Nat.shiftLeft_eq]
  omega

/-- A half-word is put together again from its bytes. -/
theorem le16_bytes (x : UInt16) : le16 x.toUInt8 (x >>> 8).toUInt8 = x := by
  have bound := x.toNat_lt
  apply UInt16.toNat_inj.mp
  rw [le16_toNat, UInt16.toNat_toUInt8, UInt16.toNat_toUInt8, UInt16.toNat_shiftRight]
  change x.toNat % 2 ^ 8 + 256 * (x.toNat >>> 8 % 2 ^ 8) = _
  rw [Nat.shiftRight_eq_div_pow]
  omega

theorem le16_inj (a b a' b' : UInt8) : le16 a b = le16 a' b' ↔ a = a' ∧ b = b' := by
  constructor
  · intro same
    exact ⟨by rw [← le16_low a b, same, le16_low], by rw [← le16_high a b, same, le16_high]⟩
  · rintro ⟨rfl, rfl⟩
    rfl

end Filogic.Lib
