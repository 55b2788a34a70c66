import Mathlib

/-! Numbers as bytes, the lowest first. -/

namespace Filogic.Lib

/-- The `len` lowest bytes of a number. -/
def leBytes : Nat → Nat → List UInt8
  | 0, _ => []
  | len + 1, n => UInt8.ofNat n :: leBytes len (n / 256)

def ofLe (bytes : List UInt8) : Nat := bytes.foldr (fun byte high => byte.toNat + 256 * high) 0

@[simp]
theorem leBytes_length (len n : Nat) : (leBytes len n).length = len := by
  induction len generalizing n with
  | zero => rfl
  | succ len ih => simp [leBytes, ih]

@[simp]
theorem ofLe_leBytes (len n : Nat) : ofLe (leBytes len n) = n % 256 ^ len := by
  induction len generalizing n with
  | zero => simp [leBytes, ofLe, Nat.mod_one]
  | succ len ih =>
    have step : ofLe (leBytes (len + 1) n) = n % 256 + 256 * ofLe (leBytes len (n / 256)) := by
      simp [leBytes, ofLe]
    rw [step, ih, Nat.pow_succ, Nat.mul_comm (256 ^ len), Nat.mod_mul]

theorem ofLe_lt (bytes : List UInt8) : ofLe bytes < 256 ^ bytes.length := by
  induction bytes with
  | nil => exact Nat.one_pos
  | cons byte bytes ih =>
    have step : ofLe (byte :: bytes) = byte.toNat + 256 * ofLe bytes := rfl
    have low := byte.toNat_lt
    rw [step, List.length_cons, Nat.pow_succ]
    omega

end Filogic.Lib
