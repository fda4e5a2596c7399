import Mathlib.Algebra.Order.Ring.Nat
import Mathlib.Data.List.Basic

/-
  Fixed-width little-endian encodings of natural numbers.
-/

-- Encoding and Decoding

namespace LittleEndian

/- The lowest `width` bytes of `n`, least significant first. -/
def leBytes : Nat → Nat → List UInt8
| 0, _ => []
| width + 1, n => UInt8.ofNat n :: leBytes width (n / 256)

/- The number a little-endian byte string denotes. -/
def leToNat : List UInt8 → Nat
| [] => 0
| byte :: bytes => byte.toNat + 256 * leToNat bytes

@[simp] theorem length_leBytes (width n : Nat) : (leBytes width n).length = width := by
  induction width generalizing n with
  | zero => rfl
  | succ width ih => simp [leBytes, ih]

theorem leToNat_leBytes {width n : Nat} (hBound : n < 256 ^ width) :
  leToNat (leBytes width n) = n := by
  induction width generalizing n with
  | zero =>
    have hZero : n = 0 := by simpa using hBound
    simp [leBytes, leToNat, hZero]
  | succ width ih =>
    have hHigh : n / 256 < 256 ^ width := by
      rw [Nat.div_lt_iff_lt_mul (by omega), ← Nat.pow_succ]
      exact hBound
    simp only [leBytes, leToNat, ih hHigh, UInt8.toNat_ofNat']
    omega

theorem leBytes_leToNat (bytes : List UInt8) : leBytes bytes.length (leToNat bytes) = bytes := by
  induction bytes with
  | nil => rfl
  | cons byte bytes ih =>
    have hByte := byte.toNat_lt
    have hHigh : (byte.toNat + 256 * leToNat bytes) / 256 = leToNat bytes := by omega
    have hLow : UInt8.ofNat (byte.toNat + 256 * leToNat bytes) =
          byte := by
      rw [← UInt8.toNat_inj, UInt8.toNat_ofNat']
      omega
    simp only [List.length_cons, leBytes, leToNat, hHigh, hLow, ih]

/- A decoded number is below the width's bound. -/
theorem leToNat_lt (bytes : List UInt8) : leToNat bytes < 256 ^ bytes.length := by
  induction bytes with
  | nil => simp [leToNat]
  | cons byte bytes ih =>
    have hByte := byte.toNat_lt
    simp only [leToNat, List.length_cons, Nat.pow_succ]
    omega

end LittleEndian
