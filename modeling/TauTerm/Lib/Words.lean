import Mathlib

/-!
# Words of a fixed width

A number as `width` bytes, least significant first, and back. `width` bytes that are read
the other way round are the big-endian word.
-/

namespace Lib

/-- `to_le_bytes` of a word of `width` bytes, higher bits dropped. -/
def leBytes : Nat → Nat → List UInt8
  | 0, _ => []
  | width + 1, n => UInt8.ofNat n :: leBytes width (n / 256)

/-- `from_le_bytes`. -/
def ofLeBytes : List UInt8 → Nat
  | [] => 0
  | byte :: bytes => byte.toNat + 256 * ofLeBytes bytes

/-- `from_be_bytes`. -/
def ofBeList (bytes : List UInt8) : Nat := ofLeBytes bytes.reverse

@[simp] theorem length_leBytes (width n : Nat) : (leBytes width n).length = width := by
  induction width generalizing n with
  | zero => rfl
  | succ width ih => rw [leBytes, List.length_cons, ih]

theorem ofLeBytes_leBytes (width n : Nat) : ofLeBytes (leBytes width n) = n % 256 ^ width := by
  induction width generalizing n with
  | zero => rw [leBytes, ofLeBytes, pow_zero, Nat.mod_one]
  | succ width ih =>
    have hpow : 256 ^ (width + 1) = 256 * 256 ^ width := Nat.pow_succ'
    rw [leBytes, ofLeBytes, ih, UInt8.toNat_ofNat', hpow]
    exact Nat.mod_mul.symm

theorem ofLeBytes_lt (bytes : List UInt8) : ofLeBytes bytes < 256 ^ bytes.length := by
  induction bytes with
  | nil => exact Nat.one_pos
  | cons byte bytes ih =>
    have hbyte := byte.toNat_lt
    rw [ofLeBytes, List.length_cons, pow_succ]
    omega

theorem ofBeList_lt (bytes : List UInt8) : ofBeList bytes < 256 ^ bytes.length := by
  have h := ofLeBytes_lt bytes.reverse
  rwa [List.length_reverse] at h

end Lib
