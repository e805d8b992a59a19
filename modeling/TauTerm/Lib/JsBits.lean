import Mathlib

/-!
# The bitwise operators of JavaScript

They read a number as 32 bits and give a number back: a signed one, but for `>>>`. Numbers are integers
here, which are what `ToInt32` makes of a number first.
-/

namespace Lib.Js

def int32 (x : Int) : BitVec 32 := BitVec.ofInt 32 x

/-- `x << n` -/
def shl (x : Int) (n : Nat) : Int := (int32 x <<< (n % 32)).toInt

/-- `x >>> n` -/
def ushr (x : Int) (n : Nat) : Int := (int32 x >>> (n % 32)).toNat

def and (x y : Int) : Int := (int32 x &&& int32 y).toInt

def or (x y : Int) : Int := (int32 x ||| int32 y).toInt

def xor (x y : Int) : Int := (int32 x ^^^ int32 y).toInt

variable {x y : Int} {n : Nat}

@[simp] theorem int32_shl : int32 (shl x n) = int32 x <<< (n % 32) := BitVec.ofInt_toInt

@[simp] theorem int32_ushr : int32 (ushr x n) = int32 x >>> (n % 32) := by
  rw [ushr, int32, BitVec.ofInt_natCast, BitVec.ofNat_toNat, BitVec.setWidth_eq]

@[simp] theorem int32_and : int32 (and x y) = int32 x &&& int32 y := BitVec.ofInt_toInt

@[simp] theorem int32_or : int32 (or x y) = int32 x ||| int32 y := BitVec.ofInt_toInt

@[simp] theorem int32_xor : int32 (xor x y) = int32 x ^^^ int32 y := BitVec.ofInt_toInt

theorem int32_natCast (x : Nat) : int32 x = BitVec.ofNat 32 x := BitVec.ofInt_natCast 32 x

theorem and_ne_zero : and x y ≠ 0 ↔ int32 x &&& int32 y ≠ 0 := by
  rw [ne_eq, ne_eq, and, ← BitVec.toInt_zero, BitVec.toInt_inj]
  rfl

/-- A mask of fewer than 32 bits leaves the number of the lower bits. -/
theorem and_mask {w : Nat} (hw : w < 32) : and x (2 ^ w - 1 : Nat) = ((int32 x).setWidth w).toNat := by
  have hmask : int32 x &&& int32 (2 ^ w - 1 : Nat) = ((int32 x).setWidth w).setWidth 32 := by
    apply BitVec.eq_of_getLsbD_eq
    intro i hi
    rw [int32_natCast, BitVec.getLsbD_and, BitVec.getLsbD_ofNat, Nat.testBit_two_pow_sub_one,
      BitVec.getLsbD_setWidth, BitVec.getLsbD_setWidth, decide_eq_true hi, Bool.true_and, Bool.true_and,
      Bool.and_comm]
  have hlt : ((int32 x).setWidth w).toNat < 2 ^ 31 :=
    ((int32 x).setWidth w).isLt.trans_le (Nat.pow_le_pow_right (by decide) (by omega))
  have hwide : (((int32 x).setWidth w).setWidth 32).toNat = ((int32 x).setWidth w).toNat := by
    rw [BitVec.toNat_setWidth, Nat.mod_eq_of_lt (by omega)]
  rw [and, hmask, BitVec.toInt_eq_toNat_of_lt (by omega), hwide]

end Lib.Js
