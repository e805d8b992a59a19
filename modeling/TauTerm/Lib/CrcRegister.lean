import Mathlib

/-!
# CRC registers of any width

A CRC register takes the bits of a byte from the top or from the bottom. The two are mirror images
(`reverse_foldl_msbByte`), and a register that takes them from the bottom may be wider than its
polynomial (`setWidth_foldl_lsbByte`).
-/

namespace Lib.Crc

variable {w v : Nat}

/-- One bit falls out at the bottom. -/
def lsbBit (q x : BitVec w) : BitVec w := if x.getLsbD 0 then (x >>> 1) ^^^ q else x >>> 1

/-- One bit falls out at the top. -/
def msbBit (p x : BitVec w) : BitVec w := if x.msb then (x <<< 1) ^^^ p else x <<< 1

def lsbByte (q x : BitVec w) (b : BitVec 8) : BitVec w := (lsbBit q)^[8] (x ^^^ b.setWidth w)

def msbByte (p x : BitVec w) (b : BitVec 8) : BitVec w :=
  (msbBit p)^[8] (x ^^^ (b.setWidth w <<< (w - 8)))

/-! ## Mirror images -/

theorem reverse_xor (x y : BitVec w) : (x ^^^ y).reverse = x.reverse ^^^ y.reverse := by
  apply BitVec.eq_of_getLsbD_eq
  intro i hi
  rw [BitVec.getLsbD_xor, BitVec.getLsbD_reverse, BitVec.getLsbD_reverse, BitVec.getLsbD_reverse,
    BitVec.getMsbD_xor]

theorem reverse_shiftLeft_one (x : BitVec w) : (x <<< 1).reverse = x.reverse >>> 1 := by
  apply BitVec.eq_of_getLsbD_eq
  intro i hi
  rw [BitVec.getLsbD_reverse, BitVec.getLsbD_ushiftRight, BitVec.getLsbD_reverse,
    BitVec.getMsbD_shiftLeft, Nat.add_comm]

theorem reverse_msbBit (p x : BitVec w) : (msbBit p x).reverse = lsbBit p.reverse x.reverse := by
  have hout : x.reverse.getLsbD 0 = x.msb := BitVec.getLsbD_reverse
  unfold msbBit lsbBit
  rw [hout]
  split_ifs
  · rw [reverse_xor, reverse_shiftLeft_one]
  · exact reverse_shiftLeft_one x

theorem reverse_iterate_msbBit (p : BitVec w) (n : Nat) (x : BitVec w) :
    ((msbBit p)^[n] x).reverse = (lsbBit p.reverse)^[n] x.reverse := by
  induction n generalizing x with
  | zero => rfl
  | succ n ih => rw [Function.iterate_succ_apply, Function.iterate_succ_apply, ih, reverse_msbBit]

/-- A byte at the top is a reversed byte at the bottom. -/
theorem reverse_top (hw : 8 ≤ w) (b : BitVec 8) :
    (b.setWidth w <<< (w - 8)).reverse = b.reverse.setWidth w := by
  apply BitVec.eq_of_getLsbD_eq
  intro i hi
  rw [BitVec.getLsbD_reverse, BitVec.getLsbD_setWidth, BitVec.getLsbD_reverse,
    BitVec.getMsbD_eq_getLsbD, BitVec.getMsbD_eq_getLsbD, BitVec.getLsbD_shiftLeft,
    BitVec.getLsbD_setWidth]
  by_cases h8 : i < 8
  · have hindex : w - 1 - i - (w - 8) = 8 - 1 - i := by omega
    have h1 : w - 1 - i < w := by omega
    have h2 : ¬ w - 1 - i < w - 8 := by omega
    have h3 : 8 - 1 - i < w := by omega
    simp [hindex, hi, h1, h2, h3, h8]
  · have h2 : w - 1 - i < w - 8 := by omega
    simp [h2, h8]

theorem reverse_msbByte (hw : 8 ≤ w) (p x : BitVec w) (b : BitVec 8) :
    (msbByte p x b).reverse = lsbByte p.reverse x.reverse b.reverse := by
  unfold msbByte lsbByte
  rw [reverse_iterate_msbBit, reverse_xor, reverse_top hw]

theorem reverse_foldl_msbByte (hw : 8 ≤ w) (p x : BitVec w) (bytes : List (BitVec 8)) :
    (bytes.foldl (msbByte p) x).reverse =
      (bytes.map BitVec.reverse).foldl (lsbByte p.reverse) x.reverse := by
  induction bytes generalizing x with
  | nil => rfl
  | cons b bytes ih => rw [List.foldl_cons, ih, reverse_msbByte hw, List.map_cons, List.foldl_cons]

/-! ## Wider registers -/

theorem setWidth_lsbBit (hv : w ≤ v) (q x : BitVec w) :
    (lsbBit q x).setWidth v = lsbBit (q.setWidth v) (x.setWidth v) := by
  have hshift : (x >>> 1).setWidth v = x.setWidth v >>> 1 := by
    apply BitVec.eq_of_getLsbD_eq
    intro i hi
    rw [BitVec.getLsbD_setWidth, BitVec.getLsbD_ushiftRight, BitVec.getLsbD_ushiftRight,
      BitVec.getLsbD_setWidth]
    by_cases hlt : 1 + i < v
    · simp [hi, hlt]
    · have hout : x.getLsbD (1 + i) = false := BitVec.getLsbD_of_ge x _ (by omega)
      simp [hout]
  have hout : (x.setWidth v).getLsbD 0 = x.getLsbD 0 := by
    rw [BitVec.getLsbD_setWidth]
    by_cases hv0 : 0 < v
    · simp [hv0]
    · have hzero : x.getLsbD 0 = false := BitVec.getLsbD_of_ge x _ (by omega)
      simp [hzero]
  unfold lsbBit
  rw [hout]
  split_ifs
  · rw [BitVec.setWidth_xor, hshift]
  · exact hshift

theorem setWidth_iterate_lsbBit (hv : w ≤ v) (q : BitVec w) (n : Nat) (x : BitVec w) :
    ((lsbBit q)^[n] x).setWidth v = (lsbBit (q.setWidth v))^[n] (x.setWidth v) := by
  induction n generalizing x with
  | zero => rfl
  | succ n ih =>
    rw [Function.iterate_succ_apply, Function.iterate_succ_apply, ih, setWidth_lsbBit hv]

theorem setWidth_byte (hw : 8 ≤ w) (b : BitVec 8) : (b.setWidth w).setWidth v = b.setWidth v := by
  apply BitVec.eq_of_getLsbD_eq
  intro i hi
  rw [BitVec.getLsbD_setWidth, BitVec.getLsbD_setWidth, BitVec.getLsbD_setWidth]
  by_cases h : i < w
  · simp [h]
  · have hout : b.getLsbD i = false := BitVec.getLsbD_of_ge b i (by omega)
    simp [hout]

theorem setWidth_foldl_lsbByte (hw : 8 ≤ w) (hv : w ≤ v) (q x : BitVec w) (bytes : List (BitVec 8)) :
    (bytes.foldl (lsbByte q) x).setWidth v =
      bytes.foldl (lsbByte (q.setWidth v)) (x.setWidth v) := by
  induction bytes generalizing x with
  | nil => rfl
  | cons b bytes ih =>
    rw [List.foldl_cons, List.foldl_cons, ih]
    unfold lsbByte
    rw [setWidth_iterate_lsbBit hv, BitVec.setWidth_xor, setWidth_byte hw]

end Lib.Crc
