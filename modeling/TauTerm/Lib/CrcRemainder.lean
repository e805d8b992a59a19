import Mathlib
import TauTerm.Lib.CrcRegister

/-!
# CRC registers and remainders

A vector of bits is a polynomial over the field of two elements. A register that takes bits from the top
is the remainder of what it has taken, by the polynomial of its shifts (`polynomial_foldl_msbByte`); so
it computes the parameterised CRC (`rocksoft_eq`).
-/

namespace Lib.Crc

open Polynomial

variable {w : Nat}

noncomputable def polynomial (x : BitVec w) : (ZMod 2)[X] :=
  ∑ i ∈ Finset.range w, if x.getLsbD i then X ^ i else 0

theorem coeff_polynomial (x : BitVec w) (n : Nat) :
    (polynomial x).coeff n = if x.getLsbD n then 1 else 0 := by
  have hterm : ∀ i, (if x.getLsbD i then X ^ i else (0 : (ZMod 2)[X])).coeff n =
      if i = n then (if x.getLsbD n then 1 else 0) else 0 := by
    intro i
    by_cases hin : i = n
    · subst hin
      cases x.getLsbD i <;> simp
    · have hni : n ≠ i := Ne.symm hin
      cases x.getLsbD i <;> simp [hin, hni, coeff_X_pow]
  rw [polynomial, finsetSum_coeff, Finset.sum_congr rfl fun i _ => hterm i, Finset.sum_ite_eq']
  by_cases hn : n < w
  · rw [if_pos (Finset.mem_range.mpr hn)]
  · rw [if_neg (mt Finset.mem_range.mp hn), BitVec.getLsbD_of_ge x n (by omega), if_neg Bool.false_ne_true]

theorem degree_polynomial (x : BitVec w) : (polynomial x).degree < w := by
  rw [degree_lt_iff_coeff_zero]
  intro n hn
  rw [coeff_polynomial, BitVec.getLsbD_of_ge x n hn, if_neg Bool.false_ne_true]

theorem polynomial_xor (x y : BitVec w) : polynomial (x ^^^ y) = polynomial x + polynomial y := by
  ext n
  rw [coeff_add, coeff_polynomial, coeff_polynomial, coeff_polynomial, BitVec.getLsbD_xor]
  cases x.getLsbD n <;> cases y.getLsbD n <;> decide

/-- What falls out at the top is all that a shift loses. -/
theorem polynomial_shift (x : BitVec w) :
    polynomial (x <<< 1) + (if x.msb then X ^ w else 0) = polynomial x * X := by
  ext n
  rw [coeff_add, coeff_polynomial, BitVec.getLsbD_shiftLeft]
  obtain _ | n := n
  · have hw : x.msb = true → 0 ≠ w := by
      rintro hmsb rfl
      rw [BitVec.eq_nil x] at hmsb
      cases hmsb
    cases hmsb : x.msb with
    | false => simp
    | true => simp [coeff_X_pow, hw hmsb]
  · rw [coeff_mul_X, coeff_polynomial]
    by_cases hn : n + 1 = w
    · subst hn
      have hmsb : x.msb = x.getLsbD n := BitVec.msb_eq_getLsbD_last x
      rw [hmsb]
      cases x.getLsbD n <;> simp
    · have hcoeff : (if x.msb then X ^ w else (0 : (ZMod 2)[X])).coeff (n + 1) = 0 := by
        split_ifs
        · rw [coeff_X_pow, if_neg hn]
        · rfl
      rw [hcoeff, add_zero]
      by_cases hlt : n + 1 < w
      · simp [hlt]
      · simp [hlt, BitVec.getLsbD_of_ge x n (by omega)]

/-- The polynomial by which a register is reduced; its highest bit is not written down. -/
noncomputable def generator (p : BitVec w) : (ZMod 2)[X] := X ^ w + polynomial p

theorem generator_monic (p : BitVec w) : (generator p).Monic := monic_X_pow_add (degree_polynomial p)

theorem degree_generator (p : BitVec w) : (generator p).degree = w := by
  rw [generator, degree_add_eq_left_of_degree_lt, degree_X_pow]
  rw [degree_X_pow]
  exact degree_polynomial p

theorem polynomial_of_mod {p r : BitVec w} {f q : (ZMod 2)[X]}
    (h : polynomial r + generator p * q = f) : polynomial r = f %ₘ generator p := by
  refine ((div_modByMonic_unique q (polynomial r) (generator_monic p) ⟨h, ?_⟩).2).symm
  rw [degree_generator]
  exact degree_polynomial r

theorem polynomial_msbBit (p x : BitVec w) :
    polynomial (msbBit p x) = (polynomial x * X) %ₘ generator p := by
  have htwo : polynomial p + polynomial p = 0 := CharTwo.add_self_eq_zero _
  refine polynomial_of_mod (q := if x.msb then 1 else 0) ?_
  rw [← polynomial_shift, msbBit]
  cases x.msb with
  | false => simp
  | true =>
    rw [if_pos rfl, if_pos rfl, if_pos rfl, polynomial_xor, generator]
    linear_combination htwo

/-- A remainder may be taken before a multiplication. -/
theorem modByMonic_mul {q : (ZMod 2)[X]} (hq : q.Monic) (f g : (ZMod 2)[X]) :
    (f %ₘ q * g) %ₘ q = (f * g) %ₘ q := by
  have hself : f %ₘ q %ₘ q = f %ₘ q := (modByMonic_eq_self_iff hq).mpr (degree_modByMonic_lt f hq)
  rw [mul_modByMonic, hself, ← mul_modByMonic]

theorem polynomial_iterate_msbBit (p x : BitVec w) (n : Nat) :
    polynomial ((msbBit p)^[n] x) = (polynomial x * X ^ n) %ₘ generator p := by
  induction n generalizing x with
  | zero =>
    refine polynomial_of_mod (q := 0) ?_
    simp
  | succ n ih => rw [Function.iterate_succ_apply, ih, polynomial_msbBit,
      modByMonic_mul (generator_monic p), pow_succ', mul_assoc]

theorem polynomial_top (hw : 8 ≤ w) (b : BitVec 8) :
    polynomial (b.setWidth w <<< (w - 8)) = polynomial b * X ^ (w - 8) := by
  ext n
  rw [coeff_polynomial, coeff_mul_X_pow', coeff_polynomial, BitVec.getLsbD_shiftLeft,
    BitVec.getLsbD_setWidth]
  by_cases hn : n < w
  · have hin : n - (w - 8) < w := by omega
    by_cases hlow : n < w - 8
    · have : ¬ w - 8 ≤ n := by omega
      simp [hn, hlow, this]
    · have : w - 8 ≤ n := by omega
      simp [hn, hin, hlow, this]
  · have hbig : w - 8 ≤ n := by omega
    simp [hn, hbig, BitVec.getLsbD_of_ge b (n - (w - 8)) (by omega)]

/-- The polynomial of bits, the first of which is the highest. -/
noncomputable def bitPolynomial (bits : List Bool) : (ZMod 2)[X] :=
  bits.foldl (fun f bit => f * X + if bit then 1 else 0) 0

/-- The bits of a message, the highest of each byte first. -/
def messageBits (message : List (BitVec 8)) : List Bool :=
  message.flatMap fun b => (List.range 8).map b.getMsbD

theorem length_messageBits (message : List (BitVec 8)) :
    (messageBits message).length = 8 * message.length := by
  simp [messageBits, List.length_flatMap, Nat.mul_comm]

theorem bitPolynomial_byte (message : List (BitVec 8)) (b : BitVec 8) :
    bitPolynomial (messageBits (message ++ [b])) =
      bitPolynomial (messageBits message) * X ^ 8 + polynomial b := by
  have hbits : messageBits (message ++ [b]) = messageBits message ++ (List.range 8).map b.getMsbD := by
    simp [messageBits]
  have hterm : ∀ (bit : Bool) (n : Nat),
      (if bit then X ^ n else (0 : (ZMod 2)[X])) = (if bit then 1 else 0) * X ^ n := by
    intro bit n
    rw [ite_mul, one_mul, zero_mul]
  have hbyte : (List.range 8).map b.getMsbD = [b.getLsbD 7, b.getLsbD 6, b.getLsbD 5, b.getLsbD 4,
      b.getLsbD 3, b.getLsbD 2, b.getLsbD 1, b.getLsbD 0] := rfl
  rw [bitPolynomial, hbits, List.foldl_append, ← bitPolynomial, hbyte]
  simp only [List.foldl_cons, List.foldl_nil, polynomial, Finset.sum_range_succ,
    Finset.sum_range_zero, hterm]
  ring

theorem polynomial_foldl_msbByte (hw : 8 ≤ w) (p x : BitVec w) (message : List (BitVec 8)) :
    polynomial (message.foldl (msbByte p) x) =
      (polynomial x * X ^ (messageBits message).length + bitPolynomial (messageBits message) * X ^ w) %ₘ
        generator p := by
  induction message using List.reverseRecOn with
  | nil =>
    refine polynomial_of_mod (q := 0) ?_
    simp [messageBits, bitPolynomial]
  | append_singleton message b ih =>
    have htop : polynomial b * X ^ (w - 8) * X ^ 8 = polynomial b * X ^ w := by
      rw [mul_assoc, ← pow_add, Nat.sub_add_cancel hw]
    rw [List.foldl_concat, msbByte, polynomial_iterate_msbBit, polynomial_xor, polynomial_top hw, ih,
      add_mul, add_modByMonic, modByMonic_mul (generator_monic p), ← add_modByMonic, htop, bitPolynomial_byte,
      length_messageBits, length_messageBits, List.length_append, List.length_singleton]
    refine congrArg (· %ₘ generator p) ?_
    ring

/-! ## The parameterised CRC -/

/-- The register of a remainder. -/
noncomputable def register (w : Nat) (f : (ZMod 2)[X]) : BitVec w :=
  BitVec.ofFnLE fun i => decide (f.coeff i = 1)

theorem register_polynomial (x : BitVec w) : register w (polynomial x) = x := by
  apply BitVec.eq_of_getLsbD_eq
  intro i hi
  rw [register, BitVec.getLsbD_ofFnLE, dif_pos hi, coeff_polynomial]
  cases x.getLsbD i <;> simp

/-- The remainder of the message behind the initial register, with the bytes of the message and the
register mirrored or not. -/
noncomputable def rocksoft (poly init xorOut : BitVec w) (refIn refOut : Bool)
    (message : List (BitVec 8)) : BitVec w :=
  let bits := messageBits (if refIn then message.map BitVec.reverse else message)
  let remainder :=
    register w ((polynomial init * X ^ bits.length + bitPolynomial bits * X ^ w) %ₘ generator poly)
  (if refOut then remainder.reverse else remainder) ^^^ xorOut

theorem rocksoft_eq (hw : 8 ≤ w) (poly init xorOut : BitVec w) (refIn refOut : Bool)
    (message : List (BitVec 8)) :
    rocksoft poly init xorOut refIn refOut message =
      (let last := (if refIn then message.map BitVec.reverse else message).foldl (msbByte poly) init
      if refOut then last.reverse else last) ^^^ xorOut := by
  have hlast : ∀ message : List (BitVec 8),
      register w ((polynomial init * X ^ (messageBits message).length +
        bitPolynomial (messageBits message) * X ^ w) %ₘ generator poly) =
          message.foldl (msbByte poly) init := fun message =>
    (congrArg (register w) (polynomial_foldl_msbByte hw poly init message)).symm.trans
      (register_polynomial _)
  unfold rocksoft
  dsimp only
  rw [hlast]

end Lib.Crc
