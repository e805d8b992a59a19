import Mathlib
import TauTerm.Lib.JsString

/-!
# Numerals

Numbers written in a base of at most sixteen, with capital letters.
-/

namespace Lib.Js

variable {base : Nat}

/-- `n.toString(base).toUpperCase()` -/
def numeral (base n : Nat) : JsString :=
  if n = 0 then [upperHex 0] else (Nat.digits base n).reverse.map upperHex

/-- The number of some digits. -/
def digitsValue (base : Nat) (s : JsString) : Nat :=
  s.foldl (fun value u => value * base + (hexDigit u).getD 0) 0

theorem digitsValue_reverse (digits : List Nat) (h : ∀ d ∈ digits, d < 16) :
    digitsValue base (digits.reverse.map upperHex) = Nat.ofDigits base digits := by
  rw [digitsValue, List.foldl_map, List.foldl_reverse]
  induction digits with
  | nil => rfl
  | cons d digits ih =>
    rw [List.foldr_cons, ih fun e he => h e (List.mem_cons_of_mem d he),
      hexDigit_upperHex (h d List.mem_cons_self), Nat.ofDigits_cons, Option.getD_some, Nat.mul_comm,
      Nat.add_comm]

theorem digitsValue_numeral (hlow : 2 ≤ base) (hhigh : base ≤ 16) (n : Nat) :
    digitsValue base (numeral base n) = n := by
  unfold numeral
  split_ifs with hn
  · subst hn
    rw [digitsValue, List.foldl_cons, List.foldl_nil, hexDigit_upperHex (by omega), Nat.zero_mul]
    rfl
  · rw [digitsValue_reverse _ fun d hd => (Nat.digits_lt_base hlow hd).trans_le hhigh, Nat.ofDigits_digits]

/-- Zeros in front do not count. -/
theorem digitsValue_zeros (k : Nat) (s : JsString) :
    digitsValue base (List.replicate k (upperHex 0) ++ s) = digitsValue base s := by
  have hzero : (hexDigit (upperHex 0)).getD 0 = 0 := by decide
  induction k with
  | zero => rfl
  | succ k ih =>
    rw [← ih, List.replicate_succ, List.cons_append, digitsValue, List.foldl_cons, hzero, Nat.zero_mul]
    rfl

theorem numeral_mem (hlow : 2 ≤ base) {n : Nat} {u : UInt16} (hu : u ∈ numeral base n) :
    ∃ d, d < base ∧ u = upperHex d := by
  unfold numeral at hu
  split_ifs at hu with hn
  · exact ⟨0, by omega, List.mem_singleton.mp hu⟩
  · obtain ⟨d, hd, rfl⟩ := List.mem_map.mp hu
    exact ⟨d, Nat.digits_lt_base hlow (List.mem_reverse.mp hd), rfl⟩

theorem numeral_ne_nil (base n : Nat) : numeral base n ≠ [] := by
  unfold numeral
  split_ifs with hn
  · exact List.cons_ne_nil _ _
  · rw [ne_eq, List.map_eq_nil_iff, List.reverse_eq_nil_iff]
    exact Nat.digits_ne_nil_iff_ne_zero.mpr hn

end Lib.Js
