import Mathlib

/-!
# Natural numbers as doubles

A double has 53 bits of significand, so a natural number of more bits is rounded to the nearest one that has
only zeros behind its first 53, and to the even significand where two are as near. Numbers small beside
2 ^ 1024 are meant throughout; none of them becomes infinite.
-/

namespace Lib

/-- The double nearest to `n`. -/
def nearest (n : Nat) : Nat :=
  let unit := 2 ^ (n.log2 - 52)
  let low := n % unit
  let q := n / unit
  if 2 * low < unit ∨ 2 * low = unit ∧ q % 2 = 0 then q * unit else (q + 1) * unit

/-- The number is a double itself. -/
def IsDouble (n : Nat) : Prop := nearest n = n

instance (n : Nat) : Decidable (IsDouble n) := inferInstanceAs (Decidable (nearest n = n))

variable {n m e a : Nat}

theorem nearest_dvd (n : Nat) : ∃ q, q ≤ 2 ^ 53 ∧ nearest n = q * 2 ^ (n.log2 - 52) := by
  have hq : n / 2 ^ (n.log2 - 52) < 2 ^ 53 := by
    rw [Nat.div_lt_iff_lt_mul (Nat.two_pow_pos _), ← Nat.pow_add]
    exact Nat.lt_log2_self.trans_le (Nat.pow_le_pow_right two_pos (by omega))
  unfold nearest
  dsimp only
  split_ifs with h
  · exact ⟨_, hq.le, rfl⟩
  · exact ⟨_, hq, rfl⟩

theorem IsDouble.significand (h : IsDouble n) : ∃ m e, m < 2 ^ 53 ∧ n = m * 2 ^ e := by
  obtain ⟨q, hq, heq⟩ := nearest_dvd n
  rw [show nearest n = n from h] at heq
  generalize n.log2 - 52 = e at heq
  obtain hlt | rfl := hq.lt_or_eq
  · exact ⟨q, e, hlt, heq⟩
  · refine ⟨2 ^ 52, e + 1, Nat.pow_lt_pow_right one_lt_two (by omega), ?_⟩
    rw [heq, ← Nat.pow_add, ← Nat.pow_add]
    congr 1
    omega

/-- What is missing to the next multiple of `a`. -/
def gap (a n : Nat) : Nat := (a - n % a) % a

end Lib
