import Mathlib

/-!
# Blocks

A list cut into blocks of one size, with a last block that is shorter and may be
empty.
-/

namespace Lib

variable {α : Type} (size : Nat) (l : List α)

/-- Full blocks of `size` elements, then the rest. -/
def cut : List (List α) :=
  (List.range (l.length / size + 1)).map fun i => (l.drop (i * size)).take size

@[simp] theorem length_cut : (cut size l).length = l.length / size + 1 := by simp [cut]

theorem getElem?_cut {i : Nat} (h : i ≤ l.length / size) :
    (cut size l)[i]? = some ((l.drop (i * size)).take size) := by
  simp [cut, List.getElem?_range (show i < l.length / size + 1 by omega)]

theorem cut_ne_nil : cut size l ≠ [] := by
  intro h
  simpa using congrArg List.length h

/-- The first blocks are the front of the list. -/
theorem flatten_take_cut {k : Nat} (h : k ≤ l.length / size + 1) :
    ((cut size l).take k).flatten = l.take (k * size) := by
  induction k with
  | zero => simp
  | succ k ih =>
    have hk : (cut size l)[k]? = some ((l.drop (k * size)).take size) :=
      getElem?_cut size l (by omega)
    rw [List.take_add_one, hk, Option.toList_some, List.flatten_append, ih (by omega),
      List.flatten_singleton, Nat.succ_mul, List.take_add]

theorem flatten_cut (hsize : 0 < size) : (cut size l).flatten = l := by
  have htake : (cut size l).take (l.length / size + 1) = cut size l :=
    List.take_of_length_le (by simp)
  rw [← htake, flatten_take_cut size l le_rfl]
  refine List.take_of_length_le ?_
  have hdiv := Nat.div_add_mod l.length size
  have hmod := Nat.mod_lt l.length hsize
  rw [Nat.succ_mul, Nat.mul_comm]
  omega

/-- Every block but the last is full. -/
theorem length_of_getElem?_cut (hsize : 0 < size) {i : Nat} {block : List α}
    (h : (cut size l)[i]? = some block) : block.length < size ↔ i = l.length / size := by
  have hi : i ≤ l.length / size := by
    have hlt := (List.getElem?_eq_some_iff.mp h).1
    rw [length_cut] at hlt
    omega
  rw [getElem?_cut size l hi] at h
  obtain rfl := Option.some.inj h
  have hdiv := Nat.div_add_mod l.length size
  have hmod := Nat.mod_lt l.length hsize
  rw [List.length_take, List.length_drop]
  constructor
  · intro hlt
    by_contra hne
    have hle : (i + 1) * size ≤ l.length / size * size := Nat.mul_le_mul_right size (by omega)
    rw [Nat.succ_mul, Nat.mul_comm (l.length / size)] at hle
    omega
  · rintro rfl
    rw [Nat.mul_comm]
    omega

end Lib
