import Mathlib
import TauTerm.Modbus.Pdu

/-!
# Packed coil bits

`packBits` and `unpackBits` at the level of single bits: bit `i` of a packed
list is entry `i`, bits from the length on are clear, and unpacking reads the
first `quantity` bits back.
-/

namespace TauTerm.Modbus

open Lib

theorem bitAt_eq (bytes : List UInt8) (i : Nat) :
    bitAt bytes i = (bytes.getD (i / 8) 0).toNat.testBit (i % 8) :=
  shiftRight_and_one _ (Nat.mod_lt _ (by decide))

@[simp] theorem length_setBit (out : List UInt8) (value : Bool) (index : Nat) :
    (setBit out value index).length = out.length := by
  unfold setBit
  split <;> simp

theorem bitAt_setBit {out : List UInt8} {value : Bool} {index : Nat}
    (h : index / 8 < out.length) (i : Nat) :
    bitAt (setBit out value index) i = (bitAt out i || (value && decide (i = index))) := by
  cases value with
  | false => simp [setBit]
  | true =>
    simp only [setBit, if_true, bitAt_eq, List.getD_eq_getElem?_getD, List.getElem?_modify,
      Bool.true_and]
    by_cases hk : index / 8 = i / 8
    · have hi : i / 8 < out.length := by omega
      rw [List.getElem?_eq_getElem hi]
      simp only [hk, if_true, Option.map_eq_map, Option.map_some, Option.getD_some]
      rw [testBit_or_one_shiftLeft _ (Nat.mod_lt _ (by decide))]
      congr 1
      rw [decide_eq_decide]
      omega
    · have hne : i ≠ index := fun e => hk (by rw [e])
      simp [hk, hne]

/-- The packing loop from entry `n` on: it adds exactly the bits of the entries
still to come. -/
theorem bitAt_foldl (values : List Bool) : ∀ (n : Nat) (out : List UInt8),
    divCeil8 (n + values.length) ≤ out.length →
    ∀ i, bitAt ((values.zipIdx n).foldl (fun out (value, index) => setBit out value index) out) i =
      (bitAt out i || (decide (n ≤ i) && values.getD (i - n) false)) := by
  induction values with
  | nil => intro n out _ i; simp
  | cons value values ih =>
    intro n out hlen i
    have hn : n / 8 < out.length := by
      simp only [divCeil8, List.length_cons] at hlen
      omega
    have hrest : divCeil8 (n + 1 + values.length) ≤ (setBit out value n).length := by
      rw [length_setBit, Nat.add_assoc, Nat.add_comm 1]
      exact hlen
    rw [List.zipIdx_cons, List.foldl_cons, ih (n + 1) _ hrest, bitAt_setBit hn]
    rcases Nat.lt_trichotomy i n with hi | rfl | hi
    · have h1 : ¬ n ≤ i := by omega
      have h2 : ¬ n + 1 ≤ i := by omega
      have h3 : i ≠ n := by omega
      simp [h1, h2, h3]
    · simp
    · have h1 : n ≤ i := by omega
      have h2 : n + 1 ≤ i := hi
      have h3 : i ≠ n := by omega
      have h4 : i - n = i - (n + 1) + 1 := by omega
      simp [h1, h2, h3, h4]

theorem bitAt_replicate_zero (n i : Nat) : bitAt (List.replicate n 0) i = false := by
  rw [bitAt_eq, List.getD_eq_getElem?_getD, List.getElem?_replicate]
  split <;> simp

theorem length_packBits (values : List Bool) : (packBits values).length = divCeil8 values.length := by
  have h : ∀ (vs : List (Bool × Nat)) (out : List UInt8),
      (vs.foldl (fun out (value, index) => setBit out value index) out).length = out.length := by
    intro vs
    induction vs with
    | nil => intro out; rfl
    | cons v vs ih => intro out; rw [List.foldl_cons, ih, length_setBit]
  rw [packBits, h, List.length_replicate]

/-- Bit `i` of the packed list is entry `i`; the padding bits are clear. -/
theorem bitAt_packBits (values : List Bool) (i : Nat) :
    bitAt (packBits values) i = values.getD i false := by
  rw [packBits, bitAt_foldl values 0 _ (by simp), bitAt_replicate_zero]
  simp

@[simp] theorem length_unpackBits (bytes : List UInt8) (quantity : UInt16) :
    (unpackBits bytes quantity).length = quantity.toNat := by
  simp [unpackBits]

theorem getD_unpackBits (bytes : List UInt8) (quantity : UInt16) (i : Nat) :
    (unpackBits bytes quantity).getD i false = (decide (i < quantity.toNat) && bitAt bytes i) := by
  rw [unpackBits, List.getD_eq_getElem?_getD, List.getElem?_map]
  by_cases h : i < quantity.toNat
  · simp [h]
  · simp [h]

theorem unpackBits_packBits {values : List Bool} {quantity : UInt16}
    (h : quantity.toNat = values.length) : unpackBits (packBits values) quantity = values := by
  apply List.ext_getElem
  · simp [h]
  · intro i h1 h2
    simp only [unpackBits, List.getElem_map, List.getElem_range, bitAt_packBits,
      List.getD_eq_getElem?_getD, List.getElem?_eq_getElem h2, Option.getD_some]

/-- Repacking unpacked bits keeps each of the first `quantity` bits. -/
theorem bitAt_packBits_unpackBits (bytes : List UInt8) (quantity : UInt16) (i : Nat) :
    bitAt (packBits (unpackBits bytes quantity)) i =
      (decide (i < quantity.toNat) && bitAt bytes i) := by
  rw [bitAt_packBits, getD_unpackBits]

end TauTerm.Modbus
