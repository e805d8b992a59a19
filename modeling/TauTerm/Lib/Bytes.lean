import Mathlib

/-!
# Byte strings

Big-endian 16-bit words, packed bits and the `Except` rules every codec here
uses. Nothing in this file knows a wire format.
-/

namespace Lib

/-! ## Results -/

section Except

variable {ε α β : Type}

/-- A computation succeeds exactly when each of its two parts does. -/
theorem bind_eq_ok {x : Except ε α} {f : α → Except ε β} {b : β} :
    (x >>= f) = .ok b ↔ ∃ a, x = .ok a ∧ f a = .ok b := by
  cases x with
  | error e => simp [bind, Except.bind]
  | ok a => simp [bind, Except.bind]

@[simp] theorem ok_bind (a : α) (f : α → Except ε β) : (Except.ok a >>= f) = f a := rfl

@[simp] theorem ite_error_eq_ok {c : Prop} [Decidable c] {e : ε} {x : Except ε α} {a : α} :
    (if c then .error e else x) = .ok a ↔ ¬ c ∧ x = .ok a := by
  by_cases h : c <;> simp [h]

@[simp] theorem ite_ok_error_eq_ok {c : Prop} [Decidable c] {e : ε} {a b : α} :
    (if c then .ok a else .error e : Except ε α) = .ok b ↔ c ∧ a = b := by
  by_cases h : c <;> simp [h]

end Except

/-! ## Big-endian words -/

def toBeBytes (v : UInt16) : List UInt8 := [(v >>> 8).toUInt8, v.toUInt8]

@[simp] theorem length_toBeBytes (v : UInt16) : (toBeBytes v).length = 2 := by simp [toBeBytes]

def ofBeBytes (hi lo : UInt8) : UInt16 := UInt16.ofNat (hi.toNat * 256 + lo.toNat)

theorem toNat_ofBeBytes (hi lo : UInt8) : (ofBeBytes hi lo).toNat = hi.toNat * 256 + lo.toNat := by
  have h1 := hi.toNat_lt
  have h2 := lo.toNat_lt
  simp only [ofBeBytes, UInt16.toNat_ofNat']
  omega

example : ofBeBytes 1 2 = 258 := by decide +kernel

theorem toNat_hi (v : UInt16) : (v >>> 8).toUInt8.toNat = v.toNat / 256 := by
  have := v.toNat_lt
  simp [Nat.shiftRight_eq_div_pow]
  omega

theorem toNat_lo (v : UInt16) : v.toUInt8.toNat = v.toNat % 256 := by simp

@[simp] theorem ofBeBytes_hi_lo (v : UInt16) : ofBeBytes (v >>> 8).toUInt8 v.toUInt8 = v := by
  apply UInt16.toNat_inj.mp
  rw [toNat_ofBeBytes, toNat_hi, toNat_lo]
  omega

@[simp] theorem hi_ofBeBytes (hi lo : UInt8) : (ofBeBytes hi lo >>> 8).toUInt8 = hi := by
  have := lo.toNat_lt
  apply UInt8.toNat_inj.mp
  rw [toNat_hi, toNat_ofBeBytes]
  omega

@[simp] theorem lo_ofBeBytes (hi lo : UInt8) : (ofBeBytes hi lo).toUInt8 = lo := by
  have := lo.toNat_lt
  apply UInt8.toNat_inj.mp
  rw [toNat_lo, toNat_ofBeBytes]
  omega

@[simp] theorem toBeBytes_ofBeBytes (hi lo : UInt8) : toBeBytes (ofBeBytes hi lo) = [hi, lo] := by
  rw [toBeBytes, hi_ofBeBytes, lo_ofBeBytes]

/-- Words in transmission order. -/
def wordsBytes (vs : List UInt16) : List UInt8 := vs.flatMap toBeBytes

@[simp] theorem wordsBytes_cons (v : UInt16) (vs : List UInt16) :
    wordsBytes (v :: vs) = toBeBytes v ++ wordsBytes vs := List.flatMap_cons

@[simp] theorem length_wordsBytes (vs : List UInt16) : (wordsBytes vs).length = 2 * vs.length := by
  induction vs with
  | nil => rfl
  | cons v vs ih => simp [ih]; omega

/-- The words of a byte string, pairwise; a last odd byte is left out. -/
def ofPairs : List UInt8 → List UInt16
  | hi :: lo :: rest => ofBeBytes hi lo :: ofPairs rest
  | _ => []

@[simp] theorem ofPairs_wordsBytes (vs : List UInt16) : ofPairs (wordsBytes vs) = vs := by
  induction vs with
  | nil => rfl
  | cons v vs ih => simp [toBeBytes, ofPairs, ih]

theorem wordsBytes_ofPairs : ∀ {bs : List UInt8}, bs.length % 2 = 0 → wordsBytes (ofPairs bs) = bs
  | [], _ => rfl
  | [_], h => by simp at h
  | hi :: lo :: rest, h => by
    have hr : rest.length % 2 = 0 := by simp only [List.length_cons] at h; omega
    simp [ofPairs, wordsBytes_ofPairs hr]

/-! ## Bits of a byte -/

theorem shiftRight_and_one (b : UInt8) {j : Nat} (hj : j < 8) :
    (((b >>> UInt8.ofNat j) &&& 1) != 0) = b.toNat.testBit j := by
  have h8 : j % 8 = j := Nat.mod_eq_of_lt hj
  have h256 : j % 256 = j := Nat.mod_eq_of_lt (by omega)
  have hn : ((b >>> UInt8.ofNat j) &&& 1).toNat = b.toNat >>> j &&& 1 := by simp [h8, h256]
  have hz : ((b >>> UInt8.ofNat j) &&& 1 = 0) ↔ b.toNat >>> j &&& 1 = 0 := by
    rw [← UInt8.toNat_inj, hn]
    simp
  rw [Nat.testBit, Nat.and_comm 1, bne, bne]
  congr 1
  rw [Bool.eq_iff_iff, beq_iff_eq, beq_iff_eq]
  exact hz

theorem testBit_or_one_shiftLeft (b : UInt8) {j k : Nat} (hj : j < 8) :
    (b ||| 1 <<< UInt8.ofNat j).toNat.testBit k = (b.toNat.testBit k || decide (j = k)) := by
  have h8 : j % 8 = j := Nat.mod_eq_of_lt hj
  have h256 : j % 256 = j := Nat.mod_eq_of_lt (by omega)
  have hp : 2 ^ j < 256 := by
    calc 2 ^ j ≤ 2 ^ 7 := Nat.pow_le_pow_right (by decide) (by omega)
      _ < 256 := by decide
  have hn : (b ||| 1 <<< UInt8.ofNat j).toNat = b.toNat ||| 2 ^ j := by
    simp only [UInt8.toNat_or, UInt8.toNat_shiftLeft, UInt8.toNat_ofNat', UInt8.toNat_one]
    rw [Nat.shiftLeft_eq, Nat.one_mul, show (2 ^ 8 : Nat) = 256 from rfl, h256, h8,
      Nat.mod_eq_of_lt hp]
  rw [hn, Nat.testBit_or, Nat.testBit_two_pow]

theorem byte_ext {a b : UInt8} (h : ∀ j, j < 8 → a.toNat.testBit j = b.toNat.testBit j) : a = b := by
  apply UInt8.toNat_inj.mp
  apply Nat.eq_of_testBit_eq
  intro j
  by_cases hj : j < 8
  · exact h j hj
  · have hp : 2 ^ 8 ≤ 2 ^ j := Nat.pow_le_pow_right (by decide) (by omega)
    rw [Nat.testBit_lt_two_pow (lt_of_lt_of_le a.toNat_lt hp),
      Nat.testBit_lt_two_pow (lt_of_lt_of_le b.toNat_lt hp)]

end Lib
