import Mathlib

/-!
# Linear shift registers

A register is shifted by a map that is additive for exclusive or. A message symbol
is added to the register before a shift (at the top) or after it (at the bottom).
Symbols added at the bottom reach the top after a few shifts more, and the two
registers agree from then on (`foldl_top_eq`).
-/

namespace Lib

variable {α β : Type} [XorOp α]

/-- A shift that is additive for exclusive or. -/
def LinearShift (shift : α → α) : Prop := ∀ a b, shift (a ^^^ b) = shift a ^^^ shift b

theorem LinearShift.iterate {shift : α → α} (h : LinearShift shift) (n : Nat) :
    LinearShift shift^[n] := by
  intro a b
  induction n generalizing a b with
  | zero => rfl
  | succ n ih => rw [Function.iterate_succ_apply, h, ih]; rfl

/-- The register after a message whose symbols enter at the top. -/
def foldTop (shift : α → α) (symbol : β → α) (message : List β) (register : α) : α :=
  message.foldl (fun register b => shift (register ^^^ symbol b)) register

/-- The register after a message whose symbols enter at the bottom. -/
def foldBottom (shift : α → α) (symbol : β → α) (message : List β) (register : α) : α :=
  message.foldl (fun register b => shift register ^^^ symbol b) register

/-- Where `k` shifts bring a symbol from the bottom through the top, they do so for a message. -/
theorem foldTop_eq {shift : α → α} (h : LinearShift shift) {top bottom : β → α} {k : Nat}
    (hsymbol : ∀ b, shift^[k] (bottom b) = shift (top b)) (message : List β) (register : α) :
    foldTop shift top message (shift^[k] register) =
      shift^[k] (foldBottom shift bottom message register) := by
  induction message generalizing register with
  | nil => rfl
  | cons b message ih =>
    have hstep : shift (shift^[k] register ^^^ top b) =
        shift^[k] (shift register ^^^ bottom b) := by
      rw [h, h.iterate k, hsymbol, ← Function.iterate_succ_apply' shift,
        ← Function.iterate_succ_apply shift]
    change foldTop shift top message (shift (shift^[k] register ^^^ top b)) = _
    rw [hstep, ih]
    rfl

/-- Messages and registers are added together. -/
theorem foldTop_zipWith [Std.Associative (α := α) (· ^^^ ·)] [Std.Commutative (α := α) (· ^^^ ·)]
    {shift : α → α} (h : LinearShift shift) {symbol : β → α} {add : β → β → β}
    (hadd : ∀ b c, symbol (add b c) = symbol b ^^^ symbol c) {message error : List β}
    (hlen : error.length = message.length) (register offset : α) :
    foldTop shift symbol (List.zipWith add message error) (register ^^^ offset) =
      foldTop shift symbol message register ^^^ foldTop shift symbol error offset := by
  induction message generalizing error register offset with
  | nil =>
    obtain rfl := List.eq_nil_of_length_eq_zero hlen
    rfl
  | cons b message ih =>
    obtain _ | ⟨c, error⟩ := error
    · cases hlen
    have hstep : shift (register ^^^ offset ^^^ symbol (add b c)) =
        shift (register ^^^ symbol b) ^^^ shift (offset ^^^ symbol c) := by
      rw [hadd, ← h]
      congr 1
      ac_rfl
    change foldTop shift symbol _ (shift (register ^^^ offset ^^^ symbol (add b c))) = _
    rw [hstep, ih (Nat.succ.inj hlen)]
    rfl

/-- What is added to the register before a message is shifted along with it. -/
theorem foldTop_xor [Std.Associative (α := α) (· ^^^ ·)] [Std.Commutative (α := α) (· ^^^ ·)]
    {shift : α → α} (h : LinearShift shift) (symbol : β → α) (message : List β)
    (register offset : α) :
    foldTop shift symbol message (register ^^^ offset) =
      foldTop shift symbol message register ^^^ shift^[message.length] offset := by
  induction message generalizing register offset with
  | nil => rfl
  | cons b message ih =>
    have hstep : shift (register ^^^ offset ^^^ symbol b) =
        shift (register ^^^ symbol b) ^^^ shift offset := by
      rw [← h]
      congr 1
      ac_rfl
    change foldTop shift symbol message (shift (register ^^^ offset ^^^ symbol b)) = _
    rw [hstep, ih, ← Function.iterate_succ_apply]
    rfl

end Lib
