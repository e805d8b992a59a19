import Mathlib

/-!
# Operations that can panic

A function returns, leaves early with an error, or panics: at a sum that its word does not hold, a
difference below zero, a division by zero, an index or a range outside of a slice. A loop is run for so many turns and is
`stuck` if they do not bring it to its end. `Ensures` is the postcondition of a run that neither
panics nor gets stuck.
-/

namespace Lib

inductive Panic where
  | overflow
  | divisionByZero
  | outOfBounds
  deriving DecidableEq

inductive Halt (ε : Type) where
  | error (e : ε)
  | panic (p : Panic)
  | stuck
  deriving DecidableEq

abbrev Checked (ε α : Type) : Type := Except (Halt ε) α

namespace Checked

variable {ε α β σ : Type}

/-- One past the largest 64-bit word. -/
def WORD : Nat := 2 ^ 64

def fail (e : ε) : Checked ε α := .error (.error e)

def add (a b : Nat) : Checked ε Nat :=
  if a + b < WORD then .ok (a + b) else .error (.panic .overflow)

def sub (a b : Nat) : Checked ε Nat := if b ≤ a then .ok (a - b) else .error (.panic .overflow)

def mul (a b : Nat) : Checked ε Nat :=
  if a * b < WORD then .ok (a * b) else .error (.panic .overflow)

def pow (a b : Nat) : Checked ε Nat :=
  if a ^ b < WORD then .ok (a ^ b) else .error (.panic .overflow)

def div (a b : Nat) : Checked ε Nat :=
  if b = 0 then .error (.panic .divisionByZero) else .ok (a / b)

def index (data : List α) (i : Nat) : Checked ε α := data[i]?.elim (.error (.panic .outOfBounds)) .ok

def slice (data : List α) (start stop : Nat) : Checked ε (List α) :=
  if start ≤ stop ∧ stop ≤ data.length then .ok ((data.take stop).drop start)
  else .error (.panic .outOfBounds)

/-- A result without a panic. -/
def lift : Except ε α → Checked ε α
  | .ok a => .ok a
  | .error e => .error (.error e)

/-- `let Some(a) = x else { return default }`. -/
def letSome (x : Checked ε (Option α)) (default : β) (f : α → Checked ε β) : Checked ε β :=
  x >>= fun
    | none => .ok default
    | some a => f a

/-- A loop goes round with `inl` and is left with `inr`. -/
def loop (body : σ → Checked ε (σ ⊕ α)) : Nat → σ → Checked ε α
  | 0, _ => .error .stuck
  | turns + 1, s =>
    body s >>= fun
      | .inl s => loop body turns s
      | .inr a => .ok a

/-- It comes to its end without a panic, and what it returns is in `Q`. -/
def Ensures (x : Checked ε α) (Q : α → Prop) : Prop :=
  match x with
  | .ok a => Q a
  | .error (.error _) => True
  | .error (.panic _) => False
  | .error .stuck => False

/-! ## Rules -/

section Rules

variable {x : Checked ε α} {f : α → Checked ε β} {P Q : α → Prop} {R : β → Prop}

theorem Ensures.bind (hx : x.Ensures P) (hf : ∀ a, P a → (f a).Ensures R) :
    (x >>= f).Ensures R := by
  match x with
  | .ok a => exact hf a hx
  | .error (.error _) => exact trivial

theorem Ensures.mono (hx : x.Ensures P) (h : ∀ a, P a → Q a) : x.Ensures Q := by
  match x with
  | .ok a => exact h a hx
  | .error (.error _) => exact trivial

theorem Ensures.letSome {y : Checked ε (Option α)} {default : β} {S : Option α → Prop}
    (hy : y.Ensures S) (hdefault : R default) (hf : ∀ a, S (some a) → (f a).Ensures R) :
    (letSome y default f).Ensures R := by
  refine hy.bind fun a ha => ?_
  cases a with
  | none => exact hdefault
  | some a => exact hf a ha

theorem ensures_ok {a : α} (h : Q a) : Ensures (.ok a : Checked ε α) Q := h

theorem ensures_fail (e : ε) : Ensures (fail e : Checked ε α) Q := trivial

theorem ensures_lift (y : Except ε α) : (lift y).Ensures fun a => y = .ok a := by
  cases y with
  | ok a => exact rfl
  | error e => exact trivial

theorem lift_bind (y : Except ε α) (g : α → Except ε β) :
    lift (y >>= g) = lift y >>= fun a => lift (g a) := by
  cases y <;> rfl

theorem ensures_of_eq {a : α} (h : x = .ok a) : x.Ensures (· = a) := by
  rw [h]
  exact rfl

end Rules

section Operations

variable {a b : Nat}

theorem add_ok (h : a + b < WORD) : (add a b : Checked ε Nat) = .ok (a + b) := if_pos h

theorem sub_ok (h : b ≤ a) : (sub a b : Checked ε Nat) = .ok (a - b) := if_pos h

theorem mul_ok (h : a * b < WORD) : (mul a b : Checked ε Nat) = .ok (a * b) := if_pos h

theorem div_ok (h : b ≠ 0) : (div a b : Checked ε Nat) = .ok (a / b) := if_neg h

theorem pow_ok (h : a ^ b < WORD) : (pow a b : Checked ε Nat) = .ok (a ^ b) := if_pos h

variable {data : List α} {i start stop : Nat}

theorem index_ok (h : i < data.length) : (index data i : Checked ε α) = .ok data[i] := by
  rw [index, List.getElem?_eq_getElem h]
  rfl

theorem slice_ok (hstart : start ≤ stop) (hstop : stop ≤ data.length) :
    (slice data start stop : Checked ε (List α)) = .ok ((data.take stop).drop start) :=
  if_pos ⟨hstart, hstop⟩

theorem ensures_add (h : a + b < WORD) : (add a b : Checked ε Nat).Ensures (· = a + b) :=
  ensures_of_eq (add_ok h)

theorem ensures_sub (h : b ≤ a) : (sub a b : Checked ε Nat).Ensures (· = a - b) :=
  ensures_of_eq (sub_ok h)

theorem ensures_mul (h : a * b < WORD) : (mul a b : Checked ε Nat).Ensures (· = a * b) :=
  ensures_of_eq (mul_ok h)

theorem ensures_index (h : i < data.length) : (index data i : Checked ε α).Ensures fun _ => True := by
  rw [index_ok h]
  exact trivial

theorem ensures_slice (hstart : start ≤ stop) (hstop : stop ≤ data.length) :
    (slice data start stop : Checked ε (List α)).Ensures fun part => part.length = stop - start := by
  rw [slice_ok hstart hstop]
  change ((data.take stop).drop start).length = stop - start
  rw [List.length_drop, List.length_take, Nat.min_eq_left hstop]

end Operations

/-- A loop whose measure falls with every turn ends, and its invariant holds until then. -/
theorem ensures_loop {body : σ → Checked ε (σ ⊕ α)} {I : σ → Prop} {Q : α → Prop}
    (measure : σ → Nat)
    (hbody : ∀ s, I s → (body s).Ensures
      (Sum.elim (fun s' => I s' ∧ measure s' < measure s) Q))
    {turns : Nat} {s : σ} (hs : I s) (hturns : measure s < turns) : (loop body turns s).Ensures Q := by
  induction turns generalizing s with
  | zero => exact absurd hturns (Nat.not_lt_zero _)
  | succ turns ih =>
    refine (hbody s hs).bind fun r hr => ?_
    cases r with
    | inl s' => exact ih hr.1 (hr.2.trans_le (Nat.le_of_lt_succ hturns))
    | inr a => exact hr

/-- A loop computes the function of its state that one turn does not change. -/
theorem loop_eq {body : σ → Checked ε (σ ⊕ α)} {value : σ → Checked ε α} {I : σ → Prop}
    (measure : σ → Nat)
    (hstep : ∀ s s', I s → body s = .ok (.inl s') → I s' ∧ measure s' < measure s)
    (hvalue : ∀ s, I s → (body s >>= Sum.elim value .ok) = value s)
    {turns : Nat} {s : σ} (hs : I s) (hturns : measure s < turns) : loop body turns s = value s := by
  induction turns generalizing s with
  | zero => exact absurd hturns (Nat.not_lt_zero _)
  | succ turns ih =>
    rw [← hvalue s hs, loop]
    cases hbody : body s with
    | error e => rfl
    | ok r =>
      cases r with
      | inr a => rfl
      | inl s' =>
        obtain ⟨hs', hlt⟩ := hstep s s' hs hbody
        exact ih hs' (hlt.trans_le (Nat.le_of_lt_succ hturns))

end Checked

end Lib
