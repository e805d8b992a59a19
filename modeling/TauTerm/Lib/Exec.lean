import Mathlib

/-!
# Computations on a mutable state that can fail

`Exec σ ε α` is a function of a `&mut σ` that returns a `Result<α, ε>`: an error
leaves the state as far as the computation got, and does not restore it.
-/

namespace Lib

def Exec (σ ε α : Type) := σ → Except ε α × σ

namespace Exec

variable {σ τ ε α β : Type}

instance : Monad (Exec σ ε) where
  pure a s := (.ok a, s)
  bind x f s :=
    match x s with
    | (.ok a, s') => f a s'
    | (.error e, s') => (.error e, s')

def get : Exec σ ε σ := fun s => (.ok s, s)

def modify (f : σ → σ) : Exec σ ε Unit := fun s => (.ok (), f s)

def throw (e : ε) : Exec σ ε α := fun s => (.error e, s)

/-- A step that does not touch the state. -/
def ofExcept (r : Except ε α) : Exec σ ε α := fun s => (r, s)

/-- A computation on a field of the state. -/
def zoom (get : σ → τ) (set : τ → σ → σ) (x : Exec τ ε α) : Exec σ ε α := fun s =>
  ((x (get s)).1, set (x (get s)).2 s)

@[simp] theorem pure_run (a : α) (s : σ) : (pure a : Exec σ ε α) s = (.ok a, s) := rfl

@[simp] theorem get_run (s : σ) : (get : Exec σ ε σ) s = (.ok s, s) := rfl

@[simp] theorem modify_run (f : σ → σ) (s : σ) : (modify f : Exec σ ε Unit) s = (.ok (), f s) := rfl

@[simp] theorem throw_run (e : ε) (s : σ) : (throw e : Exec σ ε α) s = (.error e, s) := rfl

@[simp] theorem ofExcept_run (r : Except ε α) (s : σ) : (ofExcept r : Exec σ ε α) s = (r, s) := rfl

theorem bind_run (x : Exec σ ε α) (f : α → Exec σ ε β) (s : σ) :
    (x >>= f) s =
      match x s with
      | (.ok a, s') => f a s'
      | (.error e, s') => (.error e, s') := rfl

theorem bind_run_ok {x : Exec σ ε α} {s s' : σ} {a : α} (h : x s = (.ok a, s'))
    (f : α → Exec σ ε β) : (x >>= f) s = f a s' := by
  rw [bind_run, h]

theorem bind_run_error {x : Exec σ ε α} {s s' : σ} {e : ε} (h : x s = (.error e, s'))
    (f : α → Exec σ ε β) : (x >>= f) s = (.error e, s') := by
  rw [bind_run, h]

/-- Whatever the outcome, the states before and after `x` are related. -/
def Relates (R : σ → σ → Prop) (x : Exec σ ε α) : Prop := ∀ s, R s (x s).2

theorem Relates.bind {R : σ → σ → Prop} [IsTrans σ R] {x : Exec σ ε α} {f : α → Exec σ ε β}
    (hx : Relates R x) (hf : ∀ a, Relates R (f a)) : Relates R (x >>= f) := by
  intro s
  have hs := hx s
  rw [bind_run]
  cases hrun : x s with
  | mk result s' =>
    rw [hrun] at hs
    cases result with
    | ok a => exact IsTrans.trans _ _ _ hs (hf a s')
    | error e => exact hs

end Exec

end Lib
