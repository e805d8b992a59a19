import Mathlib

/-!
# Machines that answer

A machine reads one input at a time and answers each with a list of outputs.
`transduce` feeds it a list of inputs. An invariant may speak of what has been read
(`transduce_history`): what one input preserves, every sequence of inputs does.
-/

namespace Lib

variable {σ α β : Type} (step : σ → α → σ × List β)

/-- The state after a list of inputs, and everything the machine answered. -/
def transduce : σ → List α → σ × List β
  | s, [] => (s, [])
  | s, a :: as =>
    let next := step s a
    let rest := transduce next.1 as
    (rest.1, next.2 ++ rest.2)

@[simp] theorem transduce_nil (s : σ) : transduce step s [] = (s, []) := rfl

variable {step}

theorem transduce_cons {s s' : σ} {a : α} {out : List β} (h : step s a = (s', out)) (as : List α) :
    transduce step s (a :: as) = ((transduce step s' as).1, out ++ (transduce step s' as).2) := by
  rw [transduce, h]

theorem transduce_append (s : σ) (as bs : List α) :
    transduce step s (as ++ bs) =
      ((transduce step (transduce step s as).1 bs).1,
        (transduce step s as).2 ++ (transduce step (transduce step s as).1 bs).2) := by
  induction as generalizing s with
  | nil => rfl
  | cons a as ih =>
    rw [List.cons_append, transduce, ih]
    simp only [transduce, List.append_assoc]

theorem transduce_concat (s : σ) (as : List α) (a : α) :
    (transduce step s (as ++ [a])).1 = (step (transduce step s as).1 a).1 := by
  rw [transduce_append]
  rfl

/-- An invariant of the state and of what has been read. -/
theorem transduce_history {Inv : List α → σ → Prop} {s : σ} (hs : Inv [] s)
    (hstep : ∀ as s a, Inv as s → Inv (as ++ [a]) (step s a).1) (as : List α) :
    Inv as (transduce step s as).1 := by
  induction as using List.reverseRecOn with
  | nil => exact hs
  | append_singleton as a ih =>
    rw [transduce_concat]
    exact hstep as _ a ih

/-- A state that every input leaves as it is. -/
theorem transduce_fixed {s : σ} (h : ∀ a, step s a = (s, [])) (as : List α) :
    transduce step s as = (s, []) := by
  induction as with
  | nil => rfl
  | cons a as ih => rw [transduce_cons (h a), ih, List.append_nil]

end Lib
