import Mathlib

/-!
# Event histories and machines in lockstep

A history of bounded length keeps its last events and folds the older ones into
an entry state; replaying the kept events from the entry state gives what
replaying everything would (`foldl_evict`). Two machines that take the same
inputs agree after every one of them exactly if none of the steps separates them
(`agree_iff`).
-/

namespace Lib

variable {σ τ ε ι : Type}

/-! ## Bounded histories -/

/-- Drop the oldest events beyond `capacity`, each applied to the entry state. -/
def evict (apply : τ → ε → τ) (capacity : Nat) (entry : τ) : List ε → τ × List ε
  | [] => (entry, [])
  | event :: events =>
    if capacity < (event :: events).length then evict apply capacity (apply entry event) events
    else (entry, event :: events)

variable {apply : τ → ε → τ} {capacity : Nat}

theorem foldl_evict (entry : τ) (events : List ε) :
    (evict apply capacity entry events).2.foldl apply (evict apply capacity entry events).1 =
      events.foldl apply entry := by
  induction events generalizing entry with
  | nil => rfl
  | cons event events ih =>
    unfold evict
    split_ifs
    · exact ih (apply entry event)
    · rfl

/-! ## Lockstep -/

variable {step : σ → ι → σ} {follow : τ → σ → ι → τ} {Agree : σ → τ → Prop} {Cond : σ → ι → Prop}

/-- The pair of a machine and a follower that sees each of its steps. -/
def lockstep (step : σ → ι → σ) (follow : τ → σ → ι → τ) (x : σ × τ) (i : ι) : σ × τ :=
  (step x.1 i, follow x.2 x.1 i)

/-- Every input meets the condition where the machine stands when it arrives. -/
def Meets (step : σ → ι → σ) (Cond : σ → ι → Prop) : σ → List ι → Prop
  | _, [] => True
  | s, i :: is => Cond s i ∧ Meets step Cond (step s i) is

theorem lockstep_fst (x : σ × τ) (is : List ι) :
    (is.foldl (lockstep step follow) x).1 = is.foldl step x.1 := by
  induction is generalizing x with
  | nil => rfl
  | cons i is ih => exact ih _

theorem agree_iff (hstep : ∀ s t i, Agree s t → (Agree (step s i) (follow t s i) ↔ Cond s i))
    {s : σ} {t : τ} (h : Agree s t) (is : List ι) :
    (∀ pre, pre <+: is →
      Agree (pre.foldl (lockstep step follow) (s, t)).1 (pre.foldl (lockstep step follow) (s, t)).2) ↔
      Meets step Cond s is := by
  induction is generalizing s t with
  | nil =>
    refine iff_of_true (fun pre hpre => ?_) trivial
    rw [List.prefix_nil.mp hpre]
    exact h
  | cons i is ih =>
    constructor
    · intro hall
      have hfirst := hall [i] (by simp)
      have hcond : Cond s i := (hstep s t i h).mp hfirst
      refine ⟨hcond, (ih hfirst).mp fun pre hpre => ?_⟩
      exact hall (i :: pre) (List.prefix_cons_inj i |>.mpr hpre)
    · rintro ⟨hcond, hrest⟩ pre hpre
      cases pre with
      | nil => exact h
      | cons j pre =>
        obtain ⟨rfl, htail⟩ := List.cons_prefix_cons.mp hpre
        exact (ih ((hstep s t j h).mpr hcond)).mpr hrest pre htail

end Lib
