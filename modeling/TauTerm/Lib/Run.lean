import Mathlib

/-!
# Runs of a machine

A step relation `R s a s'` names the action of each step. `Run R s as s'` is a
run; what each step preserves, a run preserves (`Run.invariant`). A machine that
computes its steps is run by `execute`. A machine `Completes` if its runs end, and
end well; a measure that every step decreases shows the first half.
-/

namespace Lib

variable {σ α : Type}

inductive Run (R : σ → α → σ → Prop) : σ → List α → σ → Prop
  | nil (s : σ) : Run R s [] s
  | cons {s s' t : σ} {a : α} {as : List α} : R s a s' → Run R s' as t → Run R s (a :: as) t

namespace Run

variable {R R' : σ → α → σ → Prop} {s t : σ} {as : List α}

theorem invariant {Inv : σ → Prop} (hstep : ∀ s a s', Inv s → R s a s' → Inv s')
    (h : Run R s as t) (hs : Inv s) : Inv t := by
  induction h with
  | nil => exact hs
  | cons hstep' _ ih => exact ih (hstep _ _ _ hs hstep')

theorem mono (hR : ∀ s a s', R s a s' → R' s a s') (h : Run R s as t) : Run R' s as t := by
  induction h with
  | nil s => exact .nil s
  | cons hstep _ ih => exact .cons (hR _ _ _ hstep) ih

end Run

/-- The state after a list of actions, if every one of them was enabled. -/
def execute (step : σ → α → Option σ) : σ → List α → Option σ
  | s, [] => some s
  | s, a :: as => (step s a).bind (execute step · as)

theorem run_of_execute {step : σ → α → Option σ} {as : List α} {s t : σ}
    (h : execute step s as = some t) : Run (fun s a s' => step s a = some s') s as t := by
  induction as generalizing s with
  | nil => exact Option.some.inj h ▸ .nil s
  | cons a as ih =>
    obtain ⟨s', hs, ht⟩ := Option.bind_eq_some_iff.mp h
    exact .cons hs (ih ht)

/-- A machine that takes only the steps that satisfy `P`. -/
def stepWhere (step : σ → α → Option σ) (P : σ → α → σ → Prop)
    [∀ s a s', Decidable (P s a s')] (s : σ) (a : α) : Option σ :=
  (step s a).filter fun s' => P s a s'

theorem run_of_executeWhere {step : σ → α → Option σ} {P : σ → α → σ → Prop}
    [∀ s a s', Decidable (P s a s')] {as : List α} {s t : σ}
    (h : execute (stepWhere step P) s as = some t) :
    Run (fun s a s' => step s a = some s' ∧ P s a s') s as t := by
  refine (run_of_execute h).mono fun s a s' hs => ?_
  obtain ⟨hstep, hp⟩ := Option.filter_eq_some_iff.mp hs
  exact ⟨hstep, of_decide_eq_true hp⟩

/-! ## Machines that take every action -/

section Total

variable (step : σ → α → σ)

/-- `P` holds in every state of the run. -/
def Always (P : σ → Prop) : σ → List α → Prop
  | s, [] => P s
  | s, a :: as => P s ∧ Always P (step s a) as

/-- Every action of the run meets `Q` in the state it is taken in. -/
def EachStep (Q : σ → α → Prop) : σ → List α → Prop
  | _, [] => True
  | s, a :: as => Q s a ∧ EachStep Q (step s a) as

instance EachStep.decidable (Q : σ → α → Prop) [∀ s a, Decidable (Q s a)] :
    ∀ s as, Decidable (EachStep step Q s as)
  | _, [] => .isTrue trivial
  | s, a :: as => @instDecidableAnd _ _ _ (EachStep.decidable Q (step s a) as)

variable {step} {P : σ → Prop} {F Q : σ → α → Prop} {s : σ} {as : List α}

theorem Always.last (h : Always step P s as) : P (as.foldl step s) := by
  induction as generalizing s with
  | nil => exact h
  | cons a as ih => exact ih h.2

theorem EachStep.invariant (hstep : ∀ s a, P s → Q s a → P (step s a)) (h : EachStep step Q s as)
    (hs : P s) : P (as.foldl step s) := by
  induction as generalizing s with
  | nil => exact hs
  | cons a as ih => exact ih h.2 (hstep s a hs h.1)

theorem EachStep.and (hQ : EachStep step Q s as) (hF : EachStep step F s as) :
    EachStep step (fun s a => Q s a ∧ F s a) s as := by
  induction as generalizing s with
  | nil => trivial
  | cons a as ih => exact ⟨⟨hQ.1, hF.1⟩, ih hQ.2 hF.2⟩

theorem EachStep.append {bs : List α} (h : EachStep step Q s as)
    (h' : EachStep step Q (as.foldl step s) bs) : EachStep step Q s (as ++ bs) := by
  induction as generalizing s with
  | nil => exact h'
  | cons a as ih => exact ⟨h.1, ih h.2 h'⟩

theorem EachStep.of_append {bs : List α} (h : EachStep step Q s (as ++ bs)) :
    EachStep step Q s as ∧ EachStep step Q (as.foldl step s) bs := by
  induction as generalizing s with
  | nil => exact ⟨trivial, h⟩
  | cons a as ih => exact ⟨⟨h.1, (ih h.2).1⟩, (ih h.2).2⟩

/-- What an invariant implies holds in every state of a run. -/
theorem EachStep.always {Inv : σ → Prop} (hP : ∀ s, Inv s → P s)
    (hstep : ∀ s a, Inv s → Q s a → Inv (step s a)) (h : EachStep step Q s as) (hs : Inv s) :
    Always step P s as := by
  induction as generalizing s with
  | nil => exact hP s hs
  | cons a as ih => exact ⟨hP s hs, ih h.2 (hstep s a hs h.1)⟩

theorem EachStep.imp {Inv : σ → Prop} (hF : ∀ s a, Inv s → Q s a → F s a)
    (hstep : ∀ s a, Inv s → Q s a → Inv (step s a)) (h : EachStep step Q s as) (hs : Inv s) :
    EachStep step F s as := by
  induction as generalizing s with
  | nil => trivial
  | cons a as ih => exact ⟨hF s a hs h.1, ih h.2 (hstep s a hs h.1)⟩

/-- Where a step from `P` keeps `P` exactly if it meets `Q`, a run does if all its steps do. An
invariant may help. -/
theorem always_iff_of_invariant {Inv : σ → Prop} (hinv : ∀ s a, Inv s → F s a → Inv (step s a))
    (hstep : ∀ s a, Inv s → P s → F s a → (P (step s a) ↔ Q s a)) (hF : EachStep step F s as)
    (hs : Inv s) : Always step P s as ↔ P s ∧ EachStep step Q s as := by
  induction as generalizing s with
  | nil => exact (and_iff_left trivial).symm
  | cons a as ih =>
    obtain ⟨hFa, hFas⟩ := hF
    refine and_congr_right fun hP => ?_
    rw [ih hFas (hinv s a hs hFa), hstep s a hs hP hFa]
    exact .rfl

theorem always_iff_eachStep (hstep : ∀ s a, P s → F s a → (P (step s a) ↔ Q s a))
    (hF : EachStep step F s as) : Always step P s as ↔ P s ∧ EachStep step Q s as :=
  @always_iff_of_invariant _ _ step P F Q s as (fun _ => True) (fun _ _ _ _ => trivial)
    (fun s a _ => hstep s a) hF trivial

end Total

/-! ## Machines that may fail -/

section Partial

variable (step : σ → α → Option σ)

/-- Every action of the run succeeds, and `P` holds in every state. -/
def AlwaysSucceeds (P : σ → Prop) : σ → List α → Prop
  | s, [] => P s
  | s, a :: as => P s ∧ ∃ s', step s a = some s' ∧ AlwaysSucceeds P s' as

/-- Every action of the run meets `Q` in the state it is taken in, as far as the run goes. -/
def EachAttempt (Q : σ → α → Prop) : σ → List α → Prop
  | _, [] => True
  | s, a :: as => Q s a ∧ ∀ s', step s a = some s' → EachAttempt Q s' as

variable {step} {Inv P : σ → Prop} {Q : σ → α → Prop} {s : σ} {as : List α}

theorem AlwaysSucceeds.execute (h : AlwaysSucceeds step P s as) :
    ∃ t, execute step s as = some t ∧ P t := by
  induction as generalizing s with
  | nil => exact ⟨s, rfl, h⟩
  | cons a as ih =>
    obtain ⟨-, s', hstep, hrest⟩ := h
    obtain ⟨t, ht, hP⟩ := ih hrest
    exact ⟨t, by rw [Lib.execute, hstep, Option.bind_some, ht], hP⟩

/-- Where `Q` is what a step from `Inv` needs to succeed and stay good, a run does exactly if all
its steps meet `Q`. -/
theorem alwaysSucceeds_iff (hP : ∀ s, Inv s → P s)
    (hok : ∀ s a, Inv s → Q s a → ∃ s', step s a = some s' ∧ Inv s')
    (hneeds : ∀ s a s', Inv s → step s a = some s' → P s' → Q s a) (hs : Inv s) :
    AlwaysSucceeds step P s as ↔ EachAttempt step Q s as := by
  induction as generalizing s with
  | nil => exact iff_of_true (hP s hs) trivial
  | cons a as ih =>
    constructor
    · rintro ⟨-, s', hstep, hrest⟩
      have hP' : P s' := by
        cases as with
        | nil => exact hrest
        | cons _ _ => exact hrest.1
      have hQ := hneeds s a s' hs hstep hP'
      refine ⟨hQ, fun t ht => ?_⟩
      obtain ⟨s'', hs'', hinv⟩ := hok s a hs hQ
      obtain rfl := Option.some.inj (hs''.symm.trans hstep)
      obtain rfl := Option.some.inj (hstep.symm.trans ht)
      exact (ih hinv).mp hrest
    · rintro ⟨hQ, hrest⟩
      obtain ⟨s', hstep, hinv⟩ := hok s a hs hQ
      exact ⟨hP s hs, s', hstep, (ih hinv).mpr (hrest s' hstep)⟩

end Partial

/-! ## Completion -/

variable {R : σ → α → σ → Prop}

/-- No step leads anywhere else. -/
def Quiet (R : σ → α → σ → Prop) (s : σ) : Prop := ∀ a s', R s a s' → s' = s

/-- No run goes on for ever, apart from steps that change nothing. -/
def Terminates (R : σ → α → σ → Prop) (s : σ) : Prop :=
  ¬ ∃ states : Nat → σ, states 0 = s ∧
    ∀ i, states (i + 1) ≠ states i ∧ ∃ a, R (states i) a (states (i + 1))

/-- Whatever the order of the steps, they run out, and `Good` holds then. -/
def Completes (R : σ → α → σ → Prop) (Good : σ → Prop) (s : σ) : Prop :=
  Terminates R s ∧ ∀ as t, Run R s as t → Quiet R t → Good t

section Measure

variable {β : Type} [LT β] [WellFoundedLT β] {measure : σ → β} {Inv : σ → Prop}
  (hstep : ∀ s a s', Inv s → R s a s' → Inv s')
  (hmeasure : ∀ s a s', Inv s → R s a s' → s' ≠ s → measure s' < measure s)

include hstep hmeasure

theorem terminates_of_measure {s : σ} (hs : Inv s) : Terminates R s := by
  rintro ⟨states, rfl, hstates⟩
  have hinv : ∀ i, Inv (states i) := by
    intro i
    induction i with
    | zero => exact hs
    | succ i ih => obtain ⟨-, a, ha⟩ := hstates i; exact hstep _ a _ ih ha
  have hdec : ∀ i, measure (states (i + 1)) < measure (states i) := fun i => by
    obtain ⟨hne, a, ha⟩ := hstates i
    exact hmeasure _ a _ (hinv i) ha hne
  obtain ⟨i, hi⟩ := WellFounded.not_rel_apply_succ (r := (· < ·)) fun i => measure (states i)
  exact hi (hdec i)

theorem exists_run_quiet {s : σ} (hs : Inv s) : ∃ as t, Run R s as t ∧ Quiet R t := by
  induction hm : measure s using WellFoundedLT.induction generalizing s with
  | ind m ih =>
    by_cases hq : Quiet R s
    · exact ⟨[], s, .nil s, hq⟩
    · unfold Quiet at hq
      push Not at hq
      obtain ⟨a, s', ha, hne⟩ := hq
      obtain ⟨as, t, hrun, hquiet⟩ :=
        ih (measure s') (hm ▸ hmeasure s a s' hs ha hne) (hstep s a s' hs ha) rfl
      exact ⟨a :: as, t, .cons ha hrun, hquiet⟩

end Measure

end Lib
