import Mathlib
import TauTerm.Lib.Prog

/-!
# Programs in a world

The calls of a program act on a world that others act on too: between two calls it drifts, and then
it answers the call. `Wp` is what has to hold of the world before a program, for every run of it to
end in a postcondition; an error is an end like another. `Calls` bounds the calls a program can
make, whatever it is answered.
-/

namespace Lib

structure World (I : Interface) (σ : Type) where
  /-- What others do between two calls. -/
  Drifts : σ → σ → Prop
  Responds : σ → I.Event → σ → Prop

variable {I : Interface} {ε α β σ ς : Type}

/-- The steps of a world that meet a condition, which is on the drift and on the answer. -/
def World.within (W : World I σ) (D : σ → σ → Prop) (A : σ → I.Event → Prop) : World I σ where
  Drifts w v := W.Drifts w v ∧ D w v
  Responds w e v := W.Responds w e v ∧ A w e

inductive World.Carries (W : World I σ) : σ → List I.Event → σ → Prop
  | nil (w : σ) : Carries W w [] w
  | cons {w v v' w' : σ} {e : I.Event} {tr : List I.Event} : W.Drifts w v → W.Responds v e v' →
      Carries W v' tr w' → Carries W w (e :: tr) w'

namespace World.Carries

variable {W : World I σ} {w w' v : σ} {tr tr' : List I.Event}

theorem append_iff : W.Carries w (tr ++ tr') w' ↔ ∃ v, W.Carries w tr v ∧ W.Carries v tr' w' := by
  constructor
  · intro h
    induction tr generalizing w with
    | nil => exact ⟨w, .nil w, h⟩
    | cons e tr ih =>
      cases h with
      | cons hd hr hrest =>
        obtain ⟨v, h₁, h₂⟩ := ih hrest
        exact ⟨v, .cons hd hr h₁, h₂⟩
  · rintro ⟨v, h₁, h₂⟩
    induction h₁ with
    | nil => exact h₂
    | cons hd hr _ ih => exact .cons hd hr (ih h₂)

/-- What the drift and every call of the run relate, the run relates. -/
theorem relates {R : σ → σ → Prop} (hrefl : ∀ w, R w w)
    (htrans : ∀ {u v w}, R u v → R v w → R u w) (hdrift : ∀ {w v}, W.Drifts w v → R w v)
    (hcall : ∀ e ∈ tr, ∀ {v v'}, W.Responds v e v' → R v v') (h : W.Carries w tr w') : R w w' := by
  induction h with
  | nil w => exact hrefl w
  | cons hd hr _ ih =>
    refine htrans (htrans (hdrift hd) (hcall _ List.mem_cons_self hr)) (ih fun e he => ?_)
    exact hcall e (List.mem_cons_of_mem _ he)

theorem of_within {D : σ → σ → Prop} {A : σ → I.Event → Prop} (h : (W.within D A).Carries w tr w') :
    W.Carries w tr w' := by
  induction h with
  | nil => exact .nil _
  | cons hd hr _ ih => exact .cons hd.1 hr.1 ih

end World.Carries

namespace Proc

open Prog (Returns)

/-! ## What a run ends in -/

section Wp

variable {W : World I σ} {Q : Except ε α → σ → Prop} {w : σ}

/-- Every run of `x` from the world `w` ends in `Q`. -/
def Wp (W : World I σ) (x : Proc I ε α) (Q : Except ε α → σ → Prop) (w : σ) : Prop :=
  ∀ tr r w', Returns x.run tr r → W.Carries w tr w' → Q r w'

theorem Wp.imp {Q' : Except ε α → σ → Prop} {x : Proc I ε α} (hx : Wp W x Q w)
    (h : ∀ r w', Q r w' → Q' r w') : Wp W x Q' w := fun tr r w' hrun hw =>
  h r w' (hx tr r w' hrun hw)

theorem wp_pure {a : α} (h : Q (.ok a) w) : Wp W (pure a) Q w := fun tr r w' hrun hw => by
  obtain ⟨rfl, rfl⟩ := hrun.of_pure
  cases hw
  exact h

theorem wp_throw {e : ε} (h : Q (.error e) w) : Wp W (throw e) Q w := fun tr r w' hrun hw => by
  obtain ⟨rfl, rfl⟩ := hrun.of_pure
  cases hw
  exact h

theorem wp_ite {c : Prop} [Decidable c] {x y : Proc I ε α} (ht : c → Wp W x Q w)
    (he : ¬c → Wp W y Q w) : Wp W (if c then x else y) Q w := by
  split_ifs with hc
  · exact ht hc
  · exact he hc

/-- What is to hold behind a program for `Q` to hold at the end of what follows it. -/
def afterBind (W : World I σ) (f : α → Proc I ε β) (Q : Except ε β → σ → Prop) :
    Except ε α → σ → Prop
  | .ok a => Wp W (f a) Q
  | .error e => Q (.error e)

theorem wp_bind {x : Proc I ε α} {f : α → Proc I ε β} {Q : Except ε β → σ → Prop}
    (h : Wp W x (afterBind W f Q) w) : Wp W (x >>= f) Q w := fun tr r w' hrun hw => by
  rw [run_bind] at hrun
  obtain ⟨r₁, tr₁, tr₂, rfl, h₁, h₂⟩ := hrun.of_bind
  obtain ⟨v, hw₁, hw₂⟩ := World.Carries.append_iff.mp hw
  have hv := h tr₁ r₁ v h₁ hw₁
  cases r₁ with
  | ok a => exact hv tr₂ r w' h₂ hw₂
  | error e =>
    obtain ⟨rfl, rfl⟩ := h₂.of_pure
    cases hw₂
    exact hv

theorem wp_ask {c : I.Call} {Q : Except ε (I.Answer c) → σ → Prop}
    (h : ∀ v x v', W.Drifts w v → W.Responds v ⟨c, x⟩ v' → Q (.ok x) v') :
    Wp W (ask c) Q w := fun tr r w' hrun hw => by
  obtain ⟨x, tr', rfl, hk⟩ := hrun.of_call
  obtain ⟨rfl, rfl⟩ := hk.of_pure
  cases hw with
  | cons hd hr hrest =>
    cases hrest
    exact h _ _ _ hd hr

/-- A call and what follows it. -/
theorem wp_ask_bind {c : I.Call} {f : I.Answer c → Proc I ε α}
    (h : ∀ v x v', W.Drifts w v → W.Responds v ⟨c, x⟩ v' → Wp W (f x) Q v') :
    Wp W (ask c >>= f) Q w :=
  wp_bind (wp_ask h)

theorem wp_attempt {x : Proc I ε α} {Q : Except ε (Except ε α) → σ → Prop}
    (h : Wp W x (fun r => Q (.ok r)) w) : Wp W (attempt x) Q w := fun tr r w' hrun hw => by
  obtain ⟨r₁, tr₁, tr₂, rfl, h₁, h₂⟩ := Returns.of_bind hrun
  obtain ⟨rfl, rfl⟩ := h₂.of_pure
  rw [List.append_nil] at hw
  exact h tr₁ r₁ w' h₁ hw

/-- A loop ends in `Q` if what holds at its head leads to it, or back to the head. -/
theorem wp_loop {body : ς → Proc I ε (ς ⊕ α)} {s : ς} (Inv : ς → σ → Prop)
    (hinv : Inv s w) (hround : ∀ s w, Inv s w → Wp W (body s) (fun r w' =>
      match r with
      | .ok (.inl s') => Inv s' w'
      | .ok (.inr a) => Q (.ok a) w'
      | .error e => Q (.error e) w') w) : Wp W (loop body s) Q w := fun tr r w' hrun hw => by
  have hbody : ∀ {s w tr w'} r₀, Inv s w →
      Returns ((body s).run.bind fun r => .pure (roundEnd r)) tr r₀ → W.Carries w tr w' →
        (∃ s', r₀ = .inl s' ∧ Inv s' w') ∨ ∃ r', r₀ = .inr r' ∧ Q r' w' := by
    intro s w tr w' r₀ hs hrun hw
    obtain ⟨r₁, tr₁, tr₂, rfl, h₁, h₂⟩ := hrun.of_bind
    obtain ⟨rfl, rfl⟩ := h₂.of_pure
    rw [List.append_nil] at hw
    have hend := hround s w hs tr₁ r₁ w' h₁ hw
    match r₁ with
    | .ok (.inl s') => exact .inl ⟨s', rfl, hend⟩
    | .ok (.inr a) => exact .inr ⟨.ok a, rfl, hend⟩
    | .error e => exact .inr ⟨.error e, rfl, hend⟩
  obtain ⟨tr₁, s', tr₂, r', tr₃, rfl, hhead, hleave, hend⟩ :=
    @Returns.of_loop _ _ _ _ _ _ _ _ [] _ hrun
      (fun tr s' => ∀ v, W.Carries w tr v → Inv s' v) (fun v hv => by cases hv; exact hinv)
      fun tr s tr' s' hs hrun v hv => by
        obtain ⟨u, hu, hv⟩ := World.Carries.append_iff.mp hv
        obtain ⟨s'', heq, hs'⟩ | ⟨r', heq, -⟩ := hbody _ (hs u hu) hrun hv
        · exact Sum.inl.inj heq ▸ hs'
        · cases heq
  obtain ⟨u, hu, hw⟩ := World.Carries.append_iff.mp hw
  obtain ⟨v, hv, hw⟩ := World.Carries.append_iff.mp hw
  obtain ⟨rfl, rfl⟩ := hend.of_pure
  cases hw
  obtain ⟨s'', heq, -⟩ | ⟨r'', heq, hQ⟩ := hbody _ (hhead u hu) hleave hv
  · cases heq
  · exact Sum.inr.inj heq ▸ hQ

/-- The answer of a call that can fail, with the error that the program makes of it. -/
def orThrow {κ : Type} (r : Except κ α) (f : κ → ε) : Proc I ε α :=
  match r with
  | .ok a => pure a
  | .error e => throw (f e)

theorem wp_orThrow {κ : Type} {r : Except κ α} {f : κ → ε} (hok : ∀ a, r = .ok a → Q (.ok a) w)
    (herror : ∀ e, r = .error e → Q (.error (f e)) w) : Wp W (orThrow r f) Q w := by
  cases r with
  | ok a => exact wp_pure (hok a rfl)
  | error e => exact wp_throw (herror e rfl)

end Wp

/-! ## The calls of a program -/

section Calls

variable {C : I.Call → Prop} {x : Proc I ε α}

/-- Whatever it is answered, the program makes calls in `C` only. -/
def Calls (C : I.Call → Prop) (x : Proc I ε α) : Prop :=
  ∀ tr r, Returns x.run tr r → ∀ e ∈ tr, C e.1

theorem calls_pure (a : α) : Calls C (pure a : Proc I ε α) := fun tr r hrun => by
  obtain ⟨rfl, -⟩ := hrun.of_pure
  exact fun _ he => absurd he List.not_mem_nil

theorem calls_throw (e : ε) : Calls C (throw e : Proc I ε α) := fun tr r hrun => by
  obtain ⟨rfl, -⟩ := hrun.of_pure
  exact fun _ he => absurd he List.not_mem_nil

theorem calls_ask {c : I.Call} (h : C c) : Calls C (ask c : Proc I ε (I.Answer c)) :=
  fun tr r hrun e he => by
    obtain ⟨x, tr', rfl, hk⟩ := hrun.of_call
    obtain ⟨rfl, -⟩ := hk.of_pure
    rw [List.mem_singleton.mp he]
    exact h

theorem Calls.bind (hx : Calls C x) {f : α → Proc I ε β} (hf : ∀ a, Calls C (f a)) :
    Calls C (x >>= f) := fun tr r hrun e he => by
  rw [run_bind] at hrun
  obtain ⟨r₁, tr₁, tr₂, rfl, h₁, h₂⟩ := hrun.of_bind
  rcases List.mem_append.mp he with he | he
  · exact hx tr₁ r₁ h₁ e he
  · cases r₁ with
    | ok a => exact hf a tr₂ r h₂ e he
    | error err =>
      obtain ⟨rfl, -⟩ := h₂.of_pure
      exact absurd he List.not_mem_nil

theorem Calls.attempt (hx : Calls C x) : Calls C (attempt x) := fun tr r hrun e he => by
  obtain ⟨r₁, tr₁, tr₂, rfl, h₁, h₂⟩ := Returns.of_bind hrun
  obtain ⟨rfl, -⟩ := h₂.of_pure
  rw [List.append_nil] at he
  exact hx tr₁ r₁ h₁ e he

theorem Calls.imp {C' : I.Call → Prop} (hx : Calls C x) (h : ∀ c, C c → C' c) : Calls C' x :=
  fun tr r hrun e he => h e.1 (hx tr r hrun e he)

/-- What the drift and the calls of a program relate, its runs relate. -/
theorem Calls.wp {W : World I σ} {R : σ → σ → Prop} {w : σ} (hx : Calls C x) (hrefl : ∀ w, R w w)
    (htrans : ∀ {u v w}, R u v → R v w → R u w) (hdrift : ∀ {w v}, W.Drifts w v → R w v)
    (hcall : ∀ {e v v'}, C e.1 → W.Responds v e v' → R v v') : Wp W x (fun _ v => R w v) w :=
  fun tr r _ hrun hw =>
    hw.relates hrefl htrans hdrift fun e he _ _ hr => hcall (hx tr r hrun e he) hr

theorem calls_ite {c : Prop} [Decidable c] {y : Proc I ε α} (ht : Calls C x) (he : Calls C y) :
    Calls C (if c then x else y) := by
  split_ifs
  · exact ht
  · exact he

theorem calls_loop {body : ς → Proc I ε (ς ⊕ α)} (h : ∀ s, Calls C (body s)) (s : ς) :
    Calls C (loop body s) := fun tr r hrun => by
  have hbody : ∀ {s tr r₀}, Returns ((body s).run.bind fun r => .pure (roundEnd r)) tr r₀ →
      ∀ e ∈ tr, C e.1 := by
    intro s tr r₀ hrun
    obtain ⟨r₁, tr₁, tr₂, rfl, h₁, h₂⟩ := hrun.of_bind
    obtain ⟨rfl, -⟩ := h₂.of_pure
    rw [List.append_nil]
    exact h s tr₁ r₁ h₁
  obtain ⟨tr₁, s', tr₂, r', tr₃, rfl, hhead, hleave, hend⟩ :=
    @Returns.of_loop _ _ _ _ _ _ _ _ [] _ hrun (fun tr _ => ∀ e ∈ tr, C e.1)
      (fun _ he => absurd he List.not_mem_nil) fun tr s tr' s' hs hrun e he =>
        (List.mem_append.mp he).elim (hs e) (hbody hrun e)
  obtain ⟨rfl, -⟩ := hend.of_pure
  rw [List.append_nil]
  exact fun e he => (List.mem_append.mp he).elim (hhead e) (hbody hleave e)

theorem calls_orThrow {κ : Type} (r : Except κ α) (f : κ → ε) : Calls C (orThrow (I := I) r f) := by
  cases r with
  | ok a => exact calls_pure a
  | error e => exact calls_throw (f e)

end Calls

end Proc

end Lib
