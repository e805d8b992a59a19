import Mathlib

/-!
# Programs that call

A program is a tree of calls with loops in it; what the calls answer is up to the world.
`Reaches p q` is small steps with any answers, `Returns p tr a` is a whole run with the
answers it got. Two things are asked of programs here: whether they come to an end once the world
answers in some way for good (`Ends`, and `Halting` wherever the program has got to), and what a
run that has come to its end has gone through.
-/

namespace Lib

structure Interface where
  Call : Type
  Answer : Call → Type

/-- A call and its answer. -/
abbrev Interface.Event (I : Interface) : Type := (c : I.Call) × I.Answer c

inductive Prog (I : Interface) : Type → Type 1 where
  | pure {α : Type} (a : α) : Prog I α
  | call {α : Type} (c : I.Call) (k : I.Answer c → Prog I α) : Prog I α
  /-- Go round with `inl`, leave with `inr`. -/
  | loop {α σ β : Type} (body : σ → Prog I (σ ⊕ β)) (s : σ) (k : β → Prog I α) : Prog I α

namespace Prog

variable {I : Interface} {α β γ σ : Type}

def bind : Prog I α → (α → Prog I β) → Prog I β
  | pure a, f => f a
  | call c k, f => call c fun x => (k x).bind f
  | loop body s k, f => loop body s fun b => (k b).bind f

instance : Monad (Prog I) where
  pure := pure
  bind := bind

/-- What follows one round of a loop. -/
def around (body : σ → Prog I (σ ⊕ β)) (k : β → Prog I α) : σ ⊕ β → Prog I α
  | .inl s => loop body s k
  | .inr b => k b

theorem bind_assoc (p : Prog I α) (f : α → Prog I β) (g : β → Prog I γ) :
    (p.bind f).bind g = p.bind fun a => (f a).bind g := by
  induction p with
  | pure a => rfl
  | call c k ih => simp only [bind, ih]
  | loop body s k _ ih => simp only [bind, ih]

theorem around_bind (body : σ → Prog I (σ ⊕ β)) (k : β → Prog I α) (f : α → Prog I γ) :
    (fun r => (around body k r).bind f) = around body fun b => (k b).bind f := by
  funext r
  cases r <;> rfl

/-- One step, with what a call is answered in it. -/
def step (answer : (c : I.Call) → I.Answer c) : Prog I α → Prog I α
  | pure a => pure a
  | call c k => k (answer c)
  | loop body s k => (body s).bind (around body k)

def Done (p : Prog I α) : Prop := ∃ a, p = pure a

theorem step_bind (answer : (c : I.Call) → I.Answer c) {p : Prog I α} (h : ¬p.Done)
    (f : α → Prog I β) : (p.bind f).step answer = (p.step answer).bind f := by
  cases p with
  | pure a => exact absurd ⟨a, rfl⟩ h
  | call c k => rfl
  | loop body s k => simp only [bind, step, bind_assoc, around_bind]

/-! ## Small steps -/

inductive Reaches : Prog I α → Prog I α → Prop
  | refl (p : Prog I α) : Reaches p p
  | step {p q : Prog I α} (answer : (c : I.Call) → I.Answer c) :
      Reaches (p.step answer) q → Reaches p q

theorem Reaches.trans {p q r : Prog I α} (h : Reaches p q) (h' : Reaches q r) : Reaches p r := by
  induction h with
  | refl => exact h'
  | step answer _ ih => exact .step answer (ih h')

theorem Reaches.single (p : Prog I α) (answer : (c : I.Call) → I.Answer c) :
    Reaches p (p.step answer) := .step answer (.refl _)

theorem Reaches.eq_of_done {p q : Prog I α} (h : Reaches p q) (hp : p.Done) : q = p := by
  obtain ⟨a, rfl⟩ := hp
  generalize hp : (pure a : Prog I α) = p at h
  induction h with
  | refl => rfl
  | step answer _ ih =>
    subst hp
    exact ih rfl

/-- A sequence is in its first part, or the first part has come to its end. -/
theorem Reaches.bind_cases {p : Prog I α} {f : α → Prog I β} {q : Prog I β}
    (h : Reaches (p.bind f) q) :
    (∃ p', Reaches p p' ∧ q = p'.bind f) ∨ ∃ a, Reaches p (pure a) ∧ Reaches (f a) q := by
  generalize hb : p.bind f = b at h
  induction h generalizing p with
  | refl => exact .inl ⟨p, .refl p, hb.symm⟩
  | @step b q answer hrest ih =>
    by_cases hp : p.Done
    · obtain ⟨a, rfl⟩ := hp
      refine .inr ⟨a, .refl _, ?_⟩
      subst hb
      exact .step answer hrest
    · obtain ⟨p', hp', rfl⟩ | ⟨a, ha, hf⟩ := ih (by rw [← hb, step_bind answer hp])
      · exact .inl ⟨p', .step answer hp', rfl⟩
      · exact .inr ⟨a, .step answer ha, hf⟩

/-- A loop is at its head, inside a round, or behind its end. -/
theorem Reaches.loop_cases {body : σ → Prog I (σ ⊕ β)} {s : σ} {k : β → Prog I α} {q : Prog I α}
    (h : Reaches (loop body s k) q) :
    (∃ s', q = loop body s' k) ∨
      (∃ s' p, Reaches (body s') p ∧ q = p.bind (around body k)) ∨ ∃ b, Reaches (k b) q := by
  generalize hp : (loop body s k) = p at h
  -- where the run stands, as a loop, as a round of it, or behind it
  have hstands : (∃ s', p = loop body s' k) ∨
      (∃ s' p', Reaches (body s') p' ∧ p = p'.bind (around body k)) ∨ ∃ b, Reaches (k b) p :=
    .inl ⟨s, hp.symm⟩
  clear hp
  induction h with
  | refl => exact hstands
  | @step p q answer _ ih =>
    refine ih ?_
    obtain ⟨s', rfl⟩ | ⟨s', p', hp', rfl⟩ | ⟨b, hb⟩ := hstands
    · exact .inr (.inl ⟨s', body s', .refl _, rfl⟩)
    · by_cases hdone : p'.Done
      · obtain ⟨r, rfl⟩ := hdone
        cases r with
        | inl s'' => exact .inr (.inl ⟨s'', body s'', .refl _, rfl⟩)
        | inr b => exact .inr (.inr ⟨b, .single _ _⟩)
      · exact .inr (.inl ⟨s', p'.step answer, hp'.trans (.single _ _), step_bind answer hdone _⟩)
    · exact .inr (.inr ⟨b, hb.trans (.single _ _)⟩)

/-! ## Coming to an end -/

/-- Whatever the world answers, as long as the answers are in `D`, the program comes to an end, and
with `Q`. -/
inductive Ends (D : (c : I.Call) → I.Answer c → Prop) (Q : α → Prop) : Prog I α → Prop
  | pure {a : α} : Q a → Ends D Q (pure a)
  | call {c : I.Call} {k : I.Answer c → Prog I α} :
      (∀ x, D c x → Ends D Q (k x)) → Ends D Q (call c k)
  | loop {σ β : Type} {body : σ → Prog I (σ ⊕ β)} {s : σ} {k : β → Prog I α} :
      Ends D Q ((body s).bind (around body k)) → Ends D Q (loop body s k)

variable {D : (c : I.Call) → I.Answer c → Prop} {Q R : α → Prop} {p : Prog I α}

theorem Ends.imp (h : Ends D Q p) (hQ : ∀ a, Q a → R a) : Ends D R p := by
  induction h with
  | pure ha => exact .pure (hQ _ ha)
  | call _ ih => exact .call ih
  | loop _ ih => exact .loop ih

theorem Ends.bind {P : β → Prop} {f : α → Prog I β} (h : Ends D Q p)
    (hf : ∀ a, Q a → Ends D P (f a)) : Ends D P (p.bind f) := by
  induction h with
  | pure ha => exact hf _ ha
  | call _ ih => exact .call ih
  | loop _ ih =>
    refine .loop ?_
    rw [← around_bind, ← bind_assoc]
    exact ih

theorem Ends.step {answer : (c : I.Call) → I.Answer c} (h : Ends D Q p)
    (hanswer : ∀ c, D c (answer c)) : Ends D Q (p.step answer) := by
  cases h with
  | pure ha => exact .pure ha
  | call hk => exact hk _ (hanswer _)
  | loop hround => exact hround

theorem Ends.of_pure {a : α} (h : Ends D Q (Prog.pure a)) : Q a := by
  cases h with
  | pure ha => exact ha

/-- The program after `n` steps. -/
def exec (world : Nat → (c : I.Call) → I.Answer c) : Nat → Prog I α → Prog I α
  | 0, p => p
  | n + 1, p => exec (fun i => world (i + 1)) n (p.step (world 0))

theorem Ends.exec (h : Ends D Q p) {world : Nat → (c : I.Call) → I.Answer c}
    (hworld : ∀ n c, D c (world n c)) : ∃ n a, p.exec world n = Prog.pure a ∧ Q a := by
  induction h generalizing world with
  | @pure a ha => exact ⟨0, a, rfl, ha⟩
  | @call c k _ ih =>
    obtain ⟨n, a, hn, ha⟩ := ih (world 0 c) (hworld 0 c) fun i => hworld (i + 1)
    exact ⟨n + 1, a, hn, ha⟩
  | loop _ ih =>
    obtain ⟨n, a, hn, ha⟩ := ih fun i => hworld (i + 1)
    exact ⟨n + 1, a, hn, ha⟩

/-- Wherever the program has got to, it comes to an end from there. -/
def Halting (D : (c : I.Call) → I.Answer c → Prop) (p : Prog I α) : Prop :=
  ∀ q, Reaches p q → Ends D (fun _ => True) q

theorem Halting.ends (h : Halting D p) : Ends D (fun _ => True) p := h p (.refl p)

theorem halting_pure (a : α) : Halting D (pure a : Prog I α) := fun q hq => by
  rw [hq.eq_of_done ⟨a, rfl⟩]
  exact .pure trivial

theorem halting_call {c : I.Call} {k : I.Answer c → Prog I α} (h : ∀ x, Halting D (k x)) :
    Halting D (call c k) := fun q hq => by
  cases hq with
  | refl => exact .call fun x _ => (h x).ends
  | step answer hrest => exact h _ q hrest

theorem Halting.bind {f : α → Prog I β} (h : Halting D p) (hf : ∀ a, Halting D (f a)) :
    Halting D (p.bind f) := fun q hq => by
  obtain ⟨p', hp', rfl⟩ | ⟨a, -, ha⟩ := hq.bind_cases
  · exact (h p' hp').bind fun a _ => (hf a).ends
  · exact hf a q ha

/-- A loop halts if its rounds do, and a whole round under `D` leaves it. -/
theorem halting_loop {body : σ → Prog I (σ ⊕ β)} {s : σ} {k : β → Prog I α}
    (hbody : ∀ s, Halting D (body s)) (hleaves : ∀ s, Ends D (fun r => ∃ b, r = .inr b) (body s))
    (hk : ∀ b, Halting D (k b)) : Halting D (loop body s k) := by
  have hhead : ∀ s, Ends D (fun _ => True) (loop body s k) := fun s => by
    refine .loop ((hleaves s).bind ?_)
    rintro r ⟨b, rfl⟩
    exact (hk b).ends
  intro q hq
  obtain ⟨s', rfl⟩ | ⟨s', p, hp, rfl⟩ | ⟨b, hb⟩ := hq.loop_cases
  · exact hhead s'
  · refine (hbody s' p hp).bind fun r _ => ?_
    cases r with
    | inl s'' => exact hhead s''
    | inr b => exact (hk b).ends
  · exact hk b q hb

/-! ## Whole runs -/

/-- A run to the end, the calls it made and the answers they got. -/
inductive Returns : {α : Type} → Prog I α → List I.Event → α → Prop
  | pure {α : Type} (a : α) : Returns (pure a) [] a
  | call {α : Type} {c : I.Call} {k : I.Answer c → Prog I α} {tr : List I.Event} {a : α}
      (x : I.Answer c) : Returns (k x) tr a → Returns (call c k) (⟨c, x⟩ :: tr) a
  | again {α σ β : Type} {body : σ → Prog I (σ ⊕ β)} {s s' : σ} {k : β → Prog I α}
      {tr tr' : List I.Event} {a : α} : Returns (body s) tr (.inl s') →
      Returns (loop body s' k) tr' a → Returns (loop body s k) (tr ++ tr') a
  | leave {α σ β : Type} {body : σ → Prog I (σ ⊕ β)} {s : σ} {b : β} {k : β → Prog I α}
      {tr tr' : List I.Event} {a : α} : Returns (body s) tr (.inr b) → Returns (k b) tr' a →
      Returns (loop body s k) (tr ++ tr') a

theorem Returns.of_pure {a b : α} {tr : List I.Event} (h : Returns (Prog.pure a : Prog I α) tr b) :
    tr = [] ∧ b = a := by
  cases h with
  | pure _ => exact ⟨rfl, rfl⟩

theorem Returns.of_call {c : I.Call} {k : I.Answer c → Prog I α} {tr : List I.Event} {a : α}
    (h : Returns (Prog.call c k) tr a) : ∃ x tr', tr = ⟨c, x⟩ :: tr' ∧ Returns (k x) tr' a := by
  cases h with
  | call x hk => exact ⟨x, _, rfl, hk⟩

/-- What every round of a loop keeps holds where the loop is left. -/
theorem Returns.of_loop {body : σ → Prog I (σ ⊕ β)} {s : σ} {k : β → Prog I α}
    {tr before : List I.Event} {a : α} (h : Returns (Prog.loop body s k) tr a)
    {Inv : List I.Event → σ → Prop} (hs : Inv before s)
    (hround : ∀ tr s tr' s', Inv tr s → Returns (body s) tr' (.inl s') → Inv (tr ++ tr') s') :
    ∃ tr₁ s' tr₂ b tr₃, tr = tr₁ ++ (tr₂ ++ tr₃) ∧ Inv (before ++ tr₁) s' ∧
      Returns (body s') tr₂ (.inr b) ∧ Returns (k b) tr₃ a := by
  generalize hp : Prog.loop body s k = p at h
  induction h generalizing before s with
  | pure => cases hp
  | call => cases hp
  | @again _ _ _ _ _ s' _ tr tr' a hbody _ _ ih =>
    cases hp
    obtain ⟨tr₁, s'', tr₂, b, tr₃, rfl, hinv, hleave, hk⟩ := ih (hround _ _ _ _ hs hbody) rfl
    exact ⟨tr ++ tr₁, s'', tr₂, b, tr₃, by rw [List.append_assoc], by rwa [← List.append_assoc],
      hleave, hk⟩
  | @leave _ _ _ _ _ b _ tr tr' a hbody hk _ _ =>
    cases hp
    exact ⟨[], _, tr, b, tr', rfl, by rwa [List.append_nil], hbody, hk⟩

theorem Returns.of_bind {p : Prog I α} {f : α → Prog I β} {tr : List I.Event} {b : β}
    (h : Returns (p.bind f) tr b) :
    ∃ a tr₁ tr₂, tr = tr₁ ++ tr₂ ∧ Returns p tr₁ a ∧ Returns (f a) tr₂ b := by
  induction p generalizing tr with
  | pure a => exact ⟨a, [], tr, rfl, .pure a, h⟩
  | call c k ih =>
    obtain ⟨x, tr', rfl, hk⟩ := h.of_call
    obtain ⟨a, tr₁, tr₂, rfl, h₁, h₂⟩ := ih x hk
    exact ⟨a, ⟨c, x⟩ :: tr₁, tr₂, rfl, .call x h₁, h₂⟩
  | loop body s k _ ih =>
    -- the rounds so far can be put in front of any run of the rest of the loop
    obtain ⟨tr₁, s', tr₂, r, tr₃, rfl, hinv, hleave, hk⟩ := @Returns.of_loop _ _ _ _ _ _ _ _ [] _ h
        (fun tr s' => ∀ tr' a, Returns (Prog.loop body s' k) tr' a →
        Returns (Prog.loop body s k) (tr ++ tr') a) (fun _ _ hrest => hrest)
        fun tr s' tr' s'' hs' hbody tr'' a hrest => by
        rw [List.append_assoc]
        exact hs' _ _ (.again hbody hrest)
    obtain ⟨a, u, v, rfl, hu, hv⟩ := ih r hk
    refine ⟨a, tr₁ ++ (tr₂ ++ u), v, by simp only [List.append_assoc], ?_, hv⟩
    exact hinv _ _ (.leave hleave hu)

/-- Run a program on answers that are given, as far as the fuel goes; the answers left over are
given back. -/
def follow [DecidableEq I.Call] : {α : Type} → Nat → Prog I α → List I.Event →
    Option (α × List I.Event)
  | _, 0, _, _ => none
  | _, _ + 1, pure a, tr => some (a, tr)
  | _, _ + 1, call _ _, [] => none
  | _, n + 1, call c k, ⟨c', x⟩ :: tr => if h : c' = c then follow n (k (h ▸ x)) tr else none
  | _, n + 1, loop body s k, tr =>
    match follow n (body s) tr with
    | none => none
    | some (.inl s', tr') => follow n (loop body s' k) tr'
    | some (.inr b, tr') => follow n (k b) tr'

theorem returns_of_follow [DecidableEq I.Call] {n : Nat} {p : Prog I α} {tr rest : List I.Event}
    {a : α} (h : follow n p tr = some (a, rest)) : ∃ used, tr = used ++ rest ∧ Returns p used a := by
  induction n generalizing α tr rest with
  | zero => cases h
  | succ n ih =>
    cases p with
    | pure b =>
      cases h
      exact ⟨[], rfl, .pure a⟩
    | call c k =>
      cases tr with
      | nil => cases h
      | cons e tr =>
        obtain ⟨c', x⟩ := e
        simp only [follow] at h
        split_ifs at h with hc
        subst hc
        obtain ⟨used, rfl, hused⟩ := ih h
        exact ⟨⟨c', x⟩ :: used, rfl, .call x hused⟩
    | loop body s k =>
      simp only [follow] at h
      split at h
      · cases h
      · rename_i s' tr' hbody
        obtain ⟨used, rfl, hused⟩ := ih hbody
        obtain ⟨used', rfl, hused'⟩ := ih h
        exact ⟨used ++ used', by rw [List.append_assoc], .again hused hused'⟩
      · rename_i b tr' hbody
        obtain ⟨used, rfl, hused⟩ := ih hbody
        obtain ⟨used', rfl, hused'⟩ := ih h
        exact ⟨used ++ used', by rw [List.append_assoc], .leave hused hused'⟩

end Prog

/-! ## Programs that may fail -/

abbrev Proc (I : Interface) (ε α : Type) : Type 1 := ExceptT ε (Prog I) α

namespace Proc

open Prog (Reaches Ends Halting)

variable {I : Interface} {ε α β σ : Type}

def ask (c : I.Call) : Proc I ε (I.Answer c) := ExceptT.mk (.call c fun x => .pure (.ok x))

/-- The result of a program, be it an error. -/
def attempt (x : Proc I ε α) : Proc I ε (Except ε α) :=
  ExceptT.mk (x.run.bind fun r => .pure (.ok r))

/-- What a round of a loop does next; an error leaves the loop. -/
def roundEnd : Except ε (σ ⊕ β) → σ ⊕ Except ε β
  | .ok (.inl s) => .inl s
  | .ok (.inr b) => .inr (.ok b)
  | .error e => .inr (.error e)

/-- Go round until the body answers with `inr` or fails. -/
def loop (body : σ → Proc I ε (σ ⊕ β)) (s : σ) : Proc I ε β :=
  ExceptT.mk (.loop (fun s => (body s).run.bind fun r => .pure (roundEnd r)) s .pure)

/-- What follows a program, unless it fails. -/
def next (f : α → Proc I ε β) : Except ε α → Prog I (Except ε β)
  | .ok a => (f a).run
  | .error e => .pure (.error e)

theorem run_bind (x : Proc I ε α) (f : α → Proc I ε β) : (x >>= f).run = x.run.bind (next f) := by
  show x.run.bind _ = _
  congr 1

section World

variable {D : (c : I.Call) → I.Answer c → Prop} {P : α → Prop} {x : Proc I ε α}

/-- Wherever the program has got to, it comes to an end from there. -/
def Halts (D : (c : I.Call) → I.Answer c → Prop) (x : Proc I ε α) : Prop := Halting D x.run

/-- The program comes to an end, with an error or with `P`. -/
def Settles (D : (c : I.Call) → I.Answer c → Prop) (P : α → Prop) (x : Proc I ε α) : Prop :=
  Ends D (fun r => ∀ a, r = .ok a → P a) x.run

abbrev Fails (D : (c : I.Call) → I.Answer c → Prop) (x : Proc I ε α) : Prop :=
  Settles D (fun _ => False) x

@[simp] theorem halts_pure (a : α) : Halts D (pure a : Proc I ε α) := Prog.halting_pure _

@[simp] theorem halts_throw (e : ε) : Halts D (throw e : Proc I ε α) := Prog.halting_pure _

@[simp] theorem halts_ask (c : I.Call) : Halts D (ask c : Proc I ε (I.Answer c)) :=
  Prog.halting_call fun _ => Prog.halting_pure _

theorem Halts.bind (hx : Halts D x) {f : α → Proc I ε β} (hf : ∀ a, Halts D (f a)) :
    Halts D (x >>= f) := by
  unfold Halts
  rw [run_bind]
  refine Halting.bind hx fun r => ?_
  cases r with
  | ok a => exact hf a
  | error e => exact Prog.halting_pure _

theorem Halts.attempt (hx : Halts D x) : Halts D (attempt x) :=
  Halting.bind hx fun _ => Prog.halting_pure _

theorem settles_pure {a : α} (h : P a) : Settles D P (pure a : Proc I ε α) :=
  .pure fun _ ha => Except.ok.inj ha ▸ h

@[simp] theorem settles_throw (e : ε) : Settles D P (throw e : Proc I ε α) := .pure nofun

theorem settles_ask (c : I.Call) : Settles D (D c) (ask c : Proc I ε (I.Answer c)) :=
  .call fun _ hx => .pure fun _ ha => Except.ok.inj ha ▸ hx

theorem Settles.bind {P' : β → Prop} (hx : Settles D P x) {f : α → Proc I ε β}
    (hf : ∀ a, P a → Settles D P' (f a)) : Settles D P' (x >>= f) := by
  unfold Settles
  rw [run_bind]
  refine Ends.bind hx fun r hr => ?_
  cases r with
  | ok a => exact hf a (hr a rfl)
  | error e => exact .pure nofun

theorem Settles.imp {P' : α → Prop} (hx : Settles D P x) (h : ∀ a, P a → P' a) : Settles D P' x :=
  Ends.imp hx fun _ hr a ha => h a (hr a ha)

theorem Fails.bind {P' : β → Prop} (hx : Fails D x) (f : α → Proc I ε β) :
    Settles D P' (x >>= f) :=
  Settles.bind hx fun _ h => h.elim

variable {body : σ → Proc I ε (σ ⊕ β)}

/-- A loop does what its first round does, if that is the last one. -/
theorem settles_loop {P' : β → Prop} {s : σ}
    (h : Settles D (fun r => ∃ b, r = .inr b ∧ P' b) (body s)) : Settles D P' (loop body s) := by
  refine Ends.loop ?_
  rw [Prog.bind_assoc]
  refine Ends.bind h fun r hr => ?_
  cases r with
  | ok r =>
    obtain ⟨b, rfl, hb⟩ := hr r rfl
    exact .pure fun _ ha => Except.ok.inj ha ▸ hb
  | error e => exact .pure nofun

theorem Fails.loop {P' : β → Prop} {s : σ} (h : Fails D (body s)) :
    Settles D P' (Proc.loop body s) :=
  settles_loop (h.imp fun _ hf => hf.elim)

/-- A loop halts if its rounds do, and a whole round under `D` is the last one. -/
theorem halts_loop (hbody : ∀ s, Halts D (body s))
    (hleaves : ∀ s, Settles D (fun r => ∃ b, r = .inr b) (body s)) (s : σ) :
    Halts D (loop body s) := by
  refine Prog.halting_loop (fun s => Halting.bind (hbody s) fun _ => Prog.halting_pure _)
    (fun s => Ends.bind (hleaves s) fun r hr => ?_) fun _ => Prog.halting_pure _
  cases r with
  | ok r =>
    obtain ⟨b, rfl⟩ := hr r rfl
    exact .pure ⟨_, rfl⟩
  | error e => exact .pure ⟨_, rfl⟩

theorem halts_loop_of_fails (hbody : ∀ s, Halts D (body s)) (hfails : ∀ s, Fails D (body s))
    (s : σ) : Halts D (loop body s) :=
  halts_loop hbody (fun s => (hfails s).imp fun _ h => h.elim) s

/-- Wherever the program has got to before its end, it settles. -/
def Collapses (D : (c : I.Call) → I.Answer c → Prop) (P : α → Prop) (x : Proc I ε α) : Prop :=
  ∀ q, Reaches x.run q → q.Done ∨ Ends D (fun r => ∀ a, r = .ok a → P a) q

theorem collapses_pure (a : α) : Collapses D P (pure a : Proc I ε α) := fun _ hq =>
  .inl ⟨_, hq.eq_of_done ⟨_, rfl⟩⟩

theorem collapses_throw (e : ε) : Collapses D P (throw e : Proc I ε α) := fun _ hq =>
  .inl ⟨_, hq.eq_of_done ⟨_, rfl⟩⟩

theorem collapses_ask (c : I.Call) : Collapses D (D c) (ask c : Proc I ε (I.Answer c)) := by
  intro q hq
  cases hq with
  | refl => exact .inr (settles_ask c)
  | step answer hrest => exact .inl ⟨_, hrest.eq_of_done ⟨_, rfl⟩⟩

theorem Collapses.bind {P' : β → Prop} (hx : Collapses D P x) {f : α → Proc I ε β}
    (hf : ∀ a, Collapses D P' (f a)) (hP : ∀ a, P a → Settles D P' (f a)) :
    Collapses D P' (x >>= f) := fun q hq => by
  rw [run_bind] at hq
  have hnext : ∀ r, Reaches (next f r) q →
      q.Done ∨ Ends D (fun r => ∀ b, r = .ok b → P' b) q := by
    intro r hr
    cases r with
    | ok a => exact hf a q hr
    | error e => exact .inl ⟨_, hr.eq_of_done ⟨_, rfl⟩⟩
  obtain ⟨p', hp', rfl⟩ | ⟨r, -, hr⟩ := hq.bind_cases
  · rcases hx p' hp' with ⟨r, rfl⟩ | hsettles
    · exact hnext r (.refl _)
    · refine .inr (hsettles.bind fun r hr => ?_)
      cases r with
      | ok a => exact hP a (hr a rfl)
      | error e => exact .pure nofun
  · exact hnext r hr

theorem Collapses.imp {P' : α → Prop} (hx : Collapses D P x) (h : ∀ a, P a → P' a) :
    Collapses D P' x := fun q hq =>
  (hx q hq).imp id fun hends => hends.imp fun _ hr a ha => h a (hr a ha)

theorem Collapses.halts (hx : Collapses D P x) : Halts D x := fun q hq => by
  rcases hx q hq with ⟨r, rfl⟩ | hsettles
  · exact .pure trivial
  · exact hsettles.imp fun _ _ => trivial

/-- A loop collapses if its rounds do, and a round under `D` is the last one wherever it is. -/
theorem collapses_loop {P' : β → Prop} (hbody : ∀ s, Collapses D (fun r => ∀ b, r = .inr b → P' b) (body s))
    (hhead : ∀ s, Settles D P' (loop body s)) (s : σ) : Collapses D P' (loop body s) := by
  have haround : ∀ r, (Prog.around (fun s => (body s).run.bind fun r => .pure (roundEnd r)) .pure
      (roundEnd r)).Done ∨ Ends D (fun r => ∀ b, r = .ok b → P' b)
        (Prog.around (fun s => (body s).run.bind fun r => .pure (roundEnd r)) .pure (roundEnd r)) := by
    intro r
    match r with
    | .ok (.inl s) => exact .inr (hhead s)
    | .ok (.inr b) => exact .inl ⟨_, rfl⟩
    | .error e => exact .inl ⟨_, rfl⟩
  intro q hq
  obtain ⟨s', rfl⟩ | ⟨s', p, hp, rfl⟩ | ⟨b, hb⟩ := hq.loop_cases
  · exact .inr (hhead s')
  · obtain ⟨p', hp', rfl⟩ | ⟨r, -, hr⟩ := hp.bind_cases
    · rcases hbody s' p' hp' with ⟨r, rfl⟩ | hsettles
      · exact haround r
      · rw [Prog.bind_assoc]
        refine .inr (hsettles.bind fun r hr => ?_)
        match r with
        | .ok (.inl s) => exact hhead s
        | .ok (.inr b) => exact .pure fun _ ha => Except.ok.inj ha ▸ hr _ rfl b rfl
        | .error e => exact .pure nofun
    · rw [hr.eq_of_done ⟨_, rfl⟩]
      exact haround r
  · exact .inl ⟨_, hb.eq_of_done ⟨_, rfl⟩⟩

end World

/-! ## What a run that returns has gone through -/

/-- Every run that returns a value has `Ψ` of its calls and of the value. -/
def Post (Ψ : List I.Event → α → Prop) (x : Proc I ε α) : Prop :=
  ∀ tr a, Prog.Returns x.run tr (.ok a) → Ψ tr a

section Post

variable {Ψ : List I.Event → α → Prop} {Φ : List I.Event → β → Prop} {x : Proc I ε α}
  {f : α → Proc I ε β}

theorem Post.imp {Ψ' : List I.Event → α → Prop} (hx : Post Ψ x) (h : ∀ tr a, Ψ tr a → Ψ' tr a) :
    Post Ψ' x := fun tr a hrun => h tr a (hx tr a hrun)

theorem post_pure {a : α} (h : Ψ [] a) : Post Ψ (pure a : Proc I ε α) := fun tr b hrun => by
  obtain ⟨rfl, hb⟩ := hrun.of_pure
  exact Except.ok.inj hb ▸ h

theorem post_throw (e : ε) : Post Ψ (throw e : Proc I ε α) := fun tr b hrun => by
  obtain ⟨-, hb⟩ := hrun.of_pure
  cases hb

theorem Post.bind (hx : Post (fun tr a => Post (fun tr' b => Φ (tr ++ tr') b) (f a)) x) :
    Post Φ (x >>= f) := fun tr b hrun => by
  rw [run_bind] at hrun
  obtain ⟨r, tr₁, tr₂, rfl, h₁, h₂⟩ := hrun.of_bind
  cases r with
  | ok a => exact hx tr₁ a h₁ tr₂ b h₂
  | error e =>
    obtain ⟨-, hb⟩ := h₂.of_pure
    cases hb

theorem post_ask {c : I.Call} {Ψ : List I.Event → I.Answer c → Prop}
    (h : ∀ x, Ψ [⟨c, x⟩] x) : Post Ψ (ask c : Proc I ε (I.Answer c)) := fun tr a hrun => by
  obtain ⟨x, tr', rfl, hk⟩ := hrun.of_call
  obtain ⟨rfl, ha⟩ := hk.of_pure
  exact Except.ok.inj ha ▸ h x

/-- A call and what follows it. -/
theorem post_ask_bind {c : I.Call} {g : I.Answer c → Proc I ε β}
    (h : ∀ x, Post (fun tr b => Φ (⟨c, x⟩ :: tr) b) (g x)) : Post Φ (ask c >>= g) :=
  Post.bind (post_ask h)

/-- A loop has what its rounds keep, and what the last of them adds. -/
theorem post_loop {body : σ → Proc I ε (σ ⊕ β)} {Inv : List I.Event → σ → Prop} {s : σ}
    (hs : Inv [] s) (hround : ∀ tr s, Inv tr s → Post (fun tr' r =>
      match r with
      | .inl s' => Inv (tr ++ tr') s'
      | .inr b => Φ (tr ++ tr') b) (body s)) : Post Φ (loop body s) := fun tr b hrun => by
  have hbody : ∀ tr s tr' r, Inv tr s →
      Prog.Returns ((body s).run.bind fun r => .pure (roundEnd r)) tr' r → ∀ r', roundEnd (.ok r') = r →
        match r' with
        | .inl s' => Inv (tr ++ tr') s'
        | .inr b => Φ (tr ++ tr') b := by
    intro tr s tr' r hinv hrun r' hr'
    obtain ⟨r₀, tr₁, tr₂, rfl, h₁, h₂⟩ := hrun.of_bind
    obtain ⟨rfl, rfl⟩ := h₂.of_pure
    rw [List.append_nil]
    have hr₀ : r₀ = .ok r' := by
      match r₀, r' with
      | .ok (.inl _), .inl _ => cases hr'; rfl
      | .ok (.inr _), .inr _ => cases hr'; rfl
      | .ok (.inl _), .inr _ => cases hr'
      | .ok (.inr _), .inl _ => cases hr'
      | .error _, .inl _ => cases hr'
      | .error _, .inr _ => cases hr'
    exact hround tr s hinv tr₁ r' (hr₀ ▸ h₁)
  obtain ⟨tr₁, s', tr₂, r, tr₃, rfl, hinv, hleave, hend⟩ := @Prog.Returns.of_loop _ _ _ _ _ _ _ _ []
      _ hrun _ hs fun tr s tr' s' hinv hrun => hbody tr s tr' _ hinv hrun (.inl s') rfl
  obtain ⟨rfl, rfl⟩ := hend.of_pure
  rw [List.append_nil]
  exact hbody _ s' tr₂ _ hinv hleave (.inr b) rfl

end Post

end Proc

end Lib
