import Mathlib

/-!
# Loops that drain a buffered input

A pump takes turns on its state until it has to stop for more input. `run` is
the loop; `feed` appends input to the state, and `pump` feeds the chunks of a
stream one after the other, each followed by a run. A turn is `Firm` for the
input to come if that input would not have changed it: as long as every turn is,
cutting the stream does not matter.
-/

namespace Lib

variable {σ α β : Type}

/-- What one turn does: stop and wait for input, or go on. -/
inductive PumpTurn (σ β : Type) where
  | stop (s : σ)
  | go (out : List β) (s : σ)

structure Pump (σ α β : Type) where
  turn : σ → PumpTurn σ β
  feed : σ → List α → σ
  size : σ → Nat
  go_lt : ∀ {s out s'}, turn s = .go out s' → size s' < size s
  stop_stop : ∀ {s s'}, turn s = .stop s' → turn s' = .stop s'
  feed_nil : ∀ s, feed s [] = s
  feed_append : ∀ s xs ys, feed s (xs ++ ys) = feed (feed s xs) ys

namespace Pump

variable (P : Pump σ α β)

def runFuel : Nat → σ → List β × σ
  | 0, s => ([], s)
  | fuel + 1, s =>
    match P.turn s with
    | .stop s' => ([], s')
    | .go out s' => (out ++ (runFuel fuel s').1, (runFuel fuel s').2)

/-- The loop. A turn that goes on makes the state smaller, so the fuel does not run out. -/
def run (s : σ) : List β × σ := P.runFuel (P.size s + 1) s

def pump (s : σ) : List (List α) → List β × σ
  | [] => ([], s)
  | chunk :: chunks =>
    let first := P.run (P.feed s chunk)
    let rest := pump first.2 chunks
    (first.1 ++ rest.1, rest.2)

/-- The turn at `s` is the one the pump would take with `more` input behind it. -/
def Firm (s : σ) (more : List α) : Prop :=
  match P.turn s with
  | .go out s' => P.turn (P.feed s more) = .go out (P.feed s' more)
  | .stop s' => P.run (P.feed s more) = P.run (P.feed s' more)

/-- `Q` holds of every state at which the loop started at `s` takes a turn. -/
inductive Throughout (Q : σ → Prop) : σ → Prop
  | stop {s s'} : P.turn s = .stop s' → Q s → Throughout Q s
  | go {s s' out} : P.turn s = .go out s' → Q s → Throughout Q s' → Throughout Q s

/-- `Q` holds at every turn of the pump over the chunks, with the chunks still to come. -/
def EachTurn (Q : σ → List α → Prop) : σ → List (List α) → Prop
  | _, [] => True
  | s, chunk :: chunks =>
    P.Throughout (Q · chunks.flatten) (P.feed s chunk) ∧
      EachTurn Q (P.run (P.feed s chunk)).2 chunks

variable {P} {s s' : σ} {out : List β}

theorem runFuel_eq {fuel fuel' : Nat} (h : P.size s < fuel) (h' : P.size s < fuel') :
    P.runFuel fuel s = P.runFuel fuel' s := by
  induction fuel generalizing s fuel' with
  | zero => omega
  | succ fuel ih =>
    cases fuel' with
    | zero => omega
    | succ fuel' =>
      unfold runFuel
      cases ht : P.turn s with
      | stop s' => rfl
      | go out s' =>
        have hlt := P.go_lt ht
        simp only [@ih s' fuel' (by omega) (by omega)]

theorem run_stop (h : P.turn s = .stop s') : P.run s = ([], s') := by
  unfold run runFuel
  rw [h]

theorem run_go (h : P.turn s = .go out s') : P.run s = (out ++ (P.run s').1, (P.run s').2) := by
  have hlt := P.go_lt h
  unfold run
  rw [runFuel, h]
  dsimp only
  rw [@runFuel_eq _ _ _ _ _ _ (P.size s' + 1) hlt (by omega)]

theorem run_congr (h : P.turn s = P.turn s') : P.run s = P.run s' := by
  cases ht : P.turn s' with
  | stop t => rw [run_stop ht, run_stop (h.trans ht)]
  | go out t => rw [run_go ht, run_go (h.trans ht)]

/-- What every turn that goes on preserves, and stopping does too, holds where the loop ends. -/
theorem run_invariant {Inv : σ → Prop} (hgo : ∀ {s out s'}, P.turn s = .go out s' → Inv s → Inv s')
    (hstop : ∀ {s s'}, P.turn s = .stop s' → Inv s → Inv s') (hs : Inv s) : Inv (P.run s).2 := by
  induction hn : P.size s using Nat.strongRecOn generalizing s with
  | _ n ih =>
    subst hn
    cases ht : P.turn s with
    | stop s' => rw [run_stop ht]; exact hstop ht hs
    | go out s' => rw [run_go ht]; exact ih _ (P.go_lt ht) (hgo ht hs) rfl

theorem turn_run (s : σ) : P.turn (P.run s).2 = .stop (P.run s).2 := by
  induction hn : P.size s using Nat.strongRecOn generalizing s with
  | _ n ih =>
    subst hn
    cases ht : P.turn s with
    | stop s' => rw [run_stop ht]; exact P.stop_stop ht
    | go out s' => rw [run_go ht]; exact ih _ (P.go_lt ht) s' rfl

/-! ## What the turns log -/

variable {γ : Type}

def logFuel (P : Pump σ α β) (log : σ → List γ) : Nat → σ → List γ
  | 0, _ => []
  | fuel + 1, s =>
    match P.turn s with
    | .stop _ => log s
    | .go _ s' => log s ++ logFuel P log fuel s'

/-- What the turns of a run log, each in front of itself. -/
def logged (P : Pump σ α β) (log : σ → List γ) (s : σ) : List γ := P.logFuel log (P.size s + 1) s

theorem logFuel_eq {log : σ → List γ} {fuel fuel' : Nat} (h : P.size s < fuel)
    (h' : P.size s < fuel') : P.logFuel log fuel s = P.logFuel log fuel' s := by
  induction fuel generalizing s fuel' with
  | zero => omega
  | succ fuel ih =>
    cases fuel' with
    | zero => omega
    | succ fuel' =>
      unfold logFuel
      cases ht : P.turn s with
      | stop s' => rfl
      | go out s' =>
        have hlt := P.go_lt ht
        dsimp only
        rw [@ih s' fuel' (by omega) (by omega)]

theorem logged_stop {log : σ → List γ} (h : P.turn s = .stop s') : P.logged log s = log s := by
  unfold logged logFuel
  rw [h]

theorem logged_go {log : σ → List γ} (h : P.turn s = .go out s') :
    P.logged log s = log s ++ P.logged log s' := by
  have hlt := P.go_lt h
  unfold logged
  rw [logFuel, h]
  dsimp only
  rw [@logFuel_eq _ _ _ P _ _ log _ (P.size s' + 1) hlt (by omega)]

/-! ## Input in chunks -/

theorem throughout_true (s : σ) : P.Throughout (fun _ => True) s := by
  induction hn : P.size s using Nat.strongRecOn generalizing s with
  | _ n ih =>
    subst hn
    cases ht : P.turn s with
    | stop s' => exact .stop ht trivial
    | go out s' => exact .go ht trivial (ih _ (P.go_lt ht) s' rfl)

/-- What every turn keeps, of the output, the log and the state, holds behind the run. -/
theorem run_logged {log : σ → List γ} {Q : σ → Prop} {Inv : List β → List γ → σ → Prop}
    (h : P.Throughout Q s)
    (hgo : ∀ {outs ps s out s'}, P.turn s = .go out s' → Q s → Inv outs ps s →
      Inv (outs ++ out) (ps ++ log s) s')
    (hstop : ∀ {outs ps s s'}, P.turn s = .stop s' → Q s → Inv outs ps s → Inv outs (ps ++ log s) s')
    {outs : List β} {ps : List γ} (hs : Inv outs ps s) :
    Inv (outs ++ (P.run s).1) (ps ++ P.logged log s) (P.run s).2 := by
  induction h generalizing outs ps with
  | stop ht hq =>
    rw [run_stop ht, logged_stop ht, List.append_nil]
    exact hstop ht hq hs
  | go ht hq _ ih =>
    rw [run_go ht, logged_go ht]
    dsimp only
    rw [← List.append_assoc, ← List.append_assoc]
    exact ih (hgo ht hq hs)

theorem throughout_stop {Q : σ → Prop} (h : P.turn s = .stop s') : P.Throughout Q s ↔ Q s := by
  constructor
  · rintro (⟨-, hq⟩ | ⟨ht, -, -⟩)
    · exact hq
    · rw [h] at ht
      cases ht
  · exact .stop h

theorem throughout_go {Q : σ → Prop} (h : P.turn s = .go out s') :
    P.Throughout Q s ↔ Q s ∧ P.Throughout Q s' := by
  constructor
  · rintro (⟨ht, -⟩ | ⟨ht, hq, hrest⟩)
    · rw [h] at ht
      cases ht
    · rw [h] at ht
      cases ht
      exact ⟨hq, hrest⟩
  · rintro ⟨hq, hrest⟩
    exact .go h hq hrest

theorem firm_go {more : List α} (h : P.turn s = .go out s') :
    P.Firm s more ↔ P.turn (P.feed s more) = .go out (P.feed s' more) := by
  unfold Firm
  rw [h]

theorem firm_stop {more : List α} (h : P.turn s = .stop s') :
    P.Firm s more ↔ P.run (P.feed s more) = P.run (P.feed s' more) := by
  unfold Firm
  rw [h]

end Pump

end Lib
