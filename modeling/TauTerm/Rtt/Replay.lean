import Mathlib
import TauTerm.Rtt.TraceState

/-!
# Replay against accounting

The trace state and `SystemViewExecutionState` each follow which task runs, which
one an interrupt has suspended and how deep interrupts are nested. Here both are
read as an `Execution`, the step of each is stated on it, and the steps are
compared: they agree on most packets, and `Agrees` says when on the others.
-/

namespace TauTerm.Rtt

open Lib

/-- The running task, the task an interrupt has suspended, and the nesting of interrupts. -/
structure Execution where
  active : Option UInt32
  interrupted : Option UInt32
  depth : Nat
  deriving DecidableEq

def TraceState.execution (s : TraceState) : Execution :=
  ⟨s.activeTaskId, s.interruptedTask, s.isrDepth⟩

def SystemViewExecutionState.execution (x : SystemViewExecutionState) : Execution :=
  ⟨x.activeTaskId, x.interruptedTaskId, x.irqDepth⟩

namespace Execution

def empty : Execution := ⟨none, none, 0⟩

/-- An interrupt suspends the running task. -/
def enterIsr (x : Execution) : Execution :=
  if x.depth = 0 then ⟨none, x.active, saturatingAdd32 x.depth 1⟩
  else { x with depth := saturatingAdd32 x.depth 1 }

def terminate (x : Execution) (task : Option UInt32) : Execution :=
  ⟨if task = x.active then none else x.active,
   if task = x.interrupted then none else x.interrupted, x.depth⟩

@[simp] theorem terminate_none (x : Execution) : x.terminate none = x := by
  obtain ⟨active, interrupted, depth⟩ := x
  cases active <;> cases interrupted <;> simp [terminate]

/-- The state in which a packet with this mark is applied. -/
def enter (x : Execution) (syncBoundary : Bool) : Execution := if syncBoundary then empty else x

/-- The step of the trace state. -/
def account (x : Execution) (eventId : UInt32) (task : Option UInt32) : Execution :=
  match eventId with
  | 1 | 11 => empty
  | 2 => x.enterIsr
  | 3 =>
    if x.depth - 1 = 0 ∧ x.interrupted ≠ none then ⟨x.interrupted, none, 0⟩
    else { x with depth := x.depth - 1 }
  | 4 => if task = none then x else ⟨task, none, 0⟩
  | 5 | 17 => ⟨none, none, x.depth⟩
  | 18 => ⟨x.active, none, 0⟩
  | 29 => x.terminate task
  | _ => x

/-- The step of the execution state that follows the events. -/
def replay (x : Execution) (eventId : UInt32) (task : Option UInt32) : Execution :=
  match eventId with
  | 1 | 10 | 11 | 18 => empty
  | 2 => x.enterIsr
  | 3 => if x.depth - 1 = 0 then ⟨x.interrupted, none, 0⟩ else { x with depth := x.depth - 1 }
  | 4 => ⟨task, none, 0⟩
  | 5 | 17 => ⟨none, x.interrupted, x.depth⟩
  | 29 => x.terminate task
  | _ => x

/-- The event takes both to the same execution. -/
def Agrees (x : Execution) (eventId : UInt32) (task : Option UInt32) : Prop :=
  match eventId with
  | 3 => 2 ≤ x.depth ∨ x.interrupted ≠ none ∨ x.active = none
  | 4 => task ≠ none ∨ x = empty
  | 5 | 17 => x.interrupted = none
  | 10 => x = empty
  | 18 => x.active = none
  | _ => True

instance (x : Execution) (eventId : UInt32) (task : Option UInt32) :
    Decidable (x.Agrees eventId task) := by
  unfold Agrees
  split <;> infer_instance

variable (x : Execution) (eventId : UInt32) (task : Option UInt32)

/-- Without a suspended task the exit of the outermost interrupt leaves the accounting as it was,
while the replay forgets the running task. -/
theorem exitIsr_agrees :
    (if x.depth - 1 = 0 ∧ x.interrupted ≠ none then ⟨x.interrupted, none, 0⟩
      else { x with depth := x.depth - 1 } : Execution) =
      (if x.depth - 1 = 0 then ⟨x.interrupted, none, 0⟩ else { x with depth := x.depth - 1 }) ↔
    2 ≤ x.depth ∨ x.interrupted ≠ none ∨ x.active = none := by
  obtain ⟨active, interrupted, depth⟩ := x
  by_cases hd : depth - 1 = 0
  · cases interrupted with
    | none => simp [hd, show ¬2 ≤ depth by omega]
    | some id => simp [hd]
  · simp [hd, show 2 ≤ depth by omega]

theorem account_eq_replay_iff :
    x.account eventId task = x.replay eventId task ↔ x.Agrees eventId task := by
  unfold account replay Agrees
  split
  · simp
  · simp
  · simp
  · exact exitIsr_agrees x
  · cases task with
    | none => simp [empty]
    | some id => simp
  · simpa using eq_comm
  · simpa using eq_comm
  · simp [empty]
  · simp
  · split <;> simp_all

/-- Only the start of a task and its end carry an id that the replay looks at. -/
theorem replay_contextId (p : ParsedPacket) :
    x.replay p.eventId p.contextId = x.replay p.eventId p.fields[0]? := by
  unfold replay
  split
  all_goals try rfl
  · rename_i heq
    rw [ParsedPacket.contextId, if_pos (by rw [heq]; decide)]
  · rename_i heq
    rw [ParsedPacket.contextId, if_pos (by rw [heq]; decide)]

theorem empty_agrees : empty.Agrees eventId task := by
  unfold Agrees
  split <;> simp [empty]

end Execution

/-! ## The trace state -/

namespace TraceState

variable (s : TraceState) (p : ParsedPacket) (atCycles : Nat)

@[simp] theorem closeActiveTask_activeTask : (s.closeActiveTask atCycles).activeTask = none := by
  unfold closeActiveTask
  split
  · assumption
  · rfl

@[simp] theorem closeActiveTask_interruptedTask :
    (s.closeActiveTask atCycles).interruptedTask = s.interruptedTask := by
  unfold closeActiveTask
  split <;> rfl

@[simp] theorem closeActiveTask_isrDepth : (s.closeActiveTask atCycles).isrDepth = s.isrDepth := by
  unfold closeActiveTask
  split <;> rfl

@[simp] theorem closeActiveTask_history :
    (s.closeActiveTask atCycles).events = s.events ∧
      (s.closeActiveTask atCycles).historyEntryState = s.historyEntryState := by
  unfold closeActiveTask
  split <;> exact ⟨rfl, rfl⟩

theorem endExecution_execution : (s.endExecution atCycles).execution = .empty := by
  simp [endExecution, execution, activeTaskId, Execution.empty]

theorem advance_execution : (s.advance p).execution =
    if p.eventId = 1 then .empty else s.execution.enter p.syncBoundary := by
  unfold advance Execution.enter
  by_cases h1 : p.eventId = 1
  · simp only [h1, if_true]
    exact endExecution_execution _ _
  · simp only [h1, if_false]
    cases p.syncBoundary with
    | true => exact endExecution_execution s _
    | false => rfl

theorem applyEventId_execution (track : Bool) (now : Nat)
    (h : p.eventId = 1 → s.execution = .empty) :
    (s.applyEventId p track now).execution = s.execution.account p.eventId p.fields[0]? := by
  unfold applyEventId Execution.account
  split
  · rename_i heq
    simp only [heq]
    exact h heq
  · rename_i heq
    simp only [heq]
    unfold Execution.enterIsr
    by_cases hd : s.isrDepth = 0
    · simp [execution, activeTaskId, hd]
    · simp [execution, activeTaskId, hd]
  · rename_i heq
    simp only [heq]
    by_cases hd : s.isrDepth - 1 = 0
    · cases hi : s.interruptedTask with
      | none => simp [execution, activeTaskId, hd, hi]
      | some task => simp [execution, activeTaskId, hd, hi]
    · simp [execution, activeTaskId, hd]
  · rename_i heq
    simp only [heq]
    cases p.fields[0]? with
    | none => simp
    | some task => simp [endExecution, execution, activeTaskId]
  · rename_i heq
    simp [heq, execution, activeTaskId]
  · rename_i heq
    simp [heq, execution, activeTaskId]
  · rename_i heq
    simp only [heq]
    cases p.fields[0]? <;> rfl
  · rename_i heq
    simp only [heq]
    cases p.fields[0]? with
    | none => rw [Execution.terminate_none]
    | some task =>
      unfold Execution.terminate
      simp only [execution, activeTaskId]
      by_cases ha : s.activeTask.map (·.1) = some task
      · by_cases hi : s.interruptedTask = some task
        · simp [ha, hi]
        · simp [ha, hi, Ne.symm hi]
      · by_cases hi : s.interruptedTask = some task
        · simp [ha, hi, Ne.symm ha]
        · simp [ha, hi, Ne.symm ha, Ne.symm hi]
  · rename_i heq
    simp only [heq]
    cases p.fields[0]? <;> rfl
  · rename_i heq
    simp only [heq]
    rfl
  · rename_i heq
    simp only [heq]
    exact endExecution_execution _ _
  · rename_i heq
    simp only [heq]
    cases p.text with
    | none => rfl
    | some description => simp only; split <;> rfl
  · rename_i heq
    simp only [heq]
    rfl
  · rename_i heq
    simp only [heq]
    rfl
  · split <;> simp_all

theorem record_execution (event : SystemViewEvent) : (s.record event).execution = s.execution := rfl

theorem packet_execution (track : Bool) (now : Nat) :
    (s.applyWithLossTracking p track now).1.execution =
      (s.execution.enter p.syncBoundary).account p.eventId p.fields[0]? := by
  show (((s.advance p).applyEventId p track now).record _).execution = _
  rw [record_execution, applyEventId_execution, advance_execution]
  · by_cases h1 : p.eventId = 1
    · rw [if_pos h1, h1]
      rfl
    · rw [if_neg h1]
  · intro h1
    rw [advance_execution, if_pos h1]

theorem clear_execution : s.clear.execution = s.execution := by
  unfold clear execution activeTaskId
  cases s.activeTask <;> rfl

end TraceState

/-! ## The events -/

namespace SystemViewExecutionState

theorem applyEventId_execution (x : SystemViewExecutionState) (e : SystemViewEvent) :
    (x.applyEventId e).execution = x.execution.replay e.eventId e.contextId := by
  unfold applyEventId Execution.replay
  generalize e.eventId = id
  split
  · rfl
  · rfl
  · rfl
  · rfl
  · show _ = x.execution.enterIsr
    unfold Execution.enterIsr
    by_cases hd : x.irqDepth = 0
    · simp [execution, hd]
    · simp [execution, hd]
  · by_cases hd : x.irqDepth - 1 = 0
    · simp [execution, hd]
    · simp [execution, hd]
  · rfl
  · rfl
  · rfl
  · show _ = x.execution.terminate e.contextId
    unfold Execution.terminate
    by_cases ha : e.contextId = x.activeTaskId
    · by_cases hi : e.contextId = x.interruptedTaskId
      · simp [execution, ← ha, ← hi]
      · simp [execution, ← ha, hi]
    · by_cases hi : e.contextId = x.interruptedTaskId
      · simp [execution, ha, ← hi]
      · simp [execution, ha, hi]
  · simp_all

theorem applyEvent_execution (x : SystemViewExecutionState) (e : SystemViewEvent) :
    (x.applyEvent e).execution =
      (x.execution.enter e.syncBoundary).replay e.eventId e.contextId := by
  unfold applyEvent
  rw [applyEventId_execution]
  cases e.syncBoundary <;> rfl

end SystemViewExecutionState

/-! ## Runs -/

namespace TraceState

/-- What the replay makes of the history: the retained events, from the entry state. -/
def replayed (s : TraceState) : SystemViewExecutionState :=
  s.events.foldl SystemViewExecutionState.applyEvent s.historyEntryState

theorem record_replayed (s : TraceState) (e : SystemViewEvent) :
    (s.record e).replayed = s.replayed.applyEvent e := by
  unfold record replayed
  dsimp only
  rw [foldl_evict, List.foldl_append]
  rfl

theorem endExecution_replayed (s : TraceState) (atCycles : Nat) :
    (s.endExecution atCycles).replayed = s.replayed := by
  simp [replayed, endExecution]

theorem advance_replayed (s : TraceState) (p : ParsedPacket) :
    (s.advance p).replayed = s.replayed := by
  have hsync : (if p.syncBoundary then s.endExecution s.lastTargetCycles else s).replayed =
      s.replayed := by
    split_ifs
    · exact endExecution_replayed s _
    · rfl
  unfold advance
  by_cases h1 : p.eventId = 1
  · simp only [h1, if_true]
    exact (endExecution_replayed _ _).trans hsync
  · simp only [h1, if_false]
    exact hsync

theorem applyEventId_replayed (s : TraceState) (p : ParsedPacket) (track : Bool) (now : Nat) :
    (s.applyEventId p track now).replayed = s.replayed := by
  unfold applyEventId
  split
  · rfl
  · split_ifs <;> simp [replayed]
  · dsimp only
    split_ifs
    · split <;> rfl
    · rfl
  · split
    · exact endExecution_replayed s _
    · rfl
  · simp [replayed]
  · simp [replayed]
  · split <;> rfl
  · split
    · dsimp only
      split_ifs <;> simp [replayed]
    · rfl
  · split <;> rfl
  · rfl
  · exact endExecution_replayed s _
  · split
    · split_ifs <;> rfl
    · rfl
  · rfl
  · rfl
  · rfl

theorem apply_replayed (s : TraceState) (op : Op) :
    (s.apply op).replayed = (s.emit op).toList.foldl SystemViewExecutionState.applyEvent s.replayed := by
  cases op with
  | packet p track now =>
    show (((s.advance p).applyEventId p track now).record _).replayed = _
    rw [record_replayed, applyEventId_replayed, advance_replayed]
    rfl
  | inputGap => exact endExecution_replayed s _
  | clear => rfl

theorem run_replayed (s : TraceState) (ops : List Op) :
    (s.run ops).replayed = (s.emitted ops).foldl SystemViewExecutionState.applyEvent s.replayed := by
  induction ops generalizing s with
  | nil => rfl
  | cons op ops ih =>
    rw [emitted, List.foldl_append, ← apply_replayed]
    exact ih (s.apply op)

/-- The operation takes the accounting and the replay to the same execution. -/
def OpAgrees (s : TraceState) : Op → Prop
  | .packet p _ _ => p.syncBoundary = true ∨ s.execution.Agrees p.eventId p.fields[0]?
  | .inputGap => s.execution = .empty
  | .clear => True

/-- The execution state that follows the events of a run. -/
def follow (x : SystemViewExecutionState) (s : TraceState) (op : Op) : SystemViewExecutionState :=
  (s.emit op).toList.foldl SystemViewExecutionState.applyEvent x

theorem apply_agrees_iff {s : TraceState} {x : SystemViewExecutionState} {op : Op}
    (h : s.execution = x.execution) :
    (s.apply op).execution = (follow x s op).execution ↔ s.OpAgrees op := by
  cases op with
  | packet p track now =>
    show (s.applyWithLossTracking p track now).1.execution = (x.applyEvent _).execution ↔ _
    rw [packet_execution, SystemViewExecutionState.applyEvent_execution, ← h]
    show _ = (s.execution.enter p.syncBoundary).replay p.eventId p.contextId ↔ _
    rw [Execution.replay_contextId, Execution.account_eq_replay_iff]
    unfold Execution.enter OpAgrees
    cases hb : p.syncBoundary with
    | true => exact iff_of_true (Execution.empty_agrees _ _) (Or.inl hb)
    | false => simp [hb]
  | inputGap =>
    show (s.endExecution _).execution = x.execution ↔ s.execution = .empty
    rw [endExecution_execution, ← h]
    exact eq_comm
  | clear => exact iff_of_true ((clear_execution s).trans h) trivial

theorem lockstep_snd (s : TraceState) (x : SystemViewExecutionState) (ops : List Op) :
    (ops.foldl (lockstep apply follow) (s, x)).2 =
      (s.emitted ops).foldl SystemViewExecutionState.applyEvent x := by
  induction ops generalizing s x with
  | nil => rfl
  | cons op ops ih =>
    rw [emitted, List.foldl_append]
    exact ih (s.apply op) (follow x s op)

/-- **Replay and accounting agree** after every operation of a run exactly if no operation
separates them, and so does what is replayed from the history. -/
theorem replay_agrees_iff (generation channelIndex : Nat) (controlAvailable : Bool)
    (ops : List Op) :
    let s := new generation channelIndex controlAvailable
    (∀ pre, pre <+: ops →
      (s.run pre).execution =
          ((s.emitted pre).foldl SystemViewExecutionState.applyEvent {}).execution ∧
        (s.run pre).execution = (s.run pre).replayed.execution) ↔
      Meets apply OpAgrees s ops := by
  intro s
  rw [← @agree_iff _ _ _ apply follow (fun s x => s.execution = x.execution) _
      (fun s x op h => apply_agrees_iff h) s ({}) rfl ops]
  refine forall_congr' fun pre => imp_congr_right fun _ => ?_
  rw [lockstep_fst, lockstep_snd, run_replayed]
  exact and_self_iff

/-- An interrupt exit without its entry: the task keeps running for the accounting only. -/
theorem unmatched_exit_disagrees :
    let s := new 0 0 true
    let ops : List Op :=
      [.packet { eventId := 4, fields := [5] } true 0, .packet { eventId := 3 } true 0]
    (s.run ops).execution = ⟨some 5, none, 0⟩ ∧
      ((s.emitted ops).foldl SystemViewExecutionState.applyEvent {}).execution = ⟨none, none, 0⟩ := by
  decide

end TraceState

end TauTerm.Rtt
