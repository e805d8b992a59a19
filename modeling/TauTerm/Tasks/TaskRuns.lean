import Mathlib
import TauTerm.Lib.Run
import TauTerm.Tasks.TaskSteps

/-!
# Runs of the transfer reducer

The reducer with a ledger beside it: for each task that is present, how many items it
has put in the history, and the phase in which it first was over.
-/

namespace TauTerm.Tasks

open Lib

structure Ledger where
  state : TransferState
  produced : String → Nat
  ended : String → Option Phase

def initialLedger : Ledger where
  state := initialTransferState
  produced := fun _ => 0
  ended := fun _ => none

/-- The items of a task that is present now. -/
def countItems (produced : Nat) (adds : Bool) : Option ManagedTransferTask → Nat
  | none => 0
  | some _ => produced + if adds then 1 else 0

/-- The phase in which a task that is present now first was over. -/
def firstEnd (ended : Option Phase) : Option ManagedTransferTask → Option Phase
  | none => none
  | some task =>
    ended <|> if isManagedTransferTerminalPhase task.phase then some task.phase else none

/-- One action, with the time it is reduced at. -/
def ledgerStep (ledger : Ledger) (action : Clock × TransferAction) : Option Ledger :=
  (transferReducer action.1 ledger.state action.2).map fun next => {
    state := next
    produced := fun id => countItems (ledger.produced id)
      ((producedItem action.1 ledger.state action.2).any fun item => item.id = id)
      (next.tasksById.lookup id)
    ended := fun id => firstEnd (ledger.ended id) (next.tasksById.lookup id) }

theorem restart_history {state next : TransferState} {existing : ManagedTransferTask}
    {payload : TransferStartedPayload} {initialFiles : Option (List BatchFileEntry)}
    (h : restart state existing payload initialFiles = some next) :
    next.history = state.history := by
  unfold restart at h
  by_cases hruntime : existing.runtimeId ≠ payload.runtimeId
  · rw [if_pos hruntime] at h
    rw [Option.some.inj h]
  · rw [if_neg hruntime] at h
    obtain ⟨files, -, h⟩ := Option.bind_eq_some_iff.mp h
    split_ifs at h
    · rw [Option.some.inj h]
    · rw [← Option.some.inj h]

/-- An item that is produced is the first of the history, and nothing else adds to it. -/
theorem history_produced {clock : Clock} {state next : TransferState} {action : TransferAction}
    (h : transferReducer clock state action = some next) :
    match producedItem clock state action with
    | some item => next.history = (item :: state.history).take 100
    | none => next.history = state.history ∨ next.history = [] := by
  cases action with
  | taskFinished payload =>
    cases hget : state.tasksById.get payload.transferId with
    | value current =>
      simp only [transferReducer, producedItem, hget] at h ⊢
      split_ifs at h ⊢
      · obtain ⟨⟨task, item⟩, hfinish, h⟩ := Option.bind_eq_some_iff.mp h
        rw [hfinish, ← Option.some.inj h]
        rfl
      · rw [Option.some.inj h]
        exact .inl rfl
    | inherited | undefined =>
      simp only [transferReducer, producedItem, hget, Option.some.injEq] at h ⊢
      rw [h]
      exact .inl rfl
  | taskStarted payload initialFiles =>
    refine .inl ?_
    cases hget : state.tasksById.get payload.transferId with
    | value existing =>
      simp only [transferReducer, hget] at h
      exact restart_history h
    | inherited =>
      simp only [transferReducer, hget, Option.some.injEq] at h
      rw [h]
    | undefined =>
      simp only [transferReducer, hget] at h
      obtain ⟨ids, -, h⟩ := Option.bind_eq_some_iff.mp h
      rw [← Option.some.inj h]
  | taskAcknowledged payload initialFiles =>
    refine .inl ?_
    cases hget : state.tasksById.get payload.transferId with
    | value existing =>
      simp only [transferReducer, hget] at h
      exact restart_history h
    | inherited | undefined =>
      simp only [transferReducer, hget, Option.some.injEq] at h
      rw [h]
  | taskProgress payload =>
    refine .inl ?_
    simp only [transferReducer] at h
    split at h
    · split_ifs at h <;> rw [← Option.some.inj h]
    · rw [← Option.some.inj h]
    · rw [← Option.some.inj h]
  | taskCancelling sessionId transferId | taskCancelRejected sessionId transferId previousPhase error =>
    refine .inl ?_
    simp only [transferReducer] at h
    split at h
    · split_ifs at h <;> rw [← Option.some.inj h]
    · rw [← Option.some.inj h]
  | taskClearError sessionId =>
    refine .inl ?_
    simp only [transferReducer] at h
    split at h
    · rw [← Option.some.inj h]
    · split at h
      · split_ifs at h <;> rw [← Option.some.inj h]
      · rw [← Option.some.inj h]
  | taskDiscard sessionId transferId =>
    refine .inl ?_
    simp only [transferReducer] at h
    split at h
    · obtain ⟨ids, -, h⟩ := Option.bind_eq_some_iff.mp h
      rw [← Option.some.inj h]
    · rw [← Option.some.inj h]
  | taskDiscardSession sessionId runtimeId =>
    refine .inl ?_
    obtain ⟨ids, -, h⟩ := Option.bind_eq_some_iff.mp h
    by_cases hall : (ids.filter (retainedOnDiscard state runtimeId)).length = ids.length
    · rw [if_pos hall] at h
      rw [← Option.some.inj h]
    · rw [if_neg hall] at h
      rw [← Option.some.inj h]
  | taskStartFailed sessionId error =>
    rw [← Option.some.inj h]
    exact .inl rfl
  | clearHistory =>
    rw [← Option.some.inj h]
    exact .inr rfl

/-- An event of another connection, session or protocol than the task's. -/
def Strange (task : ManagedTransferTask) (runtimeId sessionId protocol : String) : Prop :=
  task.runtimeId ≠ runtimeId ∨ task.sessionId ≠ sessionId ∨ task.protocol ≠ protocol

structure TableOk (ledger : Ledger) : Prop where
  keys_iff : ∀ id, id ∈ ledger.state.tasksById.keys ↔
    ∃ sessionId ids, ledger.state.taskIdsBySession.lookup sessionId = some ids ∧ id ∈ ids
  owned : ∀ sessionId ids, ledger.state.taskIdsBySession.lookup sessionId = some ids →
    ids.Nodup ∧ ∀ id ∈ ids, ∃ task, ledger.state.tasksById.lookup id = some task ∧
      task.sessionId = sessionId
  dense : ∀ id task, ledger.state.tasksById.lookup id = some task → Dense task.files
  ended : ∀ id task, ledger.state.tasksById.lookup id = some task →
    ∀ phase, ledger.ended id = some phase → task.phase = phase
  produced : ∀ id task, ledger.state.tasksById.lookup id = some task →
    isManagedTransferTerminalPhase task.phase → ledger.produced id = 1
  progress_ignored : ∀ clock payload task,
    ledger.state.tasksById.lookup payload.transferId = some task →
      Strange task payload.runtimeId payload.sessionId payload.protocol →
        transferReducer clock ledger.state (.taskProgress payload) = some ledger.state
  finished_ignored : ∀ clock payload task,
    ledger.state.tasksById.lookup payload.transferId = some task →
      Strange task payload.runtimeId payload.sessionId payload.protocol →
        transferReducer clock ledger.state (.taskFinished payload) = some ledger.state

/-- The entries of the ledger for a task, or for none. -/
def Settled (produced : Nat) (ended : Option Phase) : Option ManagedTransferTask → Prop
  | none => produced = 0 ∧ ended = none
  | some task =>
    if isManagedTransferTerminalPhase task.phase then produced = 1 ∧ ended = some task.phase
    else produced = 0 ∧ ended = none

structure LedgerInv (ledger : Ledger) : Prop where
  table : TableInv ledger.state.tasksById ledger.state.taskIdsBySession
  settled : ∀ id, Settled (ledger.produced id) (ledger.ended id)
    (ledger.state.tasksById.lookup id)

theorem Settled.step {produced : Nat} {ended : Option Phase} {adds : Bool}
    {old new : Option ManagedTransferTask} (h : Settled produced ended old)
    (hmoves : Moves adds old new) :
    Settled (countItems produced adds new) (firstEnd ended new) new := by
  cases new with
  | none => exact ⟨rfl, rfl⟩
  | some task =>
    cases old with
    | none =>
      obtain ⟨rfl, rfl⟩ := h
      obtain ⟨hphase, rfl⟩ := hmoves
      simp [Settled, countItems, firstEnd, hphase]
    | some old =>
      rcases hmoves with ⟨hphase, rfl⟩ | ⟨hold, rfl⟩
      · cases hterminal : isManagedTransferTerminalPhase old.phase with
        | true =>
          simp only [Settled, hterminal, if_true] at h
          simp [Settled, countItems, firstEnd, hphase, hterminal, h.1, h.2]
        | false =>
          simp only [Settled, hterminal, Bool.false_eq_true, if_false] at h
          simp [Settled, countItems, firstEnd, hphase, hterminal, h.1, h.2]
      · simp only [Settled, hold, Bool.false_eq_true, if_false] at h
        cases hterminal : isManagedTransferTerminalPhase task.phase <;>
          simp [Settled, countItems, firstEnd, hterminal, h.1, h.2]

variable {ledger next : Ledger} {action : Clock × TransferAction}

theorem strange_not_accepts {task : ManagedTransferTask} {runtimeId sessionId protocol : String}
    (h : Strange task runtimeId sessionId protocol) :
    accepts task runtimeId sessionId protocol = false := by
  rw [← Bool.not_eq_true, accepts_iff]
  rintro ⟨hruntime, hsession, hprotocol, -⟩
  rcases h with h | h | h
  · exact h hruntime
  · exact h hsession
  · exact h hprotocol

theorem LedgerInv.ok (h : LedgerInv ledger) : TableOk ledger where
  keys_iff id := by
    rw [JsObject.mem_keys]
    constructor
    · rintro ⟨task, htask⟩
      obtain ⟨ids, hids, hmem⟩ := h.table.listed id task htask
      exact ⟨task.sessionId, ids, hids, hmem⟩
    · rintro ⟨sessionId, ids, hids, hmem⟩
      obtain ⟨task, htask, -⟩ := (h.table.owned sessionId ids hids).2 id hmem
      exact ⟨task, htask⟩
  owned := h.table.owned
  dense := h.table.dense
  ended id task htask phase hended := by
    have hsettled := h.settled id
    rw [htask, Settled, hended] at hsettled
    split_ifs at hsettled
    · exact (Option.some.inj hsettled.2).symm
    · exact nomatch hsettled.2
  produced id task htask hterminal := by
    have hsettled := h.settled id
    rw [htask, Settled, if_pos hterminal] at hsettled
    exact hsettled.1
  progress_ignored clock payload task htask hstrange := by
    simp only [transferReducer, JsObject.get_of_lookup _ htask, strange_not_accepts hstrange,
      Bool.false_eq_true, if_false]
  finished_ignored clock payload task htask hstrange := by
    simp only [transferReducer, JsObject.get_of_lookup _ htask, strange_not_accepts hstrange,
      Bool.false_eq_true, if_false]

theorem ledgerStep_inv (h : LedgerInv ledger) (hregular : Regular ledger.state action.2) :
    ∃ next, ledgerStep ledger action = some next ∧ LedgerInv next := by
  obtain ⟨state, hstep, hok⟩ := @transferReducer_ok _ (action.1) _ h.table hregular
  rw [ledgerStep, hstep]
  exact ⟨_, rfl, hok.table, fun id => (h.settled id).step (hok.moves id)⟩

/-- An action that is not regular fails, or leaves the table in a state it should not be in. -/
theorem regular_of_ok (h : LedgerInv ledger) (hstep : ledgerStep ledger action = some next)
    (hok : TableOk next) : Regular ledger.state action.2 := by
  obtain ⟨clock, action⟩ := action
  obtain ⟨state, hreduced, rfl⟩ := Option.map_eq_some_iff.mp hstep
  cases action with
  | taskStarted payload initialFiles =>
    intro hnew hinherited
    simp only [transferReducer, hnew, start, sessionIds_inherited hinherited] at hreduced
    contradiction
  | taskDiscardSession sessionId runtimeId =>
    intro hinherited
    simp only [transferReducer, discardSession, sessionIds_inherited hinherited] at hreduced
    contradiction
  | taskProgress payload =>
    intro current hget haccepts
    simp only [transferReducer, hget, haccepts, if_true, Option.some.injEq] at hreduced
    subst hreduced
    have hdense := hok.dense payload.transferId (progressTask clock current payload) (by simp)
    exact (progressTask_dense_iff (h.table.dense _ _ (get_value hget)) payload).mp hdense
  | taskCancelRejected sessionId transferId previousPhase error =>
    intro current htask hphase
    obtain ⟨hlookup, -⟩ := taskOf_some htask
    simp only [transferReducer, htask, hphase, ne_eq, not_true_eq_false, if_false,
      Option.some.injEq] at hreduced
    subst hreduced
    have hsettled := h.settled transferId
    rw [hlookup, Settled, if_neg (by rw [hphase]; decide)] at hsettled
    by_contra hterminal
    rw [Bool.not_eq_false] at hterminal
    have hproduced := hok.produced transferId
      { current with phase := previousPhase, error := some error } (by simp) hterminal
    simp [hsettled.1, producedItem, countItems] at hproduced
  | _ => trivial

theorem initialLedger_inv : LedgerInv initialLedger where
  table := by
    have hnone : ∀ {α : Type} {k : String} {a : α}, (JsObject.empty : JsObject α).lookup k ≠ some a :=
      fun h => by rw [JsObject.lookup_empty] at h; cases h
    exact ⟨fun _ _ h => absurd h hnone, fun _ _ h => absurd h hnone, fun _ _ h => absurd h hnone,
      fun _ _ h => absurd h hnone⟩
  settled _ := ⟨rfl, rfl⟩

/-- The reducer never throws and the table is good in every state, exactly if the actions are
regular. -/
theorem transfers_sound_iff (actions : List (Clock × TransferAction)) :
    AlwaysSucceeds ledgerStep TableOk initialLedger actions ↔
      EachAttempt ledgerStep (fun ledger action => Regular ledger.state action.2) initialLedger
        actions :=
  alwaysSucceeds_iff (fun _ h => h.ok) (fun _ _ h hregular => ledgerStep_inv h hregular)
    (fun _ _ _ h hstep hok => regular_of_ok h hstep hok) initialLedger_inv

section Breaks

def someClock : Clock := ⟨0, fun _ _ => 0⟩

def startedPayload (sessionId : String) : TransferStartedPayload where
  runtimeId := "1"
  sessionId := sessionId
  transferId := "t"
  protocol := "sftp"
  direction := .receive

/-- The second file of a batch is the first to report progress. -/
def secondFile : ProgressPayload where
  runtimeId := "1"
  sessionId := "s"
  transferId := "t"
  kind := .progress
  protocol := "sftp"
  fileName := "b"
  bytesDone := 1
  bytesTotal := 2
  bytesPerSecond := none
  fileIndex := 1
  totalFiles := 2
  aggregateBytes := 1
  aggregateTotal := 4
  direction := .receive
  fileSuccess := none
  fileError := none

def finishedPayload : FinishedPayload where
  runtimeId := "1"
  sessionId := "s"
  transferId := "t"
  protocol := "sftp"
  success := false
  cancelled := false
  error := some "lost"
  results := some [⟨"a", .failed, 2, none⟩]

/-- A session called like a method of every object, a batch whose second file reports first, and a
rejected cancellation that completes its task. -/
theorem transfers_break :
    ¬ AlwaysSucceeds ledgerStep TableOk initialLedger
      [(someClock, .taskStarted (startedPayload "toString") none)] ∧
    ¬ AlwaysSucceeds ledgerStep TableOk initialLedger
      [(someClock, .taskStarted (startedPayload "s") none), (someClock, .taskProgress secondFile),
        (someClock, .taskFinished finishedPayload)] ∧
    ¬ AlwaysSucceeds ledgerStep TableOk initialLedger
      [(someClock, .taskStarted (startedPayload "s") none),
        (someClock, .taskCancelling "s" "t"),
        (someClock, .taskCancelRejected "s" "t" .completed "busy")] := by
  refine ⟨fun h => ?_, fun h => ?_, fun h => ?_⟩
  · obtain ⟨t, ht, -⟩ := h.execute
    have hnone : (execute ledgerStep initialLedger
        [(someClock, .taskStarted (startedPayload "toString") none)]).isNone := by decide
    rw [ht] at hnone
    contradiction
  · obtain ⟨t, ht, -⟩ := h.execute
    have hnone : (execute ledgerStep initialLedger
        [(someClock, .taskStarted (startedPayload "s") none), (someClock, .taskProgress secondFile),
          (someClock, .taskFinished finishedPayload)]).isNone := by decide
    rw [ht] at hnone
    contradiction
  · obtain ⟨t, ht, hok⟩ := h.execute
    have hlast : (execute ledgerStep initialLedger
        [(someClock, .taskStarted (startedPayload "s") none),
          (someClock, .taskCancelling "s" "t"),
          (someClock, .taskCancelRejected "s" "t" .completed "busy")]).map (fun ledger =>
            ((ledger.state.tasksById.lookup "t").map ManagedTransferTask.phase,
              ledger.produced "t")) = some (some .completed, 0) := by decide
    rw [ht, Option.map_some, Option.some.injEq, Prod.mk.injEq, Option.map_eq_some_iff] at hlast
    obtain ⟨⟨task, htask, hphase⟩, hproduced⟩ := hlast
    have hone := hok.produced "t" task htask (by rw [hphase]; rfl)
    omega

end Breaks

end TauTerm.Tasks
