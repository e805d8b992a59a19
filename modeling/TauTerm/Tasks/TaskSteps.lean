import Mathlib
import TauTerm.Tasks.TaskTable

/-!
# What one action does to the table

In a state that keeps the invariant an action succeeds, and keeps it, if it is regular.
Each task then stays in its phase, or moves on; it is over exactly when it has put its
item in the history.
-/

namespace TauTerm.Tasks

open Lib

variable {state next : TransferState} {task : ManagedTransferTask} {clock : Clock}
  {action : TransferAction}

/-- The item that an action puts in the history. -/
def producedItem (clock : Clock) (state : TransferState) : TransferAction →
    Option TransferHistoryItem
  | .taskFinished payload => match state.tasksById.get payload.transferId with
    | .value current =>
      if accepts current payload.runtimeId payload.sessionId payload.protocol then
        (finishTask clock current payload).map Prod.snd
      else none
    | .inherited | .undefined => none
  | _ => none

/-- The condition on an action: a session that is looked up by `TASK_STARTED` or
`TASK_DISCARD_SESSION` does not have the name of something on `Object.prototype`, progress skips no
file, and a rejected cancellation does not put a task into a phase in which it is over. -/
def Regular (state : TransferState) : TransferAction → Prop
  | .taskStarted payload _ =>
    state.tasksById.get payload.transferId = .undefined →
      state.taskIdsBySession.get payload.sessionId ≠ .inherited
  | .taskDiscardSession sessionId _ => state.taskIdsBySession.get sessionId ≠ .inherited
  | .taskProgress payload => ∀ current, state.tasksById.get payload.transferId = .value current →
    accepts current payload.runtimeId payload.sessionId payload.protocol →
      payload.kind ≠ .batchComplete → payload.fileName ≠ "" →
        InOrder current.files payload.fileIndex
  | .taskCancelRejected sessionId transferId previousPhase _ =>
    ∀ current, taskOf state sessionId transferId = some current → current.phase = .cancelling →
      isManagedTransferTerminalPhase previousPhase = false
  | _ => True

/-- What becomes of the task of an id when `produced` tells whether it put an item in the
history. -/
def Moves (produced : Bool) : Option ManagedTransferTask → Option ManagedTransferTask → Prop
  | _, none => True
  | none, some task => isManagedTransferTerminalPhase task.phase = false ∧ produced = false
  | some old, some task =>
    task.phase = old.phase ∧ produced = false ∨
      isManagedTransferTerminalPhase old.phase = false ∧
        isManagedTransferTerminalPhase task.phase = produced

theorem Moves.same (old : Option ManagedTransferTask) : Moves false old old := by
  cases old with
  | none => trivial
  | some task => exact .inl ⟨rfl, rfl⟩

/-- One action: what the table and the tasks do. -/
structure StepOk (clock : Clock) (state : TransferState) (action : TransferAction)
    (next : TransferState) : Prop where
  table : TableInv next.tasksById next.taskIdsBySession
  moves : ∀ id, Moves ((producedItem clock state action).any fun item => item.id = id)
    (state.tasksById.lookup id) (next.tasksById.lookup id)

theorem get_value {tasks : JsObject ManagedTransferTask} {id : String}
    (h : tasks.get id = .value task) : tasks.lookup id = some task := by
  unfold JsObject.get at h
  split at h
  · rename_i t ht
    rw [JsRead.value.injEq] at h
    rw [ht, h]
  · split_ifs at h

theorem get_undefined {V : Type} {o : JsObject V} {id : String} (h : o.get id = .undefined) :
    o.lookup id = none := by
  unfold JsObject.get at h
  split at h
  · contradiction
  · assumption

theorem taskOf_some {sessionId transferId : String} (h : taskOf state sessionId transferId = some task) :
    state.tasksById.lookup transferId = some task ∧ task.sessionId = sessionId := by
  unfold taskOf at h
  split at h
  · rename_i current hget
    split_ifs at h with hsession
    obtain rfl := Option.some.inj h
    exact ⟨get_value hget, hsession⟩
  · contradiction
  · contradiction

theorem sessionIds_eq {sessionId : String}
    (h : state.taskIdsBySession.get sessionId ≠ .inherited) :
    sessionIds state sessionId = some ((state.taskIdsBySession.lookup sessionId).getD []) := by
  unfold sessionIds
  cases hget : state.taskIdsBySession.get sessionId with
  | value ids =>
    have hlookup : state.taskIdsBySession.lookup sessionId = some ids := by
      unfold JsObject.get at hget
      split at hget
      · rename_i found hfound
        rw [hfound, JsRead.value.inj hget]
      · split_ifs at hget
    rw [hlookup]
    rfl
  | inherited => exact absurd hget h
  | undefined =>
    rw [get_undefined hget]
    rfl

theorem sessionIds_inherited {sessionId : String}
    (h : state.taskIdsBySession.get sessionId = .inherited) : sessionIds state sessionId = none := by
  rw [sessionIds, h]

/-- An action that only deletes tasks. -/
theorem stepOk_delete (hproduced : producedItem clock state action = none)
    (htable : TableInv next.tasksById next.taskIdsBySession)
    (hkept : ∀ k t, next.tasksById.lookup k = some t → state.tasksById.lookup k = some t) :
    StepOk clock state action next where
  table := htable
  moves k := by
    rw [hproduced]
    cases hlookup : next.tasksById.lookup k with
    | none => trivial
    | some t =>
      rw [hkept k t hlookup]
      exact .same _

theorem accepts_iff (runtimeId sessionId protocol : String) :
    accepts task runtimeId sessionId protocol ↔ task.runtimeId = runtimeId ∧
      task.sessionId = sessionId ∧ task.protocol = protocol ∧
        isManagedTransferTerminalPhase task.phase = false := by
  simp [accepts]

theorem progressTask_phase {payload : ProgressPayload} :
    isManagedTransferTerminalPhase (progressTask clock task payload).phase = false := by
  simp only [progressTask]
  split_ifs <;> rfl

section Steps

variable (h : TableInv state.tasksById state.taskIdsBySession)
include h

/-- An action that leaves the tasks and the lists as they are. -/
theorem stepOk_same (hproduced : producedItem clock state action = none)
    (htasks : next.tasksById = state.tasksById)
    (hlists : next.taskIdsBySession = state.taskIdsBySession) :
    StepOk clock state action next where
  table := by rw [htasks, hlists]; exact h
  moves id := by
    rw [hproduced, htasks]
    exact .same _

/-- An action that replaces one task. -/
theorem stepOk_put {id : String} {task' : ManagedTransferTask}
    (htask : state.tasksById.lookup id = some task)
    (htasks : next.tasksById = state.tasksById.spread.define id task')
    (hlists : next.taskIdsBySession = state.taskIdsBySession)
    (hid : task'.transferId = task.transferId) (hsession : task'.sessionId = task.sessionId)
    (hdense : Dense task'.files)
    (hproduced : ∀ item, producedItem clock state action = some item → item.id = id)
    (hmoves : Moves (producedItem clock state action).isSome (some task) (some task')) :
    StepOk clock state action next where
  table := by
    rw [htasks, hlists]
    exact h.put htask hid hsession hdense
  moves k := by
    rw [htasks, JsObject.lookup_define, JsObject.lookup_spread]
    split_ifs with hk
    · subst hk
      rw [htask]
      cases hitem : producedItem clock state action with
      | none => rwa [hitem] at hmoves
      | some item =>
        rw [hitem] at hmoves
        simpa [hproduced item hitem] using hmoves
    · have hnone : (producedItem clock state action).any (fun item => item.id = k) = false := by
        cases hitem : producedItem clock state action with
        | none => rfl
        | some item =>
          rw [Option.any_some, decide_eq_false_iff_not, hproduced item hitem]
          exact Ne.symm hk
      rw [hnone]
      exact .same _

theorem restart_ok {existing : ManagedTransferTask} {payload : TransferStartedPayload}
    {initialFiles : Option (List BatchFileEntry)}
    (hproduced : producedItem clock state action = none)
    (hexisting : state.tasksById.lookup payload.transferId = some existing) :
    ∃ next, restart state existing payload initialFiles = some next ∧
      StepOk clock state action next := by
  unfold restart
  have hmerged := mergeInitialFiles_dense (h.dense _ _ hexisting) initialFiles
  obtain ⟨files, hfiles, hdense⟩ : ∃ files,
      mergedFiles existing initialFiles = some files ∧ Dense files := by
    unfold mergedFiles
    dsimp only
    split_ifs
    · obtain ⟨entries, hentries⟩ := hmerged.exists_entries
      rw [hentries]
      exact ⟨_, mapFiles_entries _ _ _, dense_map _⟩
    · exact ⟨_, rfl, hmerged⟩
  by_cases hruntime : existing.runtimeId ≠ payload.runtimeId
  · rw [if_pos hruntime]
    exact ⟨state, rfl, stepOk_same h hproduced rfl rfl⟩
  · rw [if_neg hruntime, hfiles, Option.bind_eq_bind, Option.bind_some]
    split_ifs
    · exact ⟨state, rfl, stepOk_same h hproduced rfl rfl⟩
    · refine ⟨_, rfl, stepOk_put h hexisting rfl rfl rfl rfl hdense (fun item hitem => ?_) ?_⟩
      · rw [hproduced] at hitem
        contradiction
      · rw [hproduced]
        exact .inl ⟨rfl, rfl⟩

theorem start_ok {payload : TransferStartedPayload} {initialFiles : Option (List BatchFileEntry)}
    (hproduced : producedItem clock state action = none)
    (hnew : state.tasksById.get payload.transferId = .undefined)
    (hsession : state.taskIdsBySession.get payload.sessionId ≠ .inherited) :
    ∃ next, start state payload initialFiles = some next ∧ StepOk clock state action next := by
  unfold start
  rw [sessionIds_eq hsession, Option.bind_eq_bind, Option.bind_some]
  set oldIds := (state.taskIdsBySession.lookup payload.sessionId).getD [] with holdIds
  set retained := oldIds.filter (retainedOnStart state) with hretained
  refine ⟨_, rfl, ?_⟩
  have hgone := get_undefined hnew
  have hkept : ∀ k t, (deleteTasks state.tasksById.spread oldIds retained).lookup k = some t →
      state.tasksById.lookup k = some t := fun k t ht => by
    rw [lookup_deleteTasks] at ht
    split_ifs at ht
    exact ht
  have htable := @h.retain _ _
      (if retained = [] then state.taskIdsBySession.spread.delete payload.sessionId
      else state.taskIdsBySession.spread.define payload.sessionId retained) payload.sessionId oldIds
      rfl retained List.filter_sublist fun s => by
      by_cases hnone : retained = []
      · simp only [if_pos hnone, JsObject.lookup_delete, JsObject.lookup_spread]
      · simp only [if_neg hnone, JsObject.lookup_define, JsObject.lookup_spread]
  have hmerged : Dense (mergeInitialFiles [] initialFiles) :=
    mergeInitialFiles_dense (fun slot hslot => absurd hslot List.not_mem_nil) initialFiles
  have hdeleted : (deleteTasks state.tasksById.spread oldIds retained).lookup payload.transferId =
      none := by
    rw [lookup_deleteTasks, hgone, ite_self]
  refine ⟨htable.add rfl hdeleted hmerged fun s => ?_, fun k => ?_⟩
  · have hlookup : ((if retained = [] then state.taskIdsBySession.spread.delete payload.sessionId
        else state.taskIdsBySession.spread.define payload.sessionId retained).lookup
          payload.sessionId).getD [] = retained := by
      split_ifs with hnone
      · rw [JsObject.lookup_delete, if_pos rfl, hnone]
        rfl
      · rw [JsObject.lookup_define, if_pos rfl]
        rfl
    dsimp only [createTask]
    rw [hlookup, JsObject.lookup_define]
    by_cases hs : s = payload.sessionId
    · rw [if_pos hs]
      exact (if_pos hs).symm
    · rw [if_neg hs]
      refine Eq.trans ?_ (if_neg hs).symm
      split_ifs
      · rw [JsObject.lookup_delete, if_neg hs]
      · rw [JsObject.lookup_define, if_neg hs]
  · rw [hproduced, JsObject.lookup_define]
    by_cases hk : k = payload.transferId
    · rw [if_pos hk, hk, hgone]
      exact ⟨rfl, rfl⟩
    · rw [if_neg hk]
      cases hlookup : (deleteTasks state.tasksById.spread oldIds retained).lookup k with
      | none => trivial
      | some t =>
        rw [hkept k t hlookup]
        exact .same _

theorem discardSession_ok {sessionId runtimeId : String}
    (hproduced : producedItem clock state action = none)
    (hsession : state.taskIdsBySession.get sessionId ≠ .inherited) :
    ∃ next, discardSession state sessionId runtimeId = some next ∧
      StepOk clock state action next := by
  unfold discardSession
  rw [sessionIds_eq hsession, Option.bind_eq_bind, Option.bind_some]
  set ids := (state.taskIdsBySession.lookup sessionId).getD [] with hids
  set retained := ids.filter (retainedOnDiscard state runtimeId) with hretained
  by_cases hall : retained.length = ids.length
  · rw [if_pos hall]
    exact ⟨state, rfl, stepOk_same h hproduced rfl rfl⟩
  · rw [if_neg hall]
    refine ⟨_, rfl, stepOk_delete hproduced (h.retain rfl List.filter_sublist fun s => ?_)
      fun k t ht => ?_⟩
    · by_cases hnone : retained = []
      · rw [if_neg (not_not.mpr hnone), if_pos hnone, JsObject.lookup_delete]
        rfl
      · rw [if_pos hnone, if_neg hnone, JsObject.lookup_define]
        rfl
    · rw [lookup_deleteTasks] at ht
      split_ifs at ht
      exact ht

theorem discard_ok {sessionId transferId : String}
    (htask : taskOf state sessionId transferId = some task) :
    ∃ next, transferReducer clock state (.taskDiscard sessionId transferId) = some next ∧
      StepOk clock state (.taskDiscard sessionId transferId) next := by
  obtain ⟨hlookup, rfl⟩ := taskOf_some htask
  obtain ⟨ids, hids, hmem⟩ := h.listed transferId task hlookup
  have hsession : state.taskIdsBySession.get task.sessionId ≠ .inherited := by
    rw [JsObject.get_of_lookup _ hids]
    exact nofun
  simp only [transferReducer, htask, sessionIds_eq hsession, hids, Option.getD_some, bind,
    Option.bind_some]
  refine ⟨_, rfl, stepOk_delete rfl ?_ fun k t ht => ?_⟩
  · refine (@h.retain _ _ (if (ids.filter (· ≠ transferId)).length > 0 then
          state.taskIdsBySession.spread.define task.sessionId (ids.filter (· ≠ transferId))
        else state.taskIdsBySession.spread.delete task.sessionId) task.sessionId ids
      (by rw [hids]; rfl) (ids.filter (· ≠ transferId)) List.filter_sublist
      fun s => ?_).congr (fun k => ?_) fun s => rfl
    · by_cases hnone : ids.filter (· ≠ transferId) = []
      · rw [hnone, if_pos rfl]
        exact JsObject.lookup_delete _
      · rw [if_pos (List.length_pos_iff.mpr hnone), if_neg hnone, JsObject.lookup_define]
        rfl
    · rw [lookup_deleteTasks, JsObject.lookup_delete, JsObject.lookup_spread]
      refine if_congr ?_ rfl rfl
      rw [List.mem_filter, decide_eq_true_eq, not_and, not_not]
      exact ⟨fun hk => ⟨hk ▸ hmem, fun _ => hk⟩, fun hk => hk.2 hk.1⟩
  · rw [JsObject.lookup_delete] at ht
    split_ifs at ht
    exact ht

theorem latestOf_lookup {ids : List String} {latest : ManagedTransferTask}
    (hlatest : latestOf state ids = some latest) :
    state.tasksById.lookup latest.transferId = some latest := by
  induction ids with
  | nil => simp [latestOf] at hlatest
  | cons id ids ih =>
    rw [latestOf] at hlatest
    split at hlatest
    · rename_i task hget
      obtain rfl := Option.some.inj hlatest
      have hlookup := get_value hget
      rwa [h.named id _ hlookup]
    · contradiction
    · exact ih hlatest

theorem latestTaskForSession_lookup {sessionId : String} {latest : ManagedTransferTask}
    (hlatest : latestTaskForSession state sessionId = some latest) :
    state.tasksById.lookup latest.transferId = some latest := by
  unfold latestTaskForSession at hlatest
  split at hlatest
  · exact latestOf_lookup h hlatest
  · split_ifs at hlatest
    exact latestOf_lookup h hlatest
  · contradiction

theorem clearError_ok (sessionId : Option String) :
    ∃ next, transferReducer clock state (.taskClearError sessionId) = some next ∧
      StepOk clock state (.taskClearError sessionId) next := by
  unfold transferReducer
  dsimp only
  split
  · refine ⟨_, rfl, h.mapValues (f := fun task => { task with error := none }) (fun _ => rfl)
      (fun _ => rfl) (fun _ => rfl), fun k => ?_⟩
    dsimp only
    rw [JsObject.lookup_mapValues]
    cases state.tasksById.lookup k with
    | none => trivial
    | some t => exact .inl ⟨rfl, rfl⟩
  · split
    · rename_i latest hlatest
      have hlookup := latestTaskForSession_lookup h hlatest
      split_ifs
      · exact ⟨_, rfl, stepOk_same h rfl rfl rfl⟩
      · exact ⟨_, rfl, stepOk_put h hlookup rfl rfl rfl rfl
          (h.dense latest.transferId latest hlookup) (fun item hitem => nomatch hitem)
          (.inl ⟨rfl, rfl⟩)⟩
    · exact ⟨_, rfl, stepOk_same h rfl rfl rfl⟩

theorem progress_ok {payload : ProgressPayload} (hregular : Regular state (.taskProgress payload)) :
    ∃ next, transferReducer clock state (.taskProgress payload) = some next ∧
      StepOk clock state (.taskProgress payload) next := by
  unfold transferReducer
  dsimp only
  split
  · rename_i current hget
    have hlookup := get_value hget
    split_ifs with haccepts
    · refine ⟨_, rfl, stepOk_put h hlookup rfl rfl rfl rfl ?_ (fun item hitem => nomatch hitem)
        (.inr ⟨((accepts_iff _ _ _).mp haccepts).2.2.2, progressTask_phase⟩)⟩
      exact (progressTask_dense_iff (h.dense _ _ hlookup) payload).mpr
        (hregular current hget haccepts)
    · exact ⟨_, rfl, stepOk_same h rfl rfl rfl⟩
  · exact ⟨_, rfl, stepOk_same h rfl rfl rfl⟩
  · exact ⟨_, rfl, stepOk_same h rfl rfl rfl⟩

theorem finished_ok (payload : FinishedPayload) :
    ∃ next, transferReducer clock state (.taskFinished payload) = some next ∧
      StepOk clock state (.taskFinished payload) next := by
  cases hget : state.tasksById.get payload.transferId with
  | value current =>
    have hlookup := get_value hget
    by_cases haccepts : accepts current payload.runtimeId payload.sessionId payload.protocol
    · obtain ⟨finished, item, hfinish, hdense, hid, hsession, hterminal, hitem⟩ :=
        @finishTask_spec clock _ (h.dense _ _ hlookup) payload
      have hproduced : producedItem clock state (.taskFinished payload) = some item := by
        simp only [producedItem, hget, haccepts, if_true, hfinish, Option.map_some]
      simp only [transferReducer, hget, haccepts, if_true, hfinish, bind, Option.bind_some]
      refine ⟨_, rfl, stepOk_put h hlookup rfl rfl hid hsession hdense (fun item' heq => ?_) ?_⟩
      · rw [hproduced, Option.some.injEq] at heq
        rw [← heq, hitem, h.named _ _ hlookup]
      · rw [hproduced]
        exact .inr ⟨((accepts_iff _ _ _).mp haccepts).2.2.2, hterminal⟩
    · have hproduced : producedItem clock state (.taskFinished payload) = none := by
        simp only [producedItem, hget, haccepts, Bool.false_eq_true, if_false]
      simp only [transferReducer, hget, haccepts, Bool.false_eq_true, if_false]
      exact ⟨_, rfl, stepOk_same h hproduced rfl rfl⟩
  | inherited | undefined =>
    have hproduced : producedItem clock state (.taskFinished payload) = none := by
      simp only [producedItem, hget]
    simp only [transferReducer, hget]
    exact ⟨_, rfl, stepOk_same h hproduced rfl rfl⟩

/-- In a good state a regular action succeeds, and keeps the table. -/
theorem transferReducer_ok (hregular : Regular state action) :
    ∃ next, transferReducer clock state action = some next ∧ StepOk clock state action next := by
  cases action with
  | taskStarted payload initialFiles =>
    have hproduced : producedItem clock state (.taskStarted payload initialFiles) = none := rfl
    cases hget : state.tasksById.get payload.transferId with
    | value existing =>
      simp only [transferReducer, hget]
      exact restart_ok h hproduced (get_value hget)
    | inherited =>
      simp only [transferReducer, hget]
      exact ⟨_, rfl, stepOk_same h hproduced rfl rfl⟩
    | undefined =>
      simp only [transferReducer, hget]
      exact start_ok h hproduced hget (hregular hget)
  | taskAcknowledged payload initialFiles =>
    have hproduced : producedItem clock state (.taskAcknowledged payload initialFiles) = none := rfl
    cases hget : state.tasksById.get payload.transferId with
    | value existing =>
      simp only [transferReducer, hget]
      exact restart_ok h hproduced (get_value hget)
    | inherited | undefined =>
      simp only [transferReducer, hget]
      exact ⟨_, rfl, stepOk_same h hproduced rfl rfl⟩
  | taskProgress payload => exact progress_ok h hregular
  | taskFinished payload => exact finished_ok h payload
  | taskCancelling sessionId transferId =>
    cases htask : taskOf state sessionId transferId with
    | none =>
      simp only [transferReducer, htask]
      exact ⟨_, rfl, stepOk_same h rfl rfl rfl⟩
    | some current =>
      obtain ⟨hlookup, -⟩ := taskOf_some htask
      simp only [transferReducer, htask]
      split_ifs with hterminal
      · exact ⟨_, rfl, stepOk_same h rfl rfl rfl⟩
      · exact ⟨_, rfl, stepOk_put h hlookup rfl rfl rfl rfl (h.dense transferId current hlookup)
          (fun item hitem => nomatch hitem) (.inr ⟨by simpa using hterminal, rfl⟩)⟩
  | taskCancelRejected sessionId transferId previousPhase error =>
    cases htask : taskOf state sessionId transferId with
    | none =>
      simp only [transferReducer, htask]
      exact ⟨_, rfl, stepOk_same h rfl rfl rfl⟩
    | some current =>
      obtain ⟨hlookup, -⟩ := taskOf_some htask
      simp only [transferReducer, htask]
      split_ifs with hphase
      · exact ⟨_, rfl, stepOk_same h rfl rfl rfl⟩
      · rw [not_not] at hphase
        refine ⟨_, rfl, stepOk_put h hlookup rfl rfl rfl rfl (h.dense transferId current hlookup)
          (fun item hitem => nomatch hitem) (.inr ⟨?_, hregular current htask hphase⟩)⟩
        rw [hphase]
        rfl
  | taskStartFailed sessionId error => exact ⟨_, rfl, stepOk_same h rfl rfl rfl⟩
  | taskClearError sessionId => exact clearError_ok h sessionId
  | taskDiscard sessionId transferId =>
    cases htask : taskOf state sessionId transferId with
    | none =>
      simp only [transferReducer, htask]
      exact ⟨_, rfl, stepOk_same h rfl rfl rfl⟩
    | some task => exact discard_ok h htask
  | taskDiscardSession sessionId runtimeId => exact discardSession_ok h rfl hregular
  | clearHistory => exact ⟨_, rfl, stepOk_same h rfl rfl rfl⟩

end Steps

end TauTerm.Tasks
