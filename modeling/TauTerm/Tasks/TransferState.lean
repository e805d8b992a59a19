import Mathlib
import TauTerm.Lib.JsObject

/-!
# The table of transfer tasks

Tasks by id, the ids of each session, and the history, under the events of the backend
and the user's actions. The reducer fails where the code throws. Time and the floating
point percentage are parameters.
-/

namespace TauTerm.Tasks

open Lib

inductive Phase
  | preparing | transferring | finalizing | cancelling | completed | failed | cancelled
deriving DecidableEq

inductive Direction
  | send | receive
deriving DecidableEq

inductive FileState
  | pending | transferring | completed | failed | skipped
deriving DecidableEq

inductive TransferStatus
  | idle | transferring | completed | failed | cancelled
deriving DecidableEq

structure BatchFileEntry where
  fileName : String
  status : FileState
  bytesTransferred : Nat
  totalBytes : Nat
  error : Option String := none
deriving DecidableEq

/-- An element of an array: there, `undefined`, or never written. -/
inductive Slot
  | entry (file : BatchFileEntry)
  | undefined
  | hole
deriving DecidableEq

structure ManagedTransferTask where
  runtimeId : String
  transferId : String
  sessionId : String
  protocol : String
  direction : Direction
  phase : Phase
  fileName : String
  bytesDone : Nat
  bytesTotal : Nat
  percent : Int
  speed : Option ℚ
  completedAt : Option Int
  error : Option String
  fileIndex : Nat
  totalFiles : Nat
  aggregateBytes : Nat
  aggregateTotal : Nat
  files : List Slot
deriving DecidableEq

structure TransferHistoryItem where
  id : String
  fileName : String
  direction : Direction
  size : Nat
  status : TransferStatus
  timestamp : Int
  error : Option String
  protocol : String
deriving DecidableEq

structure TransferState where
  tasksById : JsObject ManagedTransferTask
  taskIdsBySession : JsObject (List String)
  startErrorsBySession : JsObject String
  error : Option String
  history : List TransferHistoryItem
deriving DecidableEq

structure TransferStartedPayload where
  runtimeId : String
  sessionId : String
  transferId : String
  protocol : String
  direction : Direction

inductive ProgressKind
  | fileStart | progress | fileComplete | batchComplete
deriving DecidableEq

structure ProgressPayload where
  runtimeId : String
  sessionId : String
  transferId : String
  kind : ProgressKind
  protocol : String
  fileName : String
  bytesDone : Nat
  bytesTotal : Nat
  bytesPerSecond : Option JsNumber
  fileIndex : Nat
  totalFiles : Nat
  aggregateBytes : Nat
  aggregateTotal : Nat
  direction : Direction
  fileSuccess : Option Bool
  fileError : Option String

inductive ResultStatus
  | completed | failed | skipped
deriving DecidableEq

structure BatchFileResult where
  fileName : String
  status : ResultStatus
  size : Nat
  error : Option String

structure FinishedPayload where
  runtimeId : String
  sessionId : String
  transferId : String
  protocol : String
  success : Bool
  cancelled : Bool
  error : Option String
  results : Option (List BatchFileResult)

inductive TransferAction
  | taskStarted (payload : TransferStartedPayload) (initialFiles : Option (List BatchFileEntry))
  | taskAcknowledged (payload : TransferStartedPayload)
    (initialFiles : Option (List BatchFileEntry))
  | taskProgress (payload : ProgressPayload)
  | taskFinished (payload : FinishedPayload)
  | taskCancelling (sessionId transferId : String)
  | taskCancelRejected (sessionId transferId : String) (previousPhase : Phase) (error : String)
  | taskStartFailed (sessionId error : String)
  | taskClearError (sessionId : Option String)
  | taskDiscard (sessionId transferId : String)
  | taskDiscardSession (sessionId runtimeId : String)
  | clearHistory

def initialTransferState : TransferState where
  tasksById := .empty
  taskIdsBySession := .empty
  startErrorsBySession := .empty
  error := none
  history := []

def isManagedTransferTerminalPhase (phase : Phase) : Bool :=
  phase = .completed ∨ phase = .failed ∨ phase = .cancelled

def knownHistoryProtocol (protocol : String) : String :=
  if ["ymodem", "xmodem", "zmodem", "sftp"].contains protocol then protocol else "unknown"

def createTask (sessionId runtimeId transferId protocol : String) (direction : Direction) :
    ManagedTransferTask where
  runtimeId := runtimeId
  transferId := transferId
  sessionId := sessionId
  protocol := protocol
  direction := direction
  phase := .preparing
  fileName := ""
  bytesDone := 0
  bytesTotal := 0
  percent := 0
  speed := none
  completedAt := none
  error := none
  fileIndex := 0
  totalFiles := 1
  aggregateBytes := 0
  aggregateTotal := 0
  files := []

/-! ## File lists -/

def Slot.file? : Slot → Option BatchFileEntry
  | .entry file => some file
  | .undefined | .hole => none

/-- `files[index]`, where nothing, a hole and `undefined` read the same. -/
def fileAt (files : List Slot) (index : Nat) : Option BatchFileEntry := files[index]?.bind Slot.file?

/-- `[...files]`. -/
def spreadFiles (files : List Slot) : List Slot :=
  files.map fun slot => if slot = .hole then .undefined else slot

/-- `files[index] = file`: an array grows up to the largest index, and a larger number only names a
property. -/
def setFile (files : List Slot) (index : Nat) (file : BatchFileEntry) : List Slot :=
  if index < files.length then files.set index (.entry file)
  else if index < 2 ^ 32 - 1 then
    files ++ List.replicate (index - files.length) .hole ++ [.entry file]
  else files

/-- `files.map(f)`: holes are passed over, and `f` may throw on `undefined`. -/
def mapFiles (f : BatchFileEntry → BatchFileEntry) (onUndefined : Option Slot) (files : List Slot) :
    Option (List Slot) :=
  files.mapM fun slot => match slot with
    | .entry file => some (.entry (f file))
    | .undefined => onUndefined
    | .hole => some .hole

def mergeInitialFiles (current : List Slot) (initialFiles : Option (List BatchFileEntry)) :
    List Slot :=
  match initialFiles with
  | none | some [] => current
  | some initial =>
    (List.range (max current.length initial.length)).map fun index =>
      match fileAt current index <|> initial[index]? with
      | some file => .entry file
      | none => .undefined

/-- `a || b`, for strings that may be missing. -/
def orElseName (a : Option String) (b : String) : String := (a.filter (· ≠ "")).getD b

def updateFileProjection (current : ManagedTransferTask) (payload : ProgressPayload) : List Slot :=
  if payload.kind = .batchComplete ∨ payload.fileName = "" then current.files
  else
    let index := max 0 payload.fileIndex
    let next := spreadFiles current.files
    let existing := fileAt next index
    let status :=
      if payload.kind = .fileComplete then
        if payload.fileSuccess = some false then .failed else .completed
      else .transferring
    let preserveFailedProgress := payload.kind = .fileComplete ∧ payload.fileSuccess = some false ∧
      payload.bytesTotal ≤ 0
    setFile next index {
      fileName := payload.fileName
      status
      bytesTransferred :=
        if preserveFailedProgress then
          (existing.map BatchFileEntry.bytesTransferred).getD payload.bytesDone
        else payload.bytesDone
      totalBytes :=
        if preserveFailedProgress then (existing.map BatchFileEntry.totalBytes).getD payload.bytesTotal
        else payload.bytesTotal
      error := payload.fileError <|> existing.bind BatchFileEntry.error }

/-- `remainingFiles.findIndex(entry => entry.fileName === name)`, which throws at a missing entry
before the one it looks for. -/
def findFile (name : String) : List Slot → Option (Option Nat)
  | [] => some none
  | .entry file :: rest =>
    if file.fileName = name then some (some 0) else (findFile name rest).map (Option.map (· + 1))
  | .undefined :: _ | .hole :: _ => none

/-- The entry for one result, and the files that are left to match. -/
def projectResult (remainingFiles : List Slot) (result : BatchFileResult) :
    Option (Slot × List Slot) := do
  let existingIndex ← findFile result.fileName remainingFiles
  let existing := existingIndex.bind (fileAt remainingFiles)
  let remaining := match existingIndex with
    | some index => remainingFiles.eraseIdx index
    | none => remainingFiles
  let bytesTransferred :=
    if result.status = .completed then result.size
    else (existing.map BatchFileEntry.bytesTransferred).getD 0
  some (.entry {
    fileName := result.fileName
    status := match result.status with
      | .completed => .completed
      | .failed => .failed
      | .skipped => .skipped
    bytesTransferred
    totalBytes := ((existing.map BatchFileEntry.totalBytes).filter (· > 0)).getD
      (max result.size bytesTransferred)
    error := result.error <|> existing.bind BatchFileEntry.error }, remaining)

def projectResults : List Slot → List BatchFileResult → Option (List Slot)
  | _, [] => some []
  | remainingFiles, result :: results => do
    let (slot, remainingFiles) ← projectResult remainingFiles result
    let slots ← projectResults remainingFiles results
    some (slot :: slots)

def resultProjection (payload : FinishedPayload) (currentFiles : List Slot) :
    Option (Option (List Slot)) :=
  match payload.results with
  | none => some none
  | some results => (projectResults (spreadFiles currentFiles) results).map some

def skipUnfinished (file : BatchFileEntry) : BatchFileEntry :=
  if file.status = .pending ∨ file.status = .transferring then { file with status := .skipped }
  else file

/-! ## The reducer -/

/-- What the code takes from elsewhere: `Date.now()`, and
`Math.floor((bytes_done / bytes_total) * 100)`. -/
structure Clock where
  now : Int
  floorPercent : Nat → Nat → Int

/-- `state.taskIdsBySession[sessionId] ?? []`, used as an array: what `Object.prototype` has under
the name is none, and the call of `filter` throws. -/
def sessionIds (state : TransferState) (sessionId : String) : Option (List String) :=
  match state.taskIdsBySession.get sessionId with
  | .value ids => some ids
  | .inherited => none
  | .undefined => some []

/-- The last of the ids that has a task. -/
def latestOf (state : TransferState) : List String → Option ManagedTransferTask
  | [] => none
  | id :: earlier => match state.tasksById.get id with
    | .value task => some task
    | .inherited => none
    | .undefined => latestOf state earlier

/-- The functions on `Object.prototype` that take arguments have a positive `length`, and
`undefined` as their elements, which then is the name looked up. -/
def latestTaskForSession (state : TransferState) (sessionId : String) :
    Option ManagedTransferTask :=
  match state.taskIdsBySession.get sessionId with
  | .value ids => latestOf state ids.reverse
  | .inherited =>
    if ["toString", "valueOf", "toLocaleString", "__proto__"].contains sessionId then none
    else latestOf state ["undefined"]
  | .undefined => none

/-- The merged files of a task, where one that is over has none left to transfer. -/
def mergedFiles (existing : ManagedTransferTask) (initialFiles : Option (List BatchFileEntry)) :
    Option (List Slot) :=
  let merged := mergeInitialFiles existing.files initialFiles
  if isManagedTransferTerminalPhase existing.phase then mapFiles skipUnfinished none merged
  else some merged

/-- `TASK_STARTED` or `TASK_ACKNOWLEDGED` for a task that is there. -/
def restart (state : TransferState) (existing : ManagedTransferTask)
    (payload : TransferStartedPayload) (initialFiles : Option (List BatchFileEntry)) :
    Option TransferState :=
  if existing.runtimeId ≠ payload.runtimeId then some state
  else do
    let files ← mergedFiles existing initialFiles
    -- without files to merge the array of an unfinished task is the same one
    if ¬ isManagedTransferTerminalPhase existing.phase ∧ initialFiles.getD [] = [] then some state
    else some { state with
      tasksById := state.tasksById.spread.define payload.transferId { existing with
        fileName := orElseName (some existing.fileName)
          (orElseName ((fileAt files 0).map BatchFileEntry.fileName) "")
        totalFiles := max existing.totalFiles files.length
        files } }

/-- An id of the session that keeps its task when a new one starts. -/
def retainedOnStart (state : TransferState) (id : String) : Bool :=
  match state.tasksById.get id with
  | .value task => !isManagedTransferTerminalPhase task.phase
  | .inherited => true
  | .undefined => false

/-- The tasks without those of `ids` that are not retained. -/
def deleteTasks (tasksById : JsObject ManagedTransferTask) (ids retainedIds : List String) :
    JsObject ManagedTransferTask :=
  (ids.filter fun id => ¬ retainedIds.contains id).foldl JsObject.delete tasksById

/-- `TASK_STARTED` for a new task. -/
def start (state : TransferState) (payload : TransferStartedPayload)
    (initialFiles : Option (List BatchFileEntry)) : Option TransferState := do
  let oldIds ← sessionIds state payload.sessionId
  let retainedIds := oldIds.filter (retainedOnStart state)
  let task := createTask payload.sessionId payload.runtimeId payload.transferId payload.protocol
    payload.direction
  let files := mergeInitialFiles task.files initialFiles
  some { state with
    tasksById := (deleteTasks state.tasksById.spread oldIds retainedIds).define payload.transferId
      { task with
        fileName := orElseName ((fileAt files 0).map BatchFileEntry.fileName) task.fileName
        totalFiles := if files.length > 0 then files.length else task.totalFiles
        files }
    taskIdsBySession := state.taskIdsBySession.spread.define payload.sessionId
      (retainedIds ++ [payload.transferId])
    startErrorsBySession := state.startErrorsBySession.spread.delete payload.sessionId
    error := none }

/-- The task and the payload of an event belong together, and the task is not over. -/
def accepts (task : ManagedTransferTask) (runtimeId sessionId protocol : String) : Bool :=
  task.runtimeId = runtimeId ∧ task.sessionId = sessionId ∧ task.protocol = protocol ∧
    ¬ isManagedTransferTerminalPhase task.phase

def progressTask (clock : Clock) (current : ManagedTransferTask) (payload : ProgressPayload) :
    ManagedTransferTask :=
  let isFileStart := payload.kind = .fileStart
  let isFileComplete := payload.kind = .fileComplete
  let isBatchComplete := payload.kind = .batchComplete
  let knownTotal := payload.bytesTotal > 0
  let isLastFile := payload.totalFiles ≤ 1 ∨ payload.fileIndex + 1 ≥ payload.totalFiles
  let percent :=
    if knownTotal then
      if payload.bytesDone ≥ payload.bytesTotal then 100
      else min 99 (max 0 (clock.floorPercent payload.bytesDone payload.bytesTotal))
    else current.percent
  let phase :=
    if current.phase = .cancelling then .cancelling
    else if isBatchComplete then .finalizing
    else if isFileComplete then if isLastFile then .finalizing else .transferring
    else .transferring
  let measuredSpeed := match payload.bytesPerSecond with
    | some (.finite speed) => if speed > 0 then some speed else none
    | _ => none
  let preserveFailedProgress := isFileComplete ∧ payload.fileSuccess = some false ∧ ¬ knownTotal
  { current with
    direction := payload.direction
    phase
    fileName := if isBatchComplete then current.fileName else payload.fileName
    bytesDone :=
      if isBatchComplete ∨ preserveFailedProgress then current.bytesDone else payload.bytesDone
    bytesTotal :=
      if isBatchComplete ∨ preserveFailedProgress then current.bytesTotal else payload.bytesTotal
    percent := if isBatchComplete ∨ preserveFailedProgress then current.percent else percent
    speed := if isFileStart then none else measuredSpeed <|> current.speed
    error :=
      if payload.fileSuccess = some false then payload.fileError.filter (· ≠ "") <|> current.error
      else current.error
    fileIndex := if isBatchComplete then current.fileIndex else payload.fileIndex
    totalFiles :=
      if isBatchComplete then current.totalFiles else max payload.totalFiles current.totalFiles
    aggregateBytes := if isBatchComplete then current.aggregateBytes else payload.aggregateBytes
    aggregateTotal :=
      if isBatchComplete then current.aggregateTotal
      else if payload.aggregateTotal ≠ 0 then payload.aggregateTotal else current.aggregateTotal
    files := updateFileProjection current payload }

/-- The files of a task that is over, where there are no exact results. -/
def finishFiles (completed : Bool) (error : Option String) (files : List Slot) :
    Option (List Slot) :=
  if completed then mapFiles id (some .undefined) files
  else mapFiles (fun file =>
    if file.status = .pending ∨ file.status = .transferring then
      { file with status := .skipped, error := file.error <|> error }
    else file) none files

/-- `files.length === 1 ? files[0].fileName : "batch"`. -/
def historyFileName (files : List Slot) : Option String :=
  if files.length = 1 then (fileAt files 0).map BatchFileEntry.fileName else some "batch"

/-- What `TASK_FINISHED` makes of its task, with the item for the history. -/
def finishTask (clock : Clock) (current : ManagedTransferTask) (payload : FinishedPayload) :
    Option (ManagedTransferTask × TransferHistoryItem) := do
  let phase : Phase :=
    if payload.success then .completed else if payload.cancelled then .cancelled else .failed
  let error :=
    if payload.success then none else payload.error.filter (· ≠ "") <|> current.error
  let exactResults ← resultProjection payload current.files
  let files ← exactResults <|> finishFiles (phase = .completed) error current.files
  let fileName ← historyFileName files
  some ({ current with
    phase
    percent := if payload.success then 100 else current.percent
    speed := if payload.success then current.speed else none
    completedAt := if payload.success then some clock.now else none
    error
    files },
   { id := current.transferId
     fileName
     direction := current.direction
     size := current.aggregateBytes
     status :=
       if payload.success then .completed else if payload.cancelled then .cancelled else .failed
     timestamp := clock.now
     error
     protocol := knownHistoryProtocol current.protocol })

/-- A task of the session, by its id; what `Object.prototype` has under a name is of no session. -/
def taskOf (state : TransferState) (sessionId transferId : String) : Option ManagedTransferTask :=
  match state.tasksById.get transferId with
  | .value task => if task.sessionId = sessionId then some task else none
  | .inherited | .undefined => none

/-- An id of the session whose task is of another runtime. -/
def retainedOnDiscard (state : TransferState) (runtimeId id : String) : Bool :=
  match state.tasksById.get id with
  | .value task => task.runtimeId ≠ runtimeId
  | .inherited | .undefined => true

def discardSession (state : TransferState) (sessionId runtimeId : String) : Option TransferState := do
  let ids ← sessionIds state sessionId
  let retained := ids.filter (retainedOnDiscard state runtimeId)
  if retained.length = ids.length then some state
  else some { state with
    tasksById := deleteTasks state.tasksById.spread ids retained
    taskIdsBySession :=
      if retained ≠ [] then state.taskIdsBySession.spread.define sessionId retained
      else state.taskIdsBySession.spread.delete sessionId
    startErrorsBySession :=
      if retained ≠ [] then state.startErrorsBySession.spread
      else state.startErrorsBySession.spread.delete sessionId }

/-- The state after an action, unless the code throws. -/
def transferReducer (clock : Clock) (state : TransferState) : TransferAction → Option TransferState
  | .taskStarted payload initialFiles =>
    match state.tasksById.get payload.transferId with
    | .value existing => restart state existing payload initialFiles
    | .inherited => some state
    | .undefined => start state payload initialFiles
  | .taskAcknowledged payload initialFiles =>
    match state.tasksById.get payload.transferId with
    | .value existing => restart state existing payload initialFiles
    | .inherited | .undefined => some state
  | .taskProgress payload =>
    match state.tasksById.get payload.transferId with
    | .value current =>
      if accepts current payload.runtimeId payload.sessionId payload.protocol then
        some { state with
          tasksById := state.tasksById.spread.define payload.transferId
            (progressTask clock current payload) }
      else some state
    | .inherited | .undefined => some state
  | .taskFinished payload =>
    match state.tasksById.get payload.transferId with
    | .value current =>
      if accepts current payload.runtimeId payload.sessionId payload.protocol then do
        let (task, item) ← finishTask clock current payload
        some { state with
          tasksById := state.tasksById.spread.define payload.transferId task
          error := task.error
          history := (item :: state.history).take 100 }
      else some state
    | .inherited | .undefined => some state
  | .taskCancelling sessionId transferId =>
    match taskOf state sessionId transferId with
    | some current =>
      if isManagedTransferTerminalPhase current.phase then some state
      else some { state with
        tasksById := state.tasksById.spread.define transferId
          { current with phase := .cancelling, speed := none, error := none } }
    | none => some state
  | .taskCancelRejected sessionId transferId previousPhase error =>
    match taskOf state sessionId transferId with
    | some current =>
      if current.phase ≠ .cancelling then some state
      else some { state with
        tasksById := state.tasksById.spread.define transferId
          { current with phase := previousPhase, error := some error }
        error := some error }
    | none => some state
  | .taskStartFailed sessionId error =>
    some { state with
      startErrorsBySession := state.startErrorsBySession.spread.define sessionId error
      error := some error }
  | .taskClearError sessionId =>
    match sessionId.filter (· ≠ "") with
    | none =>
      some { state with
        tasksById := state.tasksById.mapValues fun task => { task with error := none }
        startErrorsBySession := .empty
        error := none }
    | some sessionId =>
      let startErrorsBySession := state.startErrorsBySession.spread.delete sessionId
      match latestTaskForSession state sessionId with
      | some latest =>
        if latest.error.getD "" = "" then some { state with startErrorsBySession, error := none }
        else some { state with
          startErrorsBySession
          tasksById := state.tasksById.spread.define latest.transferId { latest with error := none }
          error := none }
      | none => some { state with startErrorsBySession, error := none }
  | .taskDiscard sessionId transferId =>
    match taskOf state sessionId transferId with
    | some _ => do
      let ids ← sessionIds state sessionId
      let remaining := ids.filter (· ≠ transferId)
      some { state with
        tasksById := state.tasksById.spread.delete transferId
        taskIdsBySession :=
          if remaining.length > 0 then state.taskIdsBySession.spread.define sessionId remaining
          else state.taskIdsBySession.spread.delete sessionId }
    | none => some state
  | .taskDiscardSession sessionId runtimeId => discardSession state sessionId runtimeId
  | .clearHistory => some { state with history := [] }

end TauTerm.Tasks
