import Mathlib
import TauTerm.Lib.Run

/-!
# The log engine

`update_config` and `consumer_loop` of `kernel/log_engine.rs`, with `handle_command`. Every lock
section, store to `SESSION_LOG_ENABLED` and send is a step, and any number of calls take their steps
in any order with the consumer and with whatever else sends log entries. The consumer takes an entry
and handles it in one step: what handling reads and writes, only the consumer touches. No section
of the lock on the configuration panics, so it is not poisoned. Of a log writer it only matters here
whether there is one.
-/

namespace TauTerm.Kernel

open Lib

def LOG_QUEUE_CAPACITY : Nat := 256
def MIN_FILE_SIZE : Nat := 1024 * 1024
def MAX_FILE_SIZE : Nat := 100 * 1024 * 1024
def MIN_BUFFER_SIZE : Nat := 1024
def MAX_BUFFER_SIZE : Nat := 64 * 1024
def MIN_FLUSH_INTERVAL_MS : Nat := 100
def MAX_FLUSH_INTERVAL_MS : Nat := 2000
def MIN_RETENTION_DAYS : Nat := 1
def MAX_RETENTION_DAYS : Nat := 365

structure LogConfig where
  sessionEnabled : Bool := true
  logDir : String := ""
  fileMaxSize : Nat := 10 * 1024 * 1024
  bufferSize : Nat := 4096
  flushIntervalMs : Nat := 500
  retentionDays : Nat := 7
  deriving DecidableEq

def LogConfig.validate (config : LogConfig) : Except String Unit :=
  if ¬ (MIN_FILE_SIZE ≤ config.fileMaxSize ∧ config.fileMaxSize ≤ MAX_FILE_SIZE) then
    .error s!"file_max_size must be between {MIN_FILE_SIZE} and {MAX_FILE_SIZE} bytes"
  else if ¬ (MIN_BUFFER_SIZE ≤ config.bufferSize ∧ config.bufferSize ≤ MAX_BUFFER_SIZE) then
    .error s!"buffer_size must be between {MIN_BUFFER_SIZE} and {MAX_BUFFER_SIZE} bytes"
  else if ¬ (MIN_FLUSH_INTERVAL_MS ≤ config.flushIntervalMs ∧
      config.flushIntervalMs ≤ MAX_FLUSH_INTERVAL_MS) then
    .error s!"flush_interval_ms must be between {MIN_FLUSH_INTERVAL_MS} and {MAX_FLUSH_INTERVAL_MS}"
  else if ¬ (MIN_RETENTION_DAYS ≤ config.retentionDays ∧
      config.retentionDays ≤ MAX_RETENTION_DAYS) then
    .error s!"retention_days must be between {MIN_RETENTION_DAYS} and {MAX_RETENTION_DAYS}"
  else .ok ()

structure LogConfigUpdate where
  sessionEnabled : Option Bool := none
  fileMaxSize : Option Nat := none
  bufferSize : Option Nat := none
  flushIntervalMs : Option Nat := none
  retentionDays : Option Nat := none
  deriving DecidableEq

/-- The configuration with the fields that the update sets. -/
def LogConfigUpdate.applyTo (update : LogConfigUpdate) (config : LogConfig) : LogConfig where
  sessionEnabled := update.sessionEnabled.getD config.sessionEnabled
  logDir := config.logDir
  fileMaxSize := update.fileMaxSize.getD config.fileMaxSize
  bufferSize := update.bufferSize.getD config.bufferSize
  flushIntervalMs := update.flushIntervalMs.getD config.flushIntervalMs
  retentionDays := update.retentionDays.getD config.retentionDays

inductive LogCommand where
  | startSession (sessionId : String)
  | stopSession (sessionId : String)
  | stopAllSessions
  | shutdown
  | clearAll
  deriving DecidableEq

inductive LogEntry where
  | command (command : LogCommand)
  | sessionData (sessionId : String)
  | systemEvent
  deriving DecidableEq

/-! ## The consumer -/

/-- What is up to the file system and to the one who asked: whether `LogWriter::new` succeeds, whether
the response still reaches somebody, which writers fail, and what comes of `clear_all`. -/
structure WriterOutcome where
  opened : Except String Unit := .ok ()
  answered : Bool := true
  failed : Finset String := ∅
  cleared : Except String Unit := .ok ()

/-- The sessions that have a writer, and those that `ACTIVE_SESSION_LOGS` and `active_logs` have. -/
structure LogWriters where
  writers : Finset String := ∅
  active : Finset String := ∅
  activeLogs : Finset String := ∅
  deriving DecidableEq

namespace LogWriters

def insert (w : LogWriters) (sessionId : String) : LogWriters :=
  ⟨Insert.insert sessionId w.writers, Insert.insert sessionId w.active,
    Insert.insert sessionId w.activeLogs⟩

def remove (w : LogWriters) (sessionIds : Finset String) : LogWriters :=
  ⟨w.writers \ sessionIds, w.active \ sessionIds, w.activeLogs \ sessionIds⟩

/-- The writers, the response if there is one, and whether the loop ends. -/
def handleCommand (w : LogWriters) (config : LogConfig) (outcome : WriterOutcome) :
    LogCommand → LogWriters × Option (Except String Unit) × Bool
  | .startSession sessionId =>
    if !config.sessionEnabled then (w, some (.error "Session Data Log is disabled in Settings"), false)
    else if sessionId ∈ w.writers then
      (w, some (.error "Session Data Log is already active"), false)
    else match outcome.opened with
      | .ok () =>
        if outcome.answered then (w.insert sessionId, some (.ok ()), false)
        else ((w.insert sessionId).remove {sessionId}, some (.ok ()), false)
      | .error error => (w, some (.error s!"无法创建日志文件: {error}"), false)
  | .stopSession sessionId => (w.remove {sessionId}, none, false)
  | .stopAllSessions => ({}, none, false)
  | .shutdown => ({ w with active := ∅, activeLogs := ∅ }, none, true)
  -- the writers are closed and opened again
  | .clearAll => (w.remove (w.writers ∩ outcome.failed), some outcome.cleared, false)

/-- An entry that is no command. -/
def handleData (w : LogWriters) (config : LogConfig) (outcome : WriterOutcome)
    (sessionId : String) : LogWriters :=
  if !config.sessionEnabled then w
  else if sessionId ∈ w.writers ∧ sessionId ∈ outcome.failed then w.remove {sessionId}
  else w

end LogWriters

/-! ## The engine -/

/-- Where a call of `update_config` stands: what it does next, with its locals. -/
inductive CallPhase where
  | reading
  | disabling (previous next : LogConfig)
  | sending (previous next : LogConfig)
  | restoring (previous : LogConfig)
  | writing (previous next : LogConfig)
  | storing (next : LogConfig)
  | returned (result : Except String Unit)
  deriving DecidableEq

structure UpdateCall where
  update : LogConfigUpdate
  phase : CallPhase := .reading
  deriving DecidableEq

/-- `snapshot` is the `current_config` of the consumer from its lock section to the end of the turn.
`stores` and `writes` are history, latest first: what the calls have stored to the flag and which
of them have written the configuration. No step reads them. -/
structure LogEngine where
  config : LogConfig
  enabled : Bool
  queue : List LogEntry := []
  receiver : Bool := true
  snapshot : Option LogConfig := none
  writers : LogWriters := {}
  calls : List UpdateCall := []
  stores : List (Nat × Bool) := []
  writes : List (Nat × LogConfigUpdate) := []

namespace LogEngine

def new (config : LogConfig) : LogEngine := { config, enabled := config.sessionEnabled }

def setPhase (s : LogEngine) (i : Nat) (phase : CallPhase) : LogEngine :=
  { s with calls := s.calls.modify i fun call => { call with phase } }

/-- `SESSION_LOG_ENABLED.store(value, ..)` in call `i`. -/
def store (s : LogEngine) (i : Nat) (value : Bool) : LogEngine :=
  { s with enabled := value, stores := (i, value) :: s.stores }

/-- `try_send`, if it succeeds. -/
def trySend (s : LogEngine) (entry : LogEntry) : Option LogEngine :=
  if s.receiver ∧ s.queue.length < LOG_QUEUE_CAPACITY then
    some { s with queue := s.queue ++ [entry] }
  else none

/-- The next step of call `i`. -/
def callStep (s : LogEngine) (i : Nat) (call : UpdateCall) : LogEngine :=
  match call.phase with
  | .reading =>
    let previous := s.config
    let next := call.update.applyTo previous
    match next.validate with
    | .error error => s.setPhase i (.returned (.error error))
    | .ok () =>
      if previous.sessionEnabled && !next.sessionEnabled then s.setPhase i (.disabling previous next)
      else s.setPhase i (.writing previous next)
  | .disabling previous next => (s.store i false).setPhase i (.sending previous next)
  | .sending previous next =>
    match s.trySend (.command .stopAllSessions) with
    | some s' => s'.setPhase i (.writing previous next)
    | none => s.setPhase i (.restoring previous)
  | .restoring previous =>
    (s.store i previous.sessionEnabled).setPhase i
      (.returned (.error "log consumer is unavailable while disabling Session Data Log"))
  | .writing _ next =>
    { s with config := next, writes := (i, call.update) :: s.writes }.setPhase i (.storing next)
  | .storing next => (s.store i next.sessionEnabled).setPhase i (.returned (.ok ()))
  | .returned _ => s

/-- The consumer, waiting with its snapshot, takes the first entry and goes on to its next turn. At
the end of the loop the writers and the channel are dropped. -/
def receive (s : LogEngine) (config : LogConfig) (outcome : WriterOutcome) : LogEngine :=
  match s.queue with
  | [] => s
  | entry :: queue =>
    let s := { s with queue, snapshot := none }
    match entry with
    | .command command =>
      let (writers, _, stop) := s.writers.handleCommand config outcome command
      if stop then
        { s with writers := { writers with writers := ∅ }, queue := [], receiver := false }
      else { s with writers }
    | .sessionData sessionId => { s with writers := s.writers.handleData config outcome sessionId }
    | .systemEvent => s

end LogEngine

inductive LogAction where
  | update (update : LogConfigUpdate)
  | call (i : Nat)
  | send (entry : LogEntry)
  | readConfig
  | receive (outcome : WriterOutcome)
  | timeout

/-- An action that cannot be taken changes nothing. -/
def LogEngine.step (s : LogEngine) : LogAction → LogEngine
  | .update update => { s with calls := s.calls ++ [{ update }] }
  | .call i => (s.calls[i]?).elim s (s.callStep i)
  | .send entry => (s.trySend entry).getD s
  | .readConfig => if s.receiver ∧ s.snapshot = none then { s with snapshot := some s.config } else s
  | .receive outcome => s.snapshot.elim s fun config => s.receive config outcome
  | .timeout => { s with snapshot := none }

/-! ## What serialised updates are -/

/-- A field that updates can set. -/
structure ConfigField (α : Type) where
  get : LogConfig → α
  new : LogConfigUpdate → Option α
  get_applyTo : ∀ update config, get (update.applyTo config) = (new update).getD (get config)

namespace ConfigField

def sessionEnabled : ConfigField Bool :=
  ⟨LogConfig.sessionEnabled, LogConfigUpdate.sessionEnabled, fun _ _ => rfl⟩

def fileMaxSize : ConfigField Nat :=
  ⟨LogConfig.fileMaxSize, LogConfigUpdate.fileMaxSize, fun _ _ => rfl⟩

def bufferSize : ConfigField Nat :=
  ⟨LogConfig.bufferSize, LogConfigUpdate.bufferSize, fun _ _ => rfl⟩

def flushIntervalMs : ConfigField Nat :=
  ⟨LogConfig.flushIntervalMs, LogConfigUpdate.flushIntervalMs, fun _ _ => rfl⟩

def retentionDays : ConfigField Nat :=
  ⟨LogConfig.retentionDays, LogConfigUpdate.retentionDays, fun _ _ => rfl⟩

/-- The field holds what some update set it to: the one that set it, if there is only one, and the
initial value if there is none. -/
structure Merged {α : Type} (field : ConfigField α) (initial : LogConfig) (s : LogEngine) : Prop where
  some_update : (∃ call ∈ s.calls, field.new call.update ≠ none) →
    ∃ call ∈ s.calls, field.new call.update = some (field.get s.config)
  only_update : ∀ i call v, s.calls[i]? = some call → field.new call.update = some v →
    (∀ (j : Nat) other, s.calls[j]? = some other → j ≠ i → field.new other.update = none) →
    field.get s.config = v
  no_update : (∀ call ∈ s.calls, field.new call.update = none) →
    field.get s.config = field.get initial

end ConfigField

/-- What the flag would be without the stores of call `i`. -/
def LogEngine.enabledWithout (s : LogEngine) (initial : LogConfig) (i : Nat) : Bool :=
  ((s.stores.find? fun p => p.1 ≠ i).map Prod.snd).getD initial.sessionEnabled

structure Serialised (initial : LogConfig) (s : LogEngine) : Prop where
  merged : (∀ call ∈ s.calls, call.phase = .returned (.ok ())) →
    ConfigField.sessionEnabled.Merged initial s ∧ ConfigField.fileMaxSize.Merged initial s ∧
      ConfigField.bufferSize.Merged initial s ∧ ConfigField.flushIntervalMs.Merged initial s ∧
      ConfigField.retentionDays.Merged initial s
  failed : ∀ (i : Nat) call error, s.calls[i]? = some call →
    call.phase = .returned (.error error) →
    (∀ w ∈ s.writes, w.1 ≠ i) ∧ s.enabled = s.enabledWithout initial i
  stopped : ∀ (i : Nat) call, s.calls[i]? = some call → call.phase = .returned (.ok ()) →
    call.update.sessionEnabled = some false →
    ∃ later earlier, s.writes = later ++ (i, call.update) :: earlier ∧
      ((∀ w ∈ later, w.2.sessionEnabled ≠ some true) → (∀ c, .command c ∉ s.queue) →
        s.writers.writers = ∅)

/-! ## When they are -/

/-- The call has sent `StopAllSessions`, and is about to write. -/
def CallPhase.StopSent : CallPhase → Bool
  | .writing previous next => previous.sessionEnabled && !next.sessionEnabled
  | _ => false

/-- The call sets `session_enabled`, and has begun to but not yet returned. -/
def UpdateCall.Switching (call : UpdateCall) : Bool :=
  call.update.sessionEnabled.isSome &&
    match call.phase with
    | .sending _ _ | .restoring _ | .storing _ => true
    | phase => phase.StopSent

/-- What the next step of a call must find: one that writes finds the fields that it does not set as
it read them, and does not turn off what was turned on behind its back; the flag is stored while
the configuration says the same; and one that fails finds logging enabled, and nobody else
switching. -/
def CallUndisturbed (s : LogEngine) (i : Nat) (update : LogConfigUpdate) : CallPhase → Prop
  | .writing previous next => update.applyTo s.config = next ∧
    (s.config.sessionEnabled → !next.sessionEnabled → previous.sessionEnabled)
  | .storing next => next.sessionEnabled = s.config.sessionEnabled
  | .restoring _ => s.config.sessionEnabled ∧
    ∀ j < s.calls.length, j ≠ i → ∀ other ∈ s.calls[j]?, ¬ other.Switching
  | .reading | .disabling _ _ | .sending _ _ | .returned _ => True

/-- No `StartSession` is taken with an old snapshot when the `StopAllSessions` has been taken
before. -/
def TakeUndisturbed (s : LogEngine) (config : LogConfig) : List LogEntry → Prop
  | .command (.startSession _) :: queue => config.sessionEnabled →
    .command .stopAllSessions ∈ queue ∨
      s.config.sessionEnabled ∧ ∀ call ∈ s.calls, ¬ call.phase.StopSent
  | _ => True

def Undisturbed (s : LogEngine) : LogAction → Prop
  | .call i => ∀ call ∈ s.calls[i]?, CallUndisturbed s i call.update call.phase
  | .receive _ => ∀ config ∈ s.snapshot, TakeUndisturbed s config s.queue
  | .update _ | .send _ | .readConfig | .timeout => True

instance (s : LogEngine) (i : Nat) (update : LogConfigUpdate) :
    ∀ phase, Decidable (CallUndisturbed s i update phase)
  | .writing _ _ => inferInstanceAs (Decidable (_ ∧ _))
  | .storing _ => inferInstanceAs (Decidable (_ = _))
  | .restoring _ => inferInstanceAs (Decidable (_ ∧ _))
  | .reading | .disabling _ _ | .sending _ _ | .returned _ => .isTrue trivial

instance (s : LogEngine) (config : LogConfig) : ∀ queue, Decidable (TakeUndisturbed s config queue)
  | .command (.startSession _) :: _ => inferInstanceAs (Decidable (_ → _))
  | [] | .command (.stopSession _) :: _ | .command .stopAllSessions :: _ |
    .command .shutdown :: _ | .command .clearAll :: _ | .sessionData _ :: _ | .systemEvent :: _ =>
    .isTrue trivial

instance (s : LogEngine) : ∀ action, Decidable (Undisturbed s action)
  | .call i => inferInstanceAs (Decidable (∀ call ∈ s.calls[i]?, _))
  | .receive _ => inferInstanceAs (Decidable (∀ config ∈ s.snapshot, _))
  | .update _ | .send _ | .readConfig | .timeout => .isTrue trivial

end TauTerm.Kernel
