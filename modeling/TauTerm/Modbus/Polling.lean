import Mathlib
import TauTerm.Lib.RustText
import TauTerm.Modbus.Client

/-!
# The watch scheduler

Threads that call `set_rows`, `start` and `stop`, and the polling workers that `start` has spawned. A
step is what one thread or one worker does up to its next lock, flag access or transaction; a step
that cannot be taken leaves the state as it is.
-/

namespace TauTerm.Modbus.Polling

inductive ValueType where
  | bool
  | uint16
  | int16
  | uint32
  | int32
  | float32
  | uint64
  | int64
  | float64
  | hex
  | binary
  | ascii
  | utf8
  deriving DecidableEq

/-- What of a format says how many registers it needs. -/
structure ValueFormat where
  valueType : ValueType
  bit : Option UInt8
  deriving DecidableEq

def requiredRegisters (format : ValueFormat) : Option UInt16 :=
  if format.bit.isSome then some 1
  else match format.valueType with
    | .bool | .uint16 | .int16 => some 1
    | .uint32 | .int32 | .float32 => some 2
    | .uint64 | .int64 | .float64 => some 4
    | .hex | .binary | .ascii | .utf8 => none

structure WatchRow where
  id : String
  enabled : Bool
  unitId : UInt8
  request : ModbusRequest
  periodMs : Nat
  format : Option ValueFormat
  deriving DecidableEq

def validateFormat (row : WatchRow) : Except String Unit :=
  match row.request with
  | .readBits .. =>
    if row.format.isSome then
      .error s!"watch row {row.id} bit area must not use register value format"
    else .ok ()
  | .readRegisters _ _ quantity =>
    match row.format with
    | none => .error s!"watch row {row.id} register area requires a value format"
    | some format =>
      match requiredRegisters format with
      | some required =>
        if quantity ≠ required then
          .error s!"watch row {row.id} value format requires exactly {required} register(s)"
        else .ok ()
      | none => .ok ()
  | _ => .error s!"watch row {row.id} must use a standard read area"

def validateRow (mode : ModbusMode) (ids : List String) (row : WatchRow) : Except String Unit := do
  if Lib.Rust.trim row.id.toList = [] then .error "watch row id cannot be empty"
  if row.id ∈ ids then .error s!"duplicate watch row id: {row.id}"
  (validateClientUnitId mode row.unitId).mapError fun error =>
    s!"watch row {row.id} invalid target: {error}"
  if row.periodMs < 20 ∨ 86400000 < row.periodMs then
    .error s!"watch row {row.id} period must be 20..=86400000 ms"
  let _ ← (encodeRequest row.request).mapError fun error =>
    s!"watch row {row.id} invalid request: {error}"
  validateFormat row

/-- The rows in order, each after those whose ids have been seen. -/
def validateRowsFrom (mode : ModbusMode) : List String → List WatchRow → Except String Unit
  | _, [] => .ok ()
  | ids, row :: rows => do
    validateRow mode ids row
    validateRowsFrom mode (row.id :: ids) rows

def validateRows (rows : List WatchRow) (mode : ModbusMode) : Except String Unit :=
  validateRowsFrom mode [] rows

/-! ## The state -/

/-- A worker's table of the times at which rows are due. -/
abbrev Due := String → Option Nat

/-- The rows of a snapshot that a worker still has before it. -/
structure Pass where
  rows : List WatchRow
  now : Nat
  next : Due

/-- Where a worker is. It is `executing` while the transaction is in flight. -/
inductive WorkerPhase (Value : Type) where
  | checking (next : Due)
  | reading (next : Due)
  | passing (pass : Pass)
  | executing (row : WatchRow) (pass : Pass)
  | inserting (row : WatchRow) (value : Value) (pass : Pass)
  | finished

/-- Where the call of a thread is, after what it has already done. -/
inductive CallPhase where
  | idle
  /-- `set_rows` has cut the values down and does not have the lock of the rows. -/
  | replacing (rows : List WatchRow)
  /-- `start` has set the flag. -/
  | spawning
  | storing (worker : Nat)
  /-- `stop` has cleared the flag. -/
  | taking
  | joining (worker : Nat)

/-- `lock` is the thread that holds the handle's lock while it joins: the guard lives as long as the
`if let`. A stop that has returned sets `stopped`, the next start clears it; `late` is set if a worker
writes a value in between. -/
structure WatchScheduler (Value : Type) where
  rows : List WatchRow
  values : String → Option Value
  running : Bool
  handle : Option Nat
  lock : Option Nat
  workers : List (WorkerPhase Value)
  calls : Nat → CallPhase
  stopped : Bool
  late : Bool

inductive Action (Result : Type) where
  | setRows (thread : Nat) (rows : List WatchRow)
  | replaceRows (thread : Nat)
  | values (thread : Nat)
  | startSwap (thread : Nat)
  | spawn (thread : Nat)
  | storeHandle (thread : Nat)
  | stopStore (thread : Nat)
  | takeHandle (thread : Nat)
  | join (thread : Nat)
  /-- A step of a worker; the clock and the transaction's result are for those that ask. -/
  | worker (id : Nat) (now : Nat) (result : Result)

namespace WatchScheduler

variable {Result Value : Type}

def new : WatchScheduler Value :=
  ⟨[], fun _ => none, false, none, none, [], fun _ => .idle, false, false⟩

def setCall (s : WatchScheduler Value) (thread : Nat) (phase : CallPhase) : WatchScheduler Value :=
  { s with calls := Function.update s.calls thread phase }

def setWorker (s : WatchScheduler Value) (worker : Nat) (phase : WorkerPhase Value) :
    WatchScheduler Value :=
  { s with workers := s.workers.set worker phase }

/-- Only the values of these rows are kept. -/
def retain (s : WatchScheduler Value) (rows : List WatchRow) : WatchScheduler Value :=
  { s with values := fun id => if id ∈ rows.map WatchRow.id then s.values id else none }

def insert (s : WatchScheduler Value) (row : WatchRow) (value : Value) : WatchScheduler Value :=
  { s with
    values := Function.update s.values row.id (some value)
    late := s.late || s.stopped }

/-- A row is polled if it is enabled and due. -/
def polled (row : WatchRow) (pass : Pass) : Bool :=
  row.enabled && decide ((pass.next row.id).getD pass.now ≤ pass.now)

/-- The next step of a worker. `watchValue` makes a value of a row and the result of its transaction. -/
def workerStep (watchValue : WatchRow → Result → Value) (s : WatchScheduler Value) (worker : Nat)
    (now : Nat) (result : Result) : WorkerPhase Value → WatchScheduler Value
  | .checking next => s.setWorker worker (if s.running then .reading next else .finished)
  | .reading next =>
    let next := fun id => if id ∈ s.rows.map WatchRow.id then next id else none
    s.setWorker worker (.passing ⟨s.rows, now, next⟩)
  | .passing ⟨[], _, next⟩ => s.setWorker worker (.checking next)
  | .passing ⟨row :: rows, at_, next⟩ =>
    if polled row ⟨rows, at_, next⟩ then s.setWorker worker (.executing row ⟨rows, at_, next⟩)
    else s.setWorker worker (.passing ⟨rows, at_, next⟩)
  | .executing row pass => s.setWorker worker (.inserting row (watchValue row result) pass)
  | .inserting row value ⟨rows, at_, next⟩ =>
    (s.insert row value).setWorker worker
      (.passing ⟨rows, at_, Function.update next row.id (some (now + row.periodMs))⟩)
  | .finished => s

/-- `set_rows` up to its first lock. -/
def setRows (mode : ModbusMode) (s : WatchScheduler Value) (thread : Nat) (rows : List WatchRow) :
    WatchScheduler Value :=
  match validateRows rows mode with
  | .error _ => s
  | .ok () => (s.retain rows).setCall thread (.replacing rows)

def step (mode : ModbusMode) (watchValue : WatchRow → Result → Value) (s : WatchScheduler Value) :
    Action Result → WatchScheduler Value
  | .setRows thread rows =>
    match s.calls thread with
    | .idle => s.setRows mode thread rows
    | _ => s
  | .replaceRows thread =>
    match s.calls thread with
    | .replacing rows => { s with rows }.setCall thread .idle
    | _ => s
  | .values _ => s
  | .startSwap thread =>
    match s.calls thread with
    | .idle =>
      let old := s.running
      let s := { s with running := true, stopped := false }
      if old then s else s.setCall thread .spawning
    | _ => s
  | .spawn thread =>
    match s.calls thread with
    | .spawning =>
      { s with workers := s.workers ++ [WorkerPhase.checking fun _ => none] }.setCall thread
        (.storing s.workers.length)
    | _ => s
  | .storeHandle thread =>
    match s.calls thread, s.lock with
    | .storing worker, none => { s with handle := some worker }.setCall thread .idle
    | _, _ => s
  | .stopStore thread =>
    match s.calls thread with
    | .idle => { s with running := false }.setCall thread .taking
    | _ => s
  | .takeHandle thread =>
    match s.calls thread, s.lock with
    | .taking, none =>
      match s.handle with
      | some worker =>
        { s with handle := none, lock := some thread }.setCall thread (.joining worker)
      | none => { s with stopped := true }.setCall thread .idle
    | _, _ => s
  | .join thread =>
    match s.calls thread with
    | .joining worker =>
      match s.workers[worker]? with
      | some .finished => { s with lock := none, stopped := true }.setCall thread .idle
      | _ => s
    | _ => s
  | .worker id now result =>
    match s.workers[id]? with
    | some phase => s.workerStep watchValue id now result phase
    | none => s

end WatchScheduler

end TauTerm.Modbus.Polling
