import Mathlib
import TauTerm.Lib.Replay
import TauTerm.Rtt.Decoder

/-!
# The SystemView trace state

`TraceState` of `plugins/rtt/systemview.rs`: it charges the cycles of the trace to
tasks as the packets arrive, and emits an event for each packet.
`SystemViewExecutionState` follows the emitted events; the trace state keeps one
for the events that have left its history.

An `Instant` is its distance in nanoseconds from a fixed point. Counters are
natural numbers that saturate.
-/

namespace TauTerm.Rtt

open Lib

def MAX_EVENT_HISTORY : Nat := 8192

def TARGET_DROP_RATE_WINDOW : Nat := 2000000000

def TARGET_DROP_RATE_BUCKET : Nat := 100000000

/-- `u64::saturating_add`. -/
def saturatingAdd64 (a b : Nat) : Nat := min (a + b) (2 ^ 64 - 1)

/-- `u32::saturating_add`. -/
def saturatingAdd32 (a b : Nat) : Nat := min (a + b) (2 ^ 32 - 1)

/-! ## Events -/

structure SystemViewEvent where
  sequence : Nat
  eventId : UInt32
  kind : String
  targetCycles : Nat
  deltaCycles : UInt32
  contextId : Option UInt32
  value : Option UInt64
  text : Option (List Char)
  syncBoundary : Bool
  deriving DecidableEq

def eventKind (eventId : UInt32) : String :=
  match eventId with
  | 0 => "nop"
  | 1 => "overflow"
  | 2 => "isr_enter"
  | 3 => "isr_exit"
  | 4 => "task_start_exec"
  | 5 => "task_stop_exec"
  | 6 => "task_start_ready"
  | 7 => "task_stop_ready"
  | 8 => "task_create"
  | 9 => "task_info"
  | 10 => "trace_start"
  | 11 => "trace_stop"
  | 12 => "systime_cycles"
  | 13 => "systime_us"
  | 14 => "system_description"
  | 15 => "marker_start"
  | 16 => "marker_stop"
  | 17 => "idle"
  | 18 => "isr_to_scheduler"
  | 19 => "timer_enter"
  | 20 => "timer_exit"
  | 21 => "stack_info"
  | 22 => "module_description"
  | 23 => "data_sample"
  | 24 => "init"
  | 25 => "resource_name"
  | 26 => "formatted_print"
  | 27 => "module_count"
  | 28 => "end_call"
  | 29 => "task_terminate"
  | 31 => "extended"
  | _ => "user_event"

namespace ParsedPacket

/-- The field that becomes the `context_id` of the event. -/
def contextId (p : ParsedPacket) : Option UInt32 :=
  if p.eventId ∈ [2, 4, 6, 7, 8, 9, 15, 16, 19, 21, 23, 25, 29] then p.fields[0]? else none

/-- The dropped events that an overflow packet reports. -/
def dropped (p : ParsedPacket) : UInt64 := (p.fields[0]?.getD 0).toUInt64

/-- The ids that the match of `apply_with_loss_tracking` lists. -/
def named (p : ParsedPacket) : Bool :=
  p.eventId ∈ [1, 2, 3, 4, 5, 6, 7, 8, 9, 10, 11, 12, 13, 14, 15, 16, 17, 18, 19, 21, 23, 24, 25, 27,
    29, 31]

def value (p : ParsedPacket) : Option UInt64 :=
  if p.eventId = 1 then some p.dropped
  else if p.eventId = 7 ∨ p.eventId = 23 then p.fields[1]?.map (·.toUInt64)
  else if p.eventId = 12 ∨ p.eventId = 27 ∨ p.eventId = 31 then p.fields[0]?.map (·.toUInt64)
  else if p.eventId = 13 then
    some ((p.fields[0]?.getD 0).toUInt64 ||| ((p.fields[1]?.getD 0).toUInt64 <<< (32 : UInt64)))
  else if p.eventId = 21 then p.fields[3]?.map (·.toUInt64)
  else if p.named then none
  else p.fields[0]?.map (·.toUInt64)

def eventText (p : ParsedPacket) : Option (List Char) :=
  if !p.named && p.text == some [] then none else p.text

end ParsedPacket

/-! ## The execution state of the events -/

structure SystemViewExecutionState where
  activeTaskId : Option UInt32 := none
  interruptedTaskId : Option UInt32 := none
  interruptedIdle : Bool := false
  irqDepth : Nat := 0
  idleActive : Bool := false
  deriving DecidableEq

namespace SystemViewExecutionState

def reset : SystemViewExecutionState := {}

/-- The match of `apply_event`. -/
def applyEventId (x : SystemViewExecutionState) (event : SystemViewEvent) :
    SystemViewExecutionState :=
  match event.eventId with
  | 1 | 10 | 11 | 18 => reset
  | 2 =>
    let y := if x.irqDepth = 0 then
        { x with interruptedTaskId := x.activeTaskId, activeTaskId := none,
                 interruptedIdle := x.idleActive, idleActive := false }
      else x
    { y with irqDepth := saturatingAdd32 y.irqDepth 1 }
  | 3 =>
    let y := { x with irqDepth := x.irqDepth - 1 }
    if y.irqDepth = 0 then
      { y with activeTaskId := y.interruptedTaskId, interruptedTaskId := none,
               idleActive := y.interruptedTaskId.isNone && y.interruptedIdle,
               interruptedIdle := false }
    else y
  | 4 => { reset with activeTaskId := event.contextId }
  | 5 => { x with activeTaskId := none }
  | 17 => { x with activeTaskId := none, idleActive := true }
  | 29 =>
    let y := if event.contextId = x.activeTaskId then { x with activeTaskId := none } else x
    if event.contextId = y.interruptedTaskId then { y with interruptedTaskId := none } else y
  | _ => x

def applyEvent (x : SystemViewExecutionState) (event : SystemViewEvent) :
    SystemViewExecutionState :=
  applyEventId (if event.syncBoundary then reset else x) event

end SystemViewExecutionState

/-! ## The trace state -/

inductive SystemViewPhase where
  | idle
  | recording
  | stopped
  deriving DecidableEq

structure TaskState where
  name : Option (List Char) := none
  priority : Option UInt32 := none
  runtimeCycles : Nat := 0
  switches : Nat := 0
  terminated : Bool := false
  deriving DecidableEq

/-- A `BTreeMap` of tasks: its entries in the order of their ids. -/
abbrev Tasks := List (UInt32 × TaskState)

/-- Change the entry of `id` in place, `entry(id).or_default()`. -/
def Tasks.update (id : UInt32) (f : TaskState → TaskState) : Tasks → Tasks
  | [] => [(id, f {})]
  | (key, task) :: tasks =>
    if id < key then (id, f {}) :: (key, task) :: tasks
    else if id = key then (key, f task) :: tasks
    else (key, task) :: Tasks.update id f tasks

structure TraceState where
  generation : Nat
  channelIndex : Nat
  controlAvailable : Bool
  phase : SystemViewPhase := .idle
  eventCount : Nat := 0
  targetOverflowPackets : Nat := 0
  targetDroppedEvents : Nat := 0
  targetDropSamples : List (Nat × Nat) := []
  decoderErrors : Nat := 0
  presentationDroppedEvents : Nat := 0
  clearedThroughSequence : Nat := 0
  sysFreqHz : Option UInt32 := none
  cpuFreqHz : Option UInt32 := none
  ramBase : Option UInt32 := none
  idShift : Option UInt32 := none
  systemDescription : List (List Char) := []
  windowStartCycles : Nat := 0
  lastTargetCycles : Nat := 0
  activeTask : Option (UInt32 × Nat) := none
  interruptedTask : Option UInt32 := none
  isrDepth : Nat := 0
  tasks : Tasks := []
  historyEntryState : SystemViewExecutionState := {}
  events : List SystemViewEvent := []
  nextEventSequence : Nat := 1

/-- `target_drop_samples` after `dropped` more events at `now`. -/
def trackTargetLoss (samples : List (Nat × Nat)) (now dropped : Nat) : List (Nat × Nat) :=
  let samples :=
    match samples.getLast? with
    | some (startedAt, bucketDrops) =>
      if now - startedAt < TARGET_DROP_RATE_BUCKET then
        samples.dropLast ++ [(startedAt, saturatingAdd64 bucketDrops dropped)]
      else samples ++ [(now, dropped)]
    | none => samples ++ [(now, dropped)]
  samples.dropWhile fun sample => TARGET_DROP_RATE_WINDOW < now - sample.1

namespace TraceState

def new (generation channelIndex : Nat) (controlAvailable : Bool) : TraceState :=
  { generation, channelIndex, controlAvailable }

/-- What `close_active_task` leaves; it returns the id of the task it closed. -/
def closeActiveTask (s : TraceState) (atCycles : Nat) : TraceState :=
  match s.activeTask with
  | none => s
  | some (taskId, startedAt) =>
    { s with
      activeTask := none
      tasks := s.tasks.update taskId fun task =>
        { task with runtimeCycles := saturatingAdd64 task.runtimeCycles (atCycles - startedAt) } }

def activeTaskId (s : TraceState) : Option UInt32 := s.activeTask.map (·.1)

/-- Close the open interval and forget what was interrupted. -/
def endExecution (s : TraceState) (atCycles : Nat) : TraceState :=
  { s.closeActiveTask atCycles with interruptedTask := none, isrDepth := 0 }

/-- What `apply_with_loss_tracking` does before it looks at the event id. -/
def advance (s : TraceState) (p : ParsedPacket) : TraceState :=
  let previousTargetCycles := s.lastTargetCycles
  let s := if p.syncBoundary then s.endExecution previousTargetCycles else s
  let s := if p.eventId = 1 then s.endExecution previousTargetCycles else s
  { s with
    lastTargetCycles := saturatingAdd64 previousTargetCycles p.deltaCycles.toNat
    eventCount := saturatingAdd64 s.eventCount 1 }

local instance lawfulBEq_name : LawfulBEq (List Char) := inferInstance

/-- The match of `apply_with_loss_tracking`, as far as it changes the state. -/
def applyEventId (s : TraceState) (p : ParsedPacket) (trackTargetLossRate : Bool) (now : Nat) :
    TraceState :=
  match p.eventId with
  | 1 =>
    { s with
      targetOverflowPackets := saturatingAdd64 s.targetOverflowPackets 1
      targetDroppedEvents := saturatingAdd64 s.targetDroppedEvents p.dropped.toNat
      targetDropSamples :=
        if trackTargetLossRate then trackTargetLoss s.targetDropSamples now p.dropped.toNat
        else s.targetDropSamples }
  | 2 =>
    let s := if s.isrDepth = 0 then
        { s.closeActiveTask s.lastTargetCycles with interruptedTask := s.activeTaskId }
      else s
    { s with isrDepth := saturatingAdd32 s.isrDepth 1 }
  | 3 =>
    let s := { s with isrDepth := s.isrDepth - 1 }
    if s.isrDepth = 0 then
      match s.interruptedTask with
      | some taskId =>
        { s with interruptedTask := none, activeTask := some (taskId, s.lastTargetCycles) }
      | none => s
    else s
  | 4 =>
    match p.fields[0]? with
    | some taskId =>
      let s := s.endExecution s.lastTargetCycles
      { s with
        tasks := s.tasks.update taskId fun task =>
          { task with switches := saturatingAdd64 task.switches 1 }
        activeTask := some (taskId, s.lastTargetCycles) }
    | none => s
  | 5 | 17 => { s.closeActiveTask s.lastTargetCycles with interruptedTask := none }
  | 8 =>
    match p.fields[0]? with
    | some taskId =>
      { s with tasks := s.tasks.update taskId fun task => if task.terminated then {} else task }
    | none => s
  | 29 =>
    match p.fields[0]? with
    | some taskId =>
      let s := if s.activeTaskId = some taskId then s.closeActiveTask s.lastTargetCycles else s
      let s := if s.interruptedTask = some taskId then { s with interruptedTask := none } else s
      { s with tasks := s.tasks.update taskId fun task => { task with terminated := true } }
    | none => s
  | 9 =>
    match p.fields[0]? with
    | some taskId =>
      { s with
        tasks := s.tasks.update taskId fun task =>
          { task with priority := p.fields[1]?, name := if p.text.isSome then p.text else task.name } }
    | none => s
  | 10 => { s with phase := .recording }
  | 11 => { s.endExecution s.lastTargetCycles with phase := .stopped }
  | 14 =>
    match p.text with
    | some description =>
      if description ≠ [] ∧ description ∉ s.systemDescription then
        { s with systemDescription := s.systemDescription ++ [description] }
      else s
    | none => s
  | 18 => { s with isrDepth := 0, interruptedTask := none }
  | 24 =>
    { s with
      sysFreqHz := p.fields[0]?, cpuFreqHz := p.fields[1]?
      ramBase := p.fields[2]?, idShift := p.fields[3]? }
  | _ => s

/-- The event of the packet, once the packet has been applied. -/
def event (s : TraceState) (p : ParsedPacket) : SystemViewEvent where
  sequence := s.nextEventSequence
  eventId := p.eventId
  kind := eventKind p.eventId
  targetCycles := s.lastTargetCycles
  deltaCycles := p.deltaCycles
  contextId := p.contextId
  value := p.value
  text := p.eventText
  syncBoundary := p.syncBoundary

/-- Append an event to the history and evict what no longer fits. -/
def record (s : TraceState) (event : SystemViewEvent) : TraceState :=
  let kept := evict SystemViewExecutionState.applyEvent MAX_EVENT_HISTORY s.historyEntryState
    (s.events ++ [event])
  { s with
    nextEventSequence := saturatingAdd64 s.nextEventSequence 1
    historyEntryState := kept.1
    events := kept.2 }

/-- The state behind `apply_with_loss_tracking` and the event it returns. -/
def applyWithLossTracking (s : TraceState) (p : ParsedPacket) (trackTargetLossRate : Bool)
    (now : Nat) : TraceState × SystemViewEvent :=
  let s := (s.advance p).applyEventId p trackTargetLossRate now
  (s.record (s.event p), s.event p)

def markInputGap (s : TraceState) : TraceState := s.endExecution s.lastTargetCycles

def clear (s : TraceState) : TraceState :=
  { s with
    eventCount := 0
    targetOverflowPackets := 0
    targetDroppedEvents := 0
    targetDropSamples := []
    decoderErrors := 0
    presentationDroppedEvents := 0
    events := []
    historyEntryState := s.events.foldl SystemViewExecutionState.applyEvent s.historyEntryState
    clearedThroughSequence := s.nextEventSequence - 1
    tasks := s.tasks.map fun entry => (entry.1, { entry.2 with runtimeCycles := 0, switches := 0 })
    activeTask := s.activeTaskId.map fun taskId => (taskId, s.lastTargetCycles)
    windowStartCycles := s.lastTargetCycles }

/-- What can happen to a trace state. -/
inductive Op where
  | packet (packet : ParsedPacket) (trackTargetLossRate : Bool) (now : Nat)
  | inputGap
  | clear

def apply (s : TraceState) : Op → TraceState
  | .packet p track now => (s.applyWithLossTracking p track now).1
  | .inputGap => s.markInputGap
  | .clear => s.clear

/-- The event that an operation emits. -/
def emit (s : TraceState) : Op → Option SystemViewEvent
  | .packet p track now => some (s.applyWithLossTracking p track now).2
  | _ => none

def run (s : TraceState) (ops : List Op) : TraceState := ops.foldl apply s

/-- The events of a run. -/
def emitted (s : TraceState) : List Op → List SystemViewEvent
  | [] => []
  | op :: ops => (s.emit op).toList ++ (s.apply op).emitted ops

end TraceState

end TauTerm.Rtt
