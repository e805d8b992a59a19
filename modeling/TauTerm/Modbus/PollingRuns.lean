import Mathlib
import TauTerm.Lib.Run
import TauTerm.Modbus.Polling

/-!
# Polling follows the rows

A start that takes its flag while a stop is under way, a stop that comes while a start has not stored
its handle, and a row that goes while it is being polled: where none of these happens there is one
worker at most, it is silent after a stop, and values are values of rows.
-/

namespace TauTerm.Modbus.Polling

open Lib

namespace WatchScheduler

variable {Result Value : Type} {mode : ModbusMode} {watchValue : WatchRow → Result → Value}
  {s : WatchScheduler Value}

/-! ## What is claimed of the scheduler -/

def Alive (s : WatchScheduler Value) (worker : Nat) : Prop :=
  ∃ phase, s.workers[worker]? = some phase ∧ phase ≠ .finished

def ids (rows : List WatchRow) : List String := rows.map WatchRow.id

structure FollowsRows (mode : ModbusMode) (watchValue : WatchRow → Result → Value)
    (s : WatchScheduler Value) : Prop where
  single : ∀ v w, Alive s v → Alive s w → v = w
  quiet : s.late = false
  refused : ∀ thread rows error, validateRows rows mode = .error error →
    s.step mode watchValue (.setRows thread rows) = s
  keys : (∀ (worker : Nat) (row : WatchRow) (pass : Pass),
      s.workers[worker]? ≠ some (.executing row pass)) →
    ∀ id, (s.values id).isSome → id ∈ ids s.rows

/-- The row that a worker is about to write a value of. -/
def inFlight : WorkerPhase Value → Option WatchRow
  | .executing row _ => some row
  | .inserting row _ _ => some row
  | _ => none

/-- The row whose transaction the next step of a worker begins. -/
def begins : WorkerPhase Value → Option WatchRow
  | .passing ⟨row :: rows, at_, next⟩ => if polled row ⟨rows, at_, next⟩ then some row else none
  | _ => none

/-- Starts and stops do not cross, and no row is polled that has gone or is going. -/
def Orderly (mode : ModbusMode) (s : WatchScheduler Value) : Action Result → Prop
  | .startSwap _ => ∀ thread, s.calls thread ≠ .taking ∧ ∀ worker, s.calls thread ≠ .joining worker
  | .stopStore _ => ∀ thread, s.calls thread ≠ .spawning ∧ ∀ worker, s.calls thread ≠ .storing worker
  | .setRows _ rows => validateRows rows mode = .ok () →
    ∀ phase ∈ s.workers, ∀ row ∈ inFlight phase, row.id ∈ ids rows
  | .worker id _ _ => ∀ phase ∈ s.workers[id]?, ∀ row ∈ begins phase, row.id ∈ ids s.rows ∧
    ∀ thread rows, s.calls thread = .replacing rows → row.id ∈ ids rows
  | _ => True

/-! ## The rows -/

/-- The rows there are, and those that a call of `set_rows` is about to set. -/
def Bound (s : WatchScheduler Value) (rows : List WatchRow) : Prop :=
  rows = s.rows ∨ ∃ thread, s.calls thread = .replacing rows

structure Kept (s : WatchScheduler Value) : Prop where
  values : ∀ rows, Bound s rows → ∀ id, (s.values id).isSome → id ∈ ids rows
  flying : ∀ rows, Bound s rows → ∀ phase ∈ s.workers, ∀ row ∈ inFlight phase, row.id ∈ ids rows

theorem Kept.of_eq {s' : WatchScheduler Value} (h : Kept s) (hvalues : s'.values = s.values)
    (hbound : ∀ rows, Bound s' rows → Bound s rows)
    (hworkers : ∀ phase ∈ s'.workers, ∀ row ∈ inFlight phase, ∃ phase' ∈ s.workers,
      row ∈ inFlight phase') : Kept s' where
  values rows hrows id hid := h.values rows (hbound rows hrows) id (by rwa [← hvalues])
  flying rows hrows phase hphase row hrow := by
    obtain ⟨phase', hphase', hrow'⟩ := hworkers phase hphase row hrow
    exact h.flying rows (hbound rows hrows) phase' hphase' row hrow'

theorem calls_setCall (s : WatchScheduler Value) (thread : Nat) (phase : CallPhase) (t : Nat) :
    (s.setCall thread phase).calls t = if t = thread then phase else s.calls t := by
  rw [setCall]
  exact Function.update_apply ..

/-- A call goes on to a phase that does not bring rows with it. -/
theorem bound_setCall {thread : Nat} {phase : CallPhase} (hphase : ∀ rows, phase ≠ .replacing rows)
    {rows : List WatchRow} (h : Bound (s.setCall thread phase) rows) : Bound s rows := by
  refine h.imp_right fun ⟨t, ht⟩ => ⟨t, ?_⟩
  rw [calls_setCall] at ht
  split at ht
  · exact absurd ht (hphase rows)
  · exact ht

theorem mem_set {α : Type} {l : List α} {n : Nat} {x y : α} (h : y ∈ l.set n x) : y = x ∨ y ∈ l :=
  (List.mem_or_eq_of_mem_set h).symm

theorem Kept.setWorker (h : Kept s) {worker : Nat} {phase : WorkerPhase Value}
    (hphase : ∀ rows, Bound s rows → ∀ row ∈ inFlight phase, row.id ∈ ids rows) :
    Kept (s.setWorker worker phase) where
  values := h.values
  flying rows hrows p hp row hrow := by
    obtain rfl | hp := mem_set hp
    · exact hphase rows hrows row hrow
    · exact h.flying rows hrows p hp row hrow

theorem Kept.workerStep (h : Kept s) {id now : Nat} {result : Result} {phase : WorkerPhase Value}
    (hphase : s.workers[id]? = some phase)
    (hbegins : ∀ rows, Bound s rows → ∀ row ∈ begins phase, row.id ∈ ids rows) :
    Kept (s.workerStep watchValue id now result phase) := by
  have hflying := fun rows hrows => h.flying rows hrows phase (List.mem_of_getElem? hphase)
  cases phase with
  | checking next =>
    refine h.setWorker fun rows _ row hrow => ?_
    split at hrow <;> cases hrow
  | reading next => exact h.setWorker fun _ _ _ hrow => nomatch hrow
  | passing pass =>
    obtain ⟨_ | ⟨row, rows⟩, at_, next⟩ := pass
    · exact h.setWorker fun _ _ _ hrow => nomatch hrow
    · rw [WatchScheduler.workerStep]
      split
      · rename_i hpolled
        refine h.setWorker fun rows hrows row' hrow' => hbegins rows hrows row' ?_
        rw [begins, if_pos hpolled]
        exact hrow'
      · exact h.setWorker fun _ _ _ hrow => nomatch hrow
  | executing row pass => exact h.setWorker hflying
  | inserting row value pass =>
    obtain ⟨rows, at_, next⟩ := pass
    have hinsert : Kept (s.insert row value) := by
      refine ⟨fun rows hrows id hid => ?_, h.flying⟩
      by_cases heq : id = row.id
      · rw [heq]
        exact hflying rows hrows row rfl
      · have hold : (s.insert row value).values id = s.values id := Function.update_of_ne heq ..
        rw [hold] at hid
        exact h.values rows hrows id hid
    exact hinsert.setWorker fun _ _ _ hrow => nomatch hrow
  | finished => exact h

theorem Kept.setRows (h : Kept s) {thread : Nat} {rows : List WatchRow}
    (hflying : validateRows rows mode = .ok () →
      ∀ phase ∈ s.workers, ∀ row ∈ inFlight phase, row.id ∈ ids rows) :
    Kept (s.setRows mode thread rows) := by
  unfold WatchScheduler.setRows
  split
  · exact h
  · rename_i hvalid
    have hbound : ∀ r, Bound ((s.retain rows).setCall thread (.replacing rows)) r →
        r = rows ∨ Bound s r := by
      rintro r (hr | ⟨t, ht⟩)
      · exact .inr (.inl hr)
      · rw [calls_setCall] at ht
        split at ht
        · exact .inl (CallPhase.replacing.inj ht).symm
        · exact .inr (.inr ⟨t, ht⟩)
    constructor
    · intro r hr id hid
      have hid : (if id ∈ rows.map WatchRow.id then s.values id else none).isSome := hid
      split at hid
      · rename_i hmem
        obtain rfl | hr := hbound r hr
        · exact hmem
        · exact h.values r hr id hid
      · cases hid
    · intro r hr phase hphase row hrow
      obtain rfl | hr := hbound r hr
      · exact hflying hvalid phase hphase row hrow
      · exact h.flying r hr phase hphase row hrow

/-- A call goes on, and neither rows nor values nor workers change. -/
theorem Kept.setCall (h : Kept s) {s' : WatchScheduler Value} {thread : Nat} {phase : CallPhase}
    (hphase : ∀ rows, phase ≠ .replacing rows) (hrows : s'.rows = s.rows)
    (hvalues : s'.values = s.values) (hworkers : s'.workers = s.workers)
    (hcalls : s'.calls = s.calls) : Kept (s'.setCall thread phase) := by
  refine h.of_eq hvalues (fun rows hr => ?_) fun p hp _ hrow => ⟨p, hworkers ▸ hp, hrow⟩
  have := bound_setCall hphase hr
  rwa [Bound, hrows, hcalls] at this

/-- What an orderly step does to the rows and the values. -/
theorem Kept.step (h : Kept s) {action : Action Result} (horderly : Orderly mode s action) :
    Kept (s.step mode watchValue action) := by
  cases action with
  | setRows thread rows =>
    rw [WatchScheduler.step]
    split
    · exact h.setRows horderly
    · exact h
  | replaceRows thread =>
    rw [WatchScheduler.step]
    split
    · rename_i rows hcall
      refine h.of_eq rfl ?_ fun p hp _ hrow => ⟨p, hp, hrow⟩
      rintro r (hr | ⟨t, ht⟩)
      · exact .inr ⟨thread, hr ▸ hcall⟩
      · rw [calls_setCall] at ht
        split at ht
        · cases ht
        · exact .inr ⟨t, ht⟩
    · exact h
  | values thread => exact h
  | startSwap thread =>
    rw [WatchScheduler.step]
    split
    · have hswap : Kept { s with running := true, stopped := false } :=
        h.of_eq rfl (fun _ hr => hr) fun p hp _ hrow => ⟨p, hp, hrow⟩
      dsimp only
      split
      · exact hswap
      · exact h.setCall (fun _ hp => nomatch hp) rfl rfl rfl rfl
    · exact h
  | spawn thread =>
    rw [WatchScheduler.step]
    split
    · refine h.of_eq rfl (fun _ hr => bound_setCall (by simp) hr) fun p hp _ hrow => ?_
      obtain hp | hp := List.mem_append.mp hp
      · exact ⟨p, hp, hrow⟩
      · rw [List.mem_singleton.mp hp] at hrow
        cases hrow
    · exact h
  | storeHandle thread =>
    rw [WatchScheduler.step]
    split
    · exact h.setCall (fun _ hp => nomatch hp) rfl rfl rfl rfl
    · exact h
  | stopStore thread =>
    rw [WatchScheduler.step]
    split
    · exact h.setCall (fun _ hp => nomatch hp) rfl rfl rfl rfl
    · exact h
  | takeHandle thread =>
    rw [WatchScheduler.step]
    split
    · split
      · exact h.setCall (fun _ hp => nomatch hp) rfl rfl rfl rfl
      · exact h.setCall (fun _ hp => nomatch hp) rfl rfl rfl rfl
    · exact h
  | join thread =>
    rw [WatchScheduler.step]
    split
    · split
      · exact h.setCall (fun _ hp => nomatch hp) rfl rfl rfl rfl
      · exact h
    · exact h
  | worker id now result =>
    rw [WatchScheduler.step]
    split
    · rename_i phase hphase
      refine h.workerStep hphase ?_
      rintro rows (rfl | ⟨thread, hthread⟩) row hrow
      · exact (horderly phase hphase row hrow).1
      · exact (horderly phase hphase row hrow).2 thread rows hthread
    · exact h

/-! ## The workers -/

/-- How far starting and stopping have come. -/
inductive Stage where
  | off
  /-- A thread has set the flag; it spawns a worker, and stores the handle. -/
  | starting (thread : Nat) (worker : Option Nat)
  | on (worker : Nat)
  /-- The flag is cleared, and the handle is still there. -/
  | stopping (worker : Nat)
  | joining (thread worker : Nat)

namespace Stage

def running : Stage → Bool
  | .starting .. | .on _ => true
  | _ => false

def handle : Stage → Option Nat
  | .on worker | .stopping worker => some worker
  | _ => none

def lock : Stage → Option Nat
  | .joining thread _ => some thread
  | _ => none

/-- The only worker that may be alive. -/
def worker : Stage → Option Nat
  | .off => none
  | .starting _ worker => worker
  | .on worker | .stopping worker | .joining _ worker => some worker

/-- Where a call of `start` or `stop` may be. -/
def Allows : Stage → Nat → CallPhase → Prop
  | _, _, .idle | _, _, .replacing _ => True
  | stage, thread, .spawning => stage = .starting thread none
  | stage, thread, .storing worker => stage = .starting thread (some worker)
  | .off, _, .taking | .stopping _, _, .taking | .joining .., _, .taking => True
  | _, _, .taking => False
  | stage, thread, .joining worker => stage = .joining thread worker

/-- The call that has brought about the stage is still there. -/
def Engaged : Stage → (Nat → CallPhase) → Prop
  | .off, _ | .on _, _ => True
  | .starting thread none, calls => calls thread = .spawning
  | .starting thread (some worker), calls => calls thread = .storing worker
  | .stopping _, calls => ∃ thread, calls thread = .taking
  | .joining thread worker, calls => calls thread = .joining worker

/-- A call that is neither of `start` nor of `stop`. -/
def Resting (phase : CallPhase) : Prop := phase = .idle ∨ ∃ rows, phase = .replacing rows

theorem Resting.allows {phase : CallPhase} (h : Resting phase) (stage : Stage) (thread : Nat) :
    stage.Allows thread phase := by
  obtain rfl | ⟨rows, rfl⟩ := h
  · cases stage <;> trivial
  · cases stage <;> trivial

theorem resting_of_starting {thread t : Nat} {worker : Option Nat} {phase : CallPhase}
    (h : (starting thread worker).Allows t phase) (hne : t ≠ thread) : Resting phase := by
  cases phase with
  | idle => exact .inl rfl
  | replacing rows => exact .inr ⟨rows, rfl⟩
  | spawning => exact absurd (Stage.starting.inj h).1.symm hne
  | storing w => exact absurd (Stage.starting.inj h).1.symm hne
  | taking => exact h.elim
  | joining w => cases h

theorem resting_of_on {worker t : Nat} {phase : CallPhase} (h : (on worker).Allows t phase) :
    Resting phase := by
  cases phase with
  | idle => exact .inl rfl
  | replacing rows => exact .inr ⟨rows, rfl⟩
  | spawning => cases h
  | storing w => cases h
  | taking => exact h.elim
  | joining w => cases h

theorem resting_of_off {t : Nat} {phase : CallPhase} (h : off.Allows t phase)
    (htaking : phase ≠ .taking) : Resting phase := by
  cases phase with
  | idle => exact .inl rfl
  | replacing rows => exact .inr ⟨rows, rfl⟩
  | spawning => cases h
  | storing w => cases h
  | taking => exact absurd rfl htaking
  | joining w => cases h

end Stage

structure At (s : WatchScheduler Value) (stage : Stage) : Prop where
  running : s.running = stage.running
  handle : s.handle = stage.handle
  lock : s.lock = stage.lock
  alive : ∀ worker, Alive s worker → stage.worker = some worker
  calls : ∀ thread, stage.Allows thread (s.calls thread)
  engaged : stage.Engaged s.calls
  stopped : stage ≠ .off → s.stopped = false
  late : s.late = false

theorem alive_setWorker {worker v : Nat} {phase : WorkerPhase Value}
    (halive : phase ≠ .finished → Alive s worker) (h : Alive (s.setWorker worker phase) v) :
    Alive s v := by
  obtain ⟨p, hp, hne⟩ := h
  rw [setWorker, List.getElem?_set] at hp
  split at hp
  · rename_i heq
    split at hp
    · obtain rfl := Option.some.inj hp
      exact heq ▸ halive hne
    · cases hp
  · exact ⟨p, hp, hne⟩

theorem At.setWorker {stage : Stage} (h : At s stage) {worker : Nat} {phase : WorkerPhase Value}
    (halive : phase ≠ .finished → Alive s worker) : At (s.setWorker worker phase) stage where
  running := h.running
  handle := h.handle
  lock := h.lock
  alive v hv := h.alive v (alive_setWorker halive hv)
  calls := h.calls
  engaged := h.engaged
  stopped := h.stopped
  late := h.late

theorem At.workerStep {stage : Stage} (h : At s stage) {id now : Nat} {result : Result}
    {phase : WorkerPhase Value} (hphase : s.workers[id]? = some phase) :
    At (s.workerStep watchValue id now result phase) stage := by
  have halive (hne : phase ≠ .finished) : Alive s id := ⟨phase, hphase, hne⟩
  cases phase with
  | checking next => exact h.setWorker fun _ => halive (by simp)
  | reading next => exact h.setWorker fun _ => halive (by simp)
  | passing pass =>
    obtain ⟨_ | ⟨row, rows⟩, at_, next⟩ := pass
    · exact h.setWorker fun _ => halive (by simp)
    · rw [WatchScheduler.workerStep]
      split
      · exact h.setWorker fun _ => halive (by simp)
      · exact h.setWorker fun _ => halive (by simp)
  | executing row pass => exact h.setWorker fun _ => halive (by simp)
  | inserting row value pass =>
    obtain ⟨rows, at_, next⟩ := pass
    have halive := halive (by simp)
    -- a worker that is alive has not been stopped yet
    have hstopped : s.stopped = false := by
      refine h.stopped fun hoff => ?_
      have := h.alive id halive
      rw [hoff] at this
      cases this
    have hinsert : At (s.insert row value) stage :=
      { running := h.running
        handle := h.handle
        lock := h.lock
        alive := h.alive
        calls := h.calls
        engaged := h.engaged
        stopped := h.stopped
        late := by
          change (s.late || s.stopped) = false
          rw [h.late, hstopped]
          rfl }
    exact hinsert.setWorker fun _ => halive
  | finished => exact h

open Stage

theorem allows_setCall {stage : Stage} {calls : Nat → CallPhase} {thread : Nat} {phase : CallPhase}
    (hphase : stage.Allows thread phase)
    (hothers : ∀ t, t ≠ thread → stage.Allows t (calls t)) (t : Nat) :
    stage.Allows t (Function.update calls thread phase t) := by
  by_cases heq : t = thread
  · rw [heq, Function.update_self]
    exact hphase
  · rw [Function.update_of_ne heq]
    exact hothers t heq

/-- A call of `set_rows` goes on. -/
theorem At.resting {stage : Stage} (h : At s stage) {thread : Nat} {phase : CallPhase}
    (hbefore : Resting (s.calls thread)) (hphase : Resting phase) :
    At (s.setCall thread phase) stage where
  running := h.running
  handle := h.handle
  lock := h.lock
  alive := h.alive
  calls := allows_setCall (hphase.allows stage thread) fun t _ => h.calls t
  engaged := by
    have hne {t : Nat} {c : CallPhase} (hc : s.calls t = c) (hnot : ¬ Resting c) :
        Function.update s.calls thread phase t = c := by
      rw [Function.update_of_ne, hc]
      rintro rfl
      exact hnot (hc ▸ hbefore)
    have hengaged := h.engaged
    cases stage with
    | off => trivial
    | on worker => trivial
    | starting t worker =>
      cases worker with
      | none => exact hne hengaged (by simp [Resting])
      | some worker => exact hne hengaged (by simp [Resting])
    | stopping worker =>
      obtain ⟨t, ht⟩ := hengaged
      exact ⟨t, hne ht (by simp [Resting])⟩
    | joining t worker => exact hne hengaged (by simp [Resting])
  stopped := h.stopped
  late := h.late

theorem At.startSwap {stage : Stage} (h : At s stage) {thread : Nat} (hcall : s.calls thread = .idle)
    (horderly : ∀ t, s.calls t ≠ .taking ∧ ∀ worker, s.calls t ≠ .joining worker) :
    ∃ stage', At (@s.step Result _ mode watchValue (.startSwap thread)) stage' := by
  have hsame (hrunning : s.running = true) (hoff : stage ≠ .off) :
      At (@s.step Result _ mode watchValue (.startSwap thread)) stage := by
    rw [step, hcall]
    dsimp only
    rw [if_pos hrunning]
    exact ⟨hrunning ▸ h.running, h.handle, h.lock, h.alive, h.calls, h.engaged, fun _ => rfl, h.late⟩
  cases stage with
  | off =>
    have hrunning : ¬ s.running = true := by rw [h.running]; exact Bool.false_ne_true
    refine ⟨.starting thread none, ?_⟩
    rw [step, hcall]
    dsimp only
    rw [if_neg hrunning]
    refine ⟨rfl, h.handle, h.lock, h.alive, ?_, ?_, fun _ => rfl, h.late⟩
    · exact allows_setCall rfl fun t _ => (resting_of_off (h.calls t) (horderly t).1).allows _ _
    · exact Function.update_self ..
  | starting t worker => exact ⟨_, hsame h.running (by simp)⟩
  | on worker => exact ⟨_, hsame h.running (by simp)⟩
  | stopping worker =>
    obtain ⟨t, ht⟩ := h.engaged
    exact absurd ht (horderly t).1
  | joining t worker => exact absurd h.engaged ((horderly t).2 worker)

theorem At.spawn {stage : Stage} (h : At s stage) {thread : Nat}
    (hcall : s.calls thread = .spawning) :
    ∃ stage', At (@s.step Result _ mode watchValue (.spawn thread)) stage' := by
  have hstage := h.calls thread
  rw [hcall] at hstage
  obtain rfl : stage = .starting thread none := by cases stage <;> exact hstage
  have hstep : @s.step Result _ mode watchValue (.spawn thread) =
      WatchScheduler.setCall { s with workers := s.workers ++ [.checking fun _ => none] } thread
        (.storing s.workers.length) := by
    simp only [step, hcall]
  rw [hstep]
  refine ⟨.starting thread (some s.workers.length), h.running, h.handle, h.lock, fun v hv => ?_, ?_,
    ?_, fun _ => h.stopped (by simp), h.late⟩
  · obtain ⟨phase, hphase, hne⟩ := hv
    obtain hlt | hge := Nat.lt_or_ge v s.workers.length
    · have hold : s.workers[v]? = some phase := (List.getElem?_append_left hlt).symm.trans hphase
      cases h.alive v ⟨phase, hold, hne⟩
    · have hlt : v < s.workers.length + 1 := by
        have := (List.getElem?_eq_some_iff.mp hphase).1
        rwa [setCall, List.length_append, List.length_singleton] at this
      obtain rfl : v = s.workers.length := by omega
      rfl
  · exact allows_setCall rfl fun t ht => (resting_of_starting (h.calls t) ht).allows _ _
  · exact Function.update_self ..

theorem At.storeHandle {stage : Stage} (h : At s stage) {thread worker : Nat}
    (hcall : s.calls thread = .storing worker) (hlock : s.lock = none) :
    ∃ stage', At (@s.step Result _ mode watchValue (.storeHandle thread)) stage' := by
  have hstage := h.calls thread
  rw [hcall] at hstage
  obtain rfl : stage = .starting thread (some worker) := by cases stage <;> exact hstage
  have hstep : @s.step Result _ mode watchValue (.storeHandle thread) =
      WatchScheduler.setCall { s with handle := some worker } thread .idle := by
    simp only [step, hcall, hlock]
  rw [hstep]
  refine ⟨.on worker, h.running, rfl, hlock, h.alive, ?_, trivial, fun _ => h.stopped (by simp), h.late⟩
  exact allows_setCall trivial fun t ht => (resting_of_starting (h.calls t) ht).allows _ _

theorem At.stopStore {stage : Stage} (h : At s stage) {thread : Nat} (hcall : s.calls thread = .idle)
    (horderly : ∀ t, s.calls t ≠ .spawning ∧ ∀ worker, s.calls t ≠ .storing worker) :
    ∃ stage', At (@s.step Result _ mode watchValue (.stopStore thread)) stage' := by
  rw [step, hcall]
  cases stage with
  | off =>
    refine ⟨.off, rfl, h.handle, h.lock, h.alive, ?_, trivial, h.stopped, h.late⟩
    exact allows_setCall trivial fun t _ => h.calls t
  | starting t worker =>
    have hengaged := h.engaged
    cases worker with
    | none => exact absurd hengaged (horderly t).1
    | some worker => exact absurd hengaged ((horderly t).2 worker)
  | on worker =>
    refine ⟨.stopping worker, rfl, h.handle, h.lock, h.alive, ?_, ⟨thread, ?_⟩,
      fun _ => h.stopped (by simp), h.late⟩
    · exact allows_setCall trivial fun t _ => (resting_of_on (h.calls t)).allows _ _
    · exact Function.update_self ..
  | stopping worker =>
    refine ⟨.stopping worker, rfl, h.handle, h.lock, h.alive, ?_, ⟨thread, ?_⟩, h.stopped, h.late⟩
    · exact allows_setCall trivial fun t _ => h.calls t
    · exact Function.update_self ..
  | joining t worker =>
    have hne : t ≠ thread := by
      rintro rfl
      cases hcall.symm.trans h.engaged
    refine ⟨.joining t worker, rfl, h.handle, h.lock, h.alive, ?_, ?_, h.stopped, h.late⟩
    · exact allows_setCall trivial fun t _ => h.calls t
    · exact (Function.update_of_ne hne ..).trans h.engaged

theorem At.takeHandle {stage : Stage} (h : At s stage) {thread : Nat}
    (hcall : s.calls thread = .taking) (hlock : s.lock = none) :
    ∃ stage', At (@s.step Result _ mode watchValue (.takeHandle thread)) stage' := by
  have hstage := h.calls thread
  rw [hcall] at hstage
  cases stage with
  | off =>
    have hnone : s.handle = none := h.handle
    have hstep : @s.step Result _ mode watchValue (.takeHandle thread) =
        WatchScheduler.setCall { s with stopped := true } thread .idle := by
      simp only [step, hcall, hlock, hnone]
    rw [hstep]
    refine ⟨.off, h.running, h.handle, hlock, h.alive, ?_, trivial, fun hoff => absurd rfl hoff, h.late⟩
    exact allows_setCall trivial fun t _ => h.calls t
  | starting t worker => exact hstage.elim
  | on worker => exact hstage.elim
  | stopping worker =>
    have hsome : s.handle = some worker := h.handle
    have hstep : @s.step Result _ mode watchValue (.takeHandle thread) =
        WatchScheduler.setCall { s with handle := none, lock := some thread } thread
          (.joining worker) := by
      simp only [step, hcall, hlock, hsome]
    rw [hstep]
    refine ⟨.joining thread worker, h.running, rfl, rfl, h.alive, ?_, ?_,
      fun _ => h.stopped (by simp), h.late⟩
    · refine allows_setCall rfl fun t _ => ?_
      have := h.calls t
      revert this
      cases s.calls t with
      | idle => exact id
      | replacing rows => exact id
      | spawning => exact fun h => nomatch h
      | storing w => exact fun h => nomatch h
      | taking => exact id
      | joining w => exact fun h => nomatch h
    · exact Function.update_self ..
  | joining t worker => cases hlock.symm.trans h.lock

theorem At.join {stage : Stage} (h : At s stage) {thread worker : Nat}
    (hcall : s.calls thread = .joining worker) (hworker : s.workers[worker]? = some .finished) :
    ∃ stage', At (@s.step Result _ mode watchValue (.join thread)) stage' := by
  have hstage := h.calls thread
  rw [hcall] at hstage
  obtain rfl : stage = .joining thread worker := by cases stage <;> exact hstage
  refine ⟨.off, ?_⟩
  rw [step, hcall]
  dsimp only
  rw [hworker]
  refine ⟨h.running, h.handle, rfl, fun v hv => ?_, ?_, trivial, fun hoff => absurd rfl hoff, h.late⟩
  · obtain ⟨phase, hphase, hne⟩ := hv
    obtain rfl := Option.some.inj (h.alive v ⟨phase, hphase, hne⟩)
    exact absurd (Option.some.inj (hphase.symm.trans hworker)) hne
  · refine allows_setCall trivial fun t ht => ?_
    have := h.calls t
    revert this
    cases s.calls t with
    | idle => exact id
    | replacing rows => exact id
    | spawning => exact fun h => nomatch h
    | storing w => exact fun h => nomatch h
    | taking => exact id
    | joining w => exact fun h => absurd (Stage.joining.inj h).1.symm ht

/-- What an orderly step does to the workers. -/
theorem At.step {stage : Stage} (h : At s stage) {action : Action Result}
    (horderly : Orderly mode s action) : ∃ stage', At (s.step mode watchValue action) stage' := by
  cases action with
  | setRows thread rows =>
    refine ⟨stage, ?_⟩
    rw [WatchScheduler.step]
    split
    · rename_i hcall
      unfold WatchScheduler.setRows
      split
      · exact h
      · have hretain : At (s.retain rows) stage :=
          ⟨h.running, h.handle, h.lock, h.alive, h.calls, h.engaged, h.stopped, h.late⟩
        exact hretain.resting (.inl hcall) (.inr ⟨rows, rfl⟩)
    · exact h
  | replaceRows thread =>
    refine ⟨stage, ?_⟩
    rw [WatchScheduler.step]
    split
    · rename_i rows hcall
      have hrows : At { s with rows } stage :=
        ⟨h.running, h.handle, h.lock, h.alive, h.calls, h.engaged, h.stopped, h.late⟩
      exact hrows.resting (.inr ⟨rows, hcall⟩) (.inl rfl)
    · exact h
  | values thread => exact ⟨stage, h⟩
  | startSwap thread =>
    cases hcall : s.calls thread with
    | idle => exact h.startSwap hcall horderly
    | _ => exact ⟨stage, by rw [WatchScheduler.step, hcall]; exact h⟩
  | spawn thread =>
    cases hcall : s.calls thread with
    | spawning => exact h.spawn hcall
    | _ => exact ⟨stage, by rw [WatchScheduler.step, hcall]; exact h⟩
  | storeHandle thread =>
    cases hcall : s.calls thread with
    | storing worker =>
      cases hlock : s.lock with
      | none => exact h.storeHandle hcall hlock
      | some t => exact ⟨stage, by rw [WatchScheduler.step, hcall, hlock]; exact h⟩
    | _ => exact ⟨stage, by rw [WatchScheduler.step, hcall]; exact h⟩
  | stopStore thread =>
    cases hcall : s.calls thread with
    | idle => exact h.stopStore hcall horderly
    | _ => exact ⟨stage, by rw [WatchScheduler.step, hcall]; exact h⟩
  | takeHandle thread =>
    cases hcall : s.calls thread with
    | taking =>
      cases hlock : s.lock with
      | none => exact h.takeHandle hcall hlock
      | some t => exact ⟨stage, by rw [WatchScheduler.step, hcall, hlock]; exact h⟩
    | _ => exact ⟨stage, by rw [WatchScheduler.step, hcall]; exact h⟩
  | join thread =>
    cases hcall : s.calls thread with
    | joining worker =>
      by_cases hworker : s.workers[worker]? = some .finished
      · exact h.join hcall hworker
      · refine ⟨stage, ?_⟩
        rw [WatchScheduler.step, hcall]
        dsimp only
        split
        · exact absurd ‹_› hworker
        · exact h
    | _ => exact ⟨stage, by rw [WatchScheduler.step, hcall]; exact h⟩
  | worker id now result =>
    refine ⟨stage, ?_⟩
    rw [WatchScheduler.step]
    split
    · exact h.workerStep ‹_›
    · exact h

/-! ## Runs -/

theorem kept_new : Kept (new : WatchScheduler Value) where
  values := fun _ _ _ hid => nomatch hid
  flying := fun _ _ _ hphase => nomatch hphase

theorem at_new : At (new : WatchScheduler Value) .off where
  running := rfl
  handle := rfl
  lock := rfl
  alive := fun _ ⟨_, hphase, _⟩ => nomatch hphase
  calls := fun _ => trivial
  engaged := trivial
  stopped := fun hoff => absurd rfl hoff
  late := rfl

theorem step_refused {thread : Nat} {rows : List WatchRow} {error : String}
    (herror : validateRows rows mode = .error error) :
    s.step mode watchValue (.setRows thread rows) = s := by
  rw [step]
  split
  · rw [WatchScheduler.setRows, herror]
  · rfl

theorem followsRows_of_kept (hkept : Kept s) {stage : Stage} (hat : At s stage) :
    FollowsRows mode watchValue s where
  single v w hv hw := Option.some.inj ((hat.alive v hv).symm.trans (hat.alive w hw))
  quiet := hat.late
  refused _ _ _ := step_refused
  keys _ := hkept.values s.rows (.inl rfl)

/-- Where starts and stops do not cross and no row goes while it is polled, polling follows the rows. -/
theorem followsRows_of_orderly (mode : ModbusMode) (watchValue : WatchRow → Result → Value)
    (actions : List (Action Result))
    (h : EachStep (step mode watchValue) (Orderly mode) new actions) :
    Always (step mode watchValue) (FollowsRows mode watchValue) new actions :=
  @EachStep.always _ _ _ _ _ _ _ (fun s => Kept s ∧ ∃ stage, At s stage)
      (fun _ ⟨hkept, _, hat⟩ => followsRows_of_kept hkept hat)
      (fun _ _ ⟨hkept, _, hat⟩ horderly => ⟨hkept.step horderly, hat.step horderly⟩) h
      ⟨kept_new, .off, at_new⟩

/-- What the values are does not matter here. -/
def anyValue (_ : WatchRow) (_ : Unit) : Unit := ()

def coil : WatchRow := ⟨"coil", true, 1, .readBits .coils 0 1, 1000, none⟩

/-- A row is set, polled and removed again, and the worker is stopped and joined. -/
def served : List (Action Unit) :=
  [.setRows 0 [coil], .replaceRows 0, .startSwap 0, .spawn 0, .storeHandle 0, .worker 0 0 (),
    .worker 0 0 (), .worker 0 0 (), .worker 0 0 (), .worker 0 0 (), .setRows 0 [], .replaceRows 0,
    .stopStore 0, .takeHandle 0, .worker 0 0 (), .worker 0 0 (), .join 0]

theorem idle_calm : (CallPhase.idle ≠ .taking ∧ ∀ worker, CallPhase.idle ≠ .joining worker) ∧
    CallPhase.idle ≠ .spawning ∧ ∀ worker, CallPhase.idle ≠ .storing worker := by
  simp

theorem served_orderly :
    EachStep (step .tcp anyValue) (Orderly .tcp) new served := by
  refine ⟨?_, trivial, ?_, trivial, trivial, ?_, ?_, ?_, ?_, ?_, ?_, trivial, ?_, trivial, ?_, ?_,
    trivial, trivial⟩
  · intro _ phase hphase
    cases hphase
  · intro thread
    cases thread with
    | zero => exact idle_calm.1
    | succ n => exact idle_calm.1
  · intro phase hphase row hrow
    obtain rfl := Option.some.inj hphase
    cases hrow
  · intro phase hphase row hrow
    obtain rfl := Option.some.inj hphase
    cases hrow
  · intro phase hphase row hrow
    obtain rfl := Option.some.inj hphase
    obtain rfl := Option.some.inj hrow
    refine ⟨by decide, fun thread rows hrows => ?_⟩
    cases thread with
    | zero => cases hrows
    | succ n => cases hrows
  · intro phase hphase row hrow
    obtain rfl := Option.some.inj hphase
    cases hrow
  · intro phase hphase row hrow
    obtain rfl := Option.some.inj hphase
    cases hrow
  · intro _ phase hphase row hrow
    obtain rfl := List.mem_singleton.mp hphase
    cases hrow
  · intro thread
    cases thread with
    | zero => exact idle_calm.2
    | succ n => exact idle_calm.2
  · intro phase hphase row hrow
    obtain rfl := Option.some.inj hphase
    cases hrow
  · intro phase hphase row hrow
    obtain rfl := Option.some.inj hphase
    cases hrow

theorem followsRows_started :
    Always (step .tcp anyValue) (FollowsRows .tcp anyValue) new served ∧
      ((served.take 10).foldl (step .tcp anyValue) new).values "coil" = some () ∧
      (served.foldl (step .tcp anyValue) new).values "coil" = none ∧
      (served.foldl (step .tcp anyValue) new).stopped = true :=
  ⟨followsRows_of_orderly .tcp _ _ served_orderly, by decide, by decide, by decide⟩

/-- A stop that comes before the handle is stored returns at once; the worker lives on beside the next
one. -/
def crossing : List (Action Unit) :=
  [.startSwap 0, .spawn 0, .stopStore 1, .takeHandle 1, .startSwap 1, .spawn 1]

/-- The same stop, and a worker that is polling. -/
def lateWrite : List (Action Unit) :=
  [.setRows 0 [coil], .replaceRows 0, .startSwap 0, .spawn 0, .worker 0 0 (), .worker 0 0 (),
    .worker 0 0 (), .stopStore 1, .takeHandle 1, .worker 0 0 (), .worker 0 0 ()]

/-- A row that is removed while it is polled. -/
def removal : List (Action Unit) :=
  [.setRows 0 [coil], .replaceRows 0, .startSwap 0, .spawn 0, .storeHandle 0, .worker 0 0 (),
    .worker 0 0 (), .worker 0 0 (), .setRows 0 [], .replaceRows 0, .worker 0 0 (), .worker 0 0 ()]

def isExecuting : WorkerPhase Value → Bool
  | .executing .. => true
  | _ => false

theorem polling_astray :
    ¬ Always (step .tcp anyValue) (FollowsRows .tcp anyValue) new crossing ∧
      ¬ Always (step .tcp anyValue) (FollowsRows .tcp anyValue) new lateWrite ∧
      ¬ Always (step .tcp anyValue) (FollowsRows .tcp anyValue) new removal := by
  refine ⟨fun h => ?_, fun h => ?_, fun h => ?_⟩
  · have := h.last.single 0 1 ⟨_, rfl, by simp⟩ ⟨_, rfl, by simp⟩
    exact absurd this (by decide)
  · have := h.last.quiet
    revert this
    decide
  · have hnone : (removal.foldl (step .tcp anyValue) new).workers.all
        fun phase => !isExecuting phase := by decide
    have hkeys := h.last.keys fun worker row pass hworker => by
      have := List.all_eq_true.mp hnone _ (List.mem_of_getElem? hworker)
      cases this
    have := hkeys "coil" (by decide)
    revert this
    decide

end WatchScheduler

end TauTerm.Modbus.Polling
