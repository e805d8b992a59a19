import Mathlib
import TauTerm.Lib.Charges
import TauTerm.Rtt.TraceState

/-!
# Task runtime is never over-charged

Beside the trace state stands a book of what it has charged: one entry for each interval that
`close_active_task` closed in the present window, and the deltas that no task may be charged with.
The runtimes of a snapshot are exactly what the book says.
-/

namespace TauTerm.Rtt

open Lib

/-! ## The snapshot -/

structure SystemViewTaskSnapshot where
  id : UInt32
  name : Option (List Char)
  priority : Option UInt32
  runtimeCycles : Nat
  switches : Nat
  deriving DecidableEq

namespace TraceState

/-- The runtime that `snapshot` reports for an entry of `tasks`. -/
def reportedRuntime (s : TraceState) (id : UInt32) (task : TaskState) : Nat :=
  match s.activeTask with
  | some (activeId, startedAt) =>
    if activeId = id then saturatingAdd64 task.runtimeCycles (s.lastTargetCycles - startedAt)
    else task.runtimeCycles
  | none => task.runtimeCycles

/-- By runtime, the longest first, and by id. -/
def reportedBefore (left right : SystemViewTaskSnapshot) : Bool :=
  decide (right.runtimeCycles < left.runtimeCycles) ||
    (left.runtimeCycles == right.runtimeCycles && decide (left.id ≤ right.id))

/-- The `tasks` of a snapshot. -/
def snapshotTasks (s : TraceState) : List SystemViewTaskSnapshot :=
  (s.tasks.map fun (id, task) =>
    ⟨id, task.name, task.priority, s.reportedRuntime id task, task.switches⟩).mergeSort
      reportedBefore

end TraceState

/-! ## The book -/

structure Book where
  charges : List (Charge UInt32) := []
  /-- The deltas of overflow packets and of packets behind a sync marker. -/
  barred : List (Charge Unit) := []

namespace TraceState

/-- What `close_active_task` charges. -/
def charge (s : TraceState) (atCycles : Nat) : List (Charge UInt32) :=
  match s.activeTask with
  | some (taskId, startedAt) => [⟨taskId, startedAt, atCycles⟩]
  | none => []

/-- Whether the packet says that what lies between it and the one before is not known. -/
def breaks (p : ParsedPacket) : Bool := p.syncBoundary || p.eventId == 1

/-- Whether the event closes the open interval. -/
def closes (s : TraceState) (p : ParsedPacket) : Bool :=
  p.eventId ∈ [5, 11, 17] || (p.eventId == 2 && s.isrDepth == 0) ||
    (p.eventId == 4 && p.fields[0]?.isSome) ||
    (p.eventId == 29 && p.fields[0]?.isSome && s.activeTaskId == p.fields[0]?)

/-- The terminated task that a new one takes the id of. -/
def reuses (s : TraceState) (p : ParsedPacket) (id : UInt32) : Bool :=
  p.eventId == 8 && p.fields[0]? == some id && (s.tasks.lookup id).any (·.terminated)

/-- The book behind the event of a packet. -/
def bookEvent (s : TraceState) (b : Book) (p : ParsedPacket) : Book :=
  { b with charges := (if s.closes p then b.charges ++ s.charge s.lastTargetCycles
      else b.charges).filter fun c => !s.reuses p c.key }

/-- The book behind an operation. -/
def book (s : TraceState) (b : Book) : Op → Book
  | .packet p _ _ => (s.advance p).bookEvent
      (if breaks p then
        ⟨b.charges ++ s.charge s.lastTargetCycles,
          b.barred ++ [⟨(), s.lastTargetCycles, (s.advance p).lastTargetCycles⟩]⟩
      else b) p
  | .inputGap => { b with charges := b.charges ++ s.charge s.lastTargetCycles }
  | .clear => { b with charges := [] }

/-- The book behind a run. -/
def books (s : TraceState) (b : Book) : List Op → Book
  | [] => b
  | op :: ops => (s.apply op).books (s.book b op) ops

end TraceState

/-! ## Tasks -/

namespace Tasks

/-- The entries of a `BTreeMap`. -/
def Ordered (tasks : Tasks) : Prop := tasks.Pairwise fun x y => x.1 < y.1

def runtimeOf (tasks : Tasks) (id : UInt32) : Nat :=
  (tasks.lookup id).elim 0 (·.runtimeCycles)

variable {tasks : Tasks} {id : UInt32} {f : TaskState → TaskState}

theorem keys_update {id' : UInt32} (h : id' ∈ (update id f tasks).map (·.1)) :
    id' = id ∨ id' ∈ tasks.map (·.1) := by
  induction tasks with
  | nil => simpa [update] using h
  | cons entry tasks ih =>
    obtain ⟨key, task⟩ := entry
    unfold update at h
    split_ifs at h with hlt heq
    · simpa using h
    · simp only [List.map_cons, List.mem_cons] at h ⊢
      exact .inr h
    · simp only [List.map_cons, List.mem_cons] at h ⊢
      rcases h with h | h
      · exact .inr (.inl h)
      · rcases ih h with h | h
        · exact .inl h
        · exact .inr (.inr h)

theorem ordered_update (h : Ordered tasks) : Ordered (update id f tasks) := by
  induction tasks with
  | nil => exact List.pairwise_singleton _ _
  | cons entry tasks ih =>
    obtain ⟨key, task⟩ := entry
    obtain ⟨hfirst, hrest⟩ := List.pairwise_cons.mp h
    unfold update
    split_ifs with hlt heq
    · refine List.pairwise_cons.mpr ⟨fun entry hentry => ?_, h⟩
      rcases List.mem_cons.mp hentry with rfl | hentry
      · exact hlt
      · exact UInt32.lt_trans hlt (hfirst entry hentry)
    · exact List.pairwise_cons.mpr ⟨fun entry hentry => hfirst entry hentry, hrest⟩
    · refine List.pairwise_cons.mpr ⟨fun entry hentry => ?_, ih hrest⟩
      rcases keys_update (List.mem_map_of_mem hentry) with hid | hmem
      · exact hid ▸ UInt32.lt_of_le_of_ne (UInt32.not_lt.mp hlt) (Ne.symm heq)
      · obtain ⟨entry', hentry', hkey⟩ := List.mem_map.mp hmem
        exact hkey ▸ hfirst entry' hentry'

theorem lookup_eq_none_of_lt (h : ∀ entry ∈ tasks, id < entry.1) : tasks.lookup id = none := by
  induction tasks with
  | nil => rfl
  | cons entry tasks ih =>
    obtain ⟨key, task⟩ := entry
    have hlt : id < key := h (key, task) List.mem_cons_self
    rw [List.lookup_cons, show (id == key) = false from beq_false_of_ne (UInt32.ne_of_lt hlt)]
    exact ih fun entry hentry => h entry (List.mem_cons_of_mem _ hentry)

theorem lookup_update (h : Ordered tasks) (id' : UInt32) :
    (update id f tasks).lookup id' =
      if id' = id then some (f ((tasks.lookup id).getD {})) else tasks.lookup id' := by
  induction tasks with
  | nil =>
    by_cases hid : id' = id
    · simp [update, hid]
    · simp [update, List.lookup_cons, hid, beq_false_of_ne hid]
  | cons entry tasks ih =>
    obtain ⟨key, task⟩ := entry
    obtain ⟨hfirst, hrest⟩ := List.pairwise_cons.mp h
    unfold update
    by_cases hlt : id < key
    · rw [if_pos hlt]
      have hnone : List.lookup id ((key, task) :: tasks) = none :=
        lookup_eq_none_of_lt fun entry hentry => by
          rcases List.mem_cons.mp hentry with rfl | hentry
          · exact hlt
          · exact UInt32.lt_trans hlt (hfirst entry hentry)
      by_cases hid : id' = id
      · rw [if_pos hid, hnone, hid]
        simp
      · rw [if_neg hid, List.lookup_cons, beq_false_of_ne hid]
    · rw [if_neg hlt]
      by_cases heq : id = key
      · rw [if_pos heq]
        by_cases hid : id' = id
        · rw [if_pos hid, hid, heq]
          simp
        · rw [if_neg hid, List.lookup_cons, List.lookup_cons,
            beq_false_of_ne (show id' ≠ key from heq ▸ hid)]
      · rw [if_neg heq, List.lookup_cons, ih hrest, List.lookup_cons, List.lookup_cons,
          beq_false_of_ne heq]
        by_cases hid : id' = id
        · rw [if_pos hid, if_pos hid, hid, beq_false_of_ne heq]
        · rw [if_neg hid, if_neg hid]

/-- A change that leaves the runtime of a task alone. -/
theorem runtimeOf_update (h : Ordered tasks) (hf : ∀ task, (f task).runtimeCycles = task.runtimeCycles)
    (id' : UInt32) : (update id f tasks).runtimeOf id' = tasks.runtimeOf id' := by
  unfold runtimeOf
  rw [lookup_update h]
  by_cases hid : id' = id
  · rw [if_pos hid, hid]
    cases hlookup : tasks.lookup id with
    | none => exact hf {}
    | some task => exact hf task
  · rw [if_neg hid]

theorem lookup_of_mem (h : Ordered tasks) {task : TaskState} (hmem : (id, task) ∈ tasks) :
    tasks.lookup id = some task := by
  induction tasks with
  | nil => cases hmem
  | cons entry tasks ih =>
    obtain ⟨hfirst, hrest⟩ := List.pairwise_cons.mp h
    rcases List.mem_cons.mp hmem with rfl | hmem
    · simp
    · have hlt := hfirst _ hmem
      rw [List.lookup_cons, beq_false_of_ne (UInt32.ne_of_lt hlt).symm]
      exact ih hrest hmem

end Tasks

/-! ## What the book keeps -/

namespace TraceState

/-- Where the open interval begins, or would begin now. -/
def since (s : TraceState) : Nat :=
  match s.activeTask with
  | some (_, startedAt) => startedAt
  | none => s.lastTargetCycles

/-- The book agrees with the runtimes, and charges nothing twice and nothing that is barred. -/
structure Booked (s : TraceState) (b : Book) : Prop where
  ordered : s.tasks.Ordered
  runtime : ∀ id, s.tasks.runtimeOf id = Charge.charged id b.charges
  charges : Charge.Chronological s.windowStartCycles s.since b.charges
  window : s.windowStartCycles ≤ s.since
  since_le : s.since ≤ s.lastTargetCycles
  last_lt : s.lastTargetCycles < 2 ^ 64
  barred : ∀ d ∈ b.barred, d.stop ≤ s.since
  apart : ∀ c ∈ b.charges, ∀ d ∈ b.barred, c.stop ≤ d.start ∨ d.stop ≤ c.start

section Steps

variable {s s' : TraceState} {b : Book}

/-- Only some of the fields matter. -/
theorem Booked.congr (h : Booked s b) (hwindow : s'.windowStartCycles = s.windowStartCycles)
    (hlast : s'.lastTargetCycles = s.lastTargetCycles) (hactive : s'.activeTask = s.activeTask)
    (htasks : s'.tasks = s.tasks) : Booked s' b := by
  have hsince : s'.since = s.since := by simp only [since, hactive, hlast]
  refine ⟨by rw [htasks]; exact h.ordered, by rw [htasks]; exact h.runtime, ?_, ?_, ?_, ?_, ?_,
    h.apart⟩
  · rw [hwindow, hsince]
    exact h.charges
  · rw [hwindow, hsince]
    exact h.window
  · rw [hsince, hlast]
    exact h.since_le
  · rw [hlast]
    exact h.last_lt
  · rw [hsince]
    exact h.barred

/-- The open interval can be charged as far as time has got. -/
theorem Booked.charge (h : Booked s b) :
    Charge.Chronological s.windowStartCycles s.lastTargetCycles
        (b.charges ++ s.charge s.lastTargetCycles) ∧
      ∀ c ∈ b.charges ++ s.charge s.lastTargetCycles, ∀ d ∈ b.barred,
        c.stop ≤ d.start ∨ d.stop ≤ c.start := by
  have hcharges := h.charges
  have hwindow := h.window
  have hle := h.since_le
  have hbarred := h.barred
  unfold since at hcharges hwindow hle hbarred
  unfold TraceState.charge
  cases hactive : s.activeTask with
  | none =>
    simp only [hactive] at hcharges
    simp only [List.append_nil]
    exact ⟨hcharges, h.apart⟩
  | some active =>
    obtain ⟨taskId, startedAt⟩ := active
    simp only [hactive] at hcharges hwindow hle hbarred
    refine ⟨hcharges.concat taskId hwindow le_rfl hle, fun c hc d hd => ?_⟩
    rcases List.mem_append.mp hc with hc | hc
    · exact h.apart c hc d hd
    · obtain rfl := List.mem_singleton.mp hc
      exact .inr (hbarred d hd)

theorem length_charge (s : TraceState) (id : UInt32) : Charge.charged id (s.charge s.lastTargetCycles) =
    if s.activeTaskId = some id then s.lastTargetCycles - s.since else 0 := by
  unfold TraceState.charge since activeTaskId
  cases s.activeTask with
  | none => rfl
  | some active =>
    rw [Charge.charged_singleton]
    simp [Charge.length]

/-- The runtime with the open interval does not saturate. -/
theorem Booked.runtime_charge (h : Booked s b) {id : UInt32} (hid : s.activeTaskId = some id) :
    saturatingAdd64 (s.tasks.runtimeOf id) (s.lastTargetCycles - s.since) =
      Charge.charged id (b.charges ++ s.charge s.lastTargetCycles) := by
  have hle : Charge.charged id (b.charges ++ s.charge s.lastTargetCycles) ≤
      Charge.total (b.charges ++ s.charge s.lastTargetCycles) := Charge.charged_le_total
  have htotal := h.charge.1.total_le (h.window.trans h.since_le)
  have hlast := h.last_lt
  rw [Charge.charged_append, length_charge, if_pos hid, ← h.runtime] at *
  unfold saturatingAdd64
  omega

theorem Booked.close (h : Booked s b) :
    Booked (s.closeActiveTask s.lastTargetCycles)
      { b with charges := b.charges ++ s.charge s.lastTargetCycles } := by
  obtain ⟨hchronological, hapart⟩ := h.charge
  cases hactive : s.activeTask with
  | none =>
    have hcharge : s.charge s.lastTargetCycles = [] := by simp only [TraceState.charge, hactive]
    simp only [closeActiveTask, hactive, hcharge, List.append_nil]
    exact h
  | some active =>
    obtain ⟨taskId, startedAt⟩ := active
    have hsince : s.since = startedAt := by simp only [since, hactive]
    have hid : s.activeTaskId = some taskId := by simp only [activeTaskId, hactive, Option.map_some]
    simp only [closeActiveTask, hactive]
    refine ⟨Tasks.ordered_update h.ordered, fun id => ?_, hchronological,
      h.window.trans h.since_le, le_rfl, h.last_lt, fun d hd => (h.barred d hd).trans h.since_le,
      hapart⟩
    unfold Tasks.runtimeOf
    rw [Tasks.lookup_update h.ordered]
    by_cases heq : id = taskId
    · rw [if_pos heq, heq, ← h.runtime_charge hid, hsince, Tasks.runtimeOf]
      cases s.tasks.lookup taskId <;> rfl
    · rw [if_neg heq, Charge.charged_append, length_charge, if_neg, ← h.runtime]
      · rfl
      · rw [hid]
        exact fun h' => heq (Option.some.inj h').symm

/-- Time passes. -/
theorem Booked.pass (h : Booked s b) {cycles : Nat} (hle : s.lastTargetCycles ≤ cycles)
    (hlt : cycles < 2 ^ 64) : Booked { s with lastTargetCycles := cycles } b := by
  have hsince : s.since ≤ ({ s with lastTargetCycles := cycles } : TraceState).since := by
    unfold since
    cases s.activeTask with
    | none => exact hle
    | some active => exact le_rfl
  refine ⟨h.ordered, h.runtime, h.charges.mono hsince, h.window.trans hsince, ?_, hlt,
    fun d hd => (h.barred d hd).trans hsince, h.apart⟩
  have := h.since_le
  unfold since at this ⊢
  cases hactive : s.activeTask with
  | none => exact le_rfl
  | some active =>
    simp only [hactive] at this
    exact this.trans hle

/-- A task begins to run, or goes on. -/
theorem Booked.start (h : Booked s b) (taskId : UInt32) :
    Booked { s with activeTask := some (taskId, s.lastTargetCycles) } b :=
  ⟨h.ordered, h.runtime, h.charges.mono h.since_le, h.window.trans h.since_le, le_rfl, h.last_lt,
    fun d hd => (h.barred d hd).trans h.since_le, h.apart⟩

theorem Booked.update (h : Booked s b) (id : UInt32) {f : TaskState → TaskState}
    (hf : ∀ task, (f task).runtimeCycles = task.runtimeCycles) :
    Booked { s with tasks := s.tasks.update id f } b :=
  ⟨Tasks.ordered_update h.ordered, fun id' => by
    rw [Tasks.runtimeOf_update h.ordered hf]
    exact h.runtime id', h.charges, h.window, h.since_le, h.last_lt, h.barred, h.apart⟩

/-- The book changes by leaving charges out. -/
theorem Booked.reuse (h : Booked s b) (id : UInt32) :
    Booked { s with tasks := s.tasks.update id fun task => if task.terminated then {} else task }
      { b with charges := b.charges.filter fun c =>
          !(some id == some c.key && (s.tasks.lookup c.key).any (·.terminated)) } := by
  refine ⟨Tasks.ordered_update h.ordered, fun id' => ?_, h.charges.filter _, h.window, h.since_le,
    h.last_lt, h.barred, fun c hc => h.apart c (List.mem_of_mem_filter hc)⟩
  have hruntime := h.runtime
  unfold Tasks.runtimeOf at hruntime ⊢
  rw [Tasks.lookup_update h.ordered]
  by_cases hterminated : (s.tasks.lookup id).any (·.terminated) = true
  · -- the charges of the old task go with it
    have hfilter : (b.charges.filter fun c =>
        !(some id == some c.key && (s.tasks.lookup c.key).any (·.terminated))) =
          b.charges.filter fun c => c.key ≠ id := by
      refine List.filter_congr fun c _ => ?_
      by_cases hkey : c.key = id
      · simp [hkey, hterminated]
      · simp [hkey, Ne.symm hkey]
    rw [hfilter, Charge.charged_filter_ne, ← hruntime id']
    by_cases hid : id' = id
    · rw [if_pos hid, if_pos hid]
      obtain ⟨task, hlookup, htask⟩ := (Option.any_eq_true _ _).mp hterminated
      simp [hlookup, htask]
    · rw [if_neg hid, if_neg hid]
  · have hfilter : (b.charges.filter fun c =>
        !(some id == some c.key && (s.tasks.lookup c.key).any (·.terminated))) = b.charges := by
      refine List.filter_eq_self.mpr fun c _ => ?_
      by_cases hkey : c.key = id
      · simp [hkey, hterminated]
      · simp [Ne.symm hkey]
    rw [hfilter, ← hruntime id']
    by_cases hid : id' = id
    · rw [if_pos hid, hid]
      cases hlookup : s.tasks.lookup id with
      | none => rfl
      | some task =>
        have htask : task.terminated = false := by simpa [hlookup] using hterminated
        simp [htask]
    · rw [if_neg hid]

theorem Booked.endExecution (h : Booked s b) :
    Booked (s.endExecution s.lastTargetCycles)
      { b with charges := b.charges ++ s.charge s.lastTargetCycles } :=
  h.close.congr rfl rfl rfl rfl

theorem closeActiveTask_last (cycles : Nat) :
    (s.closeActiveTask cycles).lastTargetCycles = s.lastTargetCycles := by
  unfold closeActiveTask
  cases s.activeTask <;> rfl

theorem closeActiveTask_of_none (h : s.activeTask = none) (cycles : Nat) :
    s.closeActiveTask cycles = s := by
  simp only [closeActiveTask, h]

theorem closeActiveTask_active (cycles : Nat) : (s.closeActiveTask cycles).activeTask = none := by
  unfold closeActiveTask
  cases hactive : s.activeTask with
  | none => exact hactive
  | some active => rfl

/-- What comes before the event: after a break the delta of the packet is nobody's. -/
theorem Booked.advance (h : Booked s b) (p : ParsedPacket) :
    Booked (s.advance p)
      (if breaks p then
        ⟨b.charges ++ s.charge s.lastTargetCycles,
          b.barred ++ [⟨(), s.lastTargetCycles, (s.advance p).lastTargetCycles⟩]⟩
      else b) := by
  have hpass : ∀ {s' : TraceState} {b' : Book}, Booked s' b' →
      s'.lastTargetCycles = s.lastTargetCycles → Booked { s' with
        lastTargetCycles := saturatingAdd64 s.lastTargetCycles p.deltaCycles.toNat
        eventCount := saturatingAdd64 s'.eventCount 1 } b' := fun h' hlast => by
    have hlt := h.last_lt
    refine (@Booked.pass _ _ h' (saturatingAdd64 s.lastTargetCycles p.deltaCycles.toNat) ?_ ?_).congr
      rfl rfl rfl rfl
    · rw [hlast]
      unfold saturatingAdd64
      omega
    · unfold saturatingAdd64
      omega
  have hsync : p.syncBoundary = true ∨ p.eventId = 1 ↔ breaks p = true := by simp [breaks]
  by_cases hbreaks : breaks p = true
  · rw [if_pos hbreaks]
    -- whatever was open is closed where the delta begins
    have hended : (s.advance p).activeTask = none ∧ ∃ t : TraceState,
        Booked t { b with charges := b.charges ++ s.charge s.lastTargetCycles } ∧
        t.lastTargetCycles = s.lastTargetCycles ∧ s.advance p = { t with
          lastTargetCycles := saturatingAdd64 s.lastTargetCycles p.deltaCycles.toNat
          eventCount := saturatingAdd64 t.eventCount 1 } := by
      unfold TraceState.advance
      by_cases hp : p.syncBoundary = true
      · simp only [if_pos hp]
        by_cases hid : p.eventId = 1
        · simp only [if_pos hid]
          have hnone : (s.endExecution s.lastTargetCycles).activeTask = none :=
            closeActiveTask_active _
          have hagain : (s.endExecution s.lastTargetCycles).endExecution s.lastTargetCycles =
              s.endExecution s.lastTargetCycles := by
            unfold TraceState.endExecution at hnone ⊢
            rw [closeActiveTask_of_none hnone]
          rw [hagain]
          exact ⟨hnone, _, h.endExecution, closeActiveTask_last _, rfl⟩
        · simp only [if_neg hid]
          exact ⟨closeActiveTask_active _, _, h.endExecution, closeActiveTask_last _, rfl⟩
      · have hid := (hsync.mpr hbreaks).resolve_left hp
        simp only [if_neg hp, if_pos hid]
        exact ⟨closeActiveTask_active _, _, h.endExecution, closeActiveTask_last _, rfl⟩
    obtain ⟨hnone, t, ht, hlast, heq⟩ := hended
    have hmoved := hpass ht hlast
    rw [← heq] at hmoved
    have hsince : (s.advance p).since = (s.advance p).lastTargetCycles := by
      simp only [since, hnone]
    refine ⟨hmoved.ordered, hmoved.runtime, hmoved.charges, hmoved.window, hmoved.since_le,
      hmoved.last_lt, fun d hd => ?_, fun c hc d hd => ?_⟩
    · rcases List.mem_append.mp hd with hd | hd
      · exact hmoved.barred d hd
      · obtain rfl := List.mem_singleton.mp hd
        exact hsince.ge
    · rcases List.mem_append.mp hd with hd | hd
      · exact hmoved.apart c hc d hd
      · obtain rfl := List.mem_singleton.mp hd
        obtain ⟨-, -, hstop⟩ := h.charge.1.within c hc
        exact .inl hstop
  · rw [if_neg hbreaks]
    obtain ⟨hno, hne⟩ := not_or.mp (hsync.not.mpr hbreaks)
    unfold TraceState.advance
    simp only [if_neg hno, if_neg hne]
    exact hpass h rfl

section Event

variable {p : ParsedPacket}

theorem bookEvent_closes (hcloses : s.closes p = true) (h8 : p.eventId ≠ 8) : s.bookEvent b p =
    { b with charges := b.charges ++ s.charge s.lastTargetCycles } := by
  have h8' : (p.eventId == 8) = false := beq_false_of_ne h8
  simp [bookEvent, hcloses, reuses, h8']

theorem bookEvent_keeps (hcloses : s.closes p = false) (h8 : p.eventId ≠ 8) :
    s.bookEvent b p = b := by
  have h8' : (p.eventId == 8) = false := beq_false_of_ne h8
  simp [bookEvent, hcloses, reuses, h8']

theorem Booked.event (h : Booked s b) (track : Bool) (now : Nat) :
    Booked (s.applyEventId p track now) (s.bookEvent b p) := by
  unfold applyEventId
  split
  · rename_i hid
    rw [bookEvent_keeps (by simp [closes, hid]) (by simp [hid])]
    exact h.congr rfl rfl rfl rfl
  · rename_i hid
    dsimp only
    by_cases hdepth : s.isrDepth = 0
    · rw [bookEvent_closes (by simp [closes, hid, hdepth]) (by simp [hid]), if_pos hdepth]
      exact h.close.congr rfl rfl rfl rfl
    · rw [bookEvent_keeps (by simp [closes, hid, hdepth]) (by simp [hid]), if_neg hdepth]
      exact h.congr rfl rfl rfl rfl
  · rename_i hid
    rw [bookEvent_keeps (by simp [closes, hid]) (by simp [hid])]
    dsimp only
    by_cases hdepth : s.isrDepth - 1 = 0
    · rw [if_pos hdepth]
      cases s.interruptedTask with
      | none => exact h.congr rfl rfl rfl rfl
      | some taskId => exact (h.start taskId).congr rfl rfl rfl rfl
    · rw [if_neg hdepth]
      exact h.congr rfl rfl rfl rfl
  · rename_i hid
    cases hfield : p.fields[0]? with
    | none =>
      rw [bookEvent_keeps (by simp [closes, hid, hfield]) (by simp [hid])]
      exact h
    | some taskId =>
      rw [bookEvent_closes (by simp [closes, hid, hfield]) (by simp [hid])]
      dsimp only
      exact ((h.endExecution.update (f := fun task =>
        { task with switches := saturatingAdd64 task.switches 1 }) taskId fun _ => rfl).start
          taskId).congr rfl rfl rfl rfl
  · rename_i hid
    rw [bookEvent_closes (by simp [closes, hid]) (by simp [hid])]
    exact h.close.congr rfl rfl rfl rfl
  · rename_i hid
    rw [bookEvent_closes (by simp [closes, hid]) (by simp [hid])]
    exact h.close.congr rfl rfl rfl rfl
  · rename_i hid
    cases hfield : p.fields[0]? with
    | none =>
      have hbook : s.bookEvent b p = b := by simp [bookEvent, closes, reuses, hid, hfield]
      rw [hbook]
      exact h
    | some taskId =>
      have hbook : s.bookEvent b p = { b with charges := b.charges.filter fun c =>
          !(some taskId == some c.key && (s.tasks.lookup c.key).any (·.terminated)) } := by
        simp [bookEvent, closes, reuses, hid, hfield]
      rw [hbook]
      exact h.reuse taskId
  · rename_i hid
    cases hfield : p.fields[0]? with
    | none =>
      rw [bookEvent_keeps (by simp [closes, hid, hfield]) (by simp [hid])]
      exact h
    | some taskId =>
      dsimp only
      by_cases hactive : s.activeTaskId = some taskId
      · rw [bookEvent_closes (by simp [closes, hid, hfield, hactive]) (by simp [hid]),
          if_pos hactive]
        have hclosed := h.close.update (f := fun task => { task with terminated := true }) taskId
          fun _ => rfl
        split_ifs
        · exact hclosed.congr rfl rfl rfl rfl
        · exact hclosed
      · rw [bookEvent_keeps (by simp [closes, hid, hfield, hactive]) (by simp [hid]),
          if_neg hactive]
        have hkept := h.update (f := fun task => { task with terminated := true }) taskId
          fun _ => rfl
        split_ifs
        · exact hkept.congr rfl rfl rfl rfl
        · exact hkept
  · rename_i hid
    rw [bookEvent_keeps (by simp [closes, hid]) (by simp [hid])]
    cases p.fields[0]? with
    | none => exact h
    | some taskId => exact h.update taskId fun task => rfl
  · rename_i hid
    rw [bookEvent_keeps (by simp [closes, hid]) (by simp [hid])]
    exact h.congr rfl rfl rfl rfl
  · rename_i hid
    rw [bookEvent_closes (by simp [closes, hid]) (by simp [hid])]
    exact h.endExecution.congr rfl rfl rfl rfl
  · rename_i hid
    rw [bookEvent_keeps (by simp [closes, hid]) (by simp [hid])]
    cases p.text with
    | none => exact h
    | some description =>
      dsimp only
      split_ifs
      · exact h.congr rfl rfl rfl rfl
      · exact h
  · rename_i hid
    rw [bookEvent_keeps (by simp [closes, hid]) (by simp [hid])]
    exact h.congr rfl rfl rfl rfl
  · rename_i hid
    rw [bookEvent_keeps (by simp [closes, hid]) (by simp [hid])]
    exact h.congr rfl rfl rfl rfl
  · rename_i h1 h2 h3 h4 h5 h17 h8 h29 h9 h10 h11 h14 h18 h24
    rw [bookEvent_keeps (by simp_all [closes]) h8]
    exact h

end Event

theorem Booked.clear (h : Booked s b) : Booked s.clear { b with charges := [] } := by
  have hsince : s.clear.since = s.lastTargetCycles := by
    unfold since TraceState.clear
    cases s.activeTaskId with
    | none => rfl
    | some taskId => rfl
  refine ⟨?_, fun id => ?_, Charge.chronological_nil, hsince.ge, hsince.le, h.last_lt,
    fun d hd => ?_, nofun⟩
  · exact List.Pairwise.map _ (fun _ _ hlt => hlt) h.ordered
  · have hzero : ∀ tasks : Tasks, Tasks.runtimeOf (tasks.map fun entry =>
        (entry.1, { entry.2 with runtimeCycles := 0, switches := 0 })) id = 0 := by
      intro tasks
      induction tasks with
      | nil => rfl
      | cons entry tasks ih =>
        obtain ⟨key, task⟩ := entry
        unfold Tasks.runtimeOf at ih ⊢
        rw [List.map_cons, List.lookup_cons]
        cases id == key with
        | true => rfl
        | false => exact ih
    exact hzero s.tasks
  · rw [hsince]
    exact (h.barred d hd).trans h.since_le

theorem Booked.apply (h : Booked s b) (op : Op) : Booked (s.apply op) (s.book b op) := by
  cases op with
  | packet p track now => exact ((h.advance p).event track now).congr rfl rfl rfl rfl
  | inputGap => exact h.endExecution
  | clear => exact h.clear

theorem Booked.run (h : Booked s b) (ops : List Op) : Booked (s.run ops) (s.books b ops) := by
  induction ops generalizing s b with
  | nil => exact h
  | cons op ops ih => exact ih (h.apply op)

theorem booked_new (generation channelIndex : Nat) (controlAvailable : Bool) :
    Booked (new generation channelIndex controlAvailable) {} :=
  ⟨.nil, fun _ => rfl, Charge.chronological_nil, le_rfl, le_rfl, (by decide : 0 < 2 ^ 64), nofun,
    nofun⟩

/-! ## The snapshot -/

theorem Booked.reportedRuntime (h : Booked s b) {id : UInt32} {task : TaskState}
    (hmem : (id, task) ∈ s.tasks) : s.reportedRuntime id task =
      Charge.charged id (b.charges ++ s.charge s.lastTargetCycles) := by
  have hruntime : s.tasks.runtimeOf id = task.runtimeCycles := by
    rw [Tasks.runtimeOf, Tasks.lookup_of_mem h.ordered hmem]
    rfl
  by_cases hid : s.activeTaskId = some id
  · rw [← h.runtime_charge hid, hruntime]
    obtain ⟨⟨taskId, startedAt⟩, hactive, rfl⟩ := Option.map_eq_some_iff.mp hid
    simp [TraceState.reportedRuntime, since, hactive]
  · rw [Charge.charged_append, length_charge, if_neg hid, ← h.runtime, hruntime, Nat.add_zero]
    unfold TraceState.reportedRuntime
    cases hactive : s.activeTask with
    | none => rfl
    | some active =>
      obtain ⟨taskId, startedAt⟩ := active
      exact if_neg fun heq => hid (by rw [activeTaskId, hactive, ← heq]; rfl)

theorem Booked.snapshotTasks (h : Booked s b) :
    ∀ t ∈ s.snapshotTasks, t.runtimeCycles =
      Charge.charged t.id (b.charges ++ s.charge s.lastTargetCycles) := by
  intro t ht
  have ht := (List.mergeSort_perm _ _).mem_iff.mp ht
  obtain ⟨⟨id, task⟩, hmem, rfl⟩ := List.mem_map.mp ht
  exact h.reportedRuntime hmem

theorem Booked.snapshotTasks_sum (h : Booked s b) :
    (s.snapshotTasks.map (·.runtimeCycles)).sum ≤ s.lastTargetCycles - s.windowStartCycles := by
  have hids : (s.tasks.map (·.1)).Nodup :=
    List.pairwise_map.mpr (h.ordered.imp fun hlt => UInt32.ne_of_lt hlt)
  have hsum : (s.snapshotTasks.map (·.runtimeCycles)).sum =
      ((s.tasks.map (·.1)).map fun id =>
        Charge.charged id (b.charges ++ s.charge s.lastTargetCycles)).sum := by
    unfold TraceState.snapshotTasks
    rw [((List.mergeSort_perm _ _).map _).sum_eq, List.map_map, List.map_map]
    refine congrArg List.sum (List.map_congr_left fun entry hentry => ?_)
    exact h.reportedRuntime hentry
  rw [hsum]
  exact (Charge.sum_charged_le hids).trans (h.charge.1.total_le (h.window.trans h.since_le))

end Steps

/-- In every run the runtimes of a snapshot add up to no more than its window. Each of them is the
length of the intervals charged to the task; the intervals lie in the window, no two of them
overlap, and none reaches into a delta that is barred. -/
theorem runtime_charged_once (generation channelIndex : Nat) (controlAvailable : Bool)
    (ops : List Op) :
    let s := (new generation channelIndex controlAvailable).run ops
    let b := (new generation channelIndex controlAvailable).books {} ops
    let charges := b.charges ++ s.charge s.lastTargetCycles
    (s.snapshotTasks.map (·.runtimeCycles)).sum ≤ s.lastTargetCycles - s.windowStartCycles ∧
      (∀ t ∈ s.snapshotTasks, t.runtimeCycles = Charge.charged t.id charges) ∧
      (∀ c ∈ charges, s.windowStartCycles ≤ c.start ∧ c.start ≤ c.stop ∧
        c.stop ≤ s.lastTargetCycles) ∧
      charges.Pairwise Charge.Apart ∧
      ∀ c ∈ charges, ∀ d ∈ b.barred, c.stop ≤ d.start ∨ d.stop ≤ c.start := by
  intro s b charges
  have h : Booked s b := (booked_new generation channelIndex controlAvailable).run ops
  exact ⟨h.snapshotTasks_sum, h.snapshotTasks, h.charge.1.within, h.charge.1.apart, h.charge.2⟩

/-- An interrupt in between: 20 cycles before it and 30 behind it. -/
def interrupted : List Op :=
  [.packet { eventId := 4, fields := [2], deltaCycles := 10 } true 0,
    .packet { eventId := 2, fields := [15], deltaCycles := 20 } true 0,
    .packet { eventId := 3, deltaCycles := 20 } true 0,
    .packet { eventId := 5, deltaCycles := 30 } true 0]

example : ((new 7 1 true).run interrupted).tasks.runtimeOf 2 = 50 := by decide

end TraceState

end TauTerm.Rtt
