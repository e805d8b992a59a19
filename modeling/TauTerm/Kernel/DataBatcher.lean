import Mathlib
import TauTerm.Kernel.Base64
import TauTerm.Lib.Run

/-!
# The data batcher

The loop `DataBatcher::run` of `kernel/data_batcher.rs`, with what its channel gives it as events.
A `HashMap` is iterated in any order, so an event that makes the loop go through its map brings the
order with it. Time is in milliseconds.
-/

namespace TauTerm.Kernel

open Lib

def BATCH_WINDOW_MS : Nat := 16

def BATCH_FLUSH_THRESHOLD : Nat := 32 * 1024

structure BatchedData (κ : Type) where
  identity : κ
  dataB64 : List Char
  deriving DecidableEq

structure Pending where
  buf : List UInt8 := []
  windowStart : Option Nat := none
  deriving DecidableEq

/-- What `recv_timeout` returns, the time it returns at, and how the map is iterated then. -/
inductive BatchEvent (κ : Type) where
  | push (identity : κ) (data : List UInt8) (now : Nat)
  | shutdown (order : List κ)
  | timeout (now : Nat) (order : List κ)
  | disconnected (order : List κ)
  deriving DecidableEq

structure DataBatcher (κ : Type) where
  pendingMap : κ → Option Pending := fun _ => none
  emitted : List (BatchedData κ) := []
  running : Bool := true

namespace DataBatcher

variable {κ : Type} [DecidableEq κ]

def emit (b : DataBatcher κ) (identity : κ) (buf : List UInt8) : DataBatcher κ :=
  { b with emitted := b.emitted ++ [⟨identity, base64Encode buf⟩] }

def remove (b : DataBatcher κ) (identity : κ) : DataBatcher κ :=
  { b with pendingMap := Function.update b.pendingMap identity none }

def insert (b : DataBatcher κ) (identity : κ) (entry : Pending) : DataBatcher κ :=
  { b with pendingMap := Function.update b.pendingMap identity (some entry) }

/-- Take an entry out of the map, and emit what it holds. -/
def flush (b : DataBatcher κ) (identity : κ) : DataBatcher κ :=
  match b.pendingMap identity with
  | some p => (if p.buf.isEmpty then b else b.emit identity p.buf).remove identity
  | none => b

def handlePush (b : DataBatcher κ) (identity : κ) (data : List UInt8) (now : Nat) : DataBatcher κ :=
  let entry := (b.pendingMap identity).getD {}
  let entry : Pending := ⟨entry.buf ++ data, entry.windowStart.or (some now)⟩
  if BATCH_FLUSH_THRESHOLD ≤ entry.buf.length then (b.emit identity entry.buf).remove identity
  else b.insert identity entry

def expired (b : DataBatcher κ) (now : Nat) (order : List κ) : List κ :=
  order.filter fun identity =>
    (b.pendingMap identity).any fun p => p.windowStart.any fun s => s + BATCH_WINDOW_MS ≤ now

/-- One turn of the loop; behind `break` there is none. -/
def step (b : DataBatcher κ) (e : BatchEvent κ) : DataBatcher κ :=
  if !b.running then b
  else
    match e with
    | .push identity data now => b.handlePush identity data now
    | .timeout now order => (b.expired now order).foldl flush b
    | .shutdown order | .disconnected order => { order.foldl flush b with running := false }

/-- The order is one in which a map can be iterated. -/
def Iterates (b : DataBatcher κ) : BatchEvent κ → Prop
  | .push _ _ _ => True
  | .timeout _ order | .shutdown order | .disconnected order =>
    order.Nodup ∧ ∀ identity, identity ∈ order ↔ (b.pendingMap identity).isSome

/-! ## What an entry holds -/

def held (b : DataBatcher κ) (identity : κ) : List UInt8 :=
  ((b.pendingMap identity).map Pending.buf).getD []

/-- The batches of one identity. -/
def batchesOf (b : DataBatcher κ) (identity : κ) : List (List Char) :=
  (b.emitted.filter (·.identity = identity)).map BatchedData.dataB64

/-- The chunks of one identity have been put together to batches, except for the last of them, which
its entry holds. -/
def Batches (b : DataBatcher κ) (identity : κ) (chunks : List (List UInt8)) : Prop :=
  ∃ (groups : List (List (List UInt8))) (rest : List (List UInt8)),
    chunks = groups.flatten ++ rest ∧
    b.batchesOf identity = groups.map (fun group => base64Encode group.flatten) ∧
    b.held identity = rest.flatten

section Frame

variable (b : DataBatcher κ) (identity : κ) (buf : List UInt8)

theorem batchesOf_emit (other : κ) :
    (b.emit identity buf).batchesOf other =
      b.batchesOf other ++ if identity = other then [base64Encode buf] else [] := by
  unfold batchesOf emit
  by_cases h : identity = other
  · simp [h]
  · simp [h]

theorem batchesOf_remove (other : κ) : (b.remove identity).batchesOf other = b.batchesOf other := rfl

theorem held_remove_self : (b.remove identity).held identity = [] := by
  show ((Function.update b.pendingMap identity none identity).map _).getD [] = _
  rw [Function.update_self]
  rfl

theorem held_remove_of_ne {other : κ} (h : other ≠ identity) :
    (b.remove identity).held other = b.held other := by
  show ((Function.update b.pendingMap identity none other).map _).getD [] = _
  rw [Function.update_of_ne h]
  rfl

theorem held_insert_self (entry : Pending) : (b.insert identity entry).held identity = entry.buf := by
  show ((Function.update b.pendingMap identity (some entry) identity).map _).getD [] = _
  rw [Function.update_self]
  rfl

theorem held_insert_of_ne {other : κ} (h : other ≠ identity) (entry : Pending) :
    (b.insert identity entry).held other = b.held other := by
  show ((Function.update b.pendingMap identity (some entry) other).map _).getD [] = _
  rw [Function.update_of_ne h]
  rfl

end Frame

variable {b : DataBatcher κ} {identity : κ} {chunks : List (List UInt8)}

/-- What is held goes out as a batch. -/
theorem Batches.emit (h : b.Batches identity chunks) {buf : List UInt8} {more : List (List UInt8)}
    (hbuf : buf = b.held identity ++ more.flatten) :
    ((b.emit identity buf).remove identity).Batches identity (chunks ++ more) := by
  obtain ⟨groups, rest, hchunks, hbatches, hheld⟩ := h
  refine ⟨groups ++ [rest ++ more], [], ?_, ?_, held_remove_self _ _⟩
  · rw [hchunks]
    simp
  · rw [batchesOf_remove, batchesOf_emit, if_pos rfl, hbatches, hbuf, hheld]
    simp

theorem Batches.frame {b' : DataBatcher κ} (h : b.Batches identity chunks)
    (hbatches : b'.batchesOf identity = b.batchesOf identity)
    (hheld : b'.held identity = b.held identity) : b'.Batches identity chunks := by
  unfold Batches
  rw [hbatches, hheld]
  exact h

theorem Batches.emit_other (h : b.Batches identity chunks) {other : κ} (hne : other ≠ identity)
    (buf : List UInt8) : ((b.emit other buf).remove other).Batches identity chunks := by
  refine h.frame ?_ (held_remove_of_ne _ _ hne.symm)
  rw [batchesOf_remove, batchesOf_emit, if_neg hne, List.append_nil]

theorem Batches.flush (h : b.Batches identity chunks) (other : κ) :
    (b.flush other).Batches identity chunks := by
  unfold DataBatcher.flush
  cases hentry : b.pendingMap other with
  | none => exact h
  | some p =>
    by_cases hempty : p.buf = []
    · simp only [hempty, List.isEmpty_nil, if_true]
      refine h.frame rfl ?_
      by_cases hne : identity = other
      · subst hne
        rw [held_remove_self]
        unfold held
        rw [hentry]
        exact hempty.symm
      · exact held_remove_of_ne _ _ hne
    · dsimp only
      rw [if_neg (by simpa using hempty)]
      by_cases hne : other = identity
      · subst hne
        have hbuf : p.buf = b.held other ++ [].flatten := by
          unfold held
          rw [hentry]
          simp
        simpa using h.emit hbuf
      · exact h.emit_other hne p.buf

theorem Batches.foldl_flush (h : b.Batches identity chunks) (order : List κ) :
    (order.foldl DataBatcher.flush b).Batches identity chunks := by
  induction order generalizing b with
  | nil => exact h
  | cons other order ih => exact ih (h.flush other)

theorem Batches.handlePush (h : b.Batches identity chunks) (other : κ) (data : List UInt8)
    (now : Nat) : (b.handlePush other data now).Batches identity
      (chunks ++ if other = identity then [data] else []) := by
  have hentry : ((b.pendingMap other).getD {}).buf = b.held other := by
    unfold held
    cases b.pendingMap other <;> rfl
  unfold DataBatcher.handlePush
  dsimp only
  rw [hentry]
  by_cases hne : other = identity
  · subst hne
    rw [if_pos rfl]
    split_ifs
    · exact h.emit (by simp)
    · obtain ⟨groups, rest, hchunks, hbatches, hheld⟩ := h
      refine ⟨groups, rest ++ [data], by rw [hchunks, List.append_assoc], hbatches, ?_⟩
      rw [held_insert_self, hheld]
      simp
  · rw [if_neg hne, List.append_nil]
    split_ifs
    · exact h.emit_other hne _
    · exact h.frame rfl (held_insert_of_ne _ _ (Ne.symm hne) _)

/-! ## Everything goes out -/

theorem held_flush_self (b : DataBatcher κ) (identity : κ) :
    (b.flush identity).held identity = [] := by
  unfold flush
  cases hentry : b.pendingMap identity with
  | none =>
    unfold held
    rw [hentry]
    rfl
  | some p => exact held_remove_self _ identity

theorem held_flush_eq_nil (h : b.held identity = []) (other : κ) :
    (b.flush other).held identity = [] := by
  by_cases hne : identity = other
  · exact hne ▸ held_flush_self b identity
  · unfold flush
    cases b.pendingMap other with
    | none => exact h
    | some p =>
      refine (held_remove_of_ne _ _ hne).trans ?_
      split_ifs
      · exact h
      · exact h

theorem held_foldl_flush {order : List κ} (h : identity ∈ order ∨ b.held identity = []) :
    (order.foldl flush b).held identity = [] := by
  induction order generalizing b with
  | nil => exact h.resolve_left List.not_mem_nil
  | cons other order ih =>
    refine ih ?_
    rcases h with h | h
    · rcases List.mem_cons.mp h with rfl | h
      · exact .inr (held_flush_self b identity)
      · exact .inl h
    · exact .inr (held_flush_eq_nil h other)

/-! ## Runs -/

theorem flush_running (b : DataBatcher κ) (identity : κ) : (b.flush identity).running = b.running := by
  unfold flush
  cases b.pendingMap identity with
  | none => rfl
  | some p =>
    dsimp only
    split_ifs <;> rfl

theorem foldl_flush_running (order : List κ) : (order.foldl flush b).running = b.running := by
  induction order generalizing b with
  | nil => rfl
  | cons identity order ih => exact ih.trans (flush_running b identity)

end DataBatcher

namespace BatchEvent

variable {κ : Type} [DecidableEq κ]

/-- The loop ends. -/
def isStop : BatchEvent κ → Bool
  | shutdown _ | disconnected _ => true
  | push _ _ _ | timeout _ _ => false

/-- The chunks pushed for an identity. -/
def chunksOf (identity : κ) (events : List (BatchEvent κ)) : List (List UInt8) :=
  events.flatMap fun
    | push other data _ => if other = identity then [data] else []
    | _ => []

end BatchEvent

namespace DataBatcher

variable {κ : Type} [DecidableEq κ] {b : DataBatcher κ} {identity : κ} {chunks : List (List UInt8)}

open BatchEvent (chunksOf)

theorem Batches.step (h : b.Batches identity chunks) (hrun : b.running = true) (e : BatchEvent κ) :
    (b.step e).Batches identity (chunks ++ chunksOf identity [e]) := by
  unfold DataBatcher.step
  rw [if_neg (by simp [hrun])]
  cases e with
  | push other data now => simpa [chunksOf] using h.handlePush other data now
  | timeout now order => simpa [chunksOf] using h.foldl_flush (b.expired now order)
  | shutdown order | disconnected order =>
    rw [show chunksOf identity [_] = [] from rfl, List.append_nil]
    exact (h.foldl_flush order).frame rfl rfl

theorem step_running (hrun : b.running = true) (e : BatchEvent κ) :
    (b.step e).running = !e.isStop := by
  unfold step
  rw [if_neg (by simp [hrun])]
  cases e with
  | push identity data now =>
    show (b.handlePush identity data now).running = true
    unfold handlePush
    dsimp only
    split_ifs
    · exact hrun
    · exact hrun
  | timeout now order => exact (foldl_flush_running _).trans hrun
  | shutdown order | disconnected order => rfl

/-- As long as the loop runs, every entry holds the chunks that have not gone out. -/
theorem Batches.run {events : List (BatchEvent κ)} (h : b.Batches identity chunks)
    (hrun : b.running = true) (hevents : ∀ e ∈ events, e.isStop = false) :
    (events.foldl DataBatcher.step b).Batches identity (chunks ++ chunksOf identity events) ∧
      (events.foldl DataBatcher.step b).running = true := by
  induction events generalizing b chunks with
  | nil => exact ⟨by simpa [chunksOf] using h, hrun⟩
  | cons e events ih =>
    have hstep := h.step hrun e
    have hon : (b.step e).running = true := by
      rw [step_running hrun, hevents e List.mem_cons_self]
      rfl
    have htail := ih hstep hon fun e' he' => hevents e' (List.mem_cons_of_mem e he')
    simpa [chunksOf, List.flatMap_cons] using htail

theorem held_stop (hrun : b.running = true) {stop : BatchEvent κ} (hstop : stop.isStop = true)
    (horder : b.Iterates stop) : (b.step stop).held identity = [] := by
  have hdrained : ∀ order : List κ, (∀ other, other ∈ order ↔ (b.pendingMap other).isSome) →
      (order.foldl flush b).held identity = [] := by
    intro order hmem
    refine held_foldl_flush ?_
    by_cases hin : identity ∈ order
    · exact .inl hin
    · refine .inr ?_
      have hnone := Option.not_isSome_iff_eq_none.mp (mt (hmem identity).mpr hin)
      unfold held
      rw [hnone]
      rfl
  unfold step
  rw [if_neg (by simp [hrun])]
  cases stop with
  | push _ _ _ | timeout _ _ => cases hstop
  | shutdown order | disconnected order => exact hdrained order horder.2

theorem foldl_stopped {events : List (BatchEvent κ)} (h : b.running = false) :
    events.foldl step b = b := by
  induction events with
  | nil => rfl
  | cons e events ih =>
    have hstep : b.step e = b := if_pos (by simp [h])
    rw [List.foldl_cons, hstep, ih]

end DataBatcher

open DataBatcher BatchEvent in
/-- **Nothing that was accepted is lost.** Behind the event that ends the loop, whatever comes after
it, the batches of each identity are its chunks in order, put together; and a batch decodes to what
was put into it. -/
theorem batches_deliver {κ : Type} [DecidableEq κ] (before after : List (BatchEvent κ))
    (stop : BatchEvent κ) (hbefore : ∀ e ∈ before, e.isStop = false) (hstop : stop.isStop = true)
    (horder : (before.foldl step {}).Iterates stop) (identity : κ) :
    let b := (before ++ stop :: after).foldl step {}
    (∃ (groups : List (List (List UInt8))) (rest : List (List UInt8)),
      chunksOf identity before = groups.flatten ++ rest ∧ rest.flatten = [] ∧
      b.batchesOf identity = groups.map fun group => base64Encode group.flatten) ∧
    ((b.batchesOf identity).mapM base64Decode).map List.flatten =
      some (chunksOf identity before).flatten ∧
    ∀ bytes, base64Decode (base64Encode bytes) = some bytes := by
  intro b
  have hstart : ({} : DataBatcher κ).Batches identity [] := ⟨[], [], rfl, rfl, rfl⟩
  obtain ⟨hbatches, hrun⟩ := hstart.run rfl hbefore
  have hstopped : ((before.foldl step {}).step stop).running = false := by
    rw [step_running hrun, hstop]
    rfl
  have hb : b = (before.foldl step {}).step stop := by
    show (before ++ stop :: after).foldl step {} = _
    rw [List.foldl_append, List.foldl_cons, foldl_stopped hstopped]
  have hnone : chunksOf identity [stop] = [] := by
    cases stop with
    | push _ _ _ | timeout _ _ => cases hstop
    | shutdown order | disconnected order => rfl
  obtain ⟨groups, rest, hchunks, hemitted, hheld⟩ := hbatches.step hrun stop
  rw [hnone, List.append_nil, List.nil_append] at hchunks
  rw [← hb] at hemitted hheld
  have hrest : rest.flatten = [] := by
    rw [← hheld, hb]
    exact held_stop hrun hstop horder
  refine ⟨⟨groups, rest, hchunks, hrest, hemitted⟩, ?_, base64Decode_encode⟩
  have hmap : groups.map (fun group => base64Encode group.flatten) =
      (groups.map List.flatten).map base64Encode := List.map_map.symm
  rw [hemitted, hmap, mapM_base64Decode, hchunks, List.flatten_append, hrest, List.append_nil,
    List.flatten_flatten]
  rfl

/-- Two identities, one of which is flushed when its window has passed. -/
def twoIdentities : List (BatchEvent Bool) :=
  [.push true [65] 0, .push false [66] 9, .timeout 16 [true, false], .push true [67] 20]

theorem batches_deliver_two :
    ((((twoIdentities ++ BatchEvent.shutdown [false, true] :: []).foldl DataBatcher.step {}).batchesOf
      true).mapM base64Decode).map List.flatten = some [65, 67] :=
  (batches_deliver twoIdentities [] (BatchEvent.shutdown [false, true]) (by decide) rfl
    ⟨by decide, by decide⟩ true).2.1

end TauTerm.Kernel
