import Mathlib

/-!
# Framing loops

A framer appends each chunk it receives to a buffer and takes turns on the
buffer until it must wait for more input or fails. `Framer.run` is the whole
loop on one buffer, `Framer.feed` a sequence of chunks. A framer is `Resumable`
when no turn depends on bytes that have not arrived yet; then the way a stream
is cut into chunks does not matter (`feed_eq_run`).
-/

namespace Lib

variable {α β ε : Type}

/-- What one turn of a framing loop does with the buffered input. -/
inductive Turn (α β ε : Type) where
  | wait (keep : List α)
  | skip (rest : List α)
  | emit (frame : β) (rest : List α)
  | fail (error : ε)

/-- The turn of a framing loop, which consumes input whenever the loop goes on. -/
structure Framer (α β ε : Type) where
  turn : List α → Turn α β ε
  skip_lt : ∀ {xs rest}, turn xs = .skip rest → rest.length < xs.length
  emit_lt : ∀ {xs frame rest}, turn xs = .emit frame rest → rest.length < xs.length

namespace Framer

variable (F : Framer α β ε)

/-- The frames of a buffer, then the input kept for the next chunk or the error
that ended the loop. -/
def run (xs : List α) : List β × Except ε (List α) :=
  match _ : F.turn xs with
  | .wait keep => ([], .ok keep)
  | .skip rest => run rest
  | .emit frame rest => (frame :: (run rest).1, (run rest).2)
  | .fail error => ([], .error error)
  termination_by xs.length
  decreasing_by
    · exact F.skip_lt ‹_›
    · exact F.emit_lt ‹_›

variable {F}

theorem run_wait {xs keep : List α} (h : F.turn xs = .wait keep) : F.run xs = ([], .ok keep) := by
  rw [run]
  split <;> simp_all

theorem run_skip {xs rest : List α} (h : F.turn xs = .skip rest) : F.run xs = F.run rest := by
  rw [run]
  split <;> simp_all

theorem run_emit {xs rest : List α} {frame : β} (h : F.turn xs = .emit frame rest) :
    F.run xs = (frame :: (F.run rest).1, (F.run rest).2) := by
  rw [run]
  split <;> simp_all

theorem run_fail {xs : List α} {e : ε} (h : F.turn xs = .fail e) : F.run xs = ([], .error e) := by
  rw [run]
  split <;> simp_all

theorem run_congr {xs ys : List α} (h : F.turn xs = F.turn ys) : F.run xs = F.run ys := by
  cases hy : F.turn ys with
  | wait keep => rw [run_wait hy, run_wait (h.trans hy)]
  | skip rest => rw [run_skip hy, run_skip (h.trans hy)]
  | emit frame rest => rw [run_emit hy, run_emit (h.trans hy)]
  | fail e => rw [run_fail hy, run_fail (h.trans hy)]

/-- What every emitted frame satisfies, every frame of a run satisfies. -/
theorem forall_mem_run {P : β → Prop} (h : ∀ {xs frame rest}, F.turn xs = .emit frame rest → P frame)
    (xs : List α) : ∀ frame ∈ (F.run xs).1, P frame := by
  induction hn : xs.length using Nat.strongRecOn generalizing xs with
  | _ n ih =>
    subst hn
    cases ht : F.turn xs with
    | wait keep => simp [run_wait ht]
    | skip rest => rw [run_skip ht]; exact ih _ (F.skip_lt ht) rest rfl
    | emit frame rest =>
      rw [run_emit ht]
      intro f hf
      rcases List.mem_cons.mp hf with rfl | hf
      · exact h ht
      · exact ih _ (F.emit_lt ht) rest rfl f hf
    | fail e => simp [run_fail ht]

/-- What every input kept by a waiting turn satisfies, the input kept by a run satisfies. -/
theorem kept_of_run {P : List α → Prop} (h : ∀ {xs keep}, F.turn xs = .wait keep → P keep)
    {xs keep : List α} (hr : (F.run xs).2 = .ok keep) : P keep := by
  induction hn : xs.length using Nat.strongRecOn generalizing xs with
  | _ n ih =>
    subst hn
    cases ht : F.turn xs with
    | wait k => rw [run_wait ht, Except.ok.injEq] at hr; exact hr ▸ h ht
    | skip rest => rw [run_skip ht] at hr; exact ih _ (F.skip_lt ht) hr rfl
    | emit frame rest => rw [run_emit ht] at hr; exact ih _ (F.emit_lt ht) hr rfl
    | fail e => rw [run_fail ht] at hr; cases hr

/-! ## Input in chunks -/

/-- Continue a run with more input, unless it failed. -/
def resume (next : List α → List β × Except ε (List α)) :
    List β × Except ε (List α) → List β × Except ε (List α)
  | (frames, .ok keep) => (frames ++ (next keep).1, (next keep).2)
  | (frames, .error e) => (frames, .error e)

variable (F) in
/-- The chunks one after the other, each appended to what the chunk before left. -/
def feed (keep : List α) : List (List α) → List β × Except ε (List α)
  | [] => ([], .ok keep)
  | chunk :: chunks => resume (feed · chunks) (F.run (keep ++ chunk))

/-- No turn changes when input is appended, and waiting loses nothing: what is
kept stands for all the input seen. -/
structure Resumable (F : Framer α β ε) : Prop where
  skip : ∀ {xs rest} ys, F.turn xs = .skip rest → F.turn (xs ++ ys) = .skip (rest ++ ys)
  emit : ∀ {xs frame rest} ys, F.turn xs = .emit frame rest →
    F.turn (xs ++ ys) = .emit frame (rest ++ ys)
  fail : ∀ {xs e} ys, F.turn xs = .fail e → F.turn (xs ++ ys) = .fail e
  wait : ∀ {xs keep} ys, F.turn xs = .wait keep → F.run (xs ++ ys) = F.run (keep ++ ys)

theorem Resumable.run_append (hF : F.Resumable) (xs ys : List α) :
    F.run (xs ++ ys) = resume (fun keep => F.run (keep ++ ys)) (F.run xs) := by
  induction hn : xs.length using Nat.strongRecOn generalizing xs with
  | _ n ih =>
    subst hn
    cases ht : F.turn xs with
    | wait keep => rw [run_wait ht, hF.wait ys ht]; simp [resume]
    | skip rest => rw [run_skip ht, run_skip (hF.skip ys ht), ih _ (F.skip_lt ht) rest rfl]
    | emit frame rest =>
      rw [run_emit ht, run_emit (hF.emit ys ht), ih _ (F.emit_lt ht) rest rfl]
      rcases F.run rest with ⟨frames, _ | keep⟩ <;> rfl
    | fail e => rw [run_fail ht, run_fail (hF.fail ys ht)]; rfl

theorem Resumable.resume_feed (hF : F.Resumable) (chunks : List (List α)) (xs : List α) :
    resume (F.feed · chunks) (F.run xs) = F.run (xs ++ chunks.flatten) := by
  induction chunks generalizing xs with
  | nil => rcases h : F.run xs with ⟨frames, _ | keep⟩ <;> simp [resume, feed, h]
  | cons chunk chunks ih =>
    rw [List.flatten_cons, ← List.append_assoc, ← ih, hF.run_append]
    rcases F.run xs with ⟨frames, e | keep⟩
    · rfl
    · simp only [resume, feed]
      rcases F.run (keep ++ chunk) with ⟨frames', _ | keep'⟩ <;> simp

/-- **Chunks do not matter**: feeding them gives the frames, and the buffer or
the error, of one run over the whole stream. -/
theorem Resumable.feed_eq_run (hF : F.Resumable) (h0 : F.turn [] = .wait [])
    (chunks : List (List α)) : F.feed [] chunks = F.run chunks.flatten := by
  have h := hF.resume_feed chunks []
  rw [run_wait h0] at h
  simpa [resume] using h

end Framer

end Lib
