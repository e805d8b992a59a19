import Mathlib

/-!
# Frames for display

`StreamFramer` cuts a stream into frames: a frame ends with a line delimiter, or is what had come when
a timeout ran out. The timers that are pending belong to the model of the platform; the callback of a
timer knows the generation it was made for.
-/

namespace TauTerm.Display

def CR : UInt8 := 0x0d

def LF : UInt8 := 0x0a

/-- The first delimiter, where it is and how long. -/
def delimiter : List UInt8 → Option (Nat × Nat)
  | [] => none
  | b :: rest =>
    if b = CR ∧ rest.head? = some LF then some (0, 2)
    else if b = LF then some (0, 1)
    else if b = CR then some (0, 1)
    else (delimiter rest).map fun (i, n) => (i + 1, n)

/-- No delimiter among the bytes. -/
def Open (xs : List UInt8) : Prop := CR ∉ xs ∧ LF ∉ xs

def IsDelimiter (d : List UInt8) : Prop := d = [CR, LF] ∨ d = [LF] ∨ d = [CR]

/-- One delimiter, at the end. -/
def IsFrame (frame : List UInt8) : Prop := ∃ body d, frame = body ++ d ∧ Open body ∧ IsDelimiter d

/-- A CR that is a delimiter by itself has no LF behind it. -/
def Whole (d rest : List UInt8) : Prop := d = [CR] → rest.head? ≠ some LF

theorem IsDelimiter.length_pos {d : List UInt8} (h : IsDelimiter d) : 0 < d.length := by
  obtain rfl | rfl | rfl := h <;> decide

theorem delimiter_open {xs : List UInt8} (h : Open xs) : delimiter xs = none := by
  induction xs with
  | nil => rfl
  | cons b xs ih =>
    obtain ⟨hcr, hlf⟩ := h
    rw [List.mem_cons, not_or] at hcr hlf
    rw [delimiter, if_neg fun hb => hcr.1 hb.1.symm, if_neg (Ne.symm hlf.1),
      if_neg (Ne.symm hcr.1), ih ⟨hcr.2, hlf.2⟩, Option.map_none]

theorem delimiter_frame {body d rest : List UInt8} (hbody : Open body) (hd : IsDelimiter d)
    (hwhole : Whole d rest) : delimiter (body ++ d ++ rest) = some (body.length, d.length) := by
  induction body with
  | nil =>
    obtain rfl | rfl | rfl := hd
    · rfl
    · rfl
    · change delimiter (CR :: rest) = _
      rw [delimiter, if_neg fun h => hwhole rfl h.2, if_neg (by decide), if_pos rfl]
      rfl
  | cons b body ih =>
    obtain ⟨hcr, hlf⟩ := hbody
    rw [List.mem_cons, not_or] at hcr hlf
    rw [List.cons_append, List.cons_append, delimiter, if_neg fun hb => hcr.1 hb.1.symm,
      if_neg (Ne.symm hlf.1), if_neg (Ne.symm hcr.1), ih ⟨hcr.2, hlf.2⟩]
    rfl

/-- Bytes either have no delimiter or begin with a frame. -/
theorem open_or_frame (xs : List UInt8) : Open xs ∨
    ∃ body d rest, xs = body ++ d ++ rest ∧ Open body ∧ IsDelimiter d ∧ Whole d rest := by
  induction xs with
  | nil => exact .inl ⟨List.not_mem_nil, List.not_mem_nil⟩
  | cons b xs ih =>
    have hnil : Open [] := ⟨List.not_mem_nil, List.not_mem_nil⟩
    by_cases hlf : b = LF
    · exact .inr ⟨[], [LF], xs, by rw [hlf]; rfl, hnil, .inr (.inl rfl), fun h => nomatch h⟩
    by_cases hcr : b = CR
    · subst hcr
      right
      by_cases hnext : xs.head? = some LF
      · obtain ⟨rest, rfl⟩ := List.head?_eq_some_iff.mp hnext
        exact ⟨[], [CR, LF], rest, rfl, hnil, .inl rfl, fun h => nomatch h⟩
      · exact ⟨[], [CR], xs, rfl, hnil, .inr (.inr rfl), fun _ => hnext⟩
    · have hopen {ys : List UInt8} (h : Open ys) : Open (b :: ys) := by
        refine ⟨fun hmem => ?_, fun hmem => ?_⟩
        · exact (List.mem_cons.mp hmem).elim (fun heq => hcr heq.symm) h.1
        · exact (List.mem_cons.mp hmem).elim (fun heq => hlf heq.symm) h.2
      obtain h | ⟨body, d, rest, rfl, hbody, hd, hwhole⟩ := ih
      · exact .inl (hopen h)
      · exact .inr ⟨b :: body, d, rest, rfl, hopen hbody, hd, hwhole⟩

theorem delimiter_some {xs : List UInt8} {i n : Nat} (h : delimiter xs = some (i, n)) :
    0 < n ∧ i + n ≤ xs.length := by
  obtain hopen | ⟨body, d, rest, rfl, hbody, hd, hwhole⟩ := open_or_frame xs
  · rw [delimiter_open hopen] at h
    cases h
  · rw [delimiter_frame hbody hd hwhole, Option.some.injEq, Prod.mk.injEq] at h
    obtain ⟨rfl, rfl⟩ := h
    refine ⟨hd.length_pos, ?_⟩
    simp only [List.length_append]
    omega

/-- The frames of the loop in `push`, and what remains. -/
def scan (remaining : List UInt8) : List (List UInt8) × List UInt8 :=
  match _ : delimiter remaining with
  | none => ([], remaining)
  | some (delimIdx, delimLen) =>
    let lineEnd := delimIdx + delimLen
    let (frames, rest) := scan (remaining.drop lineEnd)
    (remaining.take lineEnd :: frames, rest)
  termination_by remaining.length
  decreasing_by
    have := delimiter_some ‹_›
    rw [List.length_drop]
    omega

theorem scan_open {xs : List UInt8} (h : Open xs) : scan xs = ([], xs) := by
  rw [scan]
  split
  · rfl
  · rename_i hsome
    rw [delimiter_open h] at hsome
    cases hsome

theorem scan_frame {body d rest : List UInt8} (hbody : Open body) (hd : IsDelimiter d)
    (hwhole : Whole d rest) :
    scan (body ++ d ++ rest) = ((body ++ d) :: (scan rest).1, (scan rest).2) := by
  have hdelimiter := delimiter_frame hbody hd hwhole
  rw [scan]
  split
  · rename_i hnone
    rw [hdelimiter] at hnone
    cases hnone
  · rename_i hsome
    rw [hdelimiter, Option.some.injEq, Prod.mk.injEq] at hsome
    obtain ⟨rfl, rfl⟩ := hsome
    have hlength : body.length + d.length = (body ++ d).length := List.length_append.symm
    rw [hlength]
    dsimp only
    rw [List.drop_left, List.take_left]

/-! ## The framer -/

structure FrameState where
  buffer : List (List UInt8)
  timer : Nat
  generation : Nat
  deriving DecidableEq

/-- A timer that runs, with the generation its callback has captured. -/
structure Timer where
  id : Nat
  generation : Nat
  deriving DecidableEq

/-- `timers` are those that neither have run out nor have been cleared. -/
structure StreamFramer where
  frame : Option FrameState
  timers : List Timer
  nextTimer : Nat
  deriving DecidableEq

namespace StreamFramer

def new : StreamFramer := ⟨none, [], 1⟩

def clearTimeout (s : StreamFramer) (id : Nat) : StreamFramer :=
  { s with timers := s.timers.filter fun t => t.id ≠ id }

/-- The framer after the bytes, and the frames it has handed on. -/
def push (s : StreamFramer) (data : List UInt8) : StreamFramer × List (List UInt8) :=
  let cleared := match s.frame with
    | some f => s.clearTimeout f.timer
    | none => s
  let generation := (s.frame.map (·.generation)).getD 0 + 1
  let chunks := (s.frame.map (·.buffer)).getD [] ++ [data]
  let (frames, remaining) := scan chunks.flatten
  if remaining.length > 0 then
    ({ frame := some ⟨[remaining], s.nextTimer, generation⟩
       timers := cleared.timers ++ [⟨s.nextTimer, generation⟩]
       nextTimer := s.nextTimer + 1 }, frames)
  else ({ cleared with frame := none }, frames)

/-- A timer runs out, if it has not been cleared. -/
def fire (s : StreamFramer) (id : Nat) : StreamFramer × List (List UInt8) :=
  match s.timers.find? (·.id = id) with
  | none => (s, [])
  | some t =>
    let s := s.clearTimeout id
    match s.frame with
    | none => (s, [])
    | some f =>
      if f.generation = t.generation then
        let all := f.buffer.flatten
        ({ s with frame := none }, if f.buffer.length > 0 ∧ all.length > 0 then [all] else [])
      else (s, [])

/-- The retained buffer. -/
def buffered (s : StreamFramer) : List UInt8 := (s.frame.map (·.buffer.flatten)).getD []

inductive Action where
  | push (data : List UInt8)
  | fire (id : Nat)
  deriving DecidableEq

def step (s : StreamFramer) : Action → StreamFramer × List (List UInt8)
  | .push data => s.push data
  | .fire id => s.fire id

/-- The framer after some actions, and all the frames on the way. -/
def run (s : StreamFramer) : List Action → StreamFramer × List (List UInt8)
  | [] => (s, [])
  | a :: as =>
    let (s, frames) := s.step a
    let (s, later) := run s as
    (s, frames ++ later)

/-- What has been pushed in a run. -/
def pushed (actions : List Action) : List UInt8 :=
  (actions.map fun
    | .push data => data
    | .fire _ => []).flatten

def pushes (chunks : List (List UInt8)) : StreamFramer × List (List UInt8) :=
  run new (chunks.map .push)

end StreamFramer

end TauTerm.Display
