import Mathlib
import TauTerm.Lib.Run
import TauTerm.Tftp.Lossy

/-!
# Runs of `send_file` alone

`send_file` against a peer that answers what it likes, with timers that expire when they
like. `pos` counts the blocks that were taken off the window, whatever their numbers, and
`Sender.Held.cases` says once what a step can do.
-/

namespace TauTerm.Tftp

open Lib

/-- What happens next: the sending phase, or one `recv` with the timer after it. -/
inductive SendEvent where
  | send (abort : Bool)
  | recv (abort expired : Bool) (received : Received)
  deriving DecidableEq

variable {R : Type} (read : WindowRead R) (params : TftpDynamicParams)

def Sender.step (s : Sender R) : SendEvent → Option (Sender R)
  | .send abort =>
    match s.phase with
    | .sending => some (s.sendStep read params abort).1
    | _ => none
  | .recv abort expired received =>
    match s.phase with
    | .collecting lastAck => some (s.collectStep read params abort expired lastAck received)
    | _ => none

def SendSteps (s : Sender R) (event : SendEvent) (s' : Sender R) : Prop :=
  s.step read params event = some s'

/-- The event starts the window again, with so many blocks less. -/
def Sender.rewind (s : Sender R) : SendEvent → Option Nat
  | .send _ => none
  | .recv abort expired received =>
    let timeout := if expired then some 0 else none
    if abort then none
    else
      match received with
      | .packet (.ack _) | .packet (.error _ _) => none
      | .packet _ | .connectionReset | .otherError => timeout
      | .wouldBlock =>
        match s.phase with
        | .collecting (some ack) =>
          let diff := ackDiff params.rollover ack s.blockSeqWin
          if diff = 0 then none else if diff ≤ params.windowSize then some diff else timeout
        | _ => timeout

variable {read params}

/-! ## The window -/

/-- The window holds the blocks behind `pos`, and `more` says whether others follow. -/
structure Holds (law : read.Lawful) (blocks : List (List UInt8)) (w pos : Nat) (window : R)
    (more : Bool) : Prop where
  size : law.size window = w
  elements : read.elements window = (blocks.drop pos).take w
  rest : law.rest window = blocks.drop (pos + w)
  more : more = !(law.rest window).isEmpty
  unfinished : pos < blocks.length

variable {law : read.Lawful} {blocks : List (List UInt8)} {w pos : Nat} {window : R} {more : Bool}

theorem Holds.length (h : Holds law blocks w pos window more) :
    (read.elements window).length = min w (blocks.length - pos) := by
  rw [h.elements, List.length_take, List.length_drop]

/-- Blocks are taken off the window: it is empty and nothing follows, or it goes on. -/
theorem Holds.remove (h : Holds law blocks w pos window more) {amount : Nat}
    (hle : amount ≤ (read.elements window).length) :
    ∃ window', read.remove amount window = some window' ∧
      ((pos + amount = blocks.length ∧ more = false ∧ read.elements window' = []) ∨
        (more = true ∧ ∃ more' filled, read.fill window' = some (more', filled) ∧
          Holds law blocks w (pos + amount) filled more') ∨
        (more = false ∧ read.elements window' ≠ [] ∧
          Holds law blocks w (pos + amount) window' false)) := by
  have hlen := h.length
  have hunfinished := h.unfinished
  obtain ⟨window', hremove, helements, hrest, hsize⟩ := law.remove amount window hle
  have hleft : read.elements window' = (blocks.drop (pos + amount)).take (w - amount) := by
    rw [helements, h.elements, List.drop_take, List.drop_drop]
  have hrest' : law.rest window' = blocks.drop (pos + w) := hrest.trans h.rest
  refine ⟨window', hremove, ?_⟩
  by_cases hmore : pos + w < blocks.length
  · -- other blocks follow, and they fill the window up
    have hne : law.rest window' ≠ [] := by
      rw [hrest']
      exact List.ne_nil_of_length_pos (by rw [List.length_drop]; omega)
    obtain ⟨filled, hfill, helements', hrest'', hsize'⟩ := law.fill window' hne
    have hspace : law.size window' - (read.elements window').length = amount := by
      rw [hsize, h.size, hleft, List.length_take, List.length_drop]
      omega
    have htrue : more = true := by
      rw [h.more, h.rest, ← hrest']
      simpa using hne
    refine .inr (.inl ⟨htrue, _, filled, hfill, hsize'.trans (hsize.trans h.size), ?_, ?_, rfl, ?_⟩)
    · have hfollow : blocks.drop (pos + w) = (blocks.drop (pos + amount)).drop (w - amount) := by
        rw [List.drop_drop]
        congr 1
        omega
      rw [helements', hspace, hleft, hrest', hfollow, ← List.take_add]
      congr 1
      omega
    · rw [hrest'', hspace, hrest', List.drop_drop]
      congr 1
      omega
    · omega
  · -- the window holds all that is left
    have hnil : law.rest window' = [] := by
      rw [hrest']
      exact List.drop_eq_nil_of_le (by omega)
    have hfalse : more = false := by
      rw [h.more, h.rest, ← hrest', hnil]
      rfl
    have hleft' : read.elements window' = blocks.drop (pos + amount) := by
      rw [hleft]
      exact List.take_of_length_le (by rw [List.length_drop]; omega)
    by_cases hend : pos + amount = blocks.length
    · refine .inl ⟨hend, hfalse, ?_⟩
      rw [hleft', hend, List.drop_length]
    · refine .inr (.inr ⟨hfalse, ?_, hsize.trans h.size, ?_, ?_, ?_, by omega⟩)
      · rw [hleft']
        exact List.ne_nil_of_length_pos (by rw [List.length_drop]; omega)
      · rw [hleft', List.take_of_length_le (by rw [List.length_drop]; omega)]
      · rw [hnil, List.drop_eq_nil_of_le (by omega)]
      · rw [hnil]
        rfl

/-! ## Steps -/

/-- A sender with `pos` blocks taken off its window. -/
structure Sender.Held (law : read.Lawful) (blocks : List (List UInt8)) (w pos : Nat) (s : Sender R) :
    Prop where
  window : Holds law blocks w pos s.window s.more
  idx : s.wrIdx ≤ (read.elements s.window).length

def Sender.Open (s : Sender R) : Prop := ∀ outcome, s.phase ≠ .finished outcome

/-- How the base follows the window: by nothing, or to the acknowledgement that was taken. -/
def BaseMoved (params : TftpDynamicParams) (s s' : Sender R) (event : SendEvent) (amount : Nat) : Prop :=
  (amount = 0 ∧ s'.blockSeqWin = s.blockSeqWin) ∨
  ∃ ack expired, event = .recv false expired .wouldBlock ∧ s.phase = .collecting (some ack) ∧
    0 < amount ∧ ackDiff params.rollover ack s.blockSeqWin = amount ∧ s'.blockSeqWin = ack

/-- What one step of a sender does that holds the blocks behind `pos`. -/
inductive SendCase (params : TftpDynamicParams) (law : read.Lawful) (blocks : List (List UInt8))
    (w pos : Nat) (s : Sender R) : SendEvent → Sender R → Prop
  /-- It gives up. -/
  | failed {event : SendEvent} {s' : Sender R} (error : TransferError) :
    s'.phase = .finished (.error error) → SendCase params law blocks w pos s event s'
  /-- A block is sent. -/
  | sent {s' : Sender R} (frame : List UInt8) : blocks[pos + s.wrIdx]? = some frame →
    s'.hasher = s.hasher ++ frame → s'.bytesSent = s.bytesSent + frame.length →
    s'.wrIdx = s.wrIdx + 1 → s'.blockSeqWin = s.blockSeqWin → s'.Held law blocks w pos → s'.Open →
    SendCase params law blocks w pos s (.send false) s'
  /-- Nothing changes but the phase. -/
  | quiet {event : SendEvent} {s' : Sender R} : s.rewind params event = none →
    s'.hasher = s.hasher → s'.bytesSent = s.bytesSent → s'.wrIdx = s.wrIdx →
    s'.blockSeqWin = s.blockSeqWin → s'.Held law blocks w pos → s'.Open →
    SendCase params law blocks w pos s event s'
  /-- The window starts again. -/
  | again {event : SendEvent} {s' : Sender R} (amount : Nat) : s.rewind params event = some amount →
    amount ≤ (read.elements s.window).length → s'.hasher = s.hasher →
    s'.bytesSent = s.bytesSent → s'.wrIdx = 0 → BaseMoved params s s' event amount →
    s'.Held law blocks w (pos + amount) → s'.Open → SendCase params law blocks w pos s event s'
  /-- The last block was acknowledged. -/
  | through {event : SendEvent} {s' : Sender R} (amount : Nat) : s.rewind params event = some amount →
    amount ≤ (read.elements s.window).length → pos + amount = blocks.length →
    s'.phase = .finished (.ok ⟨s.bytesSent, some s.hasher⟩) →
    SendCase params law blocks w pos s event s'

variable {s s' : Sender R}

theorem Sender.Held.frame (h : s.Held law blocks w pos) {frame : List UInt8}
    (hframe : (read.elements s.window)[s.wrIdx]? = some frame) :
    blocks[pos + s.wrIdx]? = some frame := by
  rw [h.window.elements, List.getElem?_take] at hframe
  split_ifs at hframe
  rwa [List.getElem?_drop] at hframe

theorem Sender.Held.sendStep_cases (h : s.Held law blocks w pos) (abort : Bool) :
    SendCase params law blocks w pos s (.send abort) (s.sendStep read params abort).1 := by
  cases abort with
  | true => exact .failed .cancelled rfl
  | false =>
    cases hframe : (read.elements s.window)[s.wrIdx]? with
    | none =>
      have hstep : (s.sendStep read params false).1 = { s with phase := .collecting none } := by
        simp [Sender.sendStep, hframe]
      rw [hstep]
      exact .quiet rfl rfl rfl rfl rfl ⟨h.window, h.idx⟩ (by intro _ h; cases h)
    | some frame =>
      have hidx : s.wrIdx < (read.elements s.window).length :=
        (List.getElem?_eq_some_iff.mp hframe).1
      cases hseq : blockSeqTx params.rollover s.blockSeqWin s.wrIdx with
      | none =>
        have hstep : (s.sendStep read params false).1 = s.finish (.error .rollover) := by
          simp [Sender.sendStep, hframe, hseq]
        rw [hstep]
        exact .failed _ rfl
      | some blockNum =>
        by_cases hlt : s.wrIdx + 1 < (read.elements s.window).length
        · have hstep : (s.sendStep read params false).1 = { s with
              hasher := s.hasher ++ frame, bytesSent := s.bytesSent + frame.length
              wrIdx := s.wrIdx + 1, phase := .collecting none } := by
            simp [Sender.sendStep, hframe, hseq, hlt]
          rw [hstep]
          exact .sent frame (h.frame hframe) rfl rfl rfl rfl ⟨h.window, hidx⟩ (by intro _ h; cases h)
        · -- the window is exhausted, and the next blocks are read ahead
          obtain ⟨window, hprefill, helements, hrest, hsize⟩ := law.prefill s.window
          have hstep : (s.sendStep read params false).1 = { s with
              hasher := s.hasher ++ frame, bytesSent := s.bytesSent + frame.length
              wrIdx := s.wrIdx + 1, phase := .collecting none
              window, nonblocking := false } := by
            simp [Sender.sendStep, hframe, hseq, hlt, hprefill]
          rw [hstep]
          have hheld : Holds law blocks w pos window s.more :=
            ⟨hsize.trans h.window.size, helements.trans h.window.elements,
              hrest.trans h.window.rest, by rw [hrest]; exact h.window.more, h.window.unfinished⟩
          have hidx' : s.wrIdx + 1 ≤ (read.elements window).length := by
            rw [helements]
            exact hidx
          exact .sent frame (h.frame hframe) rfl rfl rfl rfl ⟨hheld, hidx'⟩ (by intro _ h; cases h)

/-- The timer is checked. -/
theorem Sender.Held.checkTimeout_cases (h : s.Held law blocks w pos) {lastAck : Option Nat}
    (hphase : s.phase = .collecting lastAck) {event : SendEvent} (expired : Bool)
    (hrewind : s.rewind params event = if expired then some 0 else none) :
    SendCase params law blocks w pos s event (s.checkTimeout params expired) := by
  unfold Sender.checkTimeout
  cases expired with
  | false =>
    rw [if_pos Bool.false_ne_true]
    refine .quiet hrewind rfl rfl rfl rfl h fun outcome => ?_
    rw [hphase]
    nofun
  | true =>
    rw [if_neg (not_not.mpr rfl)]
    split_ifs
    · exact .failed _ rfl
    · exact .again 0 hrewind (Nat.zero_le _) rfl rfl rfl (.inl ⟨rfl, rfl⟩)
        ⟨h.window, Nat.zero_le _⟩ nofun

/-- An acknowledgement is taken. -/
theorem Sender.Held.acknowledge_cases (h : s.Held law blocks w pos) (hbounded : read.Bounded)
    {ack : Nat} (hphase : s.phase = .collecting (some ack)) (expired : Bool)
    (hs : s.acknowledge read params ack = some s') :
    SendCase params law blocks w pos s (.recv false expired .wouldBlock) s' := by
  have hrewind : s.rewind params (.recv false expired .wouldBlock) =
      if ackDiff params.rollover ack s.blockSeqWin = 0 then none
      else if ackDiff params.rollover ack s.blockSeqWin ≤ params.windowSize then
        some (ackDiff params.rollover ack s.blockSeqWin)
      else if expired then some 0 else none := by
    simp [Sender.rewind, hphase]
  unfold Sender.acknowledge at hs
  generalize hdiff : ackDiff params.rollover ack s.blockSeqWin = amount at hs hrewind
  by_cases hzero : amount = 0
  · rw [if_pos hzero] at hs hrewind
    obtain rfl := Option.some.inj hs
    exact .quiet hrewind rfl rfl rfl rfl ⟨h.window, h.idx⟩ nofun
  rw [if_neg hzero] at hs hrewind
  by_cases hwindow : amount ≤ params.windowSize
  · rw [if_pos hwindow] at hs hrewind
    by_cases hle : amount ≤ (read.elements s.window).length
    · obtain ⟨window, hremove, ⟨hend, hmore, hempty⟩ | ⟨hmore, more, filled, hfill, hheld⟩ |
        ⟨hmore, hne, hheld⟩⟩ := h.window.remove hle
      · simp only [hremove, hmore, hempty, Bool.false_eq_true, not_false_eq_true, and_self,
          if_true, Option.some.injEq] at hs
        subst hs
        exact .through amount hrewind hle hend rfl
      · simp only [hremove, hmore, not_true_eq_false, false_and, if_false, if_true, hfill,
          Option.some.injEq] at hs
        subst hs
        exact .again amount hrewind hle rfl rfl rfl
          (.inr ⟨ack, expired, rfl, hphase, Nat.pos_of_ne_zero hzero, hdiff, rfl⟩)
          ⟨hheld, Nat.zero_le _⟩ nofun
      · simp only [hremove, hmore, hne, Bool.false_eq_true, and_false, if_false,
          Option.some.injEq] at hs
        subst hs
        exact .again amount hrewind hle rfl rfl rfl
          (.inr ⟨ack, expired, rfl, hphase, Nat.pos_of_ne_zero hzero, hdiff, rfl⟩)
          ⟨hheld, Nat.zero_le _⟩ nofun
    · simp only [hbounded _ _ (Nat.lt_of_not_le hle), Option.some.injEq] at hs
      subst hs
      exact .failed _ rfl
  · rw [if_neg hwindow] at hs
    cases hs

theorem Sender.acknowledge_eq_none {ack : Nat} (h : s.acknowledge read params ack = none) :
    ackDiff params.rollover ack s.blockSeqWin ≠ 0 ∧
      ¬ ackDiff params.rollover ack s.blockSeqWin ≤ params.windowSize := by
  unfold Sender.acknowledge at h
  generalize ackDiff params.rollover ack s.blockSeqWin = amount at h ⊢
  dsimp only at h
  by_cases hzero : amount = 0
  · rw [if_pos hzero] at h
    cases h
  rw [if_neg hzero] at h
  refine ⟨hzero, fun hwindow => ?_⟩
  rw [if_pos hwindow] at h
  split at h
  · cases h
  · split_ifs at h
    split at h <;> cases h

theorem Sender.Held.collectStep_cases (h : s.Held law blocks w pos) (hbounded : read.Bounded)
    {lastAck : Option Nat} (hphase : s.phase = .collecting lastAck) (abort expired : Bool)
    (received : Received) :
    SendCase params law blocks w pos s (.recv abort expired received)
      (s.collectStep read params abort expired lastAck received) := by
  unfold Sender.collectStep
  cases abort with
  | true => exact .failed .cancelled rfl
  | false =>
    rw [if_neg Bool.false_ne_true]
    cases received with
    | packet packet =>
      cases packet with
      | ack ack => exact .quiet rfl rfl rfl rfl rfl ⟨h.window, h.idx⟩ nofun
      | error code msg => exact .failed _ rfl
      | data blockNum data => exact h.checkTimeout_cases hphase expired rfl
      | oack options => exact h.checkTimeout_cases hphase expired rfl
    | connectionReset => exact h.checkTimeout_cases hphase expired rfl
    | otherError => exact h.checkTimeout_cases hphase expired rfl
    | wouldBlock =>
      cases hs : lastAck.bind (s.acknowledge read params) with
      | some s' =>
        obtain ⟨ack, rfl, hs⟩ := Option.bind_eq_some_iff.mp hs
        exact h.acknowledge_cases hbounded hphase expired hs
      | none =>
        -- nothing is acknowledged, or something out of the window
        have hrewind : s.rewind params (.recv false expired .wouldBlock) =
            if expired then some 0 else none := by
          cases lastAck with
          | none => simp [Sender.rewind, hphase]
          | some ack =>
            obtain ⟨hzero, hwindow⟩ := Sender.acknowledge_eq_none hs
            simp [Sender.rewind, hphase, hzero, hwindow]
        dsimp only
        split_ifs with hleft
        · have hnone : s.rewind params (.recv false expired .wouldBlock) = none := by
            rw [hrewind, if_neg hleft.2]
          exact .quiet hnone rfl rfl rfl rfl ⟨h.window, h.idx⟩ nofun
        · exact h.checkTimeout_cases hphase expired hrewind

/-- What a step can do, by cases. -/
theorem Sender.Held.cases (h : s.Held law blocks w pos) (hbounded : read.Bounded) {event : SendEvent}
    (hs : SendSteps read params s event s') : SendCase params law blocks w pos s event s' := by
  unfold SendSteps Sender.step at hs
  cases event with
  | send abort =>
    cases hphase : s.phase with
    | sending =>
      rw [hphase] at hs
      obtain rfl := Option.some.inj hs
      exact h.sendStep_cases abort
    | collecting lastAck => rw [hphase] at hs; cases hs
    | finished outcome => rw [hphase] at hs; cases hs
  | recv abort expired received =>
    cases hphase : s.phase with
    | sending => rw [hphase] at hs; cases hs
    | collecting lastAck =>
      rw [hphase] at hs
      obtain rfl := Option.some.inj hs
      exact h.collectStep_cases hbounded hphase abort expired received
    | finished outcome => rw [hphase] at hs; cases hs

end TauTerm.Tftp
