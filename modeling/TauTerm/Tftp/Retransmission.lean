import Mathlib
import TauTerm.Tftp.SendAccounting

/-!
# Retransmission in `send_file`

`send_file` against a clock that goes on for ever and a socket that yields acknowledgements or
nothing. A step is the sending phase or one `recv`, with the timer behind it. The arithmetic of a
step is listed with the widths of its words, and the back-off is that of a build without overflow
checks, where `2u32.pow` wraps.
-/

namespace TauTerm.Tftp

open Lib

/-- What `recv` answers. -/
inductive Arrival where
  | ack (ackNum : UInt16)
  | nothing
  deriving DecidableEq

def Arrival.received : Arrival → Received
  | .ack ackNum => .packet (.ack ackNum.toNat)
  | .nothing => .wouldBlock

/-- What `recv` answers and what the clock shows at each step, in milliseconds. -/
structure Schedule where
  arrival : ℕ → Arrival
  clock : ℕ → ℕ
  mono : Monotone clock
  passes : ∀ time, ∃ n, time ≤ clock n

/-- The value of an operation without the limit of its word, and the bits of that word. -/
structure Computation where
  value : ℕ
  bits : ℕ
  deriving DecidableEq

def Computation.Fits (c : Computation) : Prop := c.value < 2 ^ c.bits

instance (c : Computation) : Decidable c.Fits := inferInstanceAs (Decidable (_ < _))

/-! ## The timer -/

namespace TftpDynamicParams

variable (params : TftpDynamicParams)

def timeout : ℕ := max params.timeoutSecs.toNat 1

def retries : ℕ := max params.maxRetries 1

/-- `2u32.pow(retry_cnt as u32)`, which wraps. -/
def growth (retryCnt : ℕ) : ℕ := 2 ^ (retryCnt % 2 ^ 32) % 2 ^ 32

/-- The pause in seconds. -/
def pause (retryCnt : ℕ) : ℕ := min (params.timeout * min (growth retryCnt) 60) 30

end TftpDynamicParams

open TftpDynamicParams (growth)

/-- A sender and the end of its timer. -/
structure Timed (R : Type) where
  sender : Sender R
  timeoutEnd : ℕ

section Steps

variable {R : Type} (read : WindowRead R) (params : TftpDynamicParams)

/-- The block that the sending phase finds in the window. -/
def Sender.outgoing (s : Sender R) : Option (List UInt8) :=
  match s.phase with
  | .sending => (read.elements s.window)[s.wrIdx]?
  | _ => none

/-- The socket is drained, and its last acknowledgement moves the window. -/
def Sender.advances (s : Sender R) : Arrival → Bool
  | .nothing =>
    match s.phase with
    | .collecting (some ack) =>
      let diff := ackDiff params.rollover ack s.blockSeqWin
      0 < diff ∧ diff ≤ params.windowSize
    | _ => false
  | .ack _ => false

/-- The socket is drained, and what it yielded leads on to the timer. -/
def Sender.consults (s : Sender R) : Arrival → Bool
  | .nothing =>
    match s.phase with
    | .collecting none => true
    | .collecting (some ack) => params.windowSize < ackDiff params.rollover ack s.blockSeqWin
    | _ => false
  | .ack _ => false

namespace Timed

def timesOut (now : ℕ) (arrival : Arrival) (t : Timed R) : Bool :=
  t.sender.consults params arrival ∧ t.timeoutEnd ≤ now

def retransmits (now : ℕ) (arrival : Arrival) (t : Timed R) : Bool :=
  t.timesOut params now arrival ∧ t.sender.retryCnt < params.retries

def step (now : ℕ) (arrival : Arrival) (t : Timed R) : Timed R :=
  match t.sender.phase with
  | .sending =>
    ⟨(t.sender.sendStep read params false).1,
      if (t.sender.outgoing read).isSome then now + 1000 * params.timeout else t.timeoutEnd⟩
  | .collecting lastAck =>
    ⟨t.sender.collectStep read params false (t.timeoutEnd ≤ now) lastAck arrival.received,
      if t.retransmits params now arrival then
        now + 1000 * (params.pause (t.sender.retryCnt + 1) + params.timeout)
      else t.timeoutEnd⟩
  | .finished _ => t

/-- The bytes of the block that a step sends. -/
def sends (t : Timed R) : ℕ :=
  match t.sender.outgoing read with
  | some frame =>
    if (blockSeqTx params.rollover t.sender.blockSeqWin t.sender.wrIdx).isSome then frame.length
    else 0
  | none => 0

/-- The integer operations of a step, those that wrap on purpose left out. -/
def computations (now : ℕ) (arrival : Arrival) (t : Timed R) : List Computation :=
  let s := t.sender
  match s.outgoing read with
  | some frame =>
    ⟨s.wrIdx + 1, 16⟩ ::
      if (blockSeqTx params.rollover s.blockSeqWin s.wrIdx).isSome then
        [⟨s.bytesSent + frame.length, 64⟩, ⟨s.wrIdx + 1, 16⟩]
      else []
  | none =>
    if t.retransmits params now arrival then
      [⟨s.retryCnt + 1, 64⟩, ⟨2 ^ ((s.retryCnt + 1) % 2 ^ 32), 32⟩,
        ⟨params.timeout * min (growth (s.retryCnt + 1)) 60, 64⟩]
    else []

end Timed

/-- The states of `send_file`. -/
def Schedule.run (σ : Schedule) (blockSize : ℕ) (content : List UInt8) : ℕ → Timed R
  | 0 => ⟨sendFile read params blockSize content, σ.clock 0 + 1000 * params.timeout⟩
  | n + 1 => (σ.run blockSize content n).step read params (σ.clock n) (σ.arrival n)

end Steps

/-! ## What a step does -/

variable {R : Type} {read : WindowRead R} {params : TftpDynamicParams} {law : read.Lawful}
  {blocks : List (List UInt8)} {w pos now : ℕ} {arrival : Arrival} {t : Timed R}

/-- What a step changes in the counters and in the timer. -/
inductive Timed.Case (read : WindowRead R) (params : TftpDynamicParams) (now : ℕ)
    (arrival : Arrival) (t t' : Timed R) : Prop
  | sent (frame : List UInt8) : t.sender.outgoing read = some frame →
    t.sends read params = frame.length → t'.sender.bytesSent = t.sender.bytesSent + frame.length →
    t'.sender.wrIdx = t.sender.wrIdx + 1 → t'.sender.retryCnt = t.sender.retryCnt →
    t'.sender.blockSeqWin = t.sender.blockSeqWin → t'.sender.Open →
    t.timesOut params now arrival = false → Case read params now arrival t t'
  | refused (frame : List UInt8) : t.sender.outgoing read = some frame → t.sends read params = 0 →
    blockSeqTx params.rollover t.sender.blockSeqWin t.sender.wrIdx = none →
    t'.sender.bytesSent = t.sender.bytesSent → t'.sender.retryCnt = t.sender.retryCnt →
    t'.sender.phase = .finished (.error .rollover) → t.timesOut params now arrival = false →
    Case read params now arrival t t'
  | quiet : t.sender.outgoing read = none → t'.sender.bytesSent = t.sender.bytesSent →
    t'.sender.wrIdx = t.sender.wrIdx → t'.sender.retryCnt = t.sender.retryCnt →
    t'.sender.blockSeqWin = t.sender.blockSeqWin → t'.timeoutEnd = t.timeoutEnd →
    (t.sender.Open → t'.sender.Open) → t.timesOut params now arrival = false →
    Case read params now arrival t t'
  | advanced : t.sender.advances params arrival = true → t.sender.outgoing read = none →
    t'.sender.bytesSent = t.sender.bytesSent → t'.sender.retryCnt = t.sender.retryCnt →
    t.timesOut params now arrival = false → Case read params now arrival t t'
  | again : t.retransmits params now arrival = true → t.sender.outgoing read = none →
    t'.sender.bytesSent = t.sender.bytesSent → t'.sender.retryCnt = t.sender.retryCnt + 1 →
    t'.sender.blockSeqWin = t.sender.blockSeqWin → t'.sender.Open → Case read params now arrival t t'
  | exhausted : t.timesOut params now arrival = true → params.retries ≤ t.sender.retryCnt →
    t.sender.outgoing read = none → t'.sender.bytesSent = t.sender.bytesSent →
    t'.sender.retryCnt = t.sender.retryCnt →
    t'.sender.phase = .finished (.error (.maxRetries params.retries)) →
    Case read params now arrival t t'

theorem Sender.timesOut_of_sending (hphase : t.sender.phase = .sending) :
    t.timesOut params now arrival = false := by
  cases arrival <;> simp [Timed.timesOut, Sender.consults, hphase]

theorem Sender.outgoing_of_collecting {lastAck : Option ℕ}
    (hphase : t.sender.phase = .collecting lastAck) : t.sender.outgoing read = none := by
  simp [Sender.outgoing, hphase]

/-- The sending phase. -/
theorem Timed.sendStep_cases (law : read.Lawful) (hphase : t.sender.phase = .sending) :
    Case read params now arrival t (t.step read params now arrival) := by
  have htimer := @Sender.timesOut_of_sending _ params now arrival _ hphase
  have houtgoing : t.sender.outgoing read = (read.elements t.sender.window)[t.sender.wrIdx]? := by
    simp [Sender.outgoing, hphase]
  have hstep : (t.step read params now arrival).sender =
      (t.sender.sendStep read params false).1 := by
    simp [Timed.step, hphase]
  cases hframe : (read.elements t.sender.window)[t.sender.wrIdx]? with
  | none =>
    have hsame : t.step read params now arrival =
        ⟨{ t.sender with phase := .collecting none }, t.timeoutEnd⟩ := by
      simp [Timed.step, hphase, Sender.sendStep, hframe, houtgoing]
    exact .quiet (houtgoing.trans hframe) (by rw [hsame]) (by rw [hsame]) (by rw [hsame])
      (by rw [hsame]) (by rw [hsame]) (fun _ => by rw [hsame]; intro _ h; cases h) htimer
  | some frame =>
    have hsome := houtgoing.trans hframe
    cases hseq : blockSeqTx params.rollover t.sender.blockSeqWin t.sender.wrIdx with
    | none =>
      have hrefused : (t.step read params now arrival).sender =
          t.sender.finish (.error .rollover) := by
        rw [hstep]
        simp [Sender.sendStep, hframe, hseq]
      exact .refused frame hsome (by simp [Timed.sends, hsome, hseq]) hseq (by rw [hrefused]; rfl)
        (by rw [hrefused]; rfl) (by rw [hrefused]; rfl) htimer
    | some blockNum =>
      have hsends : t.sends read params = frame.length := by simp [Timed.sends, hsome, hseq]
      obtain ⟨window, hprefill, -⟩ := law.prefill t.sender.window
      by_cases hlt : t.sender.wrIdx + 1 < (read.elements t.sender.window).length
      · have hsent : (t.step read params now arrival).sender = { t.sender with
            hasher := t.sender.hasher ++ frame, bytesSent := t.sender.bytesSent + frame.length
            wrIdx := t.sender.wrIdx + 1, phase := .collecting none } := by
          rw [hstep]
          simp [Sender.sendStep, hframe, hseq, hlt]
        exact .sent frame hsome hsends (by rw [hsent]) (by rw [hsent]) (by rw [hsent])
          (by rw [hsent]) (by rw [hsent]; intro _ h; cases h) htimer
      · have hsent : (t.step read params now arrival).sender = { t.sender with
            hasher := t.sender.hasher ++ frame, bytesSent := t.sender.bytesSent + frame.length
            wrIdx := t.sender.wrIdx + 1, phase := .collecting none
            window, nonblocking := false } := by
          rw [hstep]
          simp [Sender.sendStep, hframe, hseq, hlt, hprefill]
        exact .sent frame hsome hsends (by rw [hsent]) (by rw [hsent]) (by rw [hsent])
          (by rw [hsent]) (by rw [hsent]; intro _ h; cases h) htimer

/-- Whatever an acknowledgement does, it leaves the counters alone. -/
theorem Sender.acknowledge_counters {s s' : Sender R} {ack : ℕ}
    (h : s.acknowledge read params ack = some s') :
    s'.bytesSent = s.bytesSent ∧ s'.retryCnt = s.retryCnt := by
  unfold Sender.acknowledge at h
  generalize ackDiff params.rollover ack s.blockSeqWin = amount at h
  dsimp only at h
  split at h
  · obtain rfl := Option.some.inj h
    exact ⟨rfl, rfl⟩
  split at h
  · split at h
    · obtain rfl := Option.some.inj h
      exact ⟨rfl, rfl⟩
    split at h
    · obtain rfl := Option.some.inj h
      exact ⟨rfl, rfl⟩
    split at h
    · split at h <;> obtain rfl := Option.some.inj h <;> exact ⟨rfl, rfl⟩
    · obtain rfl := Option.some.inj h
      exact ⟨rfl, rfl⟩
  · cases h

/-- An acknowledgement of the base only starts the sending phase. -/
theorem Sender.acknowledge_base {s : Sender R} {ack : ℕ}
    (h : ackDiff params.rollover ack s.blockSeqWin = 0) :
    s.acknowledge read params ack = some { s with phase := .sending } := by
  simp [Sender.acknowledge, h]

/-- The timer, when the socket is drained and no acknowledgement counts. -/
theorem Timed.checkTimeout_cases {lastAck : Option ℕ}
    (hphase : t.sender.phase = .collecting lastAck) (harrival : arrival = .nothing)
    (hconsults : t.sender.consults params arrival = true)
    (hnone : lastAck.bind (t.sender.acknowledge read params) = none) :
    Case read params now arrival t (t.step read params now arrival) := by
  have houtgoing := @Sender.outgoing_of_collecting _ read _ _ hphase
  subst harrival
  have hstep : (t.step read params now .nothing).sender =
      if t.sender.wrIdx < (read.elements t.sender.window).length ∧ ¬ t.timeoutEnd ≤ now then
        { t.sender with phase := .sending }
      else t.sender.checkTimeout params (t.timeoutEnd ≤ now) := by
    simp [Timed.step, hphase, Sender.collectStep, Arrival.received, hnone]
  by_cases hexpired : t.timeoutEnd ≤ now
  · have htimer : t.timesOut params now .nothing = true := by simp [Timed.timesOut, hconsults, hexpired]
    rw [if_neg (fun h => h.2 hexpired)] at hstep
    by_cases hretries : params.retries ≤ t.sender.retryCnt
    · have hgone : (t.step read params now .nothing).sender =
          t.sender.finish (.error (.maxRetries params.retries)) := by
        rw [hstep]
        simp only [Sender.checkTimeout, hexpired, decide_true, not_true_eq_false, if_false]
        exact if_pos hretries
      exact .exhausted htimer hretries houtgoing (by rw [hgone]; rfl) (by rw [hgone]; rfl)
        (by rw [hgone]; rfl)
    · have hagain : (t.step read params now .nothing).sender = { t.sender with
          retryCnt := t.sender.retryCnt + 1, wrIdx := 0, nonblocking := true, phase := .sending } := by
        rw [hstep]
        simp only [Sender.checkTimeout, hexpired, decide_true, not_true_eq_false, if_false]
        exact if_neg hretries
      exact .again (by simp [Timed.retransmits, htimer]; omega) houtgoing (by rw [hagain])
        (by rw [hagain]) (by rw [hagain]) (by rw [hagain]; intro _ h; cases h)
  · have htimer : t.timesOut params now .nothing = false := by simp [Timed.timesOut, hexpired]
    have hend : (t.step read params now .nothing).timeoutEnd = t.timeoutEnd := by
      simp [Timed.step, hphase, Timed.retransmits, htimer]
    have hsame : (t.step read params now .nothing).sender = { t.sender with phase := .sending } ∨
        (t.step read params now .nothing).sender = t.sender := by
      rw [hstep]
      split_ifs
      · exact .inl rfl
      · exact .inr (by simp [Sender.checkTimeout, hexpired])
    rcases hsame with hsame | hsame
    · exact .quiet houtgoing (by rw [hsame]) (by rw [hsame]) (by rw [hsame]) (by rw [hsame]) hend
        (fun _ => by rw [hsame]; intro _ h; cases h) htimer
    · exact .quiet houtgoing (by rw [hsame]) (by rw [hsame]) (by rw [hsame]) (by rw [hsame]) hend
        (fun hopen => by rwa [hsame]) htimer

/-- The loop that collects acknowledgements. -/
theorem Timed.collectStep_cases {lastAck : Option ℕ}
    (hphase : t.sender.phase = .collecting lastAck) :
    Case read params now arrival t (t.step read params now arrival) := by
  have houtgoing := @Sender.outgoing_of_collecting _ read _ _ hphase
  cases arrival with
  | ack ackNum =>
    have htimer : t.timesOut params now (.ack ackNum) = false := by
      simp [Timed.timesOut, Sender.consults]
    have hstep : (t.step read params now (.ack ackNum)).sender = { t.sender with
        nonblocking := if lastAck.isNone then true else t.sender.nonblocking
        phase := .collecting (some ackNum.toNat) } := by
      simp [Timed.step, hphase, Sender.collectStep, Arrival.received]
    exact .quiet houtgoing (by rw [hstep]) (by rw [hstep]) (by rw [hstep]) (by rw [hstep])
      (by simp [Timed.step, hphase, Timed.retransmits, htimer]) (fun _ => by rw [hstep]; intro _ h; cases h) htimer
  | nothing =>
    cases lastAck with
    | none => exact Timed.checkTimeout_cases hphase rfl (by simp [Sender.consults, hphase]) rfl
    | some ack =>
      cases hack : t.sender.acknowledge read params ack with
      | none =>
        have hfar := (Sender.acknowledge_eq_none hack).2
        exact Timed.checkTimeout_cases hphase rfl (by simp [Sender.consults, hphase]; omega) hack
      | some s =>
        have hstep : (t.step read params now .nothing).sender = s := by
          simp [Timed.step, hphase, Sender.collectStep, Arrival.received, hack]
        by_cases hfar : params.windowSize < ackDiff params.rollover ack t.sender.blockSeqWin
        · have hnone : t.sender.acknowledge read params ack = none := by
            unfold Sender.acknowledge
            dsimp only
            rw [if_neg (by omega), if_neg (by omega)]
          rw [hnone] at hack
          cases hack
        have htimer : t.timesOut params now .nothing = false := by
          simp [Timed.timesOut, Sender.consults, hphase, hfar]
        obtain ⟨hbytes, hretry⟩ := Sender.acknowledge_counters hack
        by_cases hzero : ackDiff params.rollover ack t.sender.blockSeqWin = 0
        · rw [Sender.acknowledge_base hzero] at hack
          obtain rfl := Option.some.inj hack
          exact .quiet houtgoing (by rw [hstep]) (by rw [hstep]) (by rw [hstep]) (by rw [hstep])
            (by simp [Timed.step, hphase, Timed.retransmits, htimer])
            (fun _ => by rw [hstep]; intro _ h; cases h) htimer
        · exact .advanced (by simp [Sender.advances, hphase]; omega) houtgoing (by rw [hstep, hbytes])
            (by rw [hstep, hretry]) htimer

/-- What a step can do, by cases. -/
theorem Timed.step_cases (law : read.Lawful) (t : Timed R) (now : ℕ) (arrival : Arrival) :
    Case read params now arrival t (t.step read params now arrival) := by
  cases hphase : t.sender.phase with
  | sending => exact Timed.sendStep_cases law hphase
  | collecting lastAck => exact Timed.collectStep_cases hphase
  | finished outcome =>
    have hsame : t.step read params now arrival = t := by simp [Timed.step, hphase]
    have hnone : t.sender.outgoing read = none := by simp [Sender.outgoing, hphase]
    have htimer : t.timesOut params now arrival = false := by
      cases arrival <;> simp [Timed.timesOut, Sender.consults, hphase]
    rw [hsame]
    exact .quiet hnone rfl rfl rfl rfl rfl id htimer

/-! ## Runs -/

/-- Either the transfer is over, or the sender holds a window of the file. -/
def Timed.Inv (law : read.Lawful) (blocks : List (List UInt8)) (w : ℕ) (t : Timed R) : Prop :=
  t.sender.Open → ∃ pos, t.sender.Held law blocks w pos

theorem Timed.Inv.step (h : t.Inv law blocks w) (hbounded : read.Bounded) (now : ℕ)
    (arrival : Arrival) : (t.step read params now arrival).Inv law blocks w := by
  intro hopen
  have hcase : ∀ event, SendSteps read params t.sender event (t.step read params now arrival).sender →
      t.sender.Open → ∃ pos, (t.step read params now arrival).sender.Held law blocks w pos := by
    intro event hs hopen'
    obtain ⟨pos, hheld⟩ := h hopen'
    cases hheld.cases hbounded hs with
    | failed error hphase => exact absurd hphase (hopen _)
    | sent _ _ _ _ _ _ hheld' _ => exact ⟨pos, hheld'⟩
    | quiet _ _ _ _ _ hheld' _ => exact ⟨pos, hheld'⟩
    | again amount _ _ _ _ _ _ hheld' _ => exact ⟨pos + amount, hheld'⟩
    | through _ _ _ _ hphase => exact absurd hphase (hopen _)
  cases hphase : t.sender.phase with
  | sending =>
    refine hcase (.send false) ?_ fun outcome => by rw [hphase]; nofun
    simp [SendSteps, Sender.step, Timed.step, hphase]
  | collecting lastAck =>
    refine hcase (.recv false (t.timeoutEnd ≤ now) arrival.received) ?_
      fun outcome => by rw [hphase]; nofun
    simp [SendSteps, Sender.step, Timed.step, hphase]
  | finished outcome =>
    have hsame : t.step read params now arrival = t := by simp [Timed.step, hphase]
    rw [hsame] at hopen
    exact absurd hphase (hopen _)

theorem Timed.step_bytesSent (law : read.Lawful) (t : Timed R) (now : ℕ) (arrival : Arrival) :
    (t.step read params now arrival).sender.bytesSent = t.sender.bytesSent + t.sends read params := by
  cases @Timed.step_cases _ _ params law t now arrival with
  | sent frame hout hsends hbytes _ _ _ _ _ => rw [hbytes, hsends]
  | refused frame hout hsends _ hbytes _ _ _ => rw [hbytes, hsends, Nat.add_zero]
  | quiet hout hbytes _ _ _ _ _ _ => simp [hbytes, Timed.sends, hout]
  | advanced _ hout hbytes _ _ => simp [hbytes, Timed.sends, hout]
  | again _ hout hbytes _ _ _ => simp [hbytes, Timed.sends, hout]
  | exhausted _ _ hout hbytes _ _ => simp [hbytes, Timed.sends, hout]

theorem Timed.retransmits_of_not_timesOut (h : t.timesOut params now arrival = false) :
    t.retransmits params now arrival = false := by
  simp [Timed.retransmits, h]

theorem Timed.step_retryCnt (law : read.Lawful) (t : Timed R) (now : ℕ) (arrival : Arrival) :
    (t.step read params now arrival).sender.retryCnt =
      t.sender.retryCnt + if t.retransmits params now arrival then 1 else 0 := by
  cases @Timed.step_cases _ _ params law t now arrival with
  | sent _ _ _ _ _ hretry _ _ htimer => simp [hretry, Timed.retransmits_of_not_timesOut htimer]
  | refused _ _ _ _ _ hretry _ htimer => simp [hretry, Timed.retransmits_of_not_timesOut htimer]
  | quiet _ _ _ hretry _ _ _ htimer => simp [hretry, Timed.retransmits_of_not_timesOut htimer]
  | advanced _ _ _ hretry htimer => simp [hretry, Timed.retransmits_of_not_timesOut htimer]
  | again hagain _ _ hretry _ _ => simp [hretry, hagain]
  | exhausted _ hretries _ _ hretry _ =>
    have hdone : t.retransmits params now arrival = false := by simp [Timed.retransmits, hretries]
    simp [hretry, hdone]

namespace Schedule

variable (read params) (σ : Schedule) (blockSize : ℕ) (content : List UInt8)

/-- The step notices that the timer has expired. -/
def timesOut (n : ℕ) : Bool :=
  (σ.run read params blockSize content n).timesOut params (σ.clock n) (σ.arrival n)

def retransmits (n : ℕ) : Bool :=
  (σ.run read params blockSize content n).retransmits params (σ.clock n) (σ.arrival n)

def advances (n : ℕ) : Bool :=
  (σ.run read params blockSize content n).sender.advances params (σ.arrival n)

def consults (n : ℕ) : Bool :=
  (σ.run read params blockSize content n).sender.consults params (σ.arrival n)

/-- How often the timer was found expired. -/
def timeouts (n : ℕ) : ℕ := Nat.count (fun i => σ.timesOut read params blockSize content i) n

/-- How often the window was sent again. -/
def rounds (n : ℕ) : ℕ := Nat.count (fun i => σ.retransmits read params blockSize content i) n

/-- The bytes that went out, every repetition of a block counted. -/
def traffic (n : ℕ) : ℕ :=
  ∑ i ∈ Finset.range n, (σ.run read params blockSize content i).sends read params

/-- The transfer is over, or what the socket yielded leads on to the timer. -/
def Attended (n : ℕ) : Prop :=
  ¬ (σ.run read params blockSize content n).sender.Open ∨
    σ.consults read params blockSize content n = true

end Schedule

section Runs

variable {σ : Schedule} {blockSize : ℕ} {content : List UInt8}

theorem sendFile_counters :
    (sendFile read params blockSize content).bytesSent = 0 ∧
      (sendFile read params blockSize content).retryCnt = 0 ∧
      (sendFile read params blockSize content).blockSeqWin = 0 := by
  unfold sendFile
  dsimp only
  split_ifs
  · exact ⟨rfl, rfl, rfl⟩
  · split <;> exact ⟨rfl, rfl, rfl⟩

theorem Schedule.run_inv (law : read.Lawful) (hbounded : read.Bounded) (hsize : 0 < blockSize)
    (n : ℕ) :
    (σ.run read params blockSize content n).Inv law (cut blockSize content) params.windowSize := by
  induction n with
  | zero =>
    intro hopen
    by_cases hcontent : content = []
    · refine absurd ?_ (hopen (.ok ⟨0, some []⟩))
      simp [Schedule.run, sendFile, hcontent, Sender.finish]
    · exact ⟨0, (sendFile_held law hsize hcontent).1⟩
  | succ n ih => exact ih.step hbounded _ _

theorem Schedule.run_bytesSent (law : read.Lawful) (n : ℕ) :
    (σ.run read params blockSize content n).sender.bytesSent =
      σ.traffic read params blockSize content n := by
  induction n with
  | zero => exact sendFile_counters.1
  | succ n ih =>
    rw [Schedule.traffic, Finset.sum_range_succ, ← Schedule.traffic, ← ih]
    exact Timed.step_bytesSent law _ _ _

theorem Schedule.run_retryCnt (law : read.Lawful) (n : ℕ) :
    (σ.run read params blockSize content n).sender.retryCnt =
      σ.rounds read params blockSize content n := by
  induction n with
  | zero => exact sendFile_counters.2.1
  | succ n ih =>
    rw [Schedule.rounds, Nat.count_succ, ← Schedule.rounds, ← ih]
    exact Timed.step_retryCnt law _ _ _

/-- A timer that is found expired starts a round, unless there have been enough. -/
theorem Schedule.retransmits_iff (law : read.Lawful) (n : ℕ) :
    σ.retransmits read params blockSize content n = true ↔
      σ.timesOut read params blockSize content n = true ∧
        σ.rounds read params blockSize content n < params.retries := by
  rw [← Schedule.run_retryCnt law]
  simp [Schedule.retransmits, Schedule.timesOut, Timed.retransmits]

theorem Schedule.rounds_eq (law : read.Lawful) (n : ℕ) :
    σ.rounds read params blockSize content n =
      min (σ.timeouts read params blockSize content n) params.retries := by
  induction n with
  | zero => simp [Schedule.rounds, Schedule.timeouts]
  | succ n ih =>
    have hiff := @Schedule.retransmits_iff _ _ params σ blockSize content law n
    have hrounds : σ.rounds read params blockSize content (n + 1) =
        σ.rounds read params blockSize content n +
          if σ.retransmits read params blockSize content n = true then 1 else 0 :=
      Nat.count_succ _ _
    have htimeouts : σ.timeouts read params blockSize content (n + 1) =
        σ.timeouts read params blockSize content n +
          if σ.timesOut read params blockSize content n = true then 1 else 0 :=
      Nat.count_succ _ _
    rw [hrounds, htimeouts]
    by_cases htimer : σ.timesOut read params blockSize content n = true
    · by_cases hlt : σ.rounds read params blockSize content n < params.retries
      · rw [if_pos htimer, if_pos (hiff.mpr ⟨htimer, hlt⟩)]
        omega
      · rw [if_pos htimer, if_neg fun hagain => hlt (hiff.mp hagain).2]
        omega
    · rw [if_neg htimer, if_neg fun hagain => htimer (hiff.mp hagain).1]
      omega

/-! ## No operation overflows -/

theorem growth_eq {n : ℕ} (h : n ≤ 31) : growth n = 2 ^ n := by
  have hlt : 2 ^ n < 2 ^ 32 := Nat.pow_lt_pow_right (by decide) (by omega)
  rw [growth, Nat.mod_eq_of_lt (show n < 2 ^ 32 by omega), Nat.mod_eq_of_lt hlt]

theorem timeout_le (params : TftpDynamicParams) : params.timeout ≤ 255 := by
  have := params.timeoutSecs.toNat_lt
  unfold TftpDynamicParams.timeout
  omega

/-- The index of a block in the window fits, as the window does. -/
theorem Timed.Inv.index_fits (h : t.Inv law blocks params.windowSize) {frame : List UInt8}
    (hout : t.sender.outgoing read = some frame) :
    (⟨t.sender.wrIdx + 1, 16⟩ : Computation).Fits := by
  have hphase : t.sender.phase = .sending := by
    unfold Sender.outgoing at hout
    split at hout
    · assumption
    · cases hout
  obtain ⟨pos, hheld⟩ := h fun outcome => by rw [hphase]; nofun
  have hidx : t.sender.wrIdx < (read.elements t.sender.window).length := by
    simp only [Sender.outgoing, hphase] at hout
    exact (List.getElem?_eq_some_iff.mp hout).1
  have hlen := hheld.window.length
  have hwindow := params.windowsize.toNat_lt
  unfold TftpDynamicParams.windowSize at hlen
  change t.sender.wrIdx + 1 < 2 ^ 16
  omega

/-- The operations of a step fit if there were at most 31 rounds, this one included, and the
bytes are counted without overflow. -/
theorem Timed.Inv.fits (h : t.Inv law blocks params.windowSize)
    (hrounds : t.retransmits params now arrival = true → t.sender.retryCnt + 1 ≤ 31)
    (hbytes : t.sender.bytesSent + t.sends read params < 2 ^ 64) :
    ∀ c ∈ t.computations read params now arrival, c.Fits := by
  intro c hc
  unfold Timed.computations at hc
  dsimp only at hc
  split at hc
  · rename_i frame hout
    have hindex := h.index_fits hout
    split_ifs at hc with hseq
    · have hsends : t.sends read params = frame.length := by simp [Timed.sends, hout, hseq]
      rw [hsends] at hbytes
      rcases hc with _ | ⟨_, _ | ⟨_, _ | ⟨_, hc⟩⟩⟩
      · exact hindex
      · exact hbytes
      · exact hindex
      · cases hc
    · rcases hc with _ | ⟨_, hc⟩
      · exact hindex
      · cases hc
  · split_ifs at hc with hagain
    · have hle := hrounds hagain
      have hsmall : 2 ^ (t.sender.retryCnt + 1) < 2 ^ 32 :=
        Nat.pow_lt_pow_right (by decide) (by omega)
      rcases hc with _ | ⟨_, _ | ⟨_, _ | ⟨_, hc⟩⟩⟩
      · change t.sender.retryCnt + 1 < 2 ^ 64
        omega
      · unfold Computation.Fits
        rw [Nat.mod_eq_of_lt (show t.sender.retryCnt + 1 < 2 ^ 32 by omega)]
        exact hsmall
      · have hcap : params.timeout * min (growth (t.sender.retryCnt + 1)) 60 ≤ 255 * 60 :=
          Nat.mul_le_mul (timeout_le params) (min_le_right _ _)
        change params.timeout * min (growth (t.sender.retryCnt + 1)) 60 < 2 ^ 64
        omega
      · cases hc
    · cases hc

variable (read params σ blockSize content) in
/-- No operation overflows. -/
def Schedule.Fits : Prop :=
  ∀ n, ∀ c ∈ (σ.run read params blockSize content n).computations read params (σ.clock n)
    (σ.arrival n), c.Fits

theorem Schedule.rounds_succ {n : ℕ} (h : σ.retransmits read params blockSize content n = true) :
    σ.rounds read params blockSize content (n + 1) = σ.rounds read params blockSize content n + 1 :=
  (Nat.count_succ _ _).trans (by rw [if_pos h]; rfl)

theorem Schedule.traffic_succ (n : ℕ) :
    σ.traffic read params blockSize content (n + 1) = σ.traffic read params blockSize content n +
      (σ.run read params blockSize content n).sends read params :=
  Finset.sum_range_succ _ _

/-- Where nothing overflows there are at most 31 rounds: the power of the next has 33 bits. -/
theorem Schedule.Fits.rounds_le (h : σ.Fits read params blockSize content) (law : read.Lawful)
    (n : ℕ) : σ.rounds read params blockSize content n ≤ 31 := by
  induction n with
  | zero => exact Nat.zero_le _
  | succ n ih =>
    by_cases hagain : σ.retransmits read params blockSize content n = true
    · rw [Schedule.rounds_succ hagain]
      refine Nat.succ_le_of_lt (lt_of_le_of_ne ih fun heq => ?_)
      have hretry := (Schedule.run_retryCnt law n).trans heq
      have hnone : (σ.run read params blockSize content n).sender.outgoing read = none := by
        cases @Timed.step_cases _ _ params law (σ.run read params blockSize content n)
          (σ.clock n) (σ.arrival n) with
        | sent _ _ _ _ _ _ _ _ htimer | refused _ _ _ _ _ _ _ htimer =>
          exact absurd hagain (by
            rw [Schedule.retransmits, Timed.retransmits_of_not_timesOut htimer]
            exact Bool.false_ne_true)
        | quiet hnone | advanced _ hnone | again _ hnone | exhausted _ _ hnone => exact hnone
      have hagain' : (σ.run read params blockSize content n).retransmits params (σ.clock n)
          (σ.arrival n) = true := hagain
      have hfits := h n ⟨2 ^ 32, 32⟩ (by
        simp only [Timed.computations, hnone]
        rw [if_pos hagain', hretry]
        exact .tail _ (.head _))
      exact absurd hfits (lt_irrefl _)
    · have hsame : σ.rounds read params blockSize content (n + 1) =
          σ.rounds read params blockSize content n := (Nat.count_succ _ _).trans (by rw [if_neg hagain]; rfl)
      rwa [hsame]

theorem Schedule.Fits.traffic_lt (h : σ.Fits read params blockSize content) (law : read.Lawful)
    (n : ℕ) : σ.traffic read params blockSize content n < 2 ^ 64 := by
  induction n with
  | zero => exact Nat.two_pow_pos _
  | succ n ih =>
    rw [Schedule.traffic_succ]
    cases hout : (σ.run read params blockSize content n).sender.outgoing read with
    | none => simpa [Timed.sends, hout] using ih
    | some frame =>
      by_cases hseq : (blockSeqTx params.rollover (σ.run read params blockSize content n).sender.blockSeqWin
          (σ.run read params blockSize content n).sender.wrIdx).isSome
      · have hfits := h n ⟨(σ.run read params blockSize content n).sender.bytesSent + frame.length, 64⟩
          (by simp [Timed.computations, hout, hseq])
        rw [Schedule.run_bytesSent law] at hfits
        simp only [Timed.sends, hout, if_pos hseq]
        exact hfits
      · simpa [Timed.sends, hout, hseq] using ih

theorem Schedule.fits_iff (law : read.Lawful) (hbounded : read.Bounded) (hsize : 0 < blockSize) :
    σ.Fits read params blockSize content ↔
      (params.retries ≤ 31 ∨ ∀ n, σ.timeouts read params blockSize content n ≤ 31) ∧
        ∀ n, σ.traffic read params blockSize content n < 2 ^ 64 := by
  refine ⟨fun h => ⟨?_, h.traffic_lt law⟩, fun ⟨hcount, htraffic⟩ n => ?_⟩
  · by_cases hle : params.retries ≤ 31
    · exact .inl hle
    · refine .inr fun n => ?_
      have hrounds := h.rounds_le law n
      rw [Schedule.rounds_eq law] at hrounds
      omega
  · refine (Schedule.run_inv law hbounded hsize n).fits (fun hagain => ?_) ?_
    · have hnext := @Schedule.rounds_eq _ _ params σ blockSize content law (n + 1)
      rw [Schedule.rounds_succ hagain] at hnext
      rw [Schedule.run_retryCnt law]
      rcases hcount with hle | hle
      · omega
      · have := hle (n + 1)
        omega
    · have := htraffic (n + 1)
      rwa [Schedule.traffic_succ, ← Schedule.run_bytesSent law] at this

/-! ## Runs without an answer -/

/-- A bounded value that never falls changes only so often. -/
theorem exists_settled {f : ℕ → ℕ} {b : ℕ} (hmono : Monotone f) (hb : ∀ n, f n ≤ b) :
    ∃ n, ∀ m, n ≤ m → f m = f n := by
  have hbounded : BddAbove (Set.range f) := ⟨b, by rintro _ ⟨n, rfl⟩; exact hb n⟩
  obtain ⟨n, hn⟩ := Nat.sSup_mem (Set.range_nonempty f) hbounded
  exact ⟨n, fun m hm => le_antisymm (hn ▸ le_csSup hbounded ⟨m, rfl⟩) (hmono hm)⟩

/-- Until the timer gives up, the base of the window stays at 0. -/
def Timed.Unanswered (params : TftpDynamicParams) (t : Timed R) : Prop :=
  t.sender.blockSeqWin = 0 ∧ t.sender.Open ∨
    t.sender.phase = .finished (.error (.maxRetries params.retries)) ∧
      t.sender.retryCnt = params.retries

/-- The blocks of the first window need no number from behind the wrap. -/
theorem blockSeqTx_first {rollover : TftpRollover} {idx : ℕ} :
    blockSeqTx rollover 0 idx ≠ none := by
  simp [blockSeqTx]

theorem Timed.Unanswered.step (h : t.Unanswered params) (law : read.Lawful)
    (hadvances : t.sender.advances params arrival = false)
    (hretry : t.sender.retryCnt ≤ params.retries) :
    (t.step read params now arrival).Unanswered params := by
  rcases h with ⟨hbase, hopen⟩ | ⟨hphase, hcount⟩
  · cases @Timed.step_cases _ _ params law t now arrival with
    | sent _ _ _ _ _ _ hbase' hopen' _ => exact .inl ⟨hbase'.trans hbase, hopen'⟩
    | refused _ _ _ hseq =>
      rw [hbase] at hseq
      exact absurd hseq blockSeqTx_first
    | quiet _ _ _ _ hbase' _ hopen' _ => exact .inl ⟨hbase'.trans hbase, hopen' hopen⟩
    | advanced hadvances' => rw [hadvances] at hadvances'; cases hadvances'
    | again _ _ _ _ hbase' hopen' => exact .inl ⟨hbase'.trans hbase, hopen'⟩
    | exhausted _ hretries _ _ hretry' hphase =>
      exact .inr ⟨hphase, hretry'.trans (le_antisymm hretry hretries)⟩
  · have hsame : t.step read params now arrival = t := by simp [Timed.step, hphase]
    rw [hsame]
    exact .inr ⟨hphase, hcount⟩

theorem Schedule.rounds_le_retries (law : read.Lawful) (n : ℕ) :
    σ.rounds read params blockSize content n ≤ params.retries := by
  rw [Schedule.rounds_eq law]
  exact min_le_right _ _

theorem Schedule.unanswered (law : read.Lawful) (hsize : 0 < blockSize) (hcontent : content ≠ [])
    (hadvances : ∀ n, σ.advances read params blockSize content n = false) (n : ℕ) :
    (σ.run read params blockSize content n).Unanswered params := by
  induction n with
  | zero => exact .inl ⟨sendFile_counters.2.2, (sendFile_held law hsize hcontent).2.1⟩
  | succ n ih =>
    refine ih.step law (hadvances n) ?_
    rw [Schedule.run_retryCnt law]
    exact Schedule.rounds_le_retries law n

/-- A sender that nothing advances and nothing ends stops to send at some time, and stops to look
at its timer. -/
theorem Schedule.exists_idle (law : read.Lawful) (hbounded : read.Bounded) (hsize : 0 < blockSize)
    (hadvances : ∀ n, σ.advances read params blockSize content n = false)
    (hopen : ∀ n, (σ.run read params blockSize content n).sender.Open) :
    ∃ n, ∀ m, n ≤ m → σ.timesOut read params blockSize content m = false ∧
      (σ.run read params blockSize content m).timeoutEnd =
        (σ.run read params blockSize content n).timeoutEnd := by
  -- no round is started any more
  obtain ⟨n, hn⟩ := exists_settled (b := params.retries)
    (Nat.count_monotone fun i => σ.retransmits read params blockSize content i = true)
    (@Schedule.rounds_le_retries _ _ params σ blockSize content law)
  have hquiet : ∀ m, n ≤ m → σ.timesOut read params blockSize content m = false := by
    intro m hm
    cases htimer : σ.timesOut read params blockSize content m with
    | false => rfl
    | true =>
      by_cases hagain : σ.retransmits read params blockSize content m = true
      · have hsucc := Schedule.rounds_succ hagain
        have heq : σ.rounds read params blockSize content (m + 1) =
            σ.rounds read params blockSize content m := (hn (m + 1) (by omega)).trans (hn m hm).symm
        omega
      · have hretries : ¬ σ.rounds read params blockSize content m < params.retries := fun hlt =>
          hagain ((Schedule.retransmits_iff law m).mpr ⟨htimer, hlt⟩)
        cases @Timed.step_cases _ _ params law (σ.run read params blockSize content m)
          (σ.clock m) (σ.arrival m) with
        | sent _ _ _ _ _ _ _ _ hfalse | refused _ _ _ _ _ _ _ hfalse | quiet _ _ _ _ _ _ _ hfalse
        | advanced _ _ _ _ hfalse => exact absurd htimer (by rw [Schedule.timesOut, hfalse]; nofun)
        | again hagain' => exact absurd hagain' hagain
        | exhausted _ _ _ _ _ hphase => exact absurd hphase (hopen (m + 1) _)
  -- from then on the window is only sent on
  have hcases : ∀ m, n ≤ m →
      (σ.run read params blockSize content (m + 1)).sender.wrIdx =
          (σ.run read params blockSize content m).sender.wrIdx + 1 ∨
        (σ.run read params blockSize content (m + 1)).sender.wrIdx =
            (σ.run read params blockSize content m).sender.wrIdx ∧
          (σ.run read params blockSize content (m + 1)).timeoutEnd =
            (σ.run read params blockSize content m).timeoutEnd := by
    intro m hm
    have hfalse := hquiet m hm
    cases @Timed.step_cases _ _ params law (σ.run read params blockSize content m)
      (σ.clock m) (σ.arrival m) with
    | sent _ _ _ _ hidx => exact .inl hidx
    | refused _ _ _ _ _ _ hphase => exact absurd hphase (hopen (m + 1) _)
    | quiet _ _ hidx _ _ hend => exact .inr ⟨hidx, hend⟩
    | advanced hadvances' => exact absurd hadvances' (by rw [← Schedule.advances, hadvances m]; nofun)
    | again hagain =>
      have hfalse' := Timed.retransmits_of_not_timesOut hfalse
      rw [hagain] at hfalse'
      cases hfalse'
    | exhausted htrue =>
      rw [Schedule.timesOut, htrue] at hfalse
      cases hfalse
  have hmono : Monotone fun i => (σ.run read params blockSize content (n + i)).sender.wrIdx :=
    monotone_nat_of_le_succ fun i => by
      rcases hcases (n + i) (by omega) with hidx | ⟨hidx, -⟩ <;> rw [← Nat.add_assoc] <;> omega
  have hwindow : ∀ i, (σ.run read params blockSize content (n + i)).sender.wrIdx ≤ params.windowSize := by
    intro i
    obtain ⟨pos, hheld⟩ := @Schedule.run_inv _ _ params σ blockSize content law hbounded hsize
      (n + i) (hopen _)
    have hlen := hheld.window.length
    have hidx := hheld.idx
    omega
  obtain ⟨k, hk⟩ := exists_settled hmono hwindow
  refine ⟨n + k, fun m hm => ⟨hquiet m (by omega), ?_⟩⟩
  induction m, hm using Nat.le_induction with
  | base => rfl
  | succ m hm ih =>
    rcases hcases m (by omega) with hidx | ⟨-, hend⟩
    · have h1 := hk (m - n) (by omega)
      have h2 := hk (m + 1 - n) (by omega)
      rw [show n + (m - n) = m by omega] at h1
      rw [show n + (m + 1 - n) = m + 1 by omega] at h2
      omega
    · exact hend.trans ih

/-! ## What is promised -/

variable (read params σ blockSize content) in
/-- Retransmission under a schedule: nothing overflows, the pauses grow up to half a minute, and
without an answer the transfer is given up after the rounds that were configured. -/
structure Schedule.Retransmission : Prop where
  fits : σ.Fits read params blockSize content
  pauses : ∀ n, σ.retransmits read params blockSize content n = true →
    params.pause ((σ.run read params blockSize content n).sender.retryCnt + 1) =
      min 30 (params.timeout * min (2 ^ σ.rounds read params blockSize content (n + 1)) 60)
  ends : (∀ n, σ.advances read params blockSize content n = false) →
    ∃ n, (σ.run read params blockSize content n).sender.phase =
        .finished (.error (.maxRetries params.retries)) ∧
      σ.rounds read params blockSize content n = params.retries

theorem Schedule.Fits.pauses (h : σ.Fits read params blockSize content) (law : read.Lawful) {n : ℕ}
    (hagain : σ.retransmits read params blockSize content n = true) :
    params.pause ((σ.run read params blockSize content n).sender.retryCnt + 1) =
      min 30 (params.timeout * min (2 ^ σ.rounds read params blockSize content (n + 1)) 60) := by
  have hle := h.rounds_le law (n + 1)
  rw [Schedule.rounds_succ hagain] at hle ⊢
  rw [Schedule.run_retryCnt law, TftpDynamicParams.pause, growth_eq hle, min_comm]

/-- A transfer that is over stays as it is. -/
theorem Schedule.run_of_finished {n : ℕ} {outcome : Outcome}
    (h : (σ.run read params blockSize content n).sender.phase = .finished outcome) {m : ℕ}
    (hm : n ≤ m) : σ.run read params blockSize content m = σ.run read params blockSize content n := by
  induction m, hm using Nat.le_induction with
  | base => rfl
  | succ m hm ih =>
    rw [← ih] at h
    rw [← ih]
    simp [Schedule.run, Timed.step, h]

/-- Without an answer the transfer ends exactly if the timer is looked at again and again. -/
theorem Schedule.ends_iff (law : read.Lawful) (hbounded : read.Bounded) (hsize : 0 < blockSize)
    (hcontent : content ≠ [])
    (hadvances : ∀ n, σ.advances read params blockSize content n = false) :
    (∃ n, (σ.run read params blockSize content n).sender.phase =
        .finished (.error (.maxRetries params.retries)) ∧
      σ.rounds read params blockSize content n = params.retries) ↔
      ∀ n, ∃ m, n ≤ m ∧ σ.Attended read params blockSize content m := by
  constructor
  · rintro ⟨n, hphase, -⟩ k
    refine ⟨max n k, le_max_right _ _, .inl fun hopen => ?_⟩
    rw [Schedule.run_of_finished hphase (le_max_left _ _)] at hopen
    exact hopen _ hphase
  · intro hattended
    by_contra hnever
    have hopen : ∀ n, (σ.run read params blockSize content n).sender.Open := by
      intro n
      rcases Schedule.unanswered law hsize hcontent hadvances n with ⟨-, hopen⟩ | ⟨hphase, hcount⟩
      · exact hopen
      · exact absurd ⟨n, hphase, (Schedule.run_retryCnt law n).symm.trans hcount⟩ hnever
    obtain ⟨n, hidle⟩ := Schedule.exists_idle law hbounded hsize hadvances hopen
    obtain ⟨k, hk⟩ := σ.passes (σ.run read params blockSize content n).timeoutEnd
    obtain ⟨m, hm, hconsults⟩ := hattended (max n k)
    have hconsults' := hconsults.resolve_left (not_not.mpr (hopen m))
    obtain ⟨hfalse, hend⟩ := hidle m (by omega)
    have hclock : (σ.run read params blockSize content m).timeoutEnd ≤ σ.clock m := by
      rw [hend]
      exact hk.trans (σ.mono (by omega))
    have htrue : σ.timesOut read params blockSize content m = true := by
      rw [Schedule.consults] at hconsults'
      simp [Schedule.timesOut, Timed.timesOut, hconsults', hclock]
    rw [hfalse] at htrue
    cases htrue

/-- **Retransmission.** All is as promised exactly if the power of two fits in its word (at most
31 rounds are configured, or at most 31 times the timer is found expired), the bytes are counted
without overflow, there is something to send, and without an answer the timer is looked at again
and again, and not passed over for acknowledgements of the base. -/
theorem sendFile_retransmission_iff (law : read.Lawful) (hbounded : read.Bounded)
    (hsize : 0 < blockSize) :
    σ.Retransmission read params blockSize content ↔
      (params.retries ≤ 31 ∨ ∀ n, σ.timeouts read params blockSize content n ≤ 31) ∧
        (∀ n, σ.traffic read params blockSize content n < 2 ^ 64) ∧ content ≠ [] ∧
        ((∀ n, σ.advances read params blockSize content n = false) →
          ∀ n, ∃ m, n ≤ m ∧ σ.Attended read params blockSize content m) := by
  constructor
  · intro h
    have hcontent : content ≠ [] := by
      rintro rfl
      -- an empty file is done at once
      have hphase : (σ.run read params blockSize [] 0).sender.phase =
          .finished (.ok ⟨0, some []⟩) := by
        simp [Schedule.run, sendFile, Sender.finish]
      have hsame := fun n => Schedule.run_of_finished hphase (Nat.zero_le n)
      obtain ⟨n, herror, -⟩ := h.ends fun n => by
        cases harrival : σ.arrival n <;>
          simp [Schedule.advances, Sender.advances, hsame, hphase, harrival]
      rw [hsame n, hphase] at herror
      cases herror
    obtain ⟨hcount, htraffic⟩ := (Schedule.fits_iff law hbounded hsize).mp h.fits
    exact ⟨hcount, htraffic, hcontent, fun hadvances =>
      (Schedule.ends_iff law hbounded hsize hcontent hadvances).mp (h.ends hadvances)⟩
  · rintro ⟨hcount, htraffic, hcontent, hattended⟩
    have hfits := (Schedule.fits_iff law hbounded hsize).mpr ⟨hcount, htraffic⟩
    exact ⟨hfits, fun n hagain => hfits.pauses law hagain, fun hadvances =>
      (Schedule.ends_iff law hbounded hsize hcontent hadvances).mpr (hattended hadvances)⟩

/-- The peer is silent, and each answer is waited for a hundred seconds. -/
def silence : Schedule where
  arrival _ := .nothing
  clock n := 100000 * n
  mono _ _ h := Nat.mul_le_mul_left _ h
  passes time := ⟨time, by omega⟩

/-- Six rounds of the only block. -/
theorem sendFile_retransmission_silence : silence.Retransmission listRead {} 512 [1, 2, 3] := by
  have hphase : (silence.run listRead {} 512 [1, 2, 3] 14).sender.phase =
      .finished (.error (.maxRetries 6)) := by decide
  refine (sendFile_retransmission_iff listRead_lawful listRead_bounded (by decide)).mpr
    ⟨.inl (by decide), fun n => ?_, by decide, fun _ n => ⟨max n 14, le_max_left _ _, .inl fun hopen => ?_⟩⟩
  · rw [← Schedule.run_bytesSent listRead_lawful]
    rcases Nat.lt_or_ge n 14 with hlt | hge
    · have hall : ∀ n < 14, (silence.run listRead {} 512 [1, 2, 3] n).sender.bytesSent < 2 ^ 64 := by
        decide
      exact hall n hlt
    · rw [Schedule.run_of_finished hphase hge]
      decide
  · rw [Schedule.run_of_finished hphase (le_max_right _ _)] at hopen
    exact hopen _ hphase

set_option maxRecDepth 20000 in
/-- The back-off of the 32nd round is computed as `2u32.pow(32)`. -/
theorem backoff_overflows : ¬ silence.Retransmission listRead { maxRetries := 32 } 512 [1, 2, 3] :=
  fun h => absurd (h.fits 63 ⟨2 ^ 32, 32⟩ (by decide)) (by decide)

end Runs

end TauTerm.Tftp
