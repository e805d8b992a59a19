import Mathlib
import TauTerm.Tftp.Sides

/-!
# A transfer over a network that loses packets

`send_file` against `receive_file`, over a network that loses, duplicates, delays and
reorders: a packet that was sent once may arrive at any time later, any number of
times. Timers expire when they like. In a GET, `tftp_client_get` takes the first block.

What the receiver has accepted is the front of the file (`Lossy.Safe`). That the
sender is through means that everything was accepted, apart from two slips
(`Setting.Regular`).
-/

namespace TauTerm.Tftp

open Lib

/-! ## The machine -/

/-- The side without the file: `tftp_client_get` in front of its first block, or
`receive_file`. -/
inductive LossySide (W : Type) where
  | awaitingFirst
  | transferring (r : Receiver W)
  | failed

structure Setting where
  content : List UInt8
  blockSize : Nat
  sender : TftpDynamicParams
  receiver : TftpDynamicParams

/-- The two sides, and every packet that was ever sent to one of them. -/
structure Lossy (R W : Type) where
  sender : Sender R
  receiver : LossySide W
  toReceiver : List Packet
  toSender : List Packet

/-- A packet of the handshake, copies of which may still be under way. -/
def Packet.IsHandshake : Packet → Prop
  | .ack 0 => True
  | .oack _ => True
  | _ => False

/-- What `recv` returns if these packets have been sent. -/
def Received.Possible (sent : List Packet) : Received → Prop
  | .packet arrived => arrived ∈ sent
  | _ => True

instance (sent : List Packet) (received : Received) : Decidable (received.Possible sent) := by
  unfold Received.Possible
  split <;> infer_instance

inductive LossyAction where
  | send (abort : Bool)
  | collect (abort expired : Bool) (received : Received)
  | receive (abort : Bool) (received : Received)
  | acknowledge
  deriving DecidableEq

section Step

variable {R W : Type} (read : WindowRead R) (write : WindowWrite W) (q : Setting)

/-- A PUT, with the server's answer to the request. -/
def Lossy.put (handshake : List Packet) : Lossy R W where
  sender := sendFile read q.sender q.blockSize q.content
  receiver := .transferring (receiveFile write q.receiver [] 1)
  toReceiver := []
  toSender := handshake

/-- A GET, with the messages of its handshake. -/
def Lossy.get (toReceiver toSender : List Packet) : Lossy R W where
  sender := sendFile read q.sender q.blockSize q.content
  receiver := .awaitingFirst
  toReceiver
  toSender

def Lossy.receiveStep (e : Lossy R W) (abort : Bool) (received : Received) : Option (Lossy R W) :=
  match e.receiver with
  | .awaitingFirst =>
    match received with
    | .packet (.data 1 data) => some { e with
        receiver := .transferring (receiveFile write q.receiver data 2)
        toSender := e.toSender ++ [.ack 1] }
    | _ => some { e with receiver := .failed }
  | .transferring r =>
    match r.phase with
    | .receiving =>
      let step := r.receiveStep write q.receiver q.blockSize abort received
      some { e with receiver := .transferring step.1, toSender := e.toSender ++ step.2 }
    | _ => none
  | .failed => none

def Lossy.step (e : Lossy R W) : LossyAction → Option (Lossy R W)
  | .send abort =>
    match e.sender.phase with
    | .sending =>
      let step := e.sender.sendStep read q.sender abort
      some { e with sender := step.1, toReceiver := e.toReceiver ++ step.2 }
    | _ => none
  | .collect abort expired received =>
    match e.sender.phase with
    | .collecting lastAck =>
      if received.Possible e.toSender then
        some { e with sender := e.sender.collectStep read q.sender abort expired lastAck received }
      else none
    | _ => none
  | .receive abort received =>
    if received.Possible e.toReceiver then e.receiveStep write q abort received else none
  | .acknowledge =>
    match e.receiver with
    | .transferring r =>
      match r.phase with
      | .acking =>
        let step := r.ackStep write q.receiver
        some { e with receiver := .transferring step.1, toSender := e.toSender ++ step.2 }
      | _ => none
    | _ => none

/-- A step that happened. -/
def LossySteps (e : Lossy R W) (action : LossyAction) (e' : Lossy R W) : Prop :=
  e.step read write q action = some e'

end Step

/-- `WindowRead::remove` refuses to remove more than there is. -/
def WindowRead.Bounded {R : Type} (read : WindowRead R) : Prop :=
  ∀ amount r, (read.elements r).length < amount → read.remove amount r = none

theorem listRead_bounded : listRead.Bounded := fun _ _ h => if_neg (not_le.mpr h)

variable {R W : Type} {read : WindowRead R} {write : WindowWrite W} {rlaw : read.Lawful}
  {wlaw : write.Lawful} {q : Setting} {e e' : Lossy R W}

/-! ## What was accepted -/

/-- The number of the last block accepted. -/
def LossySide.accepted : LossySide W → Nat
  | .transferring r => r.blockNumber
  | _ => 0

/-- The bytes accepted: what is in the file, and what is still in the window. -/
def LossySide.acceptedBytes (law : write.Lawful) : LossySide W → List UInt8
  | .transferring r => write.file r.window ++ (law.blocks r.window).flatten
  | _ => []

/-- `receive_file` returned `Ok`. -/
def LossySide.Done : LossySide W → Prop
  | .transferring r => ∃ result, r.phase = .finished (.ok result)
  | _ => False

/-- `send_file` returned `Ok`. -/
def Sender.Done (s : Sender R) : Prop := ∃ result, s.phase = .finished (.ok result)

def Setting.blockCount (q : Setting) : Nat := q.content.length / q.blockSize + 1

/-- The file is not taken for sent at once, and no acknowledgement of block 0 for one
of the last block: `Enforce1` leaves block 0 out of the count of every wrap. -/
def Setting.Regular (q : Setting) : Prop :=
  q.content ≠ [] ∧ ¬ (q.sender.rollover = .enforce1 ∧ q.blockCount = 65535)

/-! ## The sender -/

section Sender

variable {s : Sender R} {params : TftpDynamicParams} {blocks : List (List UInt8)} {w : Nat}

/-- An acknowledgement from before the base is far ahead of it, counted modulo 2^16. -/
theorem ackDiff_stale {ack base : Nat} (rollover : TftpRollover) (hlt : ack < base)
    (hbase : base < 65536) :
    ackDiff rollover ack base = ack + 65536 - base - if rollover = .enforce1 then 1 else 0 := by
  have hsub : wrappingSub ack base = ack + 65536 - base := by
    unfold wrappingSub
    omega
  simp only [ackDiff, hsub, hlt, true_and]
  split_ifs
  · unfold wrappingSub
    omega
  · omega

/-- An acknowledgement that would move the window beyond its end ends the transfer
with an error, or is ignored. -/
theorem Sender.acknowledge_far (hbounded : read.Bounded) {ack : Nat}
    (hfar : (read.elements s.window).length < ackDiff params.rollover ack s.blockSeqWin) :
    s.acknowledge read params ack = none ∨
      s.acknowledge read params ack =
        some ({ s with blockSeqWin := ack }.finish (.error .removeFailed)) := by
  simp only [Sender.acknowledge, hbounded _ _ hfar]
  rw [if_neg (by omega)]
  split_ifs
  · exact .inr rfl
  · exact .inl rfl

/-- The slip of `Enforce1`: an old acknowledgement of block 0 passes for one of block 65535. -/
theorem Sender.Windowed.acknowledge_zero (h : s.Windowed rlaw blocks w) (hw : params.windowSize = w)
    (hn : blocks.length = 65535) (hrollover : params.rollover = .enforce1) (hbase : 0 < s.blockSeqWin)
    (hall : blocks.length ≤ s.blockSeqWin + w) :
    ∃ s' result, s.acknowledge read params 0 = some s' ∧ s'.phase = .finished (.ok result) := by
  have hunfinished := h.unfinished
  have hlen := h.length
  have hdiff : ackDiff params.rollover 0 s.blockSeqWin = (read.elements s.window).length := by
    rw [ackDiff_stale _ hbase (by omega), hrollover, if_pos rfl]
    omega
  obtain ⟨window, hremove, helements, -⟩ := rlaw.remove _ s.window (le_refl _)
  rw [List.drop_length] at helements
  have hmore : s.more = false := by
    rw [h.more, h.rest, List.drop_eq_nil_of_le hall]
    rfl
  refine ⟨{ s with blockSeqWin := 0, window }.finish (.ok ⟨s.bytesSent, some s.hasher⟩),
    ⟨s.bytesSent, some s.hasher⟩, ?_, rfl⟩
  simp only [Sender.acknowledge, hdiff, hremove, hmore, helements, hw]
  rw [if_neg (by omega), if_pos (by omega)]
  simp

/-- What `send_file` keeps true, with the number of blocks that the receiver has accepted. -/
def Sender.Safe (law : read.Lawful) (blocks : List (List UInt8)) (w : Nat) (regular : Prop)
    (accepted : Nat) (s : Sender R) : Prop :=
  match s.phase with
  | .sending => s.Windowed law blocks w
  | .collecting lastAck => s.Windowed law blocks w ∧ ∀ ack, lastAck = some ack → ack ≤ accepted
  | .finished (.ok _) => regular → accepted = blocks.length
  | .finished (.error _) => True

variable {regular : Prop} {accepted accepted' : Nat}

theorem Sender.Safe.mono (h : s.Safe rlaw blocks w regular accepted) (hle : accepted ≤ accepted')
    (hbound : accepted' ≤ blocks.length) : s.Safe rlaw blocks w regular accepted' := by
  unfold Sender.Safe at *
  split at h
  · exact h
  · exact ⟨h.1, fun ack hack => (h.2 ack hack).trans hle⟩
  · exact fun hregular => le_antisymm hbound ((h hregular).symm.le.trans hle)
  · trivial

/-- A sender with the same window and base. -/
theorem Sender.Windowed.same {s' : Sender R} (h : s.Windowed rlaw blocks w)
    (hwindow : s'.window = s.window) (hbase : s'.blockSeqWin = s.blockSeqWin)
    (hmore : s'.more = s.more) : s'.Windowed rlaw blocks w :=
  ⟨by rw [hwindow]; exact h.size, by rw [hwindow, hbase]; exact h.elements,
    by rw [hwindow, hbase]; exact h.rest, by rw [hmore, hwindow]; exact h.more,
    by rw [hbase]; exact h.unfinished⟩

theorem Sender.Windowed.sendStep (h : s.Windowed rlaw blocks w) (hn : blocks.length < 65536)
    (abort : Bool) :
    (s.sendStep read params abort).1.Safe rlaw blocks w regular accepted ∧
      ∀ packet ∈ (s.sendStep read params abort).2, packet.IsBlock blocks := by
  unfold Sender.sendStep
  cases abort with
  | true => exact ⟨trivial, nofun⟩
  | false =>
    rw [if_neg Bool.false_ne_true]
    cases hframe : (read.elements s.window)[s.wrIdx]? with
    | none => exact ⟨⟨h.same rfl rfl rfl, nofun⟩, nofun⟩
    | some frame =>
      have hblock := h.frame hframe
      have hlt := (List.getElem?_eq_some_iff.mp hblock).1
      rw [blockSeqTx_eq params.rollover (by omega)]
      have hpackets : ∀ packet ∈ List.replicate params.repeats
          (Packet.data (s.blockSeqWin + s.wrIdx + 1) frame), packet.IsBlock blocks := by
        intro packet hp
        rw [(List.mem_replicate.mp hp).2]
        exact ⟨_, frame, rfl, hblock⟩
      dsimp only
      split_ifs
      · exact ⟨⟨h.same rfl rfl rfl, nofun⟩, hpackets⟩
      · obtain ⟨window, hprefill, helements, hrest, hsize⟩ := rlaw.prefill s.window
        rw [hprefill]
        refine ⟨⟨⟨hsize.trans h.size, helements.trans h.elements, hrest.trans h.rest, ?_,
          h.unfinished⟩, nofun⟩, hpackets⟩
        show s.more = !(rlaw.rest window).isEmpty
        rw [hrest]; exact h.more

theorem Sender.Windowed.checkTimeout (h : s.Windowed rlaw blocks w) {lastAck : Option Nat}
    (hphase : s.phase = .collecting lastAck) (hack : ∀ ack, lastAck = some ack → ack ≤ accepted)
    (expired : Bool) : (s.checkTimeout params expired).Safe rlaw blocks w regular accepted := by
  unfold Sender.checkTimeout
  split_ifs
  · trivial
  · show Sender.Windowed _ _ _ _
    exact h.same rfl rfl rfl
  · unfold Sender.Safe
    rw [hphase]
    exact ⟨h, hack⟩

theorem Sender.Windowed.acknowledge_safe (h : s.Windowed rlaw blocks w) (hbounded : read.Bounded)
    (hw : params.windowSize = w) (hn : blocks.length < 65536)
    (hregular : regular → ¬ (params.rollover = .enforce1 ∧ blocks.length = 65535)) {ack : Nat}
    (hack : ack ≤ accepted) (haccepted : accepted ≤ blocks.length) {s' : Sender R}
    (hs : s.acknowledge read params ack = some s') : s'.Safe rlaw blocks w regular accepted := by
  have hunfinished := h.unfinished
  have hlen := h.length
  have hfar : (read.elements s.window).length < ackDiff params.rollover ack s.blockSeqWin →
      s'.Safe rlaw blocks w regular accepted := by
    intro hfar
    rcases Sender.acknowledge_far hbounded hfar with hnone | hsome
    · rw [hnone] at hs; cases hs
    · rw [hsome] at hs
      obtain rfl := Option.some.inj hs
      trivial
  rcases lt_trichotomy ack s.blockSeqWin with hlt | heq | hgt
  · -- from before the base: beyond the window, but for the slip
    rw [ackDiff_stale _ hlt (by omega)] at hfar
    by_cases hslip : params.rollover = .enforce1 ∧ blocks.length = 65535
    · by_cases hzero : ack = 0 ∧ blocks.length ≤ s.blockSeqWin + w
      · obtain ⟨s'', result, hs', hphase⟩ :=
          h.acknowledge_zero hw hslip.2 hslip.1 (by omega) hzero.2
        rw [hzero.1, hs'] at hs
        obtain rfl := Option.some.inj hs
        unfold Sender.Safe
        rw [hphase]
        exact fun hreg => absurd hslip (hregular hreg)
      · refine hfar ?_
        split_ifs <;> omega
    · refine hfar ?_
      split_ifs with hrollover
      · have hne : blocks.length ≠ 65535 := fun heq => hslip ⟨hrollover, heq⟩
        omega
      · omega
  · subst heq
    have hdiff : ackDiff params.rollover s.blockSeqWin s.blockSeqWin = 0 := by
      rw [ackDiff_eq _ le_rfl (by omega), Nat.sub_self]
    simp only [Sender.acknowledge, hdiff, if_true, Option.some.injEq] at hs
    subst hs
    exact h.same rfl rfl rfl
  · by_cases hle : ack ≤ s.blockSeqWin + (read.elements s.window).length
    · obtain ⟨s'', hs', -, -, ⟨hwindowed, -, hphase⟩ | ⟨hend, result, hphase⟩⟩ :=
        h.acknowledge hw hn hgt hle
      · rw [hs'] at hs
        obtain rfl := Option.some.inj hs
        unfold Sender.Safe
        rw [hphase]
        exact hwindowed
      · rw [hs'] at hs
        obtain rfl := Option.some.inj hs
        unfold Sender.Safe
        rw [hphase]
        exact fun _ => le_antisymm haccepted (hend ▸ hack)
    · refine hfar ?_
      rw [ackDiff_eq _ hgt.le (by omega)]
      omega

theorem Sender.Windowed.collectStep (h : s.Windowed rlaw blocks w) (hbounded : read.Bounded)
    (hw : params.windowSize = w) (hn : blocks.length < 65536)
    (hregular : regular → ¬ (params.rollover = .enforce1 ∧ blocks.length = 65535))
    {lastAck : Option Nat} (hphase : s.phase = .collecting lastAck)
    (hack : ∀ ack, lastAck = some ack → ack ≤ accepted) (haccepted : accepted ≤ blocks.length)
    {received : Received} (hreceived : ∀ ack, received = .packet (.ack ack) → ack ≤ accepted)
    (abort expired : Bool) :
    (s.collectStep read params abort expired lastAck received).Safe rlaw blocks w regular accepted := by
  have htimeout := @h.checkTimeout _ _ _ _ params _ _ regular _ _ hphase hack expired
  unfold Sender.collectStep
  cases abort with
  | true => trivial
  | false =>
    rw [if_neg Bool.false_ne_true]
    cases received with
    | packet packet =>
      cases packet with
      | ack ack =>
        refine ⟨h.same rfl rfl rfl, fun ack' heq => ?_⟩
        obtain rfl := Option.some.inj heq
        exact hreceived _ rfl
      | error code msg => trivial
      | data blockNum data => exact htimeout
      | oack options => exact htimeout
    | connectionReset => exact htimeout
    | otherError => exact htimeout
    | wouldBlock =>
      cases hs : lastAck.bind (s.acknowledge read params) with
      | some s' =>
        obtain ⟨ack, hlast, hs⟩ := Option.bind_eq_some_iff.mp hs
        exact h.acknowledge_safe hbounded hw hn hregular (hack ack hlast) haccepted hs
      | none =>
        dsimp only
        split_ifs
        · show Sender.Windowed _ _ _ _
          exact h.same rfl rfl rfl
        · exact htimeout

end Sender

/-! ## The receiver -/

section Receiver

variable {r : Receiver W} {params : TftpDynamicParams} {blocks : List (List UInt8)}
  {w start blockSize : Nat}

/-- A receiver with the same blocks, on its way to an acknowledgement or at an error. -/
theorem Receiver.Accepted.same {r' : Receiver W} (h : r.Accepted wlaw blocks w start)
    (hwindow : r'.window = r.window) (hnumber : r'.blockNumber = r.blockNumber) (hlast : r'.last = r.last)
    (hreceiving : r'.phase = .receiving → r.phase = .receiving)
    (hfinished : ∀ result, r'.phase ≠ .finished (.ok result)) : r'.Accepted wlaw blocks w start := by
  refine ⟨by rw [hwindow]; exact h.size, by rw [hnumber]; exact h.start_le,
    by rw [hnumber]; exact h.number_le, by rw [hwindow, hnumber]; exact h.held_le,
    by rw [hwindow, hnumber]; exact h.held, by rw [hwindow, hnumber]; exact h.file,
    by rw [hlast, hnumber]; exact h.last, fun hp => ?_, fun result hp => absurd hp (hfinished result)⟩
  rw [hlast, hwindow]
  exact h.receiving (hreceiving hp)

/-- Whatever `recv` returns, the receiver keeps what it has, or takes the next block. -/
theorem Receiver.Accepted.receiveStep (h : r.Accepted wlaw blocks w start)
    (hphase : r.phase = .receiving) (hn : blocks.length < 65536) (hstart : start ≤ 1)
    (hshort : ∀ i block, blocks[i]? = some block → (block.length < blockSize ↔ i + 1 = blocks.length))
    {received : Received}
    (hreceived : ∀ blockNum data, received = .packet (.data blockNum data) →
      (Packet.data blockNum data).IsBlock blocks) (abort : Bool) :
    (r.receiveStep write params blockSize abort received).2 = [] ∧
      (r.receiveStep write params blockSize abort received).1.Accepted wlaw blocks w start ∧
      r.blockNumber ≤ (r.receiveStep write params blockSize abort received).1.blockNumber := by
  have hreset : Receiver.Accepted wlaw blocks w start { r with nonblocking := false } :=
    h.same rfl rfl rfl id (by rw [show ({ r with nonblocking := false } : Receiver W).phase = _ from hphase]; intro _ h; cases h)
  cases abort with
  | true => exact ⟨rfl, h.same rfl rfl rfl (by intro h; cases h) (by intro _ h; cases h), le_rfl⟩
  | false =>
    cases received with
    | packet packet =>
      cases packet with
      | data blockNum data =>
        obtain ⟨i, block, heq, hblock⟩ := hreceived blockNum data rfl
        obtain ⟨rfl, rfl⟩ := Packet.data.inj heq
        by_cases hi : i = r.blockNumber
        · subst hi
          obtain ⟨r', hstep, haccepted, hnumber, -⟩ :=
            @h.accept _ _ _ _ params _ _ _ _ hphase hn hshort _ hblock
          rw [hstep, hnumber]
          exact ⟨rfl, haccepted, Nat.le_succ _⟩
        · have hnumber : r.blockNumber + 1 < 65536 := by
            have hle := h.number_le
            have hlast := h.last
            rw [(h.receiving hphase).1] at hlast
            have hnot := of_decide_eq_false hlast.symm
            have hstart' := h.start_le
            omega
          have hne : ¬ i + 1 = r.blockNumber + 1 := by omega
          simp only [Receiver.receiveStep, Receiver.dataStep, Bool.false_eq_true, if_false,
            expectedBlock_eq params.rollover (i + 1) hnumber, hne]
          exact ⟨trivial, h.same rfl rfl rfl (by intro h; cases h) (by intro _ h; cases h), le_rfl⟩
      | ack ack => exact ⟨rfl, h, le_rfl⟩
      | oack options => exact ⟨rfl, h, le_rfl⟩
      | error code msg => exact ⟨rfl, h.same rfl rfl rfl (by intro h; cases h) (by intro _ h; cases h), le_rfl⟩
    | connectionReset => exact ⟨rfl, hreset, le_rfl⟩
    | otherError => exact ⟨rfl, h, le_rfl⟩
    | wouldBlock =>
      simp only [Receiver.receiveStep, Bool.false_eq_true, if_false]
      split_ifs
      · exact ⟨rfl, h.same rfl rfl rfl id (by rw [show ({ r with
          nonblocking := false, listenAll := false } : Receiver W).phase = _ from hphase]; intro _ h; cases h), le_rfl⟩
      · exact ⟨rfl, h.same rfl rfl rfl (by intro h; cases h) (by intro _ h; cases h), le_rfl⟩
      · exact ⟨rfl, h.same rfl rfl rfl (by intro h; cases h) (by intro _ h; cases h), le_rfl⟩

/-- What has been accepted is the front of the file. -/
theorem Receiver.Accepted.bytes (h : r.Accepted wlaw blocks w start) :
    write.file r.window ++ (wlaw.blocks r.window).flatten = (blocks.take r.blockNumber).flatten := by
  have hle := h.held_le
  have hheld : (wlaw.blocks r.window).flatten = ((blocks.take r.blockNumber).drop
      (r.blockNumber - (wlaw.blocks r.window).length)).flatten := congrArg List.flatten h.held
  have hfront : blocks.take (r.blockNumber - (wlaw.blocks r.window).length) =
      (blocks.take r.blockNumber).take (r.blockNumber - (wlaw.blocks r.window).length) := by
    rw [List.take_take]
    congr 1
    omega
  rw [h.file, hheld, hfront, ← List.flatten_append, List.take_append_drop]

end Receiver

/-! ## Runs -/

def Setting.blocks (q : Setting) : List (List UInt8) := cut q.blockSize q.content

theorem Setting.length_blocks (q : Setting) : q.blocks.length = q.blockCount := length_cut _ _

def LossySide.Safe (law : write.Lawful) (blocks : List (List UInt8)) (w start : Nat) :
    LossySide W → Prop
  | .awaitingFirst => start = 1
  | .transferring r => r.Accepted law blocks w start
  | .failed => True

structure Lossy.Safe (rlaw : read.Lawful) (wlaw : write.Lawful) (q : Setting) (start : Nat)
    (e : Lossy R W) : Prop where
  sender : e.sender.Safe rlaw q.blocks q.sender.windowSize q.Regular e.receiver.accepted
  receiver : e.receiver.Safe wlaw q.blocks q.receiver.windowSize start
  toReceiver : ∀ blockNum data, Packet.data blockNum data ∈ e.toReceiver →
    (Packet.data blockNum data).IsBlock q.blocks
  toSender : ∀ ack, Packet.ack ack ∈ e.toSender → ack ≤ e.receiver.accepted

theorem LossySide.Safe.accepted_le {receiver : LossySide W} {blocks : List (List UInt8)} {w start : Nat}
    (h : receiver.Safe wlaw blocks w start) : receiver.accepted ≤ blocks.length := by
  cases receiver with
  | awaitingFirst => exact Nat.zero_le _
  | transferring r => exact Receiver.Accepted.number_le h
  | failed => exact Nat.zero_le _

section Step

variable {start : Nat} (hbounded : read.Bounded) (hsize : 0 < q.blockSize)
  (hn : q.blockCount < 65536) (hstart : start ≤ 1)

/-- A step of the receiver alone: it accepts at least what it had, and acknowledges no more. -/
theorem Lossy.Safe.receiver_step (h : e.Safe rlaw wlaw q start) {receiver : LossySide W}
    {packets : List Packet} (hok : receiver.Safe wlaw q.blocks q.receiver.windowSize start)
    (hle : e.receiver.accepted ≤ receiver.accepted)
    (hpackets : ∀ ack, Packet.ack ack ∈ packets → ack ≤ receiver.accepted) :
    ({ e with receiver, toSender := e.toSender ++ packets } : Lossy R W).Safe rlaw wlaw q start := by
  refine ⟨h.sender.mono hle hok.accepted_le, hok, h.toReceiver, fun ack hmem => ?_⟩
  rcases List.mem_append.mp hmem with hold | hnew
  · exact (h.toSender ack hold).trans hle
  · exact hpackets ack hnew

include hsize hn hstart in
theorem Lossy.Safe.receiveStep (h : e.Safe rlaw wlaw q start) {abort : Bool} {received : Received}
    (hpossible : received.Possible e.toReceiver) (hs : e.receiveStep write q abort received = some e') :
    e'.Safe rlaw wlaw q start := by
  have hlength := q.length_blocks
  have hblock : ∀ blockNum data, received = .packet (.data blockNum data) →
      (Packet.data blockNum data).IsBlock q.blocks := by
    rintro blockNum data rfl
    exact h.toReceiver blockNum data hpossible
  have hok := h.receiver
  unfold Lossy.receiveStep at hs
  split at hs
  · rename_i hreceiver
    rw [hreceiver] at hok
    obtain rfl : start = 1 := hok
    have hzero : e.receiver.accepted = 0 := by rw [hreceiver]; rfl
    split at hs
    · rename_i data
      obtain rfl := Option.some.inj hs
      obtain ⟨i, block, heq, hfirst⟩ := hblock 1 data rfl
      obtain ⟨hi, rfl⟩ := Packet.data.inj heq
      obtain rfl : i = 0 := by omega
      obtain ⟨hfile, hnumber, -⟩ := @receiveFile_ok _ _ q.receiver 1 wlaw _ _
          q.receiver.windowSize_pos le_rfl (.inr rfl) fun _ => hfirst
      refine h.receiver_step hfile.accepted (by rw [hzero]; exact Nat.zero_le _) fun ack hmem => ?_
      obtain rfl := Packet.ack.inj (List.mem_singleton.mp hmem)
      exact hnumber.ge
    · obtain rfl := Option.some.inj hs
      have hsafe := @h.receiver_step _ _ _ _ _ _ _ _ _ .failed [] trivial hzero.le nofun
      rwa [List.append_nil] at hsafe
  · rename_i r hreceiver
    rw [hreceiver] at hok
    split at hs
    · rename_i hphase
      obtain rfl := Option.some.inj hs
      have hshort : ∀ i block, q.blocks[i]? = some block →
          (block.length < q.blockSize ↔ i + 1 = q.blocks.length) := fun i block hi => by
        rw [length_of_getElem?_cut _ _ hsize hi, hlength, Setting.blockCount]
        omega
      obtain ⟨hnone, haccepted, hle⟩ := @Receiver.Accepted.receiveStep _ _ _ _ q.receiver _ _ _ _
          hok hphase (by rw [hlength]; exact hn) hstart hshort _ hblock abort
      refine h.receiver_step haccepted (by rw [hreceiver]; exact hle) fun ack hmem => ?_
      rw [hnone] at hmem
      cases hmem
    · cases hs
  · cases hs

include hbounded hsize hn hstart in
theorem Lossy.Safe.step (h : e.Safe rlaw wlaw q start) {action : LossyAction}
    (hs : LossySteps read write q e action e') : e'.Safe rlaw wlaw q start := by
  have hblocks : q.blocks.length < 65536 := by rwa [q.length_blocks]
  have hregular : q.Regular → ¬ (q.sender.rollover = .enforce1 ∧ q.blocks.length = 65535) := by
    rw [q.length_blocks]
    exact And.right
  have hsender := h.sender
  cases action with
  | send abort =>
    simp only [LossySteps, Lossy.step] at hs
    split at hs
    · rename_i hphase
      obtain rfl := Option.some.inj hs
      unfold Sender.Safe at hsender
      rw [hphase] at hsender
      obtain ⟨hsafe, hpackets⟩ :=
        @Sender.Windowed.sendStep _ _ _ _ q.sender _ _ _ _ hsender hblocks abort
      refine ⟨hsafe, h.receiver, fun blockNum data hmem => ?_, h.toSender⟩
      rcases List.mem_append.mp hmem with hold | hnew
      · exact h.toReceiver blockNum data hold
      · exact hpackets _ hnew
    · cases hs
  | collect abort expired received =>
    simp only [LossySteps, Lossy.step] at hs
    split at hs
    · rename_i lastAck hphase
      split_ifs at hs with hpossible
      obtain rfl := Option.some.inj hs
      unfold Sender.Safe at hsender
      rw [hphase] at hsender
      refine ⟨hsender.1.collectStep hbounded rfl hblocks hregular hphase hsender.2
        h.receiver.accepted_le (fun ack heq => ?_) abort expired, h.receiver, h.toReceiver, h.toSender⟩
      subst heq
      exact h.toSender ack hpossible
    · cases hs
  | receive abort received =>
    simp only [LossySteps, Lossy.step] at hs
    split_ifs at hs with hpossible
    exact h.receiveStep hsize hn hstart hpossible hs
  | acknowledge =>
    simp only [LossySteps, Lossy.step] at hs
    split at hs
    · rename_i r hreceiver
      split at hs
      · obtain rfl := Option.some.inj hs
        have hok := h.receiver
        rw [hreceiver] at hok
        obtain ⟨r', hstep, haccepted, hnumber, -⟩ :=
          @Receiver.Accepted.acknowledge _ _ _ _ q.receiver _ _ _ hok q.receiver.windowSize_pos
        rw [hstep]
        refine h.receiver_step haccepted (by rw [hreceiver]; exact hnumber.ge) fun ack hmem => ?_
        obtain rfl := Packet.ack.inj (List.mem_replicate.mp hmem).2
        exact hnumber.ge
      · cases hs
    · cases hs

end Step

/-! ## The two directions -/

/-- A PUT or a GET, with whatever the handshake left under way. -/
inductive Lossy.Start (read : WindowRead R) (write : WindowWrite W) (q : Setting) : Lossy R W → Prop
  | put (handshake : List Packet) : (∀ packet ∈ handshake, packet.IsHandshake) →
    Start read write q (.put read write q handshake)
  | get (toReceiver toSender : List Packet) : (∀ packet ∈ toReceiver, packet.IsHandshake) →
    (∀ packet ∈ toSender, packet.IsHandshake) → Start read write q (.get read q toReceiver toSender)

theorem sendFile_safe (law : read.Lawful) (hsize : 0 < q.blockSize) (accepted : Nat) :
    (sendFile read q.sender q.blockSize q.content).Safe law q.blocks q.sender.windowSize q.Regular
      accepted := by
  by_cases hcontent : q.content = []
  · have hsend : (sendFile read q.sender q.blockSize q.content).phase = .finished (.ok ⟨0, some []⟩) := by
      simp [sendFile, hcontent, Sender.finish]
    unfold Sender.Safe
    rw [hsend]
    exact fun hregular => absurd hcontent hregular.1
  · obtain ⟨hrun, -, -, hphase⟩ := @sendFile_running _ _ q.sender law _ _ hsize hcontent
    unfold Sender.Safe
    rw [hphase]
    exact hrun.windowed

theorem Packet.IsHandshake.ack_eq {ack : Nat} (h : (Packet.ack ack).IsHandshake) : ack = 0 := by
  cases ack with
  | zero => rfl
  | succ ack => exact h.elim

theorem Lossy.Start.safe (h : Lossy.Start read write q e) (rlaw : read.Lawful) (wlaw : write.Lawful)
    (hsize : 0 < q.blockSize) : ∃ start, start ≤ 1 ∧ e.Safe rlaw wlaw q start := by
  cases h with
  | put handshake hhandshake =>
    have hpos : 0 < q.blocks.length := by
      rw [q.length_blocks]
      exact Nat.succ_pos _
    obtain ⟨hok, -, -⟩ := @receiveFile_ok _ _ q.receiver 0 wlaw _ [] q.receiver.windowSize_pos
        (Nat.zero_le _) (.inl hpos) nofun
    exact ⟨0, Nat.zero_le _, sendFile_safe rlaw hsize _, hok.accepted, nofun,
      fun ack hmem => (hhandshake _ hmem).ack_eq.le.trans (Nat.zero_le _)⟩
  | get toReceiver toSender hreceiver hsender =>
    exact ⟨1, le_rfl, sendFile_safe rlaw hsize _, rfl,
      fun blockNum data hmem => (hreceiver _ hmem).elim,
      fun ack hmem => (hsender _ hmem).ack_eq.le⟩

/-- **Safety over any network.** Whatever is lost, duplicated, delayed or reordered,
and whenever the timers expire: the bytes accepted are the front of the file, and all of
it if `receive_file` returns `Ok`. If `send_file` returns `Ok`, the receiver has accepted every
block, unless the file is empty or has 65535 blocks under `Enforce1`. -/
theorem transfer_safe (rlaw : read.Lawful) (wlaw : write.Lawful) (hbounded : read.Bounded)
    (hsize : 0 < q.blockSize) (hn : q.blockCount < 65536) {e₀ : Lossy R W}
    (hstart : Lossy.Start read write q e₀) {actions : List LossyAction}
    (hrun : Run (LossySteps read write q) e₀ actions e) :
    e.receiver.acceptedBytes wlaw <+: q.content ∧
      (e.receiver.Done → e.receiver.acceptedBytes wlaw = q.content) ∧
      (q.Regular → e.sender.Done → e.receiver.accepted = q.blockCount ∧
        e.receiver.acceptedBytes wlaw = q.content) := by
  obtain ⟨start, hle, hsafe⟩ := hstart.safe rlaw wlaw hsize
  have h : e.Safe rlaw wlaw q start :=
    hrun.invariant (fun _ _ _ he hs => he.step hbounded hsize hn hle hs) hsafe
  have hfile : q.blocks.flatten = q.content := flatten_cut _ _ hsize
  have hok := h.receiver
  have hwhole : e.receiver.accepted = q.blocks.length → e.receiver.acceptedBytes wlaw = q.content := by
    intro hall
    cases hreceiver : e.receiver with
    | transferring r =>
      rw [hreceiver] at hok hall
      rw [← hfile]
      refine (Receiver.Accepted.bytes hok).trans ?_
      rw [List.take_of_length_le (by rw [← hall]; rfl)]
    | awaitingFirst =>
      rw [hreceiver, q.length_blocks] at hall
      exact absurd hall (Nat.succ_ne_zero _).symm
    | failed =>
      rw [hreceiver, q.length_blocks] at hall
      exact absurd hall (Nat.succ_ne_zero _).symm
  refine ⟨?_, fun hdone => hwhole ?_, fun hregular hdone => ?_⟩
  · cases hreceiver : e.receiver with
    | awaitingFirst => exact List.nil_prefix
    | failed => exact List.nil_prefix
    | transferring r =>
      rw [hreceiver] at hok
      show write.file r.window ++ (wlaw.blocks r.window).flatten <+: q.content
      rw [Receiver.Accepted.bytes hok, ← hfile]
      exact ⟨(q.blocks.drop r.blockNumber).flatten, by rw [← List.flatten_append, List.take_append_drop]⟩
  · cases hreceiver : e.receiver with
    | transferring r =>
      rw [hreceiver] at hok hdone
      obtain ⟨result, hphase⟩ := hdone
      have hlast := (Receiver.Accepted.finished hok result hphase).1
      rw [Receiver.Accepted.last hok] at hlast
      exact (of_decide_eq_true hlast).2
    | awaitingFirst => rw [hreceiver] at hdone; exact hdone.elim
    | failed => rw [hreceiver] at hdone; exact hdone.elim
  · obtain ⟨result, hphase⟩ := hdone
    have hsender := h.sender
    unfold Sender.Safe at hsender
    rw [hphase] at hsender
    have hall := hsender hregular
    exact ⟨hall.trans q.length_blocks, hwhole hall⟩

/-- A file of two blocks. -/
def twoBlocks : Setting := ⟨[1, 2, 3], 2, {}, {}⟩

/-- A copy of the first block arrives late. -/
def lateCopy : List LossyAction :=
  [.send false, .receive false (.packet (.data 1 [1, 2])), .acknowledge,
    .collect false false (.packet (.ack 1)), .collect false false .wouldBlock, .send false,
    .receive false (.packet (.data 1 [1, 2])), .acknowledge,
    .receive false (.packet (.data 2 [3])), .acknowledge,
    .collect false false (.packet (.ack 2)), .collect false false .wouldBlock]

theorem transfer_safe_lateCopy :
    ∃ e : Lossy ListRead ListWrite, e.receiver.accepted = 2 ∧
      e.receiver.acceptedBytes listWrite_lawful = [1, 2, 3] := by
  have hdone : (execute (Lossy.step listRead listWrite twoBlocks)
      (.put listRead listWrite twoBlocks []) lateCopy).map (·.sender.phase) =
      some (.finished (.ok ⟨3, some [1, 2, 3]⟩)) := by decide
  obtain ⟨e, he, hphase⟩ := Option.map_eq_some_iff.mp hdone
  have hsafe := transfer_safe (q := twoBlocks) listRead_lawful listWrite_lawful listRead_bounded
    (by decide) (by decide) (.put [] nofun) (run_of_execute he)
  obtain ⟨hall, hbytes⟩ := hsafe.2.2 ⟨by decide, by decide⟩ ⟨_, hphase⟩
  exact ⟨e, hall.trans (by decide), hbytes⟩

/-- `send_file` is through with the empty file, of which nothing was ever sent. -/
theorem empty_file_not_accepted :
    ¬ ∀ (e : Lossy ListRead ListWrite) (actions : List LossyAction),
      Run (LossySteps listRead listWrite ⟨[], 512, {}, {}⟩) (.put listRead listWrite ⟨[], 512, {}, {}⟩ [])
        actions e →
      e.sender.Done → e.receiver.accepted = Setting.blockCount ⟨[], 512, {}, {}⟩ := by
  intro hall
  have haccepted := hall _ [] (.nil _) ⟨⟨0, some []⟩, rfl⟩
  exact absurd haccepted (by decide)

end TauTerm.Tftp
