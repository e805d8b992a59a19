import Mathlib
import TauTerm.Lib.GoBackN
import TauTerm.Tftp.Sides

/-!
# A transfer as go-back-N

Once the sender of an exchange is in `send_file`, the exchange is a go-back-N
transfer: `Exchange.view` forgets the contents, and a step of the exchange is a
step of the library's protocol, or returns a receiver to blocking, or changes
nothing (`Flow.step`).
-/

namespace TauTerm.Tftp

open Lib

variable {R W : Type} {read : WindowRead R} {write : WindowWrite W}

/-! ## The view -/

def SendPhase.view : SendPhase → GoBackN.Phase
  | .collecting lastAck => .collecting lastAck
  | _ => .sending

def SendSide.base : SendSide R → Nat
  | .transferring _ s => s.blockSeqWin
  | _ => 0

def SendSide.sent : SendSide R → Nat
  | .transferring _ s =>
    match s.phase with
    | .finished _ => 0
    | _ => s.wrIdx
  | _ => 0

def SendSide.phase : SendSide R → GoBackN.Phase
  | .transferring _ s => s.phase.view
  | _ => .sending

def ReceiveSide.accepted : ReceiveSide W → Nat
  | .firstBlock .. => 1
  | .transferring _ _ r => r.blockNumber
  | _ => 0

def ReceiveSide.acknowledged (law : write.Lawful) : ReceiveSide W → Nat
  | .transferring _ _ r => r.blockNumber - (law.blocks r.window).length
  | _ => 0

def ReceiveSide.acking : ReceiveSide W → Bool
  | .firstBlock .. => true
  | .transferring _ _ r => r.phase = .acking
  | _ => false

def Packet.dataNum : Packet → Option Nat
  | .data blockNum _ => some blockNum
  | _ => none

def Packet.ackNum : Packet → Option Nat
  | .ack blockNum => some blockNum
  | _ => none

def Exchange.view (law : write.Lawful) (e : Exchange R W) : GoBackN.State where
  base := e.sender.base
  sent := e.sender.sent
  phase := e.sender.phase
  data := e.toReceiver.filterMap Packet.dataNum
  accepted := e.receiver.accepted
  acknowledged := e.receiver.acknowledged law
  acking := e.receiver.acking
  acks := e.toSender.filterMap Packet.ackNum

/-! ## The invariant -/

def SendSide.Ok (law : read.Lawful) (blocks : List (List UInt8)) (w : Nat) : SendSide R → Prop
  | .transferring params s =>
    params.windowSize = w ∧
      match s.phase with
      | .finished outcome => (∃ result, outcome = .ok result) ∧ s.blockSeqWin = blocks.length
      | _ => s.Running law blocks w
  | _ => False

def ReceiveSide.Ok (law : write.Lawful) (q : Request) (blocks : List (List UInt8)) (w start : Nat) :
    ReceiveSide W → Prop
  | .awaitingFirst => start = 1 ∧ q.hasOptions = false
  | .awaitingData blksize params => start = 1 ∧ blksize = q.server.blksize ∧ params.windowSize = w
  | .firstBlock blksize params data =>
    start = 1 ∧ blksize = q.server.blksize ∧ params.windowSize = w ∧ blocks[0]? = some data
  | .transferring blksize params r =>
    blksize = q.server.blksize ∧ params.windowSize = w ∧ r.Ok law blocks w start
  | _ => False

def Packet.IsAck (packet : Packet) : Prop := ∃ ack, packet = .ack ack

structure Flow (rlaw : read.Lawful) (wlaw : write.Lawful) (q : Request) (blocks : List (List UInt8))
    (w start : Nat) (e : Exchange R W) : Prop where
  sender : e.sender.Ok rlaw blocks w
  receiver : e.receiver.Ok wlaw q blocks w start
  toReceiver : ∀ packet ∈ e.toReceiver, packet.IsBlock blocks
  toSender : ∀ packet ∈ e.toSender, packet.IsAck
  view : (e.view wlaw).Inv blocks.length w

/-! ## What is left to do -/

def SendSide.handshake : SendSide R → Nat
  | .answering => 2
  | .awaitingAck => 1
  | .awaitingReply => 1
  | _ => 0

def ReceiveSide.handshake : ReceiveSide W → Nat
  | .answering => 1
  | .awaitingFirst => 3
  | .awaitingData .. => 2
  | .firstBlock .. => 1
  | _ => 0

/-- Whether the receiver drains its socket. -/
def ReceiveSide.draining : ReceiveSide W → Bool
  | .transferring _ _ r => r.nonblocking
  | _ => false

def Exchange.measure (law : write.Lawful) (n w : Nat) (e : Exchange R W) :
    ℕ ×ₗ (ℕ ×ₗ ℕ ×ₗ ℕ ×ₗ ℕ ×ₗ ℕ ×ₗ ℕ) ×ₗ ℕ :=
  toLex (e.sender.handshake + e.receiver.handshake,
    toLex ((e.view law).measure n w, e.receiver.draining.toNat))

variable {rlaw : read.Lawful} {wlaw : write.Lawful} {q : Request} {blocks : List (List UInt8)}
  {w start : Nat} {e e' : Exchange R W}

/-- A step of the exchange that is one of the protocol. -/
theorem Flow.of_step (h : Flow rlaw wlaw q blocks w start e) (hw : 0 < w)
    (hstep : GoBackN.Step blocks.length w (e.view wlaw) (e'.view wlaw))
    (hsender : e'.sender.Ok rlaw blocks w) (hreceiver : e'.receiver.Ok wlaw q blocks w start)
    (htoReceiver : ∀ packet ∈ e'.toReceiver, packet.IsBlock blocks)
    (htoSender : ∀ packet ∈ e'.toSender, packet.IsAck)
    (hhandshake : e'.sender.handshake + e'.receiver.handshake ≤
      e.sender.handshake + e.receiver.handshake) :
    Flow rlaw wlaw q blocks w start e' ∧
      e'.measure wlaw blocks.length w < e.measure wlaw blocks.length w := by
  refine ⟨⟨hsender, hreceiver, htoReceiver, htoSender, h.view.step hw hstep⟩, ?_⟩
  simp only [Exchange.measure, Prod.Lex.toLex_lt_toLex]
  rcases hhandshake.lt_or_eq with hlt | heq
  · exact .inl hlt
  · exact .inr ⟨heq, .inl (hstep.decreases h.view)⟩

theorem filterMap_replicate_data (n blockNum : Nat) (data : List UInt8) :
    (List.replicate n (Packet.data blockNum data)).filterMap Packet.dataNum =
      List.replicate n blockNum := by
  induction n with
  | zero => rfl
  | succ n ih => rw [List.replicate_succ, List.filterMap_cons, ih]; rfl

theorem filterMap_replicate_ack (n ack : Nat) :
    (List.replicate n (Packet.ack ack)).filterMap Packet.ackNum = List.replicate n ack := by
  induction n with
  | zero => rfl
  | succ n ih => rw [List.replicate_succ, List.filterMap_cons, ih]; rfl

/-! ## The sender's steps -/

section Sender

variable {params : TftpDynamicParams} {sd : Sender R} {receiver : ReceiveSide W}
  {toReceiver toSender : List Packet}

/-- The window of the view is that of the sender. -/
theorem Sender.Running.view_window (h : sd.Running rlaw blocks w) :
    GoBackN.State.window blocks.length w
      ((⟨.transferring params sd, receiver, toReceiver, toSender⟩ : Exchange R W).view wlaw) =
      (read.elements sd.window).length := h.length.symm

theorem Flow.running (h : Flow rlaw wlaw q blocks w start
      ⟨.transferring params sd, receiver, toReceiver, toSender⟩)
    (hphase : ∀ outcome, sd.phase ≠ .finished outcome) :
    params.windowSize = w ∧ sd.Running rlaw blocks w := by
  obtain ⟨hw, hok⟩ := h.sender
  refine ⟨hw, ?_⟩
  split at hok
  · rename_i outcome heq
    exact absurd heq (hphase outcome)
  · exact hok

/-- The sender as it is in a running phase. -/
theorem SendSide.ok_of_running (hw : params.windowSize = w) (h : sd.Running rlaw blocks w)
    (hphase : ∀ outcome, sd.phase ≠ .finished outcome) :
    (SendSide.transferring params sd).Ok rlaw blocks w := by
  refine ⟨hw, ?_⟩
  split
  · rename_i outcome heq
    exact absurd heq (hphase outcome)
  · exact h

theorem SendSide.sent_of_running (hphase : ∀ outcome, sd.phase ≠ .finished outcome) :
    (SendSide.transferring params sd).sent = sd.wrIdx := by
  cases hp : sd.phase with
  | finished outcome => exact absurd hp (hphase outcome)
  | sending => simp [SendSide.sent, hp]
  | collecting lastAck => simp [SendSide.sent, hp]

theorem Flow.sendStep (h : Flow rlaw wlaw q blocks w start
      ⟨.transferring params sd, receiver, toReceiver, toSender⟩)
    (hw : 0 < w) (hn : blocks.length < 65536) (hphase : sd.phase = .sending) :
    let e' : Exchange R W := ⟨.transferring params (sd.sendStep read params false).1, receiver,
      toReceiver ++ (sd.sendStep read params false).2, toSender⟩
    Flow rlaw wlaw q blocks w start e' ∧ e'.measure wlaw blocks.length w <
      Exchange.measure wlaw blocks.length w
        ⟨.transferring params sd, receiver, toReceiver, toSender⟩ := by
  obtain ⟨hwindow, hrun⟩ := h.running (by rw [hphase]; nofun)
  have hsent := @SendSide.sent_of_running _ params sd (by rw [hphase]; nofun)
  by_cases hidx : sd.wrIdx < (read.elements sd.window).length
  · obtain ⟨sd', frame, hstep, hframe, hrun', hbase, hidx', hphase'⟩ := @hrun.send _ _ _ _ _ _
      params hn hidx
    rw [hstep]
    refine h.of_step hw ?_ (SendSide.ok_of_running hwindow hrun' (by rw [hphase']; nofun)) h.receiver
      (fun packet hp => ?_) h.toSender le_rfl
    · have hsend := GoBackN.Step.send (n := blocks.length) (w := w)
        (s := Exchange.view wlaw ⟨.transferring params sd, receiver, toReceiver, toSender⟩)
        params.repeats (by show sd.phase.view = _; rw [hphase]; rfl)
        (by rw [hrun.view_window]; exact lt_of_eq_of_lt hsent hidx) params.repeats_pos
      convert hsend using 1
      simp [Exchange.view, SendSide.base, SendSide.sent, SendSide.phase, hphase', hphase, hbase, hidx',
        SendPhase.view, filterMap_replicate_data]
    · rcases List.mem_append.mp hp with hp | hp
      · exact h.toReceiver packet hp
      · rw [(List.mem_replicate.mp hp).2]
        exact ⟨_, frame, rfl, hframe⟩
  · have hidx' : sd.wrIdx = (read.elements sd.window).length := le_antisymm hrun.idx (not_lt.mp hidx)
    obtain ⟨hstep, hrun'⟩ := @hrun.pause _ _ _ _ _ _ params hidx'
    rw [hstep, List.append_nil]
    refine h.of_step hw ?_ (SendSide.ok_of_running hwindow hrun' nofun) h.receiver h.toReceiver
      h.toSender le_rfl
    have hpause := GoBackN.Step.pause (n := blocks.length) (w := w)
      (s := Exchange.view wlaw ⟨.transferring params sd, receiver, toReceiver, toSender⟩)
      (by show sd.phase.view = _; rw [hphase]; rfl) hrun.unfinished
      (by rw [hrun.view_window]; exact hsent.trans hidx')
    convert hpause using 1
    simp [Exchange.view, SendSide.base, SendSide.sent, SendSide.phase, hphase, SendPhase.view]

/-- The socket of the sender is empty. -/
theorem Flow.collectIdle (h : Flow rlaw wlaw q blocks w start
      ⟨.transferring params sd, receiver, toReceiver, toSender⟩)
    (hw : 0 < w) (hn : blocks.length < 65536) {lastAck : Option Nat}
    (hphase : sd.phase = .collecting lastAck) :
    let e' : Exchange R W := ⟨.transferring params
      (sd.collectStep read params false false lastAck .wouldBlock), receiver, toReceiver, toSender⟩
    (e' = ⟨.transferring params sd, receiver, toReceiver, toSender⟩ ∧ lastAck = none ∧
        ¬ sd.wrIdx < (read.elements sd.window).length) ∨
      (Flow rlaw wlaw q blocks w start e' ∧ e'.measure wlaw blocks.length w <
        Exchange.measure wlaw blocks.length w
          ⟨.transferring params sd, receiver, toReceiver, toSender⟩) := by
  obtain ⟨hwindow, hrun⟩ := h.running (by rw [hphase]; nofun)
  have hsent := @SendSide.sent_of_running _ params sd (by rw [hphase]; nofun)
  have hview : (SendSide.transferring params sd).phase = .collecting lastAck := by
    show sd.phase.view = _
    rw [hphase]; rfl
  cases lastAck with
  | none =>
    obtain ⟨hresume, hstutter⟩ := @hrun.idle _ _ _ _ _ _ params
    by_cases hidx : sd.wrIdx < (read.elements sd.window).length
    · obtain ⟨hstep, hrun'⟩ := hresume hidx
      right
      rw [hstep]
      refine h.of_step hw ?_ (SendSide.ok_of_running hwindow hrun' nofun) h.receiver h.toReceiver
        h.toSender le_rfl
      convert GoBackN.Step.resume (n := blocks.length) (w := w)
        (s := Exchange.view wlaw ⟨.transferring params sd, receiver, toReceiver, toSender⟩)
        hview (by rw [hrun.view_window]; exact lt_of_eq_of_lt hsent hidx) using 1
      simp [Exchange.view, SendSide.base, SendSide.sent, SendSide.phase, hphase, SendPhase.view]
    · left
      rw [hstutter hidx]
      exact ⟨rfl, rfl, hidx⟩
  | some ack =>
    right
    obtain ⟨hle, hack⟩ := h.view.lastAck_mem hview
    have hle' : sd.blockSeqWin ≤ ack := hle
    have hbound : ack ≤ sd.blockSeqWin + (read.elements sd.window).length := by
      have haccepted := h.view.accepted_le
      have hacknowledged := h.view.acknowledged_le
      rw [hrun.view_window] at haccepted
      exact le_trans hack (le_trans hacknowledged haccepted)
    rcases hle'.lt_or_eq with hlt | heq
    · obtain ⟨sd', hstep, hbase, hend⟩ := @hrun.slide _ _ _ _ _ _ params _ hphase hwindow hn hlt
        hbound
      rw [hstep]
      have hslide := GoBackN.Step.slide (n := blocks.length) (w := w)
        (s := Exchange.view wlaw ⟨.transferring params sd, receiver, toReceiver, toSender⟩) hview hlt
      rcases hend with ⟨hrun', hidx', hphase'⟩ | ⟨hlast, result, hphase'⟩
      · refine h.of_step hw ?_ (SendSide.ok_of_running hwindow hrun' (by rw [hphase']; nofun)) h.receiver
          h.toReceiver h.toSender le_rfl
        convert hslide using 1
        simp [Exchange.view, SendSide.base, SendSide.sent, SendSide.phase, hphase', hidx', hbase,
          SendPhase.view]
      · refine h.of_step hw ?_ ⟨hwindow, ?_⟩ h.receiver h.toReceiver h.toSender le_rfl
        · convert hslide using 1
          simp [Exchange.view, SendSide.base, SendSide.sent, SendSide.phase, hphase', hbase,
            SendPhase.view]
        · rw [hphase']
          exact ⟨⟨result, rfl⟩, hbase.trans hlast⟩
    · subst heq
      obtain ⟨hstep, hrun'⟩ := @hrun.stale _ _ _ _ _ _ params hphase hn
      rw [hstep]
      refine h.of_step hw ?_ (SendSide.ok_of_running hwindow hrun' nofun) h.receiver h.toReceiver
        h.toSender le_rfl
      convert GoBackN.Step.stale (n := blocks.length) (w := w)
        (s := Exchange.view wlaw ⟨.transferring params sd, receiver, toReceiver, toSender⟩) hview using 1
      simp [Exchange.view, SendSide.base, SendSide.sent, SendSide.phase, hphase, SendPhase.view]

/-- The sender takes the next packet from its socket. -/
theorem Flow.collect {packet : Packet} (h : Flow rlaw wlaw q blocks w start
      ⟨.transferring params sd, receiver, toReceiver, packet :: toSender⟩)
    (hw : 0 < w) {lastAck : Option Nat} (hphase : sd.phase = .collecting lastAck) :
    let e' : Exchange R W := ⟨.transferring params
      (sd.collectStep read params false false lastAck (.packet packet)), receiver, toReceiver, toSender⟩
    Flow rlaw wlaw q blocks w start e' ∧ e'.measure wlaw blocks.length w <
      Exchange.measure wlaw blocks.length w
        ⟨.transferring params sd, receiver, toReceiver, packet :: toSender⟩ := by
  obtain ⟨hwindow, hrun⟩ := h.running (by rw [hphase]; nofun)
  obtain ⟨ack, rfl⟩ := h.toSender packet List.mem_cons_self
  obtain ⟨sd', hstep, hrun', hbase, hidx', hphase'⟩ := @hrun.take _ _ _ _ _ _ params _ hphase ack
  rw [hstep]
  refine h.of_step hw ?_ (SendSide.ok_of_running hwindow hrun' (by rw [hphase']; nofun)) h.receiver
    h.toReceiver (fun packet hp => h.toSender packet (List.mem_cons_of_mem _ hp)) le_rfl
  convert @GoBackN.Step.take blocks.length w
      (Exchange.view wlaw ⟨.transferring params sd, receiver, toReceiver, .ack ack :: toSender⟩)
      lastAck ack (toSender.filterMap Packet.ackNum) (by show sd.phase.view = _; rw [hphase]; rfl)
      (by simp [Exchange.view, Packet.ackNum]) using 1
  simp [Exchange.view, SendSide.base, SendSide.sent, SendSide.phase, hphase, hphase', hbase, hidx',
    SendPhase.view]

theorem recv_some {nonblocking arrived : Bool} {channel : List Packet}
    {answer : Received × List Packet} (h : recv nonblocking arrived channel = some answer) :
    (∃ packet rest, channel = packet :: rest ∧ answer = (.packet packet, rest)) ∨
      (nonblocking = true ∧ answer = (.wouldBlock, channel)) := by
  unfold recv at h
  split_ifs at h with harrived hmode
  · split at h
    · cases h
    · rename_i packet rest
      exact .inl ⟨packet, rest, rfl, (Option.some.inj h).symm⟩
  · exact .inr ⟨hmode, (Option.some.inj h).symm⟩

theorem Flow.senderStep (h : Flow rlaw wlaw q blocks w start e) (hw : 0 < w)
    (hn : blocks.length < 65536) {arrived : Bool} (hs : e.senderStep read q arrived = some e') :
    e' = e ∨ (Flow rlaw wlaw q blocks w start e' ∧
      e'.measure wlaw blocks.length w < e.measure wlaw blocks.length w) := by
  obtain ⟨sender, receiver, toReceiver, toSender⟩ := e
  cases sender with
  | transferring params sd =>
    unfold Exchange.senderStep at hs
    dsimp only at hs
    split at hs
    · rename_i hphase
      obtain rfl := Option.some.inj hs
      exact .inr (h.sendStep hw hn hphase)
    · rename_i lastAck hphase
      obtain ⟨answer, hrecv, rfl⟩ := Option.map_eq_some_iff.mp hs
      rcases recv_some hrecv with ⟨packet, rest, rfl, rfl⟩ | ⟨-, rfl⟩
      · exact .inr (h.collect hw hphase)
      · exact (h.collectIdle hw hn hphase).imp_left And.left
    · cases hs
  | answering => exact h.sender.elim
  | awaitingAck => exact h.sender.elim
  | awaitingReply => exact h.sender.elim
  | failed => exact h.sender.elim

end Sender

/-! ## The receiver's steps -/

section Receiver

variable {sender : SendSide R} {toReceiver toSender : List Packet} {blksize : UInt16}
  {params : TftpDynamicParams} {r : Receiver W}

/-- A receiver that has accepted nothing finds the first block. -/
theorem Flow.first_block {receiver : ReceiveSide W} {packet : Packet}
    (h : Flow rlaw wlaw q blocks w start ⟨sender, receiver, packet :: toReceiver, toSender⟩)
    (haccepted : receiver.accepted = 0) :
    ∃ block, packet = .data 1 block ∧ blocks[0]? = some block := by
  obtain ⟨i, block, rfl, hblock⟩ := h.toReceiver packet List.mem_cons_self
  have hsteady := h.view.steady
  simp only [Exchange.view, haccepted, List.filterMap_cons, Packet.dataNum] at hsteady
  obtain rfl : i = 0 := by have hle := hsteady.1; omega
  exact ⟨block, rfl, hblock⟩

/-- `tftp_client_get` takes the first block. -/
theorem Flow.takeFirst {receiver : ReceiveSide W} {block : List UInt8}
    (h : Flow rlaw wlaw q blocks w start ⟨sender, receiver, .data 1 block :: toReceiver, toSender⟩)
    (hw : 0 < w) (haccepted : receiver.accepted = 0) (hacknowledged : receiver.acknowledged wlaw = 0)
    (hidle : receiver.acking = false) (hhandshake : 1 ≤ receiver.handshake)
    (hok : (ReceiveSide.firstBlock blksize params block : ReceiveSide W).Ok wlaw q blocks w start) :
    let e' : Exchange R W := ⟨sender, .firstBlock blksize params block, toReceiver, toSender⟩
    Flow rlaw wlaw q blocks w start e' ∧ e'.measure wlaw blocks.length w <
      Exchange.measure wlaw blocks.length w
        ⟨sender, receiver, .data 1 block :: toReceiver, toSender⟩ := by
  refine h.of_step hw ?_ h.sender hok
    (fun packet hp => h.toReceiver packet (List.mem_cons_of_mem _ hp)) h.toSender
    (Nat.add_le_add_left hhandshake _)
  convert @GoBackN.Step.accept blocks.length w
      (Exchange.view wlaw ⟨sender, receiver, .data 1 block :: toReceiver, toSender⟩)
      (toReceiver.filterMap Packet.dataNum) true
      (by simp [Exchange.view, haccepted, Packet.dataNum]) hidle (fun _ => rfl) using 1
  have hfirst : (ReceiveSide.firstBlock blksize params block : ReceiveSide W).accepted = 1 := rfl
  have hnone : (ReceiveSide.firstBlock blksize params block).acknowledged wlaw = 0 := rfl
  have hacking : (ReceiveSide.firstBlock blksize params block : ReceiveSide W).acking = true := rfl
  simp [Exchange.view, hfirst, hnone, hacking, haccepted, hacknowledged]

/-- And acknowledges it, before it leaves the rest to `receive_file`. -/
theorem Flow.acknowledgeFirst {block : List UInt8}
    (h : Flow rlaw wlaw q blocks w start
      ⟨sender, .firstBlock blksize params block, toReceiver, toSender⟩) (hw : 0 < w) :
    let e' : Exchange R W := ⟨sender, .transferring blksize params (receiveFile write params block 2),
      toReceiver, toSender ++ [.ack 1]⟩
    Flow rlaw wlaw q blocks w start e' ∧ e'.measure wlaw blocks.length w <
      Exchange.measure wlaw blocks.length w
        ⟨sender, .firstBlock blksize params block, toReceiver, toSender⟩ := by
  obtain ⟨rfl, hblksize, hwindow, hblock⟩ := h.receiver
  obtain ⟨hok, hnumber, hnil⟩ := @receiveFile_ok _ _ params 1 wlaw _ _ params.windowSize_pos le_rfl
      (.inr rfl) fun _ => hblock
  refine h.of_step hw ?_ h.sender ⟨hblksize, hwindow, hwindow ▸ hok⟩ h.toReceiver (fun packet hp => ?_)
    (Nat.add_le_add_left (Nat.zero_le _) _)
  · convert GoBackN.Step.acknowledge (n := blocks.length) (w := w)
      (s := Exchange.view wlaw ⟨sender, .firstBlock blksize params block, toReceiver, toSender⟩) 1 rfl
      one_pos using 1
    have hphase : (receiveFile write params block 2).phase = .receiving := rfl
    simp [Exchange.view, ReceiveSide.accepted, ReceiveSide.acknowledged, ReceiveSide.acking, hnumber,
      hnil, hphase, Packet.ackNum]
  · rcases List.mem_append.mp hp with hp | hp
    · exact h.toSender packet hp
    · exact ⟨1, List.mem_singleton.mp hp⟩

/-- The receiver takes the next packet from its socket. -/
theorem Flow.receive {packet : Packet}
    (h : Flow rlaw wlaw q blocks w start
      ⟨sender, .transferring blksize params r, packet :: toReceiver, toSender⟩)
    (hw : 0 < w) (hn : blocks.length < 65536)
    (hshort : ∀ i block, blocks[i]? = some block →
      (block.length < q.server.blksize.toNat ↔ i + 1 = blocks.length))
    (hstart : start ≤ 1) (hphase : r.phase = .receiving) :
    let step := r.receiveStep write params blksize.toNat false (.packet packet)
    let e' : Exchange R W := ⟨sender, .transferring blksize params step.1, toReceiver,
      toSender ++ step.2⟩
    Flow rlaw wlaw q blocks w start e' ∧ e'.measure wlaw blocks.length w <
      Exchange.measure wlaw blocks.length w
        ⟨sender, .transferring blksize params r, packet :: toReceiver, toSender⟩ := by
  obtain ⟨rfl, hwindow, hok⟩ := h.receiver
  obtain ⟨i, block, rfl, hblock⟩ := h.toReceiver packet List.mem_cons_self
  have hrest : ∀ packet ∈ toReceiver, packet.IsBlock blocks :=
    fun packet hp => h.toReceiver packet (List.mem_cons_of_mem _ hp)
  have hlen := (List.getElem?_eq_some_iff.mp hblock).1
  by_cases hi : i = r.blockNumber
  · subst hi
    obtain ⟨r', hstep, hok', hnumber, hlen', hphase'⟩ :=
      @hok.accept _ _ _ _ params _ _ _ _ hphase hn hshort _ hblock
    dsimp only
    rw [hstep, List.append_nil]
    refine h.of_step hw ?_ h.sender ⟨rfl, hwindow, hok'⟩ hrest h.toSender le_rfl
    have hle := hok.held_le
    convert @GoBackN.Step.accept blocks.length w
        (Exchange.view wlaw ⟨sender, .transferring q.server.blksize params r,
        .data (r.blockNumber + 1) block :: toReceiver, toSender⟩)
        (toReceiver.filterMap Packet.dataNum)
        (decide ((wlaw.blocks r.window).length + 1 = w ∨ r.blockNumber + 1 = blocks.length))
        (by simp [Exchange.view, ReceiveSide.accepted, Packet.dataNum])
        (by simp [Exchange.view, ReceiveSide.acking, hphase]) (fun hdue => ?_) using 1
    · simp [Exchange.view, ReceiveSide.accepted, ReceiveSide.acknowledged, ReceiveSide.acking, hnumber,
        hlen', hphase']
    · simp only [Exchange.view, ReceiveSide.accepted, ReceiveSide.acknowledged] at hdue
      exact decide_eq_true (hdue.imp_left fun hfull => by omega)
  · have hn' : r.blockNumber + 1 < 65536 := by
      have hle := hok.number_le
      have hlast := hok.last
      have hfalse := (hok.receiving hphase).1
      rw [hfalse] at hlast
      have hnot := of_decide_eq_false hlast.symm
      have hstart' := hok.start_le
      omega
    obtain ⟨hstep, hok'⟩ := @hok.drop _ _ _ _ params _ _ _ q.server.blksize.toNat hn' (i + 1)
        (by omega) block
    dsimp only
    rw [hstep, List.append_nil]
    refine h.of_step hw ?_ h.sender ⟨rfl, hwindow, hok'⟩ hrest h.toSender le_rfl
    convert @GoBackN.Step.drop blocks.length w
        (Exchange.view wlaw ⟨sender, .transferring q.server.blksize params r,
        .data (i + 1) block :: toReceiver, toSender⟩) (i + 1) (toReceiver.filterMap Packet.dataNum)
        (by simp [Exchange.view, Packet.dataNum])
        (by simp [Exchange.view, ReceiveSide.acking, hphase])
        (by simp only [Exchange.view, ReceiveSide.accepted]; omega) using 1
    simp [Exchange.view, ReceiveSide.accepted, ReceiveSide.acknowledged, ReceiveSide.acking]

/-- The socket of the receiver is empty. -/
theorem Flow.receiveIdle
    (h : Flow rlaw wlaw q blocks w start
      ⟨sender, .transferring blksize params r, toReceiver, toSender⟩)
    (hmode : r.nonblocking = true) :
    let step := r.receiveStep write params blksize.toNat false .wouldBlock
    let e' : Exchange R W := ⟨sender, .transferring blksize params step.1, toReceiver,
      toSender ++ step.2⟩
    Flow rlaw wlaw q blocks w start e' ∧ e'.measure wlaw blocks.length w <
      Exchange.measure wlaw blocks.length w
        ⟨sender, .transferring blksize params r, toReceiver, toSender⟩ := by
  obtain ⟨rfl, hwindow, hok⟩ := h.receiver
  obtain ⟨hstep, hok'⟩ := @hok.idle _ _ _ _ params _ _ _ q.server.blksize.toNat hmode
  dsimp only
  rw [hstep, List.append_nil]
  refine ⟨⟨h.sender, ⟨rfl, hwindow, hok'⟩, h.toReceiver, h.toSender, h.view⟩, ?_⟩
  simp only [Exchange.measure, Prod.Lex.toLex_lt_toLex]
  exact .inr ⟨rfl, .inr ⟨rfl, by simp [ReceiveSide.draining, hmode]⟩⟩

/-- The receiver acknowledges. -/
theorem Flow.acknowledge
    (h : Flow rlaw wlaw q blocks w start
      ⟨sender, .transferring blksize params r, toReceiver, toSender⟩)
    (hw : 0 < w) (hphase : r.phase = .acking) :
    let e' : Exchange R W := ⟨sender, .transferring blksize params (r.ackStep write params).1,
      toReceiver, toSender ++ (r.ackStep write params).2⟩
    Flow rlaw wlaw q blocks w start e' ∧ e'.measure wlaw blocks.length w <
      Exchange.measure wlaw blocks.length w
        ⟨sender, .transferring blksize params r, toReceiver, toSender⟩ := by
  obtain ⟨rfl, hwindow, hok⟩ := h.receiver
  obtain ⟨r', hstep, hok', hnumber, hnil, hphase'⟩ := @hok.acknowledge _ _ _ _ params _ _ _ hw
  rw [hstep]
  refine h.of_step hw ?_ h.sender ⟨rfl, hwindow, hok'⟩ h.toReceiver (fun packet hp => ?_) le_rfl
  · convert GoBackN.Step.acknowledge (n := blocks.length) (w := w)
      (s := Exchange.view wlaw ⟨sender, .transferring q.server.blksize params r, toReceiver, toSender⟩)
      params.repeats (by simp [Exchange.view, ReceiveSide.acking, hphase]) params.repeats_pos using 1
    simp [Exchange.view, ReceiveSide.accepted, ReceiveSide.acknowledged, ReceiveSide.acking, hnumber,
      hnil, hphase', filterMap_replicate_ack]
  · rcases List.mem_append.mp hp with hp | hp
    · exact h.toSender packet hp
    · rw [(List.mem_replicate.mp hp).2]
      exact ⟨_, rfl⟩

/-- Without options the client goes by its own parameters, so they have to be the server's. -/
def Request.Agrees (q : Request) : Prop :=
  q.hasOptions = false →
    q.client.blksize = q.server.blksize ∧ q.client.windowSize = q.server.windowSize

theorem Flow.receiverStep (h : Flow rlaw wlaw q blocks w start e) (hagrees : q.Agrees)
    (hwindow : w = q.server.windowSize) (hn : blocks.length < 65536)
    (hshort : ∀ i block, blocks[i]? = some block →
      (block.length < q.server.blksize.toNat ↔ i + 1 = blocks.length))
    (hstart : start ≤ 1) {arrived : Bool} (hs : e.receiverStep write q arrived = some e') :
    Flow rlaw wlaw q blocks w start e' ∧
      e'.measure wlaw blocks.length w < e.measure wlaw blocks.length w := by
  have hw : 0 < w := hwindow ▸ q.server.windowSize_pos
  obtain ⟨sender, receiver, toReceiver, toSender⟩ := e
  cases receiver with
  | answering => exact h.receiver.elim
  | failed => exact h.receiver.elim
  | awaitingFirst =>
    obtain ⟨answer, hrecv, rfl⟩ := Option.map_eq_some_iff.mp hs
    rcases recv_some hrecv with ⟨packet, rest, rfl, rfl⟩ | ⟨hmode, -⟩
    · obtain ⟨block, rfl, hblock⟩ := h.first_block rfl
      obtain ⟨hstart', hoptions⟩ := h.receiver
      obtain ⟨hblksize, hsize⟩ := hagrees hoptions
      exact h.takeFirst hw rfl rfl rfl (by show 1 ≤ 3; omega) ⟨hstart', hblksize, hsize.trans hwindow.symm, hblock⟩
    · cases hmode
  | awaitingData blksize params =>
    obtain ⟨answer, hrecv, rfl⟩ := Option.map_eq_some_iff.mp hs
    rcases recv_some hrecv with ⟨packet, rest, rfl, rfl⟩ | ⟨hmode, -⟩
    · obtain ⟨block, rfl, hblock⟩ := h.first_block rfl
      obtain ⟨hstart', hblksize, hsize⟩ := h.receiver
      exact h.takeFirst hw rfl rfl rfl (Nat.le_succ 1) ⟨hstart', hblksize, hsize, hblock⟩
    · cases hmode
  | firstBlock blksize params data =>
    obtain rfl := Option.some.inj hs
    exact h.acknowledgeFirst hw
  | transferring blksize params r =>
    unfold Exchange.receiverStep at hs
    dsimp only at hs
    split at hs
    · rename_i hphase
      obtain ⟨answer, hrecv, rfl⟩ := Option.map_eq_some_iff.mp hs
      rcases recv_some hrecv with ⟨packet, rest, rfl, rfl⟩ | ⟨hmode, rfl⟩
      · exact h.receive hw hn hshort hstart hphase
      · exact h.receiveIdle hmode
    · rename_i hphase
      obtain rfl := Option.some.inj hs
      exact h.acknowledge hw hphase
    · cases hs

end Receiver

end TauTerm.Tftp
