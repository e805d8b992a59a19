import Mathlib

/-!
# The TFTP transfer engine

`send_file` and `receive_file` of `plugins/tftp/transfer.rs`, each as a machine
that takes one `recv` at a time. What the socket and the clock answer is part of
the step: a packet, an error, and whether the timer has expired by then. The
windows of the `tftpd` crate are parameters.

Block numbers are those of the code's `u16`, so their arithmetic wraps.
-/

namespace TauTerm.Tftp

/-! ## Parameters and packets -/

inductive TftpRollover where
  | none
  | enforce0
  | enforce1
  | dontCare
  deriving DecidableEq

structure TftpDynamicParams where
  blksize : UInt16 := 512
  timeoutSecs : UInt8 := 5
  windowsize : UInt16 := 1
  maxRetries : Nat := 6
  rollover : TftpRollover := .enforce0
  windowWait : Nat := 0
  cleanOnError : Bool := true
  repeatCount : UInt8 := 1
  deriving DecidableEq

inductive ErrorCode where
  | notDefined | fileNotFound | accessViolation | diskFull | illegalOperation | unknownId
  | fileExists | noSuchUser | refusedOption
  deriving DecidableEq

inductive OptionType where
  | blockSize | timeout | windowSize | transferSize | windowWait
  deriving DecidableEq

structure TransferOption where
  option : OptionType
  value : Nat
  deriving DecidableEq

/-- The packets of a transfer; the requests are behind it. -/
inductive Packet where
  | data (blockNum : Nat) (data : List UInt8)
  | ack (blockNum : Nat)
  | oack (options : List TransferOption)
  | error (code : ErrorCode) (msg : String)
  deriving DecidableEq

/-- `u16::wrapping_add`. -/
def wrappingAdd (a b : Nat) : Nat := (a + b) % 65536

/-- `u16::wrapping_sub`. -/
def wrappingSub (a b : Nat) : Nat := (a + 65536 - b) % 65536

/-! ## The windows of `tftpd` -/

/-- The operations of `WindowRead` that the engine uses. A failed operation is `none`. -/
structure WindowRead (R : Type) where
  new : Nat → Nat → List UInt8 → R
  fill : R → Option (Bool × R)
  prefill : R → Option R
  elements : R → List (List UInt8)
  remove : Nat → R → Option R

/-- The operations of `WindowWrite` that the engine uses, with the file it writes. -/
structure WindowWrite (W : Type) where
  new : Nat → List UInt8 → W
  add : List UInt8 → W → Option W
  isFull : W → Bool
  empty : W → Option W
  file : W → List UInt8

/-! ## Results -/

inductive TransferError where
  | cancelled
  | fillFailed
  | prefillFailed
  | removeFailed
  | windowFull
  | writeFailed
  | rollover
  | remote (code : ErrorCode) (msg : String)
  | maxRetries (retries : Nat)
  deriving DecidableEq

/-- The checksum is given by the bytes that went into it. -/
structure TransferResult where
  bytesTransferred : Nat
  checksum : Option (List UInt8)
  deriving DecidableEq

abbrev Outcome := Except TransferError TransferResult

/-- What `recv` returns. -/
inductive Received where
  | packet (packet : Packet)
  | wouldBlock
  | connectionReset
  | otherError
  deriving DecidableEq

/-! ## `send_file` -/

/-- Where `send_file` stands: at the top of its loop, in the loop that collects
acknowledgements, or behind. -/
inductive SendPhase where
  | sending
  | collecting (lastAck : Option Nat)
  | finished (outcome : Outcome)
  deriving DecidableEq

structure Sender (R : Type) where
  window : R
  more : Bool
  blockSeqWin : Nat
  wrIdx : Nat
  bytesSent : Nat
  retryCnt : Nat
  hasher : List UInt8
  nonblocking : Bool
  phase : SendPhase

section Sender

variable {R : Type} (read : WindowRead R) (params : TftpDynamicParams)

def TftpDynamicParams.windowSize (params : TftpDynamicParams) : Nat :=
  max params.windowsize.toNat 1

def TftpDynamicParams.repeats (params : TftpDynamicParams) : Nat :=
  max params.repeatCount.toNat 1

def Sender.finish (s : Sender R) (outcome : Outcome) : Sender R :=
  { s with phase := .finished outcome }

/-- `send_file` up to its loop. -/
def sendFile (blockSize : Nat) (content : List UInt8) : Sender R :=
  let s : Sender R :=
    { window := read.new params.windowSize blockSize content
      more := false, blockSeqWin := 0, wrIdx := 0, bytesSent := 0, retryCnt := 0, hasher := []
      nonblocking := true, phase := .sending }
  if content = [] then s.finish (.ok ⟨0, some []⟩)
  else
    match read.fill s.window with
    | none => s.finish (.error .fillFailed)
    | some (more, window) => { s with window, more }

/-- The number of the block to be sent: none where the policy forbids the wrap. -/
def blockSeqTx (rollover : TftpRollover) (blockSeqWin wrIdx : Nat) : Option Nat :=
  let blockSeqTx := wrappingAdd blockSeqWin (wrIdx + 1)
  if blockSeqTx < blockSeqWin then
    match rollover with
    | .none => none
    | .enforce0 | .dontCare => some blockSeqTx
    | .enforce1 => some (wrappingAdd blockSeqTx 1)
  else some blockSeqTx

/-- The sending phase: one packet of the window, if one is left. -/
def Sender.sendStep (abort : Bool) (s : Sender R) : Sender R × List Packet :=
  if abort then (s.finish (.error .cancelled), [])
  else
    match (read.elements s.window)[s.wrIdx]? with
    | none => ({ s with phase := .collecting none }, [])
    | some frame =>
      match blockSeqTx params.rollover s.blockSeqWin s.wrIdx with
      | none =>
        (s.finish (.error .rollover), [.error .illegalOperation "Block counter rollover error"])
      | some blockNum =>
        let packets := List.replicate params.repeats (Packet.data blockNum frame)
        let s := { s with
          hasher := s.hasher ++ frame
          bytesSent := s.bytesSent + frame.length
          wrIdx := s.wrIdx + 1
          phase := .collecting none }
        if s.wrIdx < (read.elements s.window).length then (s, packets)
        else
          match read.prefill s.window with
          | none => (s.finish (.error .prefillFailed), packets)
          | some window => ({ s with window, nonblocking := false }, packets)

/-- How far an acknowledgement moves the window. -/
def ackDiff (rollover : TftpRollover) (ack blockSeqWin : Nat) : Nat :=
  let diff := wrappingSub ack blockSeqWin
  if ack < blockSeqWin ∧ rollover = .enforce1 then wrappingSub diff 1 else diff

/-- The last acknowledgement of a batch; `none` if it is outside the window. -/
def Sender.acknowledge (s : Sender R) (ack : Nat) : Option (Sender R) :=
  let diff := ackDiff params.rollover ack s.blockSeqWin
  if diff = 0 then some { s with phase := .sending }
  else if diff ≤ params.windowSize then
    match read.remove diff s.window with
    | none => some ({ s with blockSeqWin := ack }.finish (.error .removeFailed))
    | some window =>
      let s := { s with blockSeqWin := ack, window }
      if ¬ s.more ∧ read.elements window = [] then
        some (s.finish (.ok ⟨s.bytesSent, some s.hasher⟩))
      else if s.more then
        match read.fill window with
        | none => some (s.finish (.error .fillFailed))
        | some (more, window) => some { s with more, window, wrIdx := 0, phase := .sending }
      else some { s with wrIdx := 0, phase := .sending }
  else none

/-- The timer: either it has not expired, or the window is sent again. -/
def Sender.checkTimeout (expired : Bool) (s : Sender R) : Sender R :=
  if ¬ expired then s
  else if s.retryCnt ≥ max params.maxRetries 1 then
    s.finish (.error (.maxRetries (max params.maxRetries 1)))
  else { s with retryCnt := s.retryCnt + 1, wrIdx := 0, nonblocking := true, phase := .sending }

/-- One `recv` in the loop that collects acknowledgements. -/
def Sender.collectStep (abort expired : Bool) (lastAck : Option Nat) (s : Sender R) :
    Received → Sender R
  | received =>
    if abort then s.finish (.error .cancelled)
    else
      match received with
      | .packet (.ack ack) =>
        { s with
          nonblocking := if lastAck.isNone then true else s.nonblocking
          phase := .collecting (some ack) }
      | .packet (.error code msg) => s.finish (.error (.remote code msg))
      | .packet _ | .connectionReset | .otherError => s.checkTimeout params expired
      | .wouldBlock =>
        match lastAck.bind (s.acknowledge read params) with
        | some s => s
        | none =>
          if s.wrIdx < (read.elements s.window).length ∧ ¬ expired then { s with phase := .sending }
          else s.checkTimeout params expired

end Sender

/-! ## `receive_file` -/

/-- Where `receive_file` stands: in the loop that collects data, in front of the
acknowledgement, or behind. -/
inductive ReceivePhase where
  | receiving
  | acking
  | finished (outcome : Outcome)
  deriving DecidableEq

structure Receiver (W : Type) where
  window : W
  blockNumber : Nat
  bytesReceived : Nat
  retryCnt : Nat
  last : Bool
  listenAll : Bool
  nonblocking : Bool
  hasher : Option (List UInt8)
  removed : Bool
  phase : ReceivePhase

section Receiver

variable {W : Type} (write : WindowWrite W) (params : TftpDynamicParams)

def Receiver.finish (r : Receiver W) (outcome : Outcome) : Receiver W :=
  { r with phase := .finished outcome }

/-- `receive_file` up to its loop. From block 2 on the file goes on where it is. -/
def receiveFile (existing : List UInt8) (startBlock : Nat) : Receiver W where
  window := write.new params.windowSize (if startBlock ≤ 1 then [] else existing)
  blockNumber := wrappingSub startBlock 1
  bytesReceived := 0
  retryCnt := 0
  last := false
  listenAll := false
  nonblocking := false
  hasher := if startBlock ≤ 1 then some [] else none
  removed := false
  phase := .receiving

/-- The number of the next block; an error where the policy forbids the wrap. -/
def expectedBlock (rollover : TftpRollover) (blockNumber received : Nat) : Option Nat :=
  let expected := wrappingAdd blockNumber 1
  if expected = 0 then
    match rollover with
    | .none => none
    | .enforce0 | .dontCare => some expected
    | .enforce1 => if received = 0 then none else some 1
  else some expected

/-- A data packet. -/
def Receiver.dataStep (blockSize : Nat) (r : Receiver W) (received : Nat) (data : List UInt8) :
    Receiver W × List Packet :=
  match expectedBlock params.rollover r.blockNumber received with
  | none =>
    (r.finish (.error .rollover),
      if params.rollover = .none then [.error .illegalOperation "Block counter rollover error"]
      else [])
  | some expected =>
    if received = expected then
      match write.add data r.window with
      | none =>
        ({ r with blockNumber := received, last := data.length < blockSize }.finish
          (.error .windowFull), [])
      | some window =>
        let last : Bool := data.length < blockSize
        ({ r with
          window, last
          blockNumber := received
          hasher := r.hasher.map (· ++ data)
          bytesReceived := r.bytesReceived + data.length
          nonblocking := true
          listenAll := true
          phase := if write.isFull window ∨ last then .acking else .receiving }, [])
    else ({ r with nonblocking := true, listenAll := true, phase := .acking }, [])

/-- One `recv` in the loop that collects data. -/
def Receiver.receiveStep (blockSize : Nat) (abort : Bool) (r : Receiver W) :
    Received → Receiver W × List Packet
  | received =>
    if abort then ({ r with removed := params.cleanOnError }.finish (.error .cancelled), [])
    else
      match received with
      | .packet (.data blockNum data) => r.dataStep write params blockSize blockNum data
      | .packet (.error code msg) => (r.finish (.error (.remote code msg)), [])
      | .packet _ | .otherError => (r, [])
      | .connectionReset => ({ r with nonblocking := false }, [])
      | .wouldBlock =>
        if r.listenAll then ({ r with nonblocking := false, listenAll := false }, [])
        else if r.retryCnt ≥ max params.maxRetries 1 then
          (r.finish (.error (.maxRetries (max params.maxRetries 1))), [])
        else ({ r with retryCnt := r.retryCnt + 1, phase := .acking }, [])

/-- The acknowledgement, the write to the file, and the end of the loop. -/
def Receiver.ackStep (r : Receiver W) : Receiver W × List Packet :=
  let packets := List.replicate params.repeats (Packet.ack r.blockNumber)
  match write.empty r.window with
  | none => (r.finish (.error .writeFailed), packets)
  | some window =>
    ({ r with
      window
      phase := if r.last then .finished (.ok ⟨r.bytesReceived, r.hasher⟩) else .receiving }, packets)

end Receiver

end TauTerm.Tftp
