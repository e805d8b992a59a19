import Mathlib

/-!
# The writes of the RTT worker

The loop of the worker, as far as it is about writes. In a turn it takes commands, polls the backend,
and gives the first of the pending writes its turn; a write that is not done goes to the back of the
queue. Writes are numbered as the worker receives them: the number stands for the reply channel.
-/

namespace TauTerm.Rtt.Writes

def MAX_COMMANDS_PER_TICK : Nat := 8

def MAX_PENDING_WRITES : Nat := 32

def WRITE_QUANTUM_BYTES : Nat := 4 * 1024

inductive RttErrorCode where
  | probeNotFound
  | probeAmbiguous
  | probeBusy
  | probePermissionDenied
  | targetNotFound
  | targetAttachFailed
  | unsupportedWireProtocol
  | coreNotFound
  | firmwareFileUnavailable
  | firmwareArtifactInvalid
  | rttNotInitialized
  | rttControlBlockNotFound
  | rttMultipleControlBlocks
  | rttInvalidControlBlock
  | rttChannelNotFound
  | rttWriteFailed
  | rttWriteQueueFull
  | rttWriteTimeout
  | jlinkServerUnavailable
  | jlinkChannelConfigFailed
  | targetDisconnected
  | probeDisconnected
  | schedulerBusy
  | operationTimeout
  | operationOutcomeUnknown
  | invalidConfig
  | backendFault
  | cancelled
  deriving DecidableEq

structure RttError where
  code : RttErrorCode
  message : String
  deriving DecidableEq

def RttError.isTransientRuntimePressure (e : RttError) : Bool :=
  e.code = .schedulerBusy ∨ e.code = .operationTimeout

def RttError.hasIndeterminateOutcome (e : RttError) : Bool := e.code = .operationOutcomeUnknown

structure PendingWrite where
  channelIndex : Nat
  data : List UInt8
  offset : Nat
  deadline : Nat
  reply : Nat
  deriving DecidableEq

/-- How many bytes a turn may hand over. A `Vec` is never so long that the addition saturates. -/
def PendingWrite.quantum (pending : PendingWrite) : Nat :=
  min (pending.offset + WRITE_QUANTUM_BYTES) pending.data.length - pending.offset

def writeTimeout (pending : PendingWrite) : RttError where
  code := .rttWriteTimeout
  message := "RTT Down Channel " ++ toString pending.channelIndex ++ " 写入超时（" ++
    toString pending.offset ++ "/" ++ toString pending.data.length ++ " bytes）"

def writeQueueFull : RttError := ⟨.rttWriteQueueFull, "RTT 写入队列繁忙，请降低发送速率"⟩

def writeCancelled : RttError := ⟨.cancelled, "RTT 会话正在关闭，未完成的写入已取消"⟩

/-- A byte that the backend has taken, of which write and for which channel. -/
structure Handed where
  write : Nat
  channelIndex : Nat
  byte : UInt8
  deriving DecidableEq

/-- The queue of the loop and the counter of the snapshot. `received`, `replies` and `handed` are what
has passed between the worker and its surroundings. -/
structure Worker where
  writes : List PendingWrite
  txBytes : Nat
  running : Bool
  received : List (Nat × List UInt8)
  replies : List (Nat × Except RttError Nat)
  handed : List Handed

/-- What `try_recv` gives, if it gives something. -/
inductive Received where
  | write (channelIndex : Nat) (data : List UInt8) (now : Nat)
  | refreshChannels
  | shutdown
  | disconnected
  deriving DecidableEq

/-- What a turn of the loop meets: the commands, what the poll and the write of the backend give, and
the clock before and after the write. -/
structure Tick where
  commands : List Received
  poll : Option RttError
  before : Nat
  written : Except RttError Nat
  after : Nat

namespace Worker

def start : Worker := ⟨[], 0, true, [], [], []⟩

def answer (w : Worker) (pending : PendingWrite) (result : Except RttError Nat) : Worker :=
  { w with replies := w.replies ++ [(pending.reply, result)] }

/-- The loop ends: `cancel_pending_writes`. -/
def stop (w : Worker) : Worker :=
  { w with
    writes := []
    running := false
    replies := w.replies ++ w.writes.map fun pending => (pending.reply, .error writeCancelled) }

def acceptWrite (w : Worker) (channelIndex : Nat) (data : List UInt8) (deadline : Nat) : Worker :=
  let pending : PendingWrite := ⟨channelIndex, data, 0, deadline, w.received.length⟩
  let w := { w with received := w.received ++ [(channelIndex, data)] }
  if MAX_PENDING_WRITES ≤ w.writes.length then w.answer pending (.error writeQueueFull)
  else { w with writes := w.writes ++ [pending] }

/-- At most so many commands. -/
def receive (timeout : Nat) : Nat → List Received → Worker → Worker
  | 0, _, w => w
  | _ + 1, [], w => w
  | n + 1, .write channelIndex data now :: commands, w =>
    receive timeout n commands (w.acceptWrite channelIndex data (now + timeout))
  | n + 1, .refreshChannels :: commands, w => receive timeout n commands w
  | _ + 1, .shutdown :: _, w => w.stop
  | _ + 1, .disconnected :: _, w => w.stop

/-- The backend has taken bytes, and `record_tx`. -/
def hand (w : Worker) (pending : PendingWrite) (count : Nat) : Worker :=
  { w with
    handed := w.handed ++ ((pending.data.drop pending.offset).take count).map fun byte =>
      ⟨pending.reply, pending.channelIndex, byte⟩
    txBytes := min (w.txBytes + count) (2 ^ 64 - 1) }

/-- The error, if there is one that ends the loop. -/
def serviceOneWrite (w : Worker) (t : Tick) : Worker × Option RttError :=
  match w.writes with
  | [] => (w, none)
  | pending :: writes =>
    let w := { w with writes }
    if pending.deadline ≤ t.before then (w.answer pending (.error (writeTimeout pending)), none)
    else
      match t.written with
      | .ok count =>
        let count := min count pending.quantum
        let w := w.hand pending count
        let pending := { pending with offset := pending.offset + count }
        if pending.data.length ≤ pending.offset then
          (w.answer pending (.ok pending.data.length), none)
        else if pending.deadline ≤ t.after then
          (w.answer pending (.error (writeTimeout pending)), none)
        else ({ w with writes := w.writes ++ [pending] }, none)
      | .error error =>
        (w.answer pending (.error error),
          if error.hasIndeterminateOutcome then some error else none)

/-- The worker when the writes get their turn. -/
def atTurn (timeout : Nat) (w : Worker) (t : Tick) : Worker :=
  let w := w.receive timeout MAX_COMMANDS_PER_TICK t.commands
  if w.running ∧ t.poll.any fun error => !error.isTransientRuntimePressure then w.stop else w

/-- A turn of the loop, until it is left. -/
def tick (timeout : Nat) (w : Worker) (t : Tick) : Worker :=
  if w.running then
    let w := w.atTurn timeout t
    if w.running then
      let (w, fatalError) := w.serviceOneWrite t
      if fatalError.isSome then w.stop else w
    else w
  else w

/-- The bytes of one write that have been handed over. -/
def bytesOf (w : Worker) (write : Nat) : List UInt8 :=
  (w.handed.filter fun h => h.write = write).map Handed.byte

end Worker

end TauTerm.Rtt.Writes
