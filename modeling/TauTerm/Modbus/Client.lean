import Mathlib
import TauTerm.Modbus.Rtu

/-!
# The Modbus client

`ModbusClient::execute` with its attempts, and the three ways a response is received
(`client.rs`). What the transport does in an attempt is given as a `World`; times are
answers of `recv_timeout`.
-/

namespace TauTerm.Modbus

open Lib

abbrev ModbusMode := AduMode

/-! ## Capabilities -/

inductive TransportScope where
  | any
  | serialLine
  deriving DecidableEq

def transportScope : ModbusRequest → TransportScope
  | .readExceptionStatus | .diagnostics .. | .getCommEventCounter | .getCommEventLog
  | .reportServerId => .serialLine
  | _ => .any

def requestSupportedOnMode (mode : ModbusMode) (request : ModbusRequest) : Bool :=
  mode ≠ .tcp ∨ transportScope request ≠ .serialLine

def validateClientUnitId (mode : ModbusMode) (unitId : UInt8) : Except String Unit :=
  if mode ≠ .tcp ∧ unitId > 247 then .error "serial unit_id must be 0..=247" else .ok ()

def ModbusRequest.isWrite : ModbusRequest → Bool
  | .writeSingleCoil .. | .writeSingleRegister .. | .writeMultipleCoils ..
  | .writeMultipleRegisters .. | .writeFileRecord .. | .maskWriteRegister ..
  | .readWriteMultipleRegisters .. => true
  | _ => false

/-! ## Receiving -/

/-- What `recv_timeout` answers. -/
inductive ChannelAnswer where
  | data (bytes : List UInt8)
  | closed (reason : String)
  | timeout
  | disconnected
  deriving DecidableEq

/-- One turn of a receiving loop: whether the deadline has passed, and the answer. An RTU turn
may go on to the end of the frame gap: whether that is before the deadline, and the answer. -/
structure Wait where
  expired : Bool
  answer : ChannelAnswer
  tailFits : Bool := true
  tail : ChannelAnswer := .timeout
  deriving DecidableEq

inductive ReceiveError where
  | timeout
  | transport (message : String)
  | malformed (message : String) (raw : List UInt8)
  | protocol (message : String) (raw : List UInt8)
  deriving DecidableEq

/-- A frame and its PDU. -/
abbrev Received := Except ReceiveError (List UInt8 × List UInt8)

def recvUntil (wait : Wait) : Except ReceiveError ChannelAnswer :=
  if wait.expired then .error .timeout
  else
    match wait.answer with
    | .timeout => .error .timeout
    | .disconnected => .error (.transport "transport event stream closed")
    | answer => .ok answer

/-- The loop over the frames of one chunk; `none` goes on waiting. -/
def tcpFrames (transactionId : UInt16) (unitId : UInt8) : List (List UInt8) → Option Received
  | [] => none
  | frame :: frames =>
    match Tcp.decode frame with
    | .error error => some (.error (.malformed error frame))
    | .ok (tid, unit, pdu) =>
      if tid ≠ transactionId then tcpFrames transactionId unitId frames
      else if unit ≠ unitId then
        some (.error (.protocol s!"unit id mismatch: expected {unitId}, got {unit}" frame))
      else some (.ok (frame, pdu))

def receiveTcp (transactionId : UInt16) (unitId : UInt8) (buffer : List UInt8) : List Wait → Received
  | [] => .error .timeout
  | wait :: waits =>
    match recvUntil wait with
    | .error error => .error error
    | .ok (.data data) =>
      match Tcp.push buffer data with
      | .error error => .error (.malformed error data)
      | .ok (frames, buffer) =>
        (tcpFrames transactionId unitId frames).getD (receiveTcp transactionId unitId buffer waits)
    | .ok (.closed reason) => .error (.transport reason)
    | .ok .timeout | .ok .disconnected => .error .timeout

def asciiFrames (unitId : UInt8) : List (List UInt8) → Option Received
  | [] => none
  | frame :: frames =>
    match Ascii.decode frame with
    | .error error => some (.error (.malformed error frame))
    | .ok (unit, pdu) => if unit ≠ unitId then asciiFrames unitId frames else some (.ok (frame, pdu))

def receiveAscii (unitId : UInt8) (buffer : List UInt8) : List Wait → Received
  | [] => .error .timeout
  | wait :: waits =>
    match recvUntil wait with
    | .error error => .error error
    | .ok (.data data) =>
      let (frames, buffer) := Ascii.push buffer data
      (asciiFrames unitId frames).getD (receiveAscii unitId buffer waits)
    | .ok (.closed reason) => .error (.transport reason)
    | .ok .timeout | .ok .disconnected => .error .timeout

def receiveRtu (unitId : UInt8) (raw : List UInt8) : List Wait → Received
  | [] => .error .timeout
  | wait :: waits =>
    if wait.expired then .error .timeout
    else
      match wait.answer with
      | .closed reason => .error (.transport reason)
      | .data data => receiveRtu unitId (raw ++ data) waits
      | .timeout =>
        if raw = [] then .error .timeout
        else if ¬ wait.tailFits then
          .error (.malformed
            "RTU response did not reach the required t3.5 frame boundary before timeout" raw)
        else
          match wait.tail with
          | .data data =>
            .error (.malformed "RTU inter-character silence exceeded t1.5 before frame completion"
              (raw ++ data))
          | .closed reason => .error (.transport reason)
          | .disconnected => .error (.transport "transport event stream closed")
          | .timeout =>
            match Rtu.decode raw with
            | .error error => .error (.malformed error raw)
            | .ok (unit, pdu) =>
              if unit ≠ unitId then receiveRtu unitId [] waits else .ok (raw, pdu)
      | .disconnected => .error (.transport "transport event stream closed")

def receive (mode : ModbusMode) (transactionId : UInt16) (unitId : UInt8) (waits : List Wait) :
    Received :=
  match mode with
  | .tcp => receiveTcp transactionId unitId [] waits
  | .ascii => receiveAscii unitId [] waits
  | .rtu => receiveRtu unitId [] waits

/-! ## Transactions -/

inductive TransactionStatus where
  | success | broadcast | modbusException | protocolError | malformedResponse | timeout
  | transportError | cancelled | faultInjected
  deriving DecidableEq

structure TransactionResult where
  status : TransactionStatus
  function : UInt8
  transactionId : Option UInt16
  unitId : UInt8
  exceptionCode : Option UInt8 := none
  rawTx : List UInt8
  rawRx : List UInt8 := []
  responsePdu : List UInt8 := []
  message : Option String := none
  writeOutcomeUnknown : Bool := false
  attempt : Nat
  deriving DecidableEq

structure ClientConfig where
  mode : ModbusMode
  readRetries : UInt8
  retryWrites : Bool

def HISTORY_LIMIT : Nat := 1000

structure ModbusClient where
  /-- Whether `events` holds a subscription. -/
  subscribed : Bool := false
  nextTransactionId : UInt16 := 1
  nextHistorySequence : Nat := 1
  history : List (Nat × TransactionResult) := []

/-- What an attempt meets: a client that was closed, and the answers of the data plane to
`subscribe`, `write` and `recv_timeout`. -/
structure World where
  closed : Bool := false
  subscribe : Except String Unit := .ok ()
  write : Except String Unit := .ok ()
  waits : List Wait := []

/-- The end of an attempt: its result, whether the frame was handed to the transport, whether a
response was accepted, and the client. -/
structure Executed where
  result : TransactionResult
  handed : Bool := false
  accepted : Bool := false
  client : ModbusClient

section Execute

variable (config : ClientConfig) (unitId : UInt8) (request : ModbusRequest)

/-- The frame, if the request can be sent at all. -/
def prepare (transactionId : Option UInt16) : Except String (List UInt8) :=
  match validateClientUnitId config.mode unitId with
  | .error message => .error message
  | .ok () =>
    if ¬ requestSupportedOnMode config.mode request then
      .error "function is defined for Modbus serial line and is not available on Modbus TCP"
    else
      match encodeRequest request with
      | .error message => .error message
      | .ok pdu =>
        if unitId = 0 ∧ config.mode ≠ .tcp ∧ ¬ request.isWrite then
          .error "broadcast address 0 is write-only"
        else encodeAdu config.mode unitId (transactionId.getD 0) pdu

def ModbusClient.transactionId (client : ModbusClient) : Option UInt16 :=
  if config.mode = .tcp then some client.nextTransactionId else none

/-- The counter after `fetch_add`. -/
def ModbusClient.numbered (client : ModbusClient) : ModbusClient :=
  if config.mode = .tcp then { client with nextTransactionId := client.nextTransactionId + 1 }
  else client

def executeOnce (attempt : Nat) (client : ModbusClient) (world : World) : Executed :=
  let transactionId := client.transactionId config
  let client := client.numbered config
  let failure (status : TransactionStatus) (rawTx rawRx : List UInt8) (message : String)
      (writeOutcomeUnknown : Bool) : TransactionResult :=
    { status, function := request.function, transactionId, unitId, rawTx, rawRx
      message := some message, writeOutcomeUnknown, attempt }
  match prepare config unitId request transactionId with
  | .error message => { result := failure .protocolError [] [] message false, client }
  | .ok tx =>
    if world.closed then
      { result := failure .cancelled tx [] "client is closed" false
        client := { client with subscribed := false } }
    else
      match if client.subscribed then .ok () else world.subscribe with
      | .error error => { result := failure .transportError tx [] error false, client }
      | .ok () =>
        let client := { client with subscribed := true }
        match world.write with
        | .error error =>
          { result := failure .transportError tx [] error request.isWrite, handed := true, client }
        | .ok () =>
          if unitId = 0 ∧ config.mode ≠ .tcp then
            { result := { status := .broadcast, function := request.function, transactionId
                          unitId := 0, rawTx := tx, attempt }
              handed := true, client }
          else
            match receive config.mode (transactionId.getD 0) unitId world.waits with
            | .error .timeout =>
              { result := failure .timeout tx [] "response timeout" request.isWrite
                handed := true, client }
            | .error (.transport message) =>
              { result := failure .transportError tx [] message request.isWrite
                handed := true, client }
            | .error (.malformed message raw) =>
              { result := failure .malformedResponse tx raw message false, handed := true, client }
            | .error (.protocol message raw) =>
              { result := failure .protocolError tx raw message false, handed := true, client }
            | .ok (rawRx, responsePdu) =>
              match validateResponse request responsePdu with
              | .ok response =>
                { result := {
                    status := if response.exception.isSome then .modbusException else .success
                    function := request.function, transactionId, unitId
                    exceptionCode := response.exception, rawTx := tx, rawRx, responsePdu, attempt }
                  handed := true, accepted := true, client }
              | .error message =>
                { result := failure .protocolError tx rawRx message false, handed := true, client }

def TransactionStatus.retryable : TransactionStatus → Bool
  | .timeout | .transportError => true
  | _ => false

def maxRetries : Nat :=
  if request.isWrite ∧ ¬ config.retryWrites then 0 else config.readRetries.toNat

/-- An attempt in front of its world. -/
structure Situation where
  attempt : Nat
  client : ModbusClient
  world : World

def Situation.run (s : Situation) : Executed :=
  executeOnce config unitId request s.attempt s.client s.world

/-- The attempts that the loop of `execute` makes, with so many retries left. -/
def attempts (worlds : Nat → World) : Nat → Nat → ModbusClient → List Situation
  | attempt, 0, client => [⟨attempt, client, worlds attempt⟩]
  | attempt, retries + 1, client =>
    let situation : Situation := ⟨attempt, client, worlds attempt⟩
    let done := situation.run config unitId request
    if done.result.status.retryable then
      situation :: attempts worlds (attempt + 1) retries done.client
    else [situation]

/-- All attempts of one call. -/
def executeAttempts (worlds : Nat → World) (client : ModbusClient) : List Executed :=
  (attempts config unitId request worlds 0 (maxRetries config request) client).map
    (·.run config unitId request)

end Execute

def ModbusClient.record (client : ModbusClient) (result : TransactionResult) : ModbusClient :=
  { client with
    nextHistorySequence := client.nextHistorySequence + 1
    history := (if client.history.length ≥ HISTORY_LIMIT then client.history.drop 1
      else client.history) ++ [(client.nextHistorySequence, result)] }

/-- `ModbusClient::execute`: the last attempt is the result. -/
def ModbusClient.execute (config : ClientConfig) (client : ModbusClient) (unitId : UInt8)
    (request : ModbusRequest) (worlds : Nat → World) : Option (TransactionResult × ModbusClient) :=
  (executeAttempts config unitId request worlds client).getLast?.map fun done =>
    (done.result, done.client.record done.result)

end TauTerm.Modbus
