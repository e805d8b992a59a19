import Mathlib
import TauTerm.Modbus.Pdu

/-!
# Validating a response

`validate_response` and its helpers (`codec/pdu.rs`). A cursor into the response
is the list of the bytes from the cursor on.
-/

namespace TauTerm.Modbus

open Lib

structure ModbusResponse where
  function : UInt8
  data : List UInt8
  exception : Option UInt8
  deriving DecidableEq

/-- An upper-case hex number of a fixed width, as `{:02X}` and `{:04X}` print it. -/
def hexUpper : Nat → Nat → String
  | 0, _ => ""
  | width + 1, n => hexUpper width (n / 16) ++ String.ofList [(Nat.digitChar (n % 16)).toUpper]

/-- `Err(error)` unless the condition holds. -/
def ensure (condition : Prop) [Decidable condition] (error : String) : Except String Unit :=
  if condition then .ok () else .error error

def validateWriteMultipleEcho (data : List UInt8) (address quantity : UInt16) :
    Except String Unit := do
  requireLen data 4
  let echoAddress ← u16At data 0
  ensure (echoAddress = address) "write-multiple address echo mismatch"
  let echoQuantity ← u16At data 2
  ensure (echoQuantity = quantity) "write-multiple quantity echo mismatch"

def validateByteCount (data : List UInt8) (expected : Nat) : Except String Unit :=
  match data with
  | [] => .error "missing byte count"
  | count :: rest =>
    ensure (count.toNat = expected ∧ rest.length = count.toNat)
      s!"byte count mismatch: expected {expected}, got {count.toNat}"

def validateCountPrefixed (data : List UInt8) : Except String Unit :=
  match data with
  | [] => .error "response missing byte count"
  | count :: rest =>
    ensure (count.toNat = rest.length) "response byte count does not match payload length"

/-- The `for record in records` loop, on the bytes from the cursor on. -/
def validateFileReads : List FileRecordRead → List UInt8 → Except String Unit
  | [], rest => ensure (rest = []) "read-file response contains unexpected sub-response data"
  | _ :: _, [] => .error "read-file response missing sub-response"
  | record :: records, subLen :: body => do
    let expected := 1 + record.recordLength.toNat * 2
    ensure (subLen.toNat = expected ∧ subLen.toNat ≤ body.length)
      "read-file sub-response length mismatch"
    ensure (body.head? = some 0x06) "read-file reference type must be 0x06"
    validateFileReads records (body.drop subLen.toNat)

def validateFileReadResponse (data : List UInt8) (records : List FileRecordRead) :
    Except String Unit := do
  validateCountPrefixed data
  validateFileReads records (data.drop 1)

def validateCommStatus (status : UInt16) : Except String Unit :=
  ensure (status = 0x0000 ∨ status = 0xFFFF)
    s!"invalid communication status 0x{hexUpper 4 status.toNat}"

def validateCommEventCounter (data : List UInt8) : Except String Unit := do
  requireLen data 4
  let status ← u16At data 0
  validateCommStatus status

def validateCommEventLog (data : List UInt8) : Except String Unit := do
  validateCountPrefixed data
  ensure (6 ≤ data.getD 0 0) "communication event log byte count must be at least 6"
  let status ← u16At data 1
  validateCommStatus status
  let _eventCount ← u16At data 3
  let _messageCount ← u16At data 5
  .ok ()

def validateReportServerId (data : List UInt8) : Except String Unit := do
  validateCountPrefixed data
  ensure (2 ≤ data.getD 0 0) "report-server-id response must contain server id and run status"
  ensure (data.getD 2 0 = 0x00 ∨ data.getD 2 0 = 0xFF)
    "report-server-id run status must be 0x00 or 0xFF"

def validateFifoResponse (data : List UInt8) : Except String Unit := do
  ensure (4 ≤ data.length) "FIFO response too short"
  let byteCount ← u16At data 0
  ensure (2 ≤ byteCount.toNat ∧ data.length = byteCount.toNat + 2) "FIFO byte count mismatch"
  let fifoCount ← u16At data 2
  ensure (fifoCount.toNat ≤ 31 ∧ byteCount.toNat = 2 + fifoCount.toNat * 2) "FIFO count mismatch"

/-- The loop over the objects of an identification response: the last object id
and the bytes behind the last object. -/
def validateObjects : Nat → List UInt8 → Option UInt8 → Except String (Option UInt8 × List UInt8)
  | 0, rest, previousId => .ok (previousId, rest)
  | n + 1, objectId :: len :: body, previousId => do
    ensure (len.toNat ≤ body.length) "truncated Read Device Identification object value"
    ensure (∀ previous ∈ previousId, previous < objectId)
      "Read Device Identification object ids must be strictly increasing"
    validateObjects n (body.drop len.toNat) (some objectId)
  | _ + 1, _, _ => .error "truncated Read Device Identification object header"

/-- `validate_mei_response` from the checks of `Read Device Identification` on. -/
def validateIdentification (data requestData : List UInt8) : Except String Unit := do
  ensure (requestData.length = 2 ∧ 7 ≤ data.length)
    "Read Device Identification response is too short"
  ensure (data.getD 1 0 = requestData.getD 0 0) "Read Device Identification read-code mismatch"
  let conformity := data.getD 2 0
  ensure ((0x01 ≤ conformity ∧ conformity ≤ 0x03) ∨ (0x81 ≤ conformity ∧ conformity ≤ 0x83))
    "invalid Read Device Identification conformity level"
  let moreFollows := data.getD 3 0
  ensure (moreFollows = 0x00 ∨ moreFollows = 0xFF)
    "invalid Read Device Identification more-follows flag"
  let nextObject := data.getD 4 0
  let objectCount := (data.getD 5 0).toNat
  if requestData.getD 0 0 = 0x04 then do
    ensure (0x80 ≤ conformity)
      "individual Read Device Identification requires individual-access conformity"
    ensure (moreFollows = 0x00 ∧ nextObject = 0x00 ∧ objectCount = 1)
      "individual Read Device Identification must return exactly one final object"
  else
    ensure (¬ (moreFollows = 0x00 ∧ nextObject ≠ 0x00))
      "final Read Device Identification response must use next object id 0"
  let (previousId, rest) ← validateObjects objectCount (data.drop 6) none
  ensure (rest = []) "unexpected trailing Read Device Identification data"
  ensure (¬ (requestData.getD 0 0 = 0x04 ∧ previousId ≠ some (requestData.getD 1 0)))
    "specific Read Device Identification response returned a different object"
  ensure (¬ (moreFollows = 0xFF ∧ ∃ last ∈ previousId, nextObject ≤ last))
    "next Read Device Identification object id must advance"

def validateMeiResponse (data : List UInt8) (meiType : UInt8) (requestData : List UInt8) :
    Except String Unit := do
  ensure (data.head? = some meiType) "MEI type mismatch"
  if meiType ≠ 0x0E then .ok () else validateIdentification data requestData

/-- The `match request` of `validate_response`, on the bytes behind the function code. -/
def validateFields (request : ModbusRequest) (data : List UInt8) : Except String Unit :=
  match request with
  | .readBits _ _ quantity => validateByteCount data (divCeil8 quantity.toNat)
  | .readRegisters _ _ quantity => validateByteCount data (quantity.toNat * 2)
  | .writeSingleCoil address value => do
    requireLen data 4
    let echoAddress ← u16At data 0
    let echoValue ← u16At data 2
    ensure (echoAddress = address ∧ echoValue = if value then 0xFF00 else 0x0000)
      "write-single-coil echo mismatch"
  | .writeSingleRegister address value => do
    requireLen data 4
    let echoAddress ← u16At data 0
    let echoValue ← u16At data 2
    ensure (echoAddress = address ∧ echoValue = value) "write-single-register echo mismatch"
  | .writeMultipleCoils address values =>
    validateWriteMultipleEcho data address (UInt16.ofNat values.length)
  | .writeMultipleRegisters address values =>
    validateWriteMultipleEcho data address (UInt16.ofNat values.length)
  | .maskWriteRegister address andMask orMask => do
    requireLen data 6
    let echoAddress ← u16At data 0
    let echoAnd ← u16At data 2
    let echoOr ← u16At data 4
    ensure (echoAddress = address ∧ echoAnd = andMask ∧ echoOr = orMask) "mask-write echo mismatch"
  | .readWriteMultipleRegisters _ readQuantity _ _ => validateByteCount data (readQuantity.toNat * 2)
  | .readFileRecord records => validateFileReadResponse data records
  | .writeFileRecord _ => do
    let expected ← encodeRequest request
    ensure (data = expected.drop 1) "write-file response does not echo request"
  | .readExceptionStatus => requireLen data 1
  | .diagnostics subFunction requestData => do
    ensure (2 ≤ data.length) "diagnostics sub-function mismatch"
    let echo ← u16At data 0
    ensure (echo = subFunction) "diagnostics sub-function mismatch"
    ensure (¬ ((subFunction = 0x0000 ∨ subFunction = 0x000A) ∧ data.drop 2 ≠ requestData))
      "diagnostics response does not echo the implemented request"
  | .getCommEventCounter => validateCommEventCounter data
  | .getCommEventLog => validateCommEventLog data
  | .reportServerId => validateReportServerId data
  | .readFifoQueue _ => validateFifoResponse data
  | .mei meiType requestData => validateMeiResponse data meiType requestData
  | .raw _ _ => .ok ()

def validateResponse (request : ModbusRequest) (pdu : List UInt8) : Except String ModbusResponse :=
  match pdu with
  | [] => .error "empty response PDU"
  | code :: data =>
    let function := request.function
    if code = (function ||| 0x80) then
      match data with
      | [exception] => .ok { function, data := [], exception := some exception }
      | _ => .error "exception response must be exactly 2 bytes"
    else if code ≠ function then
      .error s!"function mismatch: expected 0x{hexUpper 2 function.toNat}, got 0x{hexUpper 2 code.toNat}"
    else do
      validateFields request data
      .ok { function, data, exception := none }

end TauTerm.Modbus
