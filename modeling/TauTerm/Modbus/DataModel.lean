import Mathlib
import TauTerm.Lib.Exec
import TauTerm.Modbus.Pdu

/-!
# The data model of the Modbus server

`ModbusDataModel` and `execute` (`data_model.rs`). A map is a function to
`Option`; the object table, which is iterated in order, is an ascending list.
An address addition that would pass 65535 is its own way to end (`overflow`), so
that no wrapped address can go unnoticed.

The lock is not modelled: it is poisoned only by a panic inside `execute`, and
`execute` takes it for its whole body.
-/

namespace TauTerm.Modbus

open Lib

def EX_ILLEGAL_FUNCTION : UInt8 := 0x01

def EX_ILLEGAL_DATA_ADDRESS : UInt8 := 0x02

def EX_ILLEGAL_DATA_VALUE : UInt8 := 0x03

/-- How a request ends without a response: with an exception code, or in an
address addition past 65535 (a panic or a wrapped address). -/
inductive Abort where
  | exception (code : UInt8)
  | overflow
  deriving DecidableEq

/-- `address + offset` on `u16`. -/
def addAddress (address offset : UInt16) : Except Abort UInt16 :=
  if address.toNat + offset.toNat < 65536 then .ok (address + offset) else .error .overflow

def ensureSpan (address : UInt16) (len : Nat) : Except Abort Unit :=
  if len = 0 then .error (.exception EX_ILLEGAL_DATA_VALUE)
  else
    let last := len - 1
    if last > 65535 ∨ address.toNat + (UInt16.ofNat last).toNat ≥ 65536 then
      .error (.exception EX_ILLEGAL_DATA_ADDRESS)
    else .ok ()

/-! ## Address blocks -/

structure AddressBlock (α : Type) where
  values : UInt16 → Option α

namespace AddressBlock

variable {α : Type}

def empty : AddressBlock α := ⟨fun _ => none⟩

def set (block : AddressBlock α) (address : UInt16) (value : α) : AddressBlock α :=
  ⟨Function.update block.values address (some value)⟩

def get (block : AddressBlock α) (address : UInt16) : Except Abort α :=
  match block.values address with
  | some value => .ok value
  | none => .error (.exception EX_ILLEGAL_DATA_ADDRESS)

def ensureDefined (block : AddressBlock α) (address : UInt16) (len : Nat) : Except Abort Unit := do
  ensureSpan address len
  (List.range len).forM fun offset => do
    let point ← addAddress address (UInt16.ofNat offset)
    if block.values point = none then .error (.exception EX_ILLEGAL_DATA_ADDRESS) else .ok ()

def read (block : AddressBlock α) (address quantity : UInt16) : Except Abort (List α) := do
  ensureDefined block address quantity.toNat
  (List.range quantity.toNat).mapM fun offset => do
    let point ← addAddress address (UInt16.ofNat offset)
    block.get point

/-- The `for (index, value)` of `write_existing`, from `index` on. -/
def writeFrom (address : UInt16) : Nat → List α → Exec (AddressBlock α) Abort Unit
  | _, [] => pure ()
  | index, value :: values => do
    let point ← .ofExcept (addAddress address (UInt16.ofNat index))
    .modify (·.set point value)
    writeFrom address (index + 1) values

def writeExisting (address : UInt16) (values : List α) : Exec (AddressBlock α) Abort Unit := do
  let block ← .get
  .ofExcept (block.ensureDefined address values.length)
  writeFrom address 0 values

end AddressBlock

/-! ## The model -/

structure AddressSpace where
  coils : AddressBlock Bool
  discreteInputs : AddressBlock Bool
  holdingRegisters : AddressBlock UInt16
  inputRegisters : AddressBlock UInt16

abbrev FileRecords := UInt16 × UInt16 → Option UInt16

structure ModelInner where
  addressSpace : AddressSpace
  fileRecords : FileRecords
  fifo : UInt16 → Option (List UInt16)
  deviceObjects : List (UInt8 × List UInt8)
  exceptionStatus : UInt8
  commEventCount : UInt16
  messageCount : UInt16

/-- The UTF-8 bytes of `TauTerm`, of the package version and of `Modbus Simulator`. -/
def defaultDeviceObjects : List (UInt8 × List UInt8) :=
  [(0x00, [0x54, 0x61, 0x75, 0x54, 0x65, 0x72, 0x6D]),
    (0x01, [0x30, 0x2E, 0x36, 0x2E, 0x37]),
    (0x02, [0x4D, 0x6F, 0x64, 0x62, 0x75, 0x73, 0x20, 0x53, 0x69, 0x6D, 0x75, 0x6C, 0x61, 0x74,
      0x6F, 0x72])]

def ModelInner.default : ModelInner where
  addressSpace := ⟨.empty, .empty, .empty, .empty⟩
  fileRecords := fun _ => none
  fifo := fun _ => none
  deviceObjects := defaultDeviceObjects
  exceptionStatus := 0
  commEventCount := 0
  messageCount := 0

namespace ModelInner

def setCoils (block : AddressBlock Bool) (inner : ModelInner) : ModelInner :=
  { inner with addressSpace := { inner.addressSpace with coils := block } }

def setDiscreteInputs (block : AddressBlock Bool) (inner : ModelInner) : ModelInner :=
  { inner with addressSpace := { inner.addressSpace with discreteInputs := block } }

def setHoldingRegisters (block : AddressBlock UInt16) (inner : ModelInner) : ModelInner :=
  { inner with addressSpace := { inner.addressSpace with holdingRegisters := block } }

def setInputRegisters (block : AddressBlock UInt16) (inner : ModelInner) : ModelInner :=
  { inner with addressSpace := { inner.addressSpace with inputRegisters := block } }

def setFileRecords (records : FileRecords) (inner : ModelInner) : ModelInner :=
  { inner with fileRecords := records }

def setCoil (address : UInt16) (value : Bool) (inner : ModelInner) : ModelInner :=
  inner.setCoils (inner.addressSpace.coils.set address value)

def setDiscreteInput (address : UInt16) (value : Bool) (inner : ModelInner) : ModelInner :=
  inner.setDiscreteInputs (inner.addressSpace.discreteInputs.set address value)

def setHoldingRegister (address value : UInt16) (inner : ModelInner) : ModelInner :=
  inner.setHoldingRegisters (inner.addressSpace.holdingRegisters.set address value)

def setInputRegister (address value : UInt16) (inner : ModelInner) : ModelInner :=
  inner.setInputRegisters (inner.addressSpace.inputRegisters.set address value)

def bitBlock (inner : ModelInner) : BitReadArea → AddressBlock Bool
  | .coils => inner.addressSpace.coils
  | .discreteInputs => inner.addressSpace.discreteInputs

def registerBlock (inner : ModelInner) : RegisterReadArea → AddressBlock UInt16
  | .holdingRegisters => inner.addressSpace.holdingRegisters
  | .inputRegisters => inner.addressSpace.inputRegisters

end ModelInner

/-! ## Executing a request -/

/-- A block write of the protocol, on one of the blocks. -/
def writeCoils (address : UInt16) (values : List Bool) : Exec ModelInner Abort Unit :=
  .zoom (·.addressSpace.coils) ModelInner.setCoils (AddressBlock.writeExisting address values)

def writeHoldingRegisters (address : UInt16) (values : List UInt16) : Exec ModelInner Abort Unit :=
  .zoom (·.addressSpace.holdingRegisters) ModelInner.setHoldingRegisters
    (AddressBlock.writeExisting address values)

/-- `checked_add(offset).ok_or(..)`, then the record or an illegal address. -/
def FileRecords.lookup (records : FileRecords) (fileNumber recordNumber offset : UInt16) :
    Except Abort UInt16 :=
  if recordNumber.toNat + offset.toNat < 65536 then
    match records (fileNumber, recordNumber + offset) with
    | some value => .ok value
    | none => .error (.exception EX_ILLEGAL_DATA_ADDRESS)
  else .error (.exception EX_ILLEGAL_DATA_ADDRESS)

def fileReadPayload (records : FileRecords) : List FileRecordRead → Except Abort (List UInt8)
  | [] => .ok []
  | request :: requests => do
    let values ← (List.range request.recordLength.toNat).mapM fun offset =>
      records.lookup request.fileNumber request.recordNumber (UInt16.ofNat offset)
    let rest ← fileReadPayload records requests
    .ok (UInt8.ofNat (1 + values.length * 2) :: 0x06 :: wordsBytes values ++ rest)

/-- The bytes that a file response appends to the function code. -/
def countPrefixed (payload : List UInt8) : Except Abort (List UInt8) :=
  if payload.length > 255 then .error (.exception EX_ILLEGAL_DATA_VALUE)
  else .ok (UInt8.ofNat payload.length :: payload)

def encodeFileReadResponse (records : FileRecords) (requests : List FileRecordRead) :
    Except Abort (List UInt8) := do
  let payload ← fileReadPayload records requests
  countPrefixed payload

def encodeFileWriteEcho (requests : List FileRecordWrite) : Except Abort (List UInt8) :=
  countPrefixed (requests.flatMap FileRecordWrite.encode)

def validateFileWrites (requests : List FileRecordWrite) : Except Abort Unit := do
  requests.forM fun request => ensureSpan request.recordNumber request.values.length
  let _ ← encodeFileWriteEcho requests
  .ok ()

/-- The inner loop of `apply_file_writes`, from `offset` on. -/
def applyFileWriteFrom (fileNumber recordNumber : UInt16) :
    Nat → List UInt16 → Exec FileRecords Abort Unit
  | _, [] => pure ()
  | offset, value :: values => do
    let record ← .ofExcept (addAddress recordNumber (UInt16.ofNat offset))
    .modify fun records => Function.update records (fileNumber, record) (some value)
    applyFileWriteFrom fileNumber recordNumber (offset + 1) values

def applyFileWrites (requests : List FileRecordWrite) : Exec FileRecords Abort Unit :=
  requests.forM fun request => applyFileWriteFrom request.fileNumber request.recordNumber 0 request.values

/-- The device objects a read code selects: one by its id, or at most seventeen
from an id on. -/
def selectObjects (objects : List (UInt8 × List UInt8)) (readCode start : UInt8) :
    Except Abort (List (UInt8 × List UInt8)) :=
  if readCode = 0x04 then
    match objects.find? (·.1 = start) with
    | some object => .ok [object]
    | none => .error (.exception EX_ILLEGAL_DATA_ADDRESS)
  else
    let first := if objects.any (·.1 = start) then start else 0
    .ok ((objects.filter (first ≤ ·.1)).take 17)

def encodeObject (object : UInt8 × List UInt8) : List UInt8 :=
  let len := min object.2.length 255
  object.1 :: UInt8.ofNat len :: object.2.take len

def encodeMeiResponse (objects : List (UInt8 × List UInt8)) (meiType : UInt8) (data : List UInt8) :
    Except Abort (List UInt8) :=
  if meiType ≠ 0x0E then .error (.exception EX_ILLEGAL_FUNCTION)
  else
    match data with
    | [readCode, start] =>
      if ¬ (1 ≤ readCode ∧ readCode ≤ 4) then .error (.exception EX_ILLEGAL_DATA_VALUE)
      else do
        let selected ← selectObjects objects readCode start
        let visible := selected.take 16
        let (moreFollows, nextObject) : UInt8 × UInt8 :=
          match selected[16]? with
          | some object => (0xFF, object.1)
          | none => (0x00, 0)
        .ok ([0x0E, readCode, 0x81, moreFollows, nextObject, UInt8.ofNat visible.length] ++
          visible.flatMap encodeObject)
    | _ => .error (.exception EX_ILLEGAL_DATA_VALUE)

/-- The bytes that the arms of `execute_request` append to the function code. -/
def executeFields : ModbusRequest → Exec ModelInner Abort (List UInt8)
  | .readBits area address quantity => do
    let inner ← .get
    let values ← .ofExcept ((inner.bitBlock area).read address quantity)
    let packed := packBits values
    return UInt8.ofNat packed.length :: packed
  | .readRegisters area address quantity => do
    let inner ← .get
    let values ← .ofExcept ((inner.registerBlock area).read address quantity)
    return UInt8.ofNat (values.length * 2) :: wordsBytes values
  | .writeSingleCoil address value => do
    writeCoils address [value]
    return toBeBytes address ++ toBeBytes (if value then 0xFF00 else 0x0000)
  | .writeSingleRegister address value => do
    writeHoldingRegisters address [value]
    return toBeBytes address ++ toBeBytes value
  | .readExceptionStatus => do
    let inner ← .get
    return [inner.exceptionStatus]
  | .diagnostics subFunction data =>
    if subFunction = 0x0000 then return toBeBytes subFunction ++ data
    else if subFunction = 0x000A ∧ data = [0x00, 0x00] then do
      .modify fun inner => { inner with commEventCount := 0, messageCount := 0, exceptionStatus := 0 }
      return toBeBytes subFunction ++ data
    else .throw (.exception EX_ILLEGAL_DATA_VALUE)
  | .getCommEventCounter => do
    let inner ← .get
    return toBeBytes 0 ++ toBeBytes inner.commEventCount
  | .getCommEventLog => do
    let inner ← .get
    return 6 :: (toBeBytes 0 ++ toBeBytes inner.commEventCount ++ toBeBytes inner.messageCount)
  | .writeMultipleCoils address values => do
    writeCoils address values
    return toBeBytes address ++ toBeBytes (UInt16.ofNat values.length)
  | .writeMultipleRegisters address values => do
    writeHoldingRegisters address values
    return toBeBytes address ++ toBeBytes (UInt16.ofNat values.length)
  | .reportServerId =>
    let id : List UInt8 := [0x54, 0x61, 0x75, 0x54, 0x65, 0x72, 0x6D]
    return UInt8.ofNat (id.length + 2) :: 0x01 :: 0xFF :: id
  | .readFileRecord records => do
    let inner ← .get
    .ofExcept (encodeFileReadResponse inner.fileRecords records)
  | .writeFileRecord records => do
    .ofExcept (validateFileWrites records)
    let echo ← .ofExcept (encodeFileWriteEcho records)
    .zoom (·.fileRecords) ModelInner.setFileRecords (applyFileWrites records)
    return echo
  | .maskWriteRegister address andMask orMask => do
    let inner ← .get
    let current ← .ofExcept (inner.addressSpace.holdingRegisters.get address)
    let value := (current &&& andMask) ||| (orMask &&& ~~~andMask)
    writeHoldingRegisters address [value]
    return toBeBytes address ++ toBeBytes andMask ++ toBeBytes orMask
  | .readWriteMultipleRegisters readAddress readQuantity writeAddress values => do
    let inner ← .get
    .ofExcept (inner.addressSpace.holdingRegisters.ensureDefined readAddress readQuantity.toNat)
    .ofExcept (inner.addressSpace.holdingRegisters.ensureDefined writeAddress values.length)
    writeHoldingRegisters writeAddress values
    let inner ← .get
    let read ← .ofExcept (inner.addressSpace.holdingRegisters.read readAddress readQuantity)
    return UInt8.ofNat (read.length * 2) :: wordsBytes read
  | .readFifoQueue address => do
    let inner ← .get
    match inner.fifo address with
    | none => .throw (.exception EX_ILLEGAL_DATA_ADDRESS)
    | some values =>
      if values.length > 31 then .throw (.exception EX_ILLEGAL_DATA_VALUE)
      else return toBeBytes (UInt16.ofNat (2 + values.length * 2)) ++
        toBeBytes (UInt16.ofNat values.length) ++ wordsBytes values
  | .mei meiType data => do
    let inner ← .get
    .ofExcept (encodeMeiResponse inner.deviceObjects meiType data)
  | .raw _ _ => .throw (.exception EX_ILLEGAL_FUNCTION)

def executeRequest (request : ModbusRequest) : Exec ModelInner Abort (List UInt8) := do
  let fields ← executeFields request
  return request.function :: fields

def countsCommEvent : ModbusRequest → Bool
  | .getCommEventCounter => false
  | .diagnostics subFunction _ => subFunction ≠ 0x000A
  | _ => true

def clearsCounters : ModbusRequest → Bool
  | .diagnostics subFunction data => subFunction = 0x000A ∧ data = [0x00, 0x00]
  | _ => false

/-- The counters that `execute` advances after the request. -/
def ModelInner.count (request : ModbusRequest) (succeeded : Bool) (inner : ModelInner) : ModelInner :=
  { inner with
    messageCount := if clearsCounters request then inner.messageCount else inner.messageCount + 1
    commEventCount :=
      if succeeded && countsCommEvent request then inner.commEventCount + 1
      else inner.commEventCount }

def execute (request : ModbusRequest) : Exec ModelInner Abort (List UInt8) := fun inner =>
  let (result, inner) := executeRequest request inner
  (result, inner.count request result.isOk)

end TauTerm.Modbus
