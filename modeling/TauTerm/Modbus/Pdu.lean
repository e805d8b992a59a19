import Mathlib
import TauTerm.Lib.Bytes

/-!
# Modbus protocol data units

`ModbusRequest` and its two translations, `encodeRequest` and `decodeRequest`
(`codec/pdu.rs`). A `Vec` is a `List` and a `usize` a `Nat`; the narrowing casts
of list lengths (`as u16`, `as u8`) wrap, as `UInt16.ofNat` and `UInt8.ofNat` do.
-/

namespace TauTerm.Modbus

open Lib

def MAX_PDU_LEN : Nat := 253

inductive BitReadArea where
  | coils
  | discreteInputs
  deriving DecidableEq

def BitReadArea.function : BitReadArea → UInt8
  | .coils => 0x01
  | .discreteInputs => 0x02

inductive RegisterReadArea where
  | holdingRegisters
  | inputRegisters
  deriving DecidableEq

def RegisterReadArea.function : RegisterReadArea → UInt8
  | .holdingRegisters => 0x03
  | .inputRegisters => 0x04

structure FileRecordRead where
  fileNumber : UInt16
  recordNumber : UInt16
  recordLength : UInt16
  deriving DecidableEq

structure FileRecordWrite where
  fileNumber : UInt16
  recordNumber : UInt16
  values : List UInt16
  deriving DecidableEq

inductive ModbusRequest where
  | readBits (area : BitReadArea) (address quantity : UInt16)
  | readRegisters (area : RegisterReadArea) (address quantity : UInt16)
  | writeSingleCoil (address : UInt16) (value : Bool)
  | writeSingleRegister (address value : UInt16)
  | readExceptionStatus
  | diagnostics (subFunction : UInt16) (data : List UInt8)
  | getCommEventCounter
  | getCommEventLog
  | writeMultipleCoils (address : UInt16) (values : List Bool)
  | writeMultipleRegisters (address : UInt16) (values : List UInt16)
  | reportServerId
  | readFileRecord (records : List FileRecordRead)
  | writeFileRecord (records : List FileRecordWrite)
  | maskWriteRegister (address andMask orMask : UInt16)
  | readWriteMultipleRegisters (readAddress readQuantity writeAddress : UInt16)
      (values : List UInt16)
  | readFifoQueue (address : UInt16)
  | mei (meiType : UInt8) (data : List UInt8)
  | raw (function : UInt8) (data : List UInt8)
  deriving DecidableEq

structure DecodedRequest where
  function : UInt8
  request : ModbusRequest
  deriving DecidableEq

def ModbusRequest.function : ModbusRequest → UInt8
  | .readBits area _ _ => area.function
  | .readRegisters area _ _ => area.function
  | .writeSingleCoil .. => 0x05
  | .writeSingleRegister .. => 0x06
  | .readExceptionStatus => 0x07
  | .diagnostics .. => 0x08
  | .getCommEventCounter => 0x0B
  | .getCommEventLog => 0x0C
  | .writeMultipleCoils .. => 0x0F
  | .writeMultipleRegisters .. => 0x10
  | .reportServerId => 0x11
  | .readFileRecord .. => 0x14
  | .writeFileRecord .. => 0x15
  | .maskWriteRegister .. => 0x16
  | .readWriteMultipleRegisters .. => 0x17
  | .readFifoQueue .. => 0x18
  | .mei .. => 0x2B
  | .raw function _ => function

/-! ## Shared helpers of the two directions -/

def ensureRange (value lo hi : UInt16) (label : String) : Except String Unit :=
  if lo ≤ value ∧ value ≤ hi then .ok () else .error s!"{label} must be {lo}..={hi}"

def requireLen (data : List UInt8) (expected : Nat) : Except String Unit :=
  if data.length = expected then .ok ()
  else .error s!"invalid PDU length: expected {expected}, got {data.length}"

def u16At (data : List UInt8) (offset : Nat) : Except String UInt16 :=
  match data.drop offset with
  | hi :: lo :: _ => .ok (ofBeBytes hi lo)
  | _ => .error "PDU truncated"

def words (bytes : List UInt8) : Except String (List UInt16) :=
  if bytes.length % 2 = 0 then .ok (ofPairs bytes) else .error "register bytes must be even"

def divCeil8 (n : Nat) : Nat := (n + 7) / 8

/-- One assignment of the packing loop: bit `index % 8` of byte `index / 8`. -/
def setBit (out : List UInt8) (value : Bool) (index : Nat) : List UInt8 :=
  if value then out.modify (index / 8) (· ||| 1 <<< UInt8.ofNat (index % 8)) else out

def packBits (values : List Bool) : List UInt8 :=
  values.zipIdx.foldl (fun out (value, index) => setBit out value index)
    (List.replicate (divCeil8 values.length) 0)

/-- Bit `index` of a packed byte string. The callers check that the string is
long enough, so the source's index never fails. -/
def bitAt (bytes : List UInt8) (index : Nat) : Bool :=
  ((bytes.getD (index / 8) 0 >>> UInt8.ofNat (index % 8)) &&& 1) != 0

def unpackBits (bytes : List UInt8) (quantity : UInt16) : List Bool :=
  (List.range quantity.toNat).map (bitAt bytes)

/-! ## Encoding -/

def FileRecordRead.encode (record : FileRecordRead) : List UInt8 :=
  0x06 :: (toBeBytes record.fileNumber ++ toBeBytes record.recordNumber ++
    toBeBytes record.recordLength)

def FileRecordWrite.encode (record : FileRecordWrite) : List UInt8 :=
  0x06 :: (toBeBytes record.fileNumber ++ toBeBytes record.recordNumber ++
    toBeBytes (UInt16.ofNat record.values.length) ++ wordsBytes record.values)

def encodeFileReads : List FileRecordRead → Except String (List UInt8)
  | [] => .ok []
  | record :: records => do
    ensureRange record.recordLength 1 125 "file record length"
    let rest ← encodeFileReads records
    .ok (record.encode ++ rest)

/-- The `try_fold` of the write-file arm: the byte count, or the first empty record. -/
def fileWritesByteCount : List FileRecordWrite → Nat → Except String Nat
  | [], acc => .ok acc
  | record :: records, acc =>
    if record.values = [] then .error "file record values cannot be empty"
    else fileWritesByteCount records (acc + 7 + record.values.length * 2)

/-- The bytes that the arms of `encodeRequest` append to the function code. -/
def encodeFields : ModbusRequest → Except String (List UInt8)
  | .readBits _ address quantity => do
    ensureRange quantity 1 2000 "bit quantity"
    .ok (toBeBytes address ++ toBeBytes quantity)
  | .readRegisters _ address quantity => do
    ensureRange quantity 1 125 "register quantity"
    .ok (toBeBytes address ++ toBeBytes quantity)
  | .writeSingleCoil address value =>
    .ok (toBeBytes address ++ toBeBytes (if value then 0xFF00 else 0x0000))
  | .writeSingleRegister address value => .ok (toBeBytes address ++ toBeBytes value)
  | .readExceptionStatus => .ok []
  | .getCommEventCounter => .ok []
  | .getCommEventLog => .ok []
  | .reportServerId => .ok []
  | .diagnostics subFunction data =>
    if subFunction = 0x000A ∧ data ≠ [0x00, 0x00] then
      .error "Clear Counters and Diagnostic Register requires data 0x0000"
    else .ok (toBeBytes subFunction ++ data)
  | .writeMultipleCoils address values => do
    ensureRange (UInt16.ofNat values.length) 1 1968 "coil quantity"
    let packed := packBits values
    .ok (toBeBytes address ++ toBeBytes (UInt16.ofNat values.length) ++
      UInt8.ofNat packed.length :: packed)
  | .writeMultipleRegisters address values => do
    ensureRange (UInt16.ofNat values.length) 1 123 "register quantity"
    .ok (toBeBytes address ++ toBeBytes (UInt16.ofNat values.length) ++
      UInt8.ofNat (values.length * 2) :: wordsBytes values)
  | .readFileRecord records =>
    if records = [] then .error "at least one file record is required"
    else if records.length * 7 > 0xF5 then .error "file record request exceeds PDU limit"
    else do
      let body ← encodeFileReads records
      .ok (UInt8.ofNat (records.length * 7) :: body)
  | .writeFileRecord records =>
    if records = [] then .error "at least one file record is required"
    else do
      let byteCount ← fileWritesByteCount records 0
      if byteCount > 0xF5 then .error "file record request exceeds PDU limit"
      else .ok (UInt8.ofNat byteCount :: records.flatMap FileRecordWrite.encode)
  | .maskWriteRegister address andMask orMask =>
    .ok (toBeBytes address ++ toBeBytes andMask ++ toBeBytes orMask)
  | .readWriteMultipleRegisters readAddress readQuantity writeAddress values => do
    ensureRange readQuantity 1 125 "read quantity"
    ensureRange (UInt16.ofNat values.length) 1 121 "write quantity"
    .ok (toBeBytes readAddress ++ toBeBytes readQuantity ++ toBeBytes writeAddress ++
      toBeBytes (UInt16.ofNat values.length) ++ UInt8.ofNat (values.length * 2) :: wordsBytes values)
  | .readFifoQueue address => .ok (toBeBytes address)
  | .mei meiType data =>
    if meiType = 0x0E ∧ (data.length ≠ 2 ∨ ¬ (1 ≤ data.getD 0 0 ∧ data.getD 0 0 ≤ 4)) then
      .error "Read Device Identification requires read code 1..=4 and object id"
    else .ok (meiType :: data)
  | .raw _ data => .ok data

def encodeRequest (request : ModbusRequest) : Except String (List UInt8) := do
  let fields ← encodeFields request
  let pdu := request.function :: fields
  if pdu.length > MAX_PDU_LEN then .error s!"PDU exceeds {MAX_PDU_LEN} bytes" else .ok pdu

/-! ## Decoding -/

def decodeFileReadChunks : List UInt8 → Except String (List FileRecordRead)
  | c0 :: c1 :: c2 :: c3 :: c4 :: c5 :: c6 :: rest => do
    let chunk := [c0, c1, c2, c3, c4, c5, c6]
    if c0 ≠ 0x06 then .error "file reference type must be 0x06"
    else do
      let recordLength ← u16At chunk 5
      ensureRange recordLength 1 125 "file record length"
      let fileNumber ← u16At chunk 1
      let recordNumber ← u16At chunk 3
      let out ← decodeFileReadChunks rest
      .ok ({ fileNumber, recordNumber, recordLength } :: out)
  | _ => .ok []

def decodeFileReads (data : List UInt8) : Except String (List FileRecordRead) :=
  match data with
  | [] => .error "invalid read-file byte count"
  | count :: records =>
    if count.toNat ≠ records.length ∨ records.length % 7 ≠ 0 then
      .error "invalid read-file byte count"
    else decodeFileReadChunks records

/-- The `while` loop of `decode_file_writes`, over the bytes from the cursor on. -/
def decodeFileWriteLoop (rest : List UInt8) : Except String (List FileRecordWrite) :=
  match rest with
  | [] => .ok []
  | reference :: header =>
    if header.length < 6 ∨ reference ≠ 0x06 then .error "invalid file record header"
    else do
      let fileNumber ← u16At rest 1
      let recordNumber ← u16At rest 3
      let count ← u16At rest 5
      if count = 0 then .error "file record values cannot be empty"
      else
        let body := header.drop 6
        let bytes := count.toNat * 2
        if body.length < bytes then .error "truncated file record values"
        else do
          let values ← words (body.take bytes)
          let out ← decodeFileWriteLoop (body.drop bytes)
          .ok ({ fileNumber, recordNumber, values } :: out)
  termination_by rest.length
  decreasing_by simp

def decodeFileWrites (data : List UInt8) : Except String (List FileRecordWrite) :=
  match data with
  | [] => .error "invalid write-file byte count"
  | count :: records =>
    if count.toNat ≠ records.length then .error "invalid write-file byte count"
    else decodeFileWriteLoop records

def decodeReadBits (area : BitReadArea) (data : List UInt8) : Except String ModbusRequest := do
  requireLen data 4
  let quantity ← u16At data 2
  ensureRange quantity 1 2000 "bit quantity"
  let address ← u16At data 0
  .ok (.readBits area address quantity)

def decodeReadRegisters (area : RegisterReadArea) (data : List UInt8) :
    Except String ModbusRequest := do
  requireLen data 4
  let quantity ← u16At data 2
  ensureRange quantity 1 125 "register quantity"
  let address ← u16At data 0
  .ok (.readRegisters area address quantity)

def coilValue (raw : UInt16) : Except String Bool :=
  if raw = 0x0000 then .ok false
  else if raw = 0xFF00 then .ok true
  else .error "invalid coil value"

def decodeWriteSingleCoil (data : List UInt8) : Except String ModbusRequest := do
  requireLen data 4
  let raw ← u16At data 2
  let value ← coilValue raw
  let address ← u16At data 0
  .ok (.writeSingleCoil address value)

def decodeWriteSingleRegister (data : List UInt8) : Except String ModbusRequest := do
  requireLen data 4
  let address ← u16At data 0
  let value ← u16At data 2
  .ok (.writeSingleRegister address value)

def decodeDiagnostics (data : List UInt8) : Except String ModbusRequest :=
  if data.length < 2 then .error "diagnostics PDU too short"
  else do
    let subFunction ← u16At data 0
    .ok (.diagnostics subFunction (data.drop 2))

def decodeWriteMultipleCoils (data : List UInt8) : Except String ModbusRequest :=
  if data.length < 5 then .error "write coils PDU too short"
  else do
    let address ← u16At data 0
    let quantity ← u16At data 2
    ensureRange quantity 1 1968 "coil quantity"
    let count := (data.getD 4 0).toNat
    if count ≠ divCeil8 quantity.toNat ∨ data.length ≠ 5 + count then
      .error "invalid coil byte count"
    else .ok (.writeMultipleCoils address (unpackBits (data.drop 5) quantity))

def decodeWriteMultipleRegisters (data : List UInt8) : Except String ModbusRequest :=
  if data.length < 5 then .error "write registers PDU too short"
  else do
    let address ← u16At data 0
    let quantity ← u16At data 2
    ensureRange quantity 1 123 "register quantity"
    let count := (data.getD 4 0).toNat
    if count ≠ quantity.toNat * 2 ∨ data.length ≠ 5 + count then
      .error "invalid register byte count"
    else do
      let values ← words (data.drop 5)
      .ok (.writeMultipleRegisters address values)

def decodeMaskWriteRegister (data : List UInt8) : Except String ModbusRequest := do
  requireLen data 6
  let address ← u16At data 0
  let andMask ← u16At data 2
  let orMask ← u16At data 4
  .ok (.maskWriteRegister address andMask orMask)

def decodeReadWriteMultipleRegisters (data : List UInt8) : Except String ModbusRequest :=
  if data.length < 9 then .error "read/write PDU too short"
  else do
    let readAddress ← u16At data 0
    let readQuantity ← u16At data 2
    let writeAddress ← u16At data 4
    let writeQuantity ← u16At data 6
    ensureRange readQuantity 1 125 "read quantity"
    ensureRange writeQuantity 1 121 "write quantity"
    let count := (data.getD 8 0).toNat
    if count ≠ writeQuantity.toNat * 2 ∨ data.length ≠ 9 + count then
      .error "invalid read/write byte count"
    else do
      let values ← words (data.drop 9)
      .ok (.readWriteMultipleRegisters readAddress readQuantity writeAddress values)

def decodeReadFifoQueue (data : List UInt8) : Except String ModbusRequest := do
  requireLen data 2
  let address ← u16At data 0
  .ok (.readFifoQueue address)

/-- An arm whose request has no fields. -/
def decodeEmpty (request : ModbusRequest) (data : List UInt8) : Except String ModbusRequest := do
  requireLen data 0
  .ok request

def decodeMei (data : List UInt8) : Except String ModbusRequest :=
  match data with
  | [] => .error "MEI PDU too short"
  | meiType :: rest => .ok (.mei meiType rest)

/-- The `match function` of `decode_request`. -/
def decodeFields (function : UInt8) (data : List UInt8) : Except String ModbusRequest :=
  match function with
  | 0x01 => decodeReadBits .coils data
  | 0x02 => decodeReadBits .discreteInputs data
  | 0x03 => decodeReadRegisters .holdingRegisters data
  | 0x04 => decodeReadRegisters .inputRegisters data
  | 0x05 => decodeWriteSingleCoil data
  | 0x06 => decodeWriteSingleRegister data
  | 0x07 => decodeEmpty .readExceptionStatus data
  | 0x08 => decodeDiagnostics data
  | 0x0B => decodeEmpty .getCommEventCounter data
  | 0x0C => decodeEmpty .getCommEventLog data
  | 0x0F => decodeWriteMultipleCoils data
  | 0x10 => decodeWriteMultipleRegisters data
  | 0x11 => decodeEmpty .reportServerId data
  | 0x14 => .readFileRecord <$> decodeFileReads data
  | 0x15 => .writeFileRecord <$> decodeFileWrites data
  | 0x16 => decodeMaskWriteRegister data
  | 0x17 => decodeReadWriteMultipleRegisters data
  | 0x18 => decodeReadFifoQueue data
  | 0x2B => decodeMei data
  | _ => .ok (.raw function data)

def decodeRequest (pdu : List UInt8) : Except String DecodedRequest :=
  match pdu with
  | [] => .error "empty PDU"
  | function :: data => do
    let request ← decodeFields function data
    .ok { function, request }

end TauTerm.Modbus
