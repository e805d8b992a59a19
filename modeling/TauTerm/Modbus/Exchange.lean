import Mathlib
import TauTerm.Modbus.DataModelSpec
import TauTerm.Modbus.Response
import TauTerm.Modbus.RoundTrip
import TauTerm.Modbus.Rtu

/-!
# Server and client agree on an exchange

Whatever request the client can encode, in whatever state the server is, the
response fits a frame and the client reads from it what the server did; except
that a file read may build a response of 254 or 256 bytes (`OversizedFileRead`).
-/

namespace TauTerm.Modbus

open Lib

/-- `exception_pdu`. -/
def exceptionPdu (function code : UInt8) : List UInt8 := [function ||| 0x80, code]

/-- The response that the server builds from the result of `execute`. -/
def serverPdu (request : ModbusRequest) : Except Abort (List UInt8) → Option (List UInt8)
  | .ok response => some response
  | .error (.exception code) => some (exceptionPdu request.function code)
  | .error .overflow => none

/-- The states that the workbench and the protocol can bring the default model to. -/
inductive Reachable : ModelInner → Prop
  | default : Reachable .default
  | setCoil {inner} (address value) : Reachable inner → Reachable (inner.setCoil address value)
  | setDiscreteInput {inner} (address value) :
    Reachable inner → Reachable (inner.setDiscreteInput address value)
  | setHoldingRegister {inner} (address value) :
    Reachable inner → Reachable (inner.setHoldingRegister address value)
  | setInputRegister {inner} (address value) :
    Reachable inner → Reachable (inner.setInputRegister address value)
  | execute {inner} (request) : Reachable inner → Reachable (execute request inner).2

/-- Nothing fills the FIFO queues or edits the device objects. -/
structure Untouched (inner : ModelInner) : Prop where
  fifo : ∀ address, inner.fifo address = none
  deviceObjects : inner.deviceObjects = defaultDeviceObjects

theorem Executes.untouched {request : ModbusRequest} {inner inner' : ModelInner}
    {fields : List UInt8} (h : Executes request inner fields inner') (hu : Untouched inner) :
    Untouched inner' := by
  cases h <;> exact ⟨hu.fifo, hu.deviceObjects⟩

theorem Reachable.untouched {inner : ModelInner} (h : Reachable inner) : Untouched inner := by
  induction h with
  | default => exact ⟨fun _ => rfl, rfl⟩
  | setCoil address value _ ih => exact ⟨ih.fifo, ih.deviceObjects⟩
  | setDiscreteInput address value _ ih => exact ⟨ih.fifo, ih.deviceObjects⟩
  | setHoldingRegister address value _ ih => exact ⟨ih.fifo, ih.deviceObjects⟩
  | setInputRegister address value _ ih => exact ⟨ih.fifo, ih.deviceObjects⟩
  | @execute inner request _ ih =>
    rcases execute_cases request inner with ⟨fields, inner', h, e⟩ | ⟨code, e⟩
    · rw [e]
      exact ⟨(h.untouched ih).fifo, (h.untouched ih).deviceObjects⟩
    · rw [e]
      exact ⟨ih.fifo, ih.deviceObjects⟩

/-! ## Responses that the client accepts -/

theorem ensure_ok {c : Prop} [Decidable c] (error : String) (h : c) : ensure c error = .ok () :=
  if_pos h

theorem validateByteCount_ok {count : UInt8} {rest : List UInt8} {n : Nat} (h : n < 256)
    (hc : count = UInt8.ofNat n) (hlen : rest.length = n) :
    validateByteCount (count :: rest) n = .ok () := by
  have hn := toNat_ofNat_byte h
  rw [← hc] at hn
  exact ensure_ok _ ⟨hn, by omega⟩

theorem validateWriteMultipleEcho_ok (address quantity : UInt16) :
    validateWriteMultipleEcho (toBeBytes address ++ toBeBytes quantity) address quantity = .ok () := by
  simp [validateWriteMultipleEcho, requireLen, toBeBytes, u16At, ensure]

theorem length_subResponse (values : List UInt16) :
    (subResponse values).length = 2 + 2 * values.length := by
  simp only [subResponse, List.length_cons, length_wordsBytes]
  omega

theorem validateFileReads_ok : ∀ {records : List FileRecordRead} {lists : List (List UInt16)},
    lists.map List.length = records.map (·.recordLength.toNat) →
    (∀ record ∈ records, record.recordLength.toNat ≤ 125) →
    validateFileReads records (lists.flatMap subResponse) = .ok ()
  | [], [], _, _ => rfl
  | [], _ :: _, h, _ => by cases h
  | _ :: _, [], h, _ => by cases h
  | record :: records, values :: lists, h, hmax => by
    obtain ⟨hlen, htail⟩ := List.cons.inj h
    obtain ⟨hle, hmax⟩ := List.forall_mem_cons.mp hmax
    simp only at hlen
    have hn : (UInt8.ofNat (1 + values.length * 2)).toNat = 1 + values.length * 2 :=
      toNat_ofNat_byte (by omega)
    have hsub : subResponse values ++ lists.flatMap subResponse =
        UInt8.ofNat (1 + values.length * 2) :: 0x06 :: (wordsBytes values ++ lists.flatMap subResponse) := rfl
    have hdrop : (0x06 :: (wordsBytes values ++ lists.flatMap subResponse)).drop
        (1 + values.length * 2) = lists.flatMap subResponse := by
      rw [Nat.add_comm, List.drop_succ_cons, Nat.mul_comm, ← length_wordsBytes, List.drop_left]
    rw [List.flatMap_cons, hsub]
    have hfit : 1 + values.length * 2 = 1 + record.recordLength.toNat * 2 ∧
        1 + values.length * 2 ≤
          (0x06 :: (wordsBytes values ++ lists.flatMap subResponse)).length := by
      simp only [List.length_cons, List.length_append, length_wordsBytes]
      omega
    simp only [validateFileReads, hn]
    rw [ensure_ok _ hfit, ok_bind, ensure_ok _ (List.head?_cons ..), ok_bind, hdrop]
    exact validateFileReads_ok htail hmax

/-- What the client makes of an identification response. -/
def IdentifiedBy (data fields : List UInt8) : Prop :=
  validateMeiResponse fields 0x0E data = .ok () ∧ fields.length ≤ 252

instance (data fields : List UInt8) : Decidable (IdentifiedBy data fields) :=
  inferInstanceAs (Decidable (_ ∧ _))

theorem selectObjects_default {readCode start : UInt8} (h4 : readCode ≠ 4)
    (h0 : start ≠ 0) (h1 : start ≠ 1) (h2 : start ≠ 2) :
    selectObjects defaultDeviceObjects readCode start = .ok defaultDeviceObjects := by
  unfold selectObjects defaultDeviceObjects
  rw [if_neg h4]
  simp [h0.symm, h1.symm, h2.symm]

set_option maxRecDepth 2000 in
/-- The default objects give an acceptable identification response to every
request that they answer. -/
theorem validateMeiResponse_ok {data fields : List UInt8}
    (h : encodeMeiResponse defaultDeviceObjects 0x0E data = .ok fields) :
    IdentifiedBy data fields := by
  unfold encodeMeiResponse at h
  rw [if_neg (by simp)] at h
  split at h
  · rename_i readCode start
    split_ifs at h with hr
    have hcode : readCode = 1 ∨ readCode = 2 ∨ readCode = 3 ∨ readCode = 4 := by
      have h1 := UInt8.le_iff_toNat_le.mp hr.1
      have h4 := UInt8.le_iff_toNat_le.mp hr.2
      rw [show (1 : UInt8).toNat = 1 from rfl] at h1
      rw [show (4 : UInt8).toNat = 4 from rfl] at h4
      simp only [← UInt8.toNat_inj, UInt8.reduceToNat]
      omega
    by_cases h0 : start = 0
    · subst h0
      rcases hcode with rfl | rfl | rfl | rfl <;> cases h <;> decide
    by_cases h1 : start = 1
    · subst h1
      rcases hcode with rfl | rfl | rfl | rfl <;> cases h <;> decide
    by_cases h2 : start = 2
    · subst h2
      rcases hcode with rfl | rfl | rfl | rfl <;> cases h <;> decide
    by_cases h4 : readCode = 4
    · subst h4
      simp [selectObjects, defaultDeviceObjects, Ne.symm h0, Ne.symm h1, Ne.symm h2] at h
      cases h
    · rw [selectObjects_default h4 h0 h1 h2, ok_bind] at h
      obtain rfl := Except.ok.inj h
      rcases hcode with rfl | rfl | rfl | rfl
      · exact ⟨rfl, by decide⟩
      · exact ⟨rfl, by decide⟩
      · exact ⟨rfl, by decide⟩
      · exact absurd rfl h4
  · cases h

theorem records_le_of_encode {records : List FileRecordRead} : ∀ {body : List UInt8},
    encodeFileReads records = .ok body → ∀ record ∈ records, record.recordLength.toNat ≤ 125 := by
  induction records with
  | nil => simp
  | cons record records ih =>
    intro body h
    simp only [encodeFileReads, bind_eq_ok, ensureRange_eq_ok, exists_and_left, exists_const,
      Except.ok.injEq] at h
    obtain ⟨hr, rest, hrest, rfl⟩ := h
    exact List.forall_mem_cons.mpr ⟨UInt16.le_iff_toNat_le.mp hr.2, ih hrest⟩

/-- The fields of a successful response pass the client's check; only those of a
file read can be too long for a PDU. -/
theorem Executes.validateFields {request : ModbusRequest} {inner inner' : ModelInner}
    {pdu fields : List UInt8} (henc : encodeRequest request = .ok pdu) (hu : Untouched inner)
    (h : Executes request inner fields inner') :
    validateFields request fields = .ok () ∧
      ((∀ records, request ≠ .readFileRecord records) → fields.length ≤ 252) := by
  obtain ⟨sent, hsent, hmax, hpdu⟩ := (encodeRequest_eq_ok).mp henc
  unfold MAX_PDU_LEN at hmax
  have registers : ∀ {quantity : UInt16} {values : List UInt16}, quantity ≤ 125 →
      values.length = quantity.toNat →
      validateByteCount (UInt8.ofNat (values.length * 2) :: wordsBytes values) (quantity.toNat * 2) =
        .ok () ∧ (UInt8.ofNat (values.length * 2) :: wordsBytes values).length ≤ 252 := by
    intro quantity values hq hlen
    have hq' := UInt16.le_iff_toNat_le.mp hq
    rw [show (125 : UInt16).toNat = 125 from rfl] at hq'
    refine ⟨validateByteCount_ok (by omega) (by rw [hlen]) (by rw [length_wordsBytes]; omega), ?_⟩
    rw [List.length_cons, length_wordsBytes]
    omega
  cases h with
  | readBits values hlen =>
    simp only [encodeFields, bind_eq_ok, ensureRange_eq_ok, exists_and_left, exists_const] at hsent
    have hq := UInt16.le_iff_toNat_le.mp hsent.1.2
    rw [show (2000 : UInt16).toNat = 2000 from rfl] at hq
    have hb := length_packBits values
    unfold divCeil8 at hb
    rw [hlen] at hb
    refine ⟨validateByteCount_ok (by unfold divCeil8; omega) (by rw [hb]; rfl) hb, fun _ => ?_⟩
    rw [List.length_cons]
    omega
  | readRegisters values hlen =>
    simp only [encodeFields, bind_eq_ok, ensureRange_eq_ok, exists_and_left, exists_const] at hsent
    obtain ⟨hv, hl⟩ := registers hsent.1.2 hlen
    exact ⟨hv, fun _ => hl⟩
  | writeSingleCoil hd =>
    refine ⟨?_, fun _ => by simp [toBeBytes]⟩
    simp [Modbus.validateFields, requireLen, toBeBytes, u16At, ensure]
  | writeSingleRegister hd =>
    refine ⟨?_, fun _ => by simp [toBeBytes]⟩
    simp [Modbus.validateFields, requireLen, toBeBytes, u16At, ensure]
  | readExceptionStatus => exact ⟨rfl, fun _ => by simp⟩
  | returnQueryData h0 =>
    simp only [encodeFields, ite_error_eq_ok, Except.ok.injEq] at hsent
    obtain ⟨-, rfl⟩ := hsent
    refine ⟨?_, fun _ => by omega⟩
    simp [Modbus.validateFields, toBeBytes, u16At, ensure]
  | clearCounters hA hdata =>
    refine ⟨?_, fun _ => by rw [hdata]; simp [toBeBytes]⟩
    simp [Modbus.validateFields, toBeBytes, u16At, ensure]
  | getCommEventCounter =>
    refine ⟨?_, fun _ => by simp [toBeBytes]⟩
    simp [Modbus.validateFields, validateCommEventCounter, validateCommStatus, requireLen, toBeBytes,
      u16At, ensure, ofBeBytes]
  | getCommEventLog =>
    refine ⟨?_, fun _ => by simp [toBeBytes]⟩
    simp [Modbus.validateFields, validateCommEventLog, validateCountPrefixed, validateCommStatus,
      toBeBytes, u16At, ensure, ofBeBytes]
  | writeMultipleCoils hd =>
    exact ⟨validateWriteMultipleEcho_ok _ _, fun _ => by simp [toBeBytes]⟩
  | writeMultipleRegisters hd =>
    exact ⟨validateWriteMultipleEcho_ok _ _, fun _ => by simp [toBeBytes]⟩
  | reportServerId => exact ⟨rfl, fun _ => by simp⟩
  | @readFileRecord records _ lists hd hlen hle =>
    simp only [encodeFields, ite_error_eq_ok, bind_eq_ok, Except.ok.injEq] at hsent
    obtain ⟨-, -, body, hbody, -⟩ := hsent
    refine ⟨?_, fun hne => absurd rfl (hne records)⟩
    have hn : (UInt8.ofNat (lists.flatMap subResponse).length).toNat =
        (lists.flatMap subResponse).length := toNat_ofNat_byte (by omega)
    have hcount : validateCountPrefixed (UInt8.ofNat (lists.flatMap subResponse).length ::
        lists.flatMap subResponse) = .ok () := ensure_ok _ hn
    simp only [Modbus.validateFields, validateFileReadResponse, hcount, ok_bind, List.drop_succ_cons,
      List.drop_zero]
    exact validateFileReads_ok hlen (records_le_of_encode hbody)
  | @writeFileRecord records _ hs hle =>
    simp only [encodeFields, ite_error_eq_ok, bind_eq_ok, Except.ok.injEq] at hsent
    obtain ⟨-, count, hcount, -, rfl⟩ := hsent
    obtain ⟨rfl, -⟩ := fileWritesByteCount_eq_ok hcount
    rw [Nat.zero_add] at hmax hpdu
    refine ⟨?_, fun _ => by omega⟩
    simp only [Modbus.validateFields, henc, ok_bind]
    exact ensure_ok _ (by rw [hpdu]; rfl)
  | maskWriteRegister current hc hd =>
    refine ⟨?_, fun _ => by simp [toBeBytes]⟩
    simp [Modbus.validateFields, requireLen, toBeBytes, u16At, ensure]
  | readWriteMultipleRegisters read hd hlen hread =>
    simp only [encodeFields, bind_eq_ok, ensureRange_eq_ok, exists_and_left, exists_const] at hsent
    obtain ⟨hv, hl⟩ := registers hsent.1.2 hlen
    exact ⟨hv, fun _ => hl⟩
  | readFifoQueue values hf hle =>
    rw [hu.fifo] at hf
    cases hf
  | @mei meiType data _ _ hm =>
    rw [hu.deviceObjects] at hm
    have hE : meiType = 0x0E := by
      by_contra hne
      unfold encodeMeiResponse at hm
      rw [if_pos hne] at hm
      cases hm
    subst hE
    obtain ⟨hv, hl⟩ := validateMeiResponse_ok hm
    exact ⟨hv, fun _ => hl⟩

/-! ## The exchange -/

/-- The response to `request` fits every frame format, and the client reads from
it the result that the server had. -/
def ExchangeAgrees (request : ModbusRequest) (result : Except Abort (List UInt8)) : Prop :=
  ∃ p, serverPdu request result = some p ∧ p.length ≤ MAX_PDU_LEN ∧
    (∀ mode unitId transactionId, (encodeAdu mode unitId transactionId p).isOk) ∧
    ∃ response, validateResponse request p = .ok response ∧
      (response.exception = none ↔ result.isOk) ∧
      ∀ code, response.exception = some code ↔ result = .error (.exception code)

/-- The bytes of the sub-responses to a file read. -/
def fileReadBytes (records : List FileRecordRead) : Nat :=
  (records.map fun record => 2 + 2 * record.recordLength.toNat).sum

/-- A read of existing file records whose payload fits its one-byte count but
not a PDU. -/
def OversizedFileRead (inner : ModelInner) : ModbusRequest → Prop
  | .readFileRecord records => RecordsDefined inner.fileRecords records ∧
      251 < fileReadBytes records ∧ fileReadBytes records ≤ 255
  | _ => False

theorem length_flatMap_subResponse : ∀ {records : List FileRecordRead} {lists : List (List UInt16)},
    lists.map List.length = records.map (·.recordLength.toNat) →
    (lists.flatMap subResponse).length = fileReadBytes records
  | [], [], _ => rfl
  | [], _ :: _, h => by cases h
  | _ :: _, [], h => by cases h
  | record :: records, values :: lists, h => by
    obtain ⟨hlen, htail⟩ := List.cons.inj h
    rw [List.flatMap_cons, List.length_append, length_flatMap_subResponse htail, length_subResponse,
      fileReadBytes, fileReadBytes, List.map_cons, List.sum_cons, hlen]

example : fileReadBytes [⟨1, 0, 125⟩] = 252 := by decide +kernel

theorem Executes.function_ne {request : ModbusRequest} {inner inner' : ModelInner}
    {fields : List UInt8} (h : Executes request inner fields inner') :
    request.function ≠ (request.function ||| 0x80) := by
  cases h with
  | @readBits area =>
    simp only [ModbusRequest.function]
    cases area <;> decide
  | @readRegisters area =>
    simp only [ModbusRequest.function]
    cases area <;> decide
  | _ =>
    simp only [ModbusRequest.function]
    decide

theorem exchangeAgrees_exception (request : ModbusRequest) (code : UInt8) :
    ExchangeAgrees request (.error (.exception code)) := by
  refine ⟨exceptionPdu request.function code, rfl, by simp [exceptionPdu, MAX_PDU_LEN], ?_,
    { function := request.function, data := [], exception := some code }, if_pos rfl, ?_, ?_⟩
  · intro mode unitId transactionId
    rw [encodeAdu_isOk]
    exact ⟨by simp [exceptionPdu], by simp [exceptionPdu, MAX_PDU_LEN]⟩
  · exact ⟨(by intro h; cases h), (by intro h; cases h)⟩
  · simp

theorem exchangeAgrees_ok {request : ModbusRequest} {fields : List UInt8}
    (hne : request.function ≠ (request.function ||| 0x80))
    (hv : validateFields request fields = .ok ()) :
    ExchangeAgrees request (.ok (request.function :: fields)) ↔ fields.length ≤ 252 := by
  constructor
  · rintro ⟨p, hp, hlen, -⟩
    obtain rfl := Option.some.inj hp
    simp only [List.length_cons, MAX_PDU_LEN] at hlen
    omega
  · intro hlen
    have hmax : (request.function :: fields).length ≤ MAX_PDU_LEN := by
      simp only [List.length_cons, MAX_PDU_LEN]
      omega
    refine ⟨_, rfl, hmax, fun mode unitId transactionId => ?_,
      { function := request.function, data := fields, exception := none }, ?_, ?_, ?_⟩
    · rw [encodeAdu_isOk]
      exact ⟨by simp, hmax⟩
    · simp only [validateResponse, if_neg hne, ne_eq, not_true_eq_false, if_false, hv, ok_bind]
    · exact ⟨fun _ => rfl, fun _ => rfl⟩
    · simp

theorem execute_oversized {records : List FileRecordRead} {inner : ModelInner}
    (h : OversizedFileRead inner (.readFileRecord records)) :
    ∃ fields, (execute (.readFileRecord records) inner).1 = .ok (0x14 :: fields) ∧
      252 < fields.length := by
  obtain ⟨hd, hgt, hle⟩ := h
  rcases fileReadPayload_cases inner.fileRecords records with ⟨-, lists, hp, hlen⟩ | ⟨hn, -⟩
  · rw [← length_flatMap_subResponse hlen] at hgt hle
    rcases countPrefixed_cases (lists.flatMap subResponse) with ⟨hc, -⟩ | ⟨-, hlt⟩
    · refine ⟨UInt8.ofNat (lists.flatMap subResponse).length :: lists.flatMap subResponse, ?_, ?_⟩
      · simp only [execute, executeRequest, executeFields, encodeFileReadResponse, Exec.bind_run,
          Exec.get_run, Exec.ofExcept_run, hp, ok_bind, hc]
        rfl
      · rw [List.length_cons]
        omega
    · omega
  · exact absurd hd hn

/-- Server and client agree exactly on the exchanges that are no oversized file
read. -/
theorem exchange_agrees_iff (request : ModbusRequest) (pdu : List UInt8) (inner : ModelInner)
    (henc : encodeRequest request = .ok pdu) (hr : Reachable inner) :
    ExchangeAgrees request (execute request inner).1 ↔ ¬ OversizedFileRead inner request := by
  rcases execute_cases request inner with ⟨fields, inner', h, e⟩ | ⟨code, e⟩
  · obtain ⟨hv, hlen⟩ := h.validateFields henc hr.untouched
    rw [e, exchangeAgrees_ok h.function_ne hv]
    by_cases hfile : ∃ records, request = .readFileRecord records
    · obtain ⟨records, rfl⟩ := hfile
      cases h with
      | readFileRecord lists hd hlists hle =>
        rw [List.length_cons, length_flatMap_subResponse hlists]
        rw [length_flatMap_subResponse hlists] at hle
        constructor
        · rintro hl ⟨-, hgt, -⟩
          omega
        · intro hn
          by_contra hgt
          exact hn ⟨hd, by omega, hle⟩
    · have hnot : ¬ OversizedFileRead inner request := by
        cases request with
        | readFileRecord records => exact absurd ⟨records, rfl⟩ hfile
        | _ => exact id
      simp only [hnot, not_false_eq_true, iff_true]
      exact hlen fun records hrec => hfile ⟨records, hrec⟩
  · rw [e]
    refine iff_of_true (exchangeAgrees_exception request code) fun hover => ?_
    cases request with
    | readFileRecord records =>
      obtain ⟨fields, hok, -⟩ := execute_oversized hover
      rw [e] at hok
      cases hok
    | _ => exact hover

theorem exchange_agrees_writeSingleRegister :
    ExchangeAgrees (.writeSingleRegister 7 42)
      (execute (.writeSingleRegister 7 42) (ModelInner.default.setHoldingRegister 7 1)).1 :=
  (exchange_agrees_iff (.writeSingleRegister 7 42) [0x06, 0, 7, 0, 42] _ (by decide)
    (.setHoldingRegister 7 1 .default)).mpr id

/-- A file of 125 records, filled by two write requests. -/
def filledFile : ModelInner :=
  (execute (.writeFileRecord [⟨1, 100, List.replicate 25 7⟩])
    (execute (.writeFileRecord [⟨1, 0, List.replicate 100 7⟩]) .default).2).2

theorem fileRecords_write {records : List FileRecordWrite} {inner : ModelInner}
    (hok : (execute (.writeFileRecord records) inner).1.isOk) :
    (execute (.writeFileRecord records) inner).2.fileRecords =
      writeRecords inner.fileRecords records := by
  rcases execute_cases (.writeFileRecord records) inner with ⟨fields, inner', h, e⟩ | ⟨code, e⟩
  · rw [e]
    cases h
    rfl
  · rw [e] at hok
    cases hok

set_option maxRecDepth 10000 in
theorem filledFile_defined : RecordsDefined filledFile.fileRecords [⟨1, 0, 125⟩] := by
  have hsome : ∀ offset < 125,
      (writeRecords (writeRecords (fun _ => none) [⟨1, 0, List.replicate 100 7⟩])
        [⟨1, 100, List.replicate 25 7⟩] (1, 0 + UInt16.ofNat offset)).isSome := by decide
  intro request hrequest offset hoffset
  obtain rfl := List.mem_singleton.mp hrequest
  have hlt : offset < 125 := hoffset
  refine ⟨by simp only [UInt16.toNat_zero]; omega, Option.isSome_iff_exists.mp ?_⟩
  rw [filledFile, fileRecords_write (by decide), fileRecords_write (by decide)]
  exact hsome offset hlt

/-- The response to a read of 125 records is a PDU of 254 bytes. -/
theorem exchange_oversized :
    ¬ ∀ (request : ModbusRequest) (pdu : List UInt8) (inner : ModelInner),
      encodeRequest request = .ok pdu → Reachable inner →
      ExchangeAgrees request (execute request inner).1 := by
  intro h
  have hover : OversizedFileRead filledFile (.readFileRecord [⟨1, 0, 125⟩]) :=
    ⟨filledFile_defined, by decide, by decide⟩
  obtain ⟨fields, hok, hlong⟩ := execute_oversized hover
  obtain ⟨p, hp, hlen, -⟩ := h (.readFileRecord [⟨1, 0, 125⟩])
    [0x14, 7, 6, 0, 1, 0, 0, 0, 125] filledFile (by decide)
    (.execute _ (.execute _ .default))
  rw [hok] at hp
  obtain rfl := Option.some.inj hp
  rw [List.length_cons, MAX_PDU_LEN] at hlen
  omega

end TauTerm.Modbus
