import Mathlib
import TauTerm.Modbus.PackedBits

/-!
# Decoding undoes encoding

One lemma for each arm of `encodeFields`: what it accepted, the arm of
`decodeFields` for its function code reads back. The file-record arms go by
induction on the record list.
-/

namespace TauTerm.Modbus

open Lib

theorem ensureRange_eq_ok {value lo hi : UInt16} {label : String} {u : Unit} :
    ensureRange value lo hi label = .ok u ↔ lo ≤ value ∧ value ≤ hi := by
  unfold ensureRange
  split <;> simp_all

theorem ensureRange_ok {value lo hi : UInt16} (label : String) (h : lo ≤ value ∧ value ≤ hi) :
    ensureRange value lo hi label = .ok () := if_pos h

theorem requireLen_eq_ok {data : List UInt8} {n : Nat} {u : Unit} :
    requireLen data n = .ok u ↔ data.length = n := by
  unfold requireLen
  split <;> simp_all

theorem words_wordsBytes (values : List UInt16) : words (wordsBytes values) = .ok values := by
  simp [words]

/-- The codes that `decode_request` gives a meaning of their own. -/
def interpretedCodes : List UInt8 :=
  [0x01, 0x02, 0x03, 0x04, 0x05, 0x06, 0x07, 0x08, 0x0B, 0x0C, 0x0F, 0x10, 0x11, 0x14, 0x15, 0x16,
    0x17, 0x18, 0x2B]

/-- A raw request under a code that `decode_request` interprets. -/
def ModbusRequest.ShadowsCode : ModbusRequest → Prop
  | .raw function _ => function ∈ interpretedCodes
  | _ => False

theorem decodeFields_of_not_mem {function : UInt8} (h : function ∉ interpretedCodes)
    (data : List UInt8) : decodeFields function data = .ok (.raw function data) := by
  unfold decodeFields
  split
  all_goals first
    | rfl
    | exact absurd (by decide) h

/-! ## Requests without lists -/

theorem decode_readBits {area : BitReadArea} {address quantity : UInt16} {fields : List UInt8}
    (h : encodeFields (.readBits area address quantity) = .ok fields) :
    decodeFields area.function fields = .ok (.readBits area address quantity) := by
  simp only [encodeFields, bind_eq_ok, ensureRange_eq_ok, exists_and_left, exists_const,
    Except.ok.injEq] at h
  obtain ⟨hq, rfl⟩ := h
  cases area <;>
    simp [BitReadArea.function, decodeFields, decodeReadBits, requireLen, toBeBytes, u16At,
      ensureRange_ok _ hq]

theorem decode_readRegisters {area : RegisterReadArea} {address quantity : UInt16}
    {fields : List UInt8} (h : encodeFields (.readRegisters area address quantity) = .ok fields) :
    decodeFields area.function fields = .ok (.readRegisters area address quantity) := by
  simp only [encodeFields, bind_eq_ok, ensureRange_eq_ok, exists_and_left, exists_const,
    Except.ok.injEq] at h
  obtain ⟨hq, rfl⟩ := h
  cases area <;>
    simp [RegisterReadArea.function, decodeFields, decodeReadRegisters, requireLen, toBeBytes,
      u16At, ensureRange_ok _ hq]

theorem decode_writeSingleCoil (address : UInt16) (value : Bool) :
    decodeWriteSingleCoil (toBeBytes address ++ toBeBytes (if value then 0xFF00 else 0x0000)) =
      .ok (.writeSingleCoil address value) := by
  simp only [decodeWriteSingleCoil, requireLen, toBeBytes, u16At, List.cons_append,
    List.nil_append, List.drop_succ_cons, List.drop_zero, ofBeBytes_hi_lo, List.length_cons,
    List.length_nil, Nat.reduceAdd, if_true, ok_bind]
  cases value <;> rfl

theorem decode_writeSingleRegister (address value : UInt16) :
    decodeWriteSingleRegister (toBeBytes address ++ toBeBytes value) =
      .ok (.writeSingleRegister address value) := by
  simp [decodeWriteSingleRegister, requireLen, toBeBytes, u16At]

theorem decode_maskWriteRegister (address andMask orMask : UInt16) :
    decodeMaskWriteRegister (toBeBytes address ++ toBeBytes andMask ++ toBeBytes orMask) =
      .ok (.maskWriteRegister address andMask orMask) := by
  simp [decodeMaskWriteRegister, requireLen, toBeBytes, u16At]

theorem decode_readFifoQueue (address : UInt16) :
    decodeReadFifoQueue (toBeBytes address) = .ok (.readFifoQueue address) := by
  simp [decodeReadFifoQueue, requireLen, toBeBytes, u16At]

theorem decode_diagnostics (subFunction : UInt16) (data : List UInt8) :
    decodeDiagnostics (toBeBytes subFunction ++ data) = .ok (.diagnostics subFunction data) := by
  simp [decodeDiagnostics, toBeBytes, u16At]

/-! ## Counted lists -/

/-- A list length that passed `ensureRange` after its cast, and whose bytes fit a
PDU, was not truncated by the cast. -/
theorem toNat_ofNat_length {n : Nat} (h : n < 65536) : (UInt16.ofNat n).toNat = n := by
  simp only [UInt16.toNat_ofNat']
  omega

theorem toNat_ofNat_byte {n : Nat} (h : n < 256) : (UInt8.ofNat n).toNat = n := by
  simp only [UInt8.toNat_ofNat']
  omega

theorem decode_writeMultipleCoils {address : UInt16} {values : List Bool} {fields : List UInt8}
    (h : encodeFields (.writeMultipleCoils address values) = .ok fields)
    (hmax : fields.length < MAX_PDU_LEN) :
    decodeWriteMultipleCoils fields = .ok (.writeMultipleCoils address values) := by
  simp only [encodeFields, bind_eq_ok, ensureRange_eq_ok, exists_and_left, exists_const,
    Except.ok.injEq] at h
  obtain ⟨hq, rfl⟩ := h
  have hpacked : (packBits values).length < 249 := by
    simp only [List.length_append, length_toBeBytes, List.length_cons, MAX_PDU_LEN] at hmax
    omega
  have hn : (UInt16.ofNat values.length).toNat = values.length := by
    apply toNat_ofNat_length
    rw [length_packBits, divCeil8] at hpacked
    omega
  have hc : (UInt8.ofNat (divCeil8 values.length)).toNat = divCeil8 values.length := by
    rw [length_packBits] at hpacked
    exact toNat_ofNat_byte (by omega)
  have hb : unpackBits (packBits values) (UInt16.ofNat values.length) = values :=
    unpackBits_packBits hn
  simp only [decodeWriteMultipleCoils, toBeBytes, List.cons_append, List.nil_append, u16At,
    List.drop_succ_cons, List.drop_zero, List.getD_cons_succ, List.getD_cons_zero,
    ofBeBytes_hi_lo, ok_bind, ensureRange_ok _ hq, hn, hc, hb, List.length_cons, length_packBits]
  rw [if_neg (by omega), if_neg (by omega)]

theorem decode_writeMultipleRegisters {address : UInt16} {values : List UInt16}
    {fields : List UInt8} (h : encodeFields (.writeMultipleRegisters address values) = .ok fields)
    (hmax : fields.length < MAX_PDU_LEN) :
    decodeWriteMultipleRegisters fields = .ok (.writeMultipleRegisters address values) := by
  simp only [encodeFields, bind_eq_ok, ensureRange_eq_ok, exists_and_left, exists_const,
    Except.ok.injEq] at h
  obtain ⟨hq, rfl⟩ := h
  have hlen : values.length < 124 := by
    simp only [List.length_append, length_toBeBytes, List.length_cons, length_wordsBytes,
      MAX_PDU_LEN] at hmax
    omega
  have hn : (UInt16.ofNat values.length).toNat = values.length := toNat_ofNat_length (by omega)
  have hc : (UInt8.ofNat (values.length * 2)).toNat = values.length * 2 :=
    toNat_ofNat_byte (by omega)
  simp only [decodeWriteMultipleRegisters, toBeBytes, List.cons_append, List.nil_append, u16At,
    List.drop_succ_cons, List.drop_zero, List.getD_cons_succ, List.getD_cons_zero,
    ofBeBytes_hi_lo, ok_bind, ensureRange_ok _ hq, hn, hc, words_wordsBytes, List.length_cons,
    length_wordsBytes]
  rw [if_neg (by omega), if_neg (by omega)]

theorem decode_readWriteMultipleRegisters {readAddress readQuantity writeAddress : UInt16}
    {values : List UInt16} {fields : List UInt8}
    (h : encodeFields (.readWriteMultipleRegisters readAddress readQuantity writeAddress values) =
      .ok fields) (hmax : fields.length < MAX_PDU_LEN) :
    decodeReadWriteMultipleRegisters fields =
      .ok (.readWriteMultipleRegisters readAddress readQuantity writeAddress values) := by
  simp only [encodeFields, bind_eq_ok, ensureRange_eq_ok, exists_and_left, exists_const,
    Except.ok.injEq] at h
  obtain ⟨hr, hq, rfl⟩ := h
  have hlen : values.length < 124 := by
    simp only [List.length_append, length_toBeBytes, List.length_cons, length_wordsBytes,
      MAX_PDU_LEN] at hmax
    omega
  have hn : (UInt16.ofNat values.length).toNat = values.length := toNat_ofNat_length (by omega)
  have hc : (UInt8.ofNat (values.length * 2)).toNat = values.length * 2 :=
    toNat_ofNat_byte (by omega)
  simp only [decodeReadWriteMultipleRegisters, toBeBytes, List.cons_append, List.nil_append, u16At,
    List.drop_succ_cons, List.drop_zero, List.getD_cons_succ, List.getD_cons_zero,
    ofBeBytes_hi_lo, ok_bind, ensureRange_ok _ hq, ensureRange_ok _ hr, hn, hc, words_wordsBytes,
    List.length_cons, length_wordsBytes]
  rw [if_neg (by omega), if_neg (by omega)]

/-! ## File records -/

theorem decodeFileReadChunks_encode (record : FileRecordRead) (rest : List UInt8) :
    decodeFileReadChunks (record.encode ++ rest) =
      (ensureRange record.recordLength 1 125 "file record length" >>= fun _ =>
        decodeFileReadChunks rest >>= fun out => .ok (record :: out)) := by
  simp [FileRecordRead.encode, toBeBytes, decodeFileReadChunks, u16At]

theorem decode_encodeFileReads {records : List FileRecordRead} :
    ∀ {body : List UInt8}, encodeFileReads records = .ok body →
      body.length = records.length * 7 ∧ decodeFileReadChunks body = .ok records := by
  induction records with
  | nil =>
    intro body h
    cases h
    exact ⟨rfl, rfl⟩
  | cons record records ih =>
    intro body h
    simp only [encodeFileReads, bind_eq_ok, ensureRange_eq_ok, exists_and_left, exists_const,
      Except.ok.injEq] at h
    obtain ⟨hr, rest, hrest, rfl⟩ := h
    obtain ⟨hlen, hdec⟩ := ih hrest
    refine ⟨?_, ?_⟩
    · simp only [List.length_append, hlen, FileRecordRead.encode, List.length_cons,
        length_toBeBytes]
      omega
    · rw [decodeFileReadChunks_encode, ensureRange_ok _ hr, hdec]
      rfl

theorem decode_readFileRecord {records : List FileRecordRead} {fields : List UInt8}
    (h : encodeFields (.readFileRecord records) = .ok fields) :
    decodeFileReads fields = .ok records := by
  simp only [encodeFields, ite_error_eq_ok, bind_eq_ok, Except.ok.injEq] at h
  obtain ⟨-, hcount, body, hbody, rfl⟩ := h
  obtain ⟨hlen, hdec⟩ := decode_encodeFileReads hbody
  have hc : (UInt8.ofNat (records.length * 7)).toNat = body.length := by
    rw [toNat_ofNat_byte (by omega), hlen]
  have hmod : ¬ (body.length ≠ body.length ∨ body.length % 7 ≠ 0) := by omega
  simp only [decodeFileReads, hc, if_neg hmod, hdec]

theorem length_encode_fileWrite (record : FileRecordWrite) :
    record.encode.length = 7 + record.values.length * 2 := by
  simp only [FileRecordWrite.encode, List.length_cons, List.length_append, length_toBeBytes,
    length_wordsBytes]
  omega

/-- The byte count is the length of the encoded records. -/
theorem fileWritesByteCount_eq_ok {records : List FileRecordWrite} : ∀ {acc n : Nat},
    fileWritesByteCount records acc = .ok n →
      n = acc + (records.flatMap FileRecordWrite.encode).length ∧
        ∀ record ∈ records, record.values ≠ [] := by
  induction records with
  | nil => intro acc n h; cases h; simp
  | cons record records ih =>
    intro acc n h
    simp only [fileWritesByteCount, ite_error_eq_ok] at h
    obtain ⟨hne, h⟩ := h
    obtain ⟨hn, hall⟩ := ih h
    refine ⟨?_, ?_⟩
    · rw [hn, List.flatMap_cons, List.length_append, length_encode_fileWrite]
      omega
    · simpa [hne] using hall

theorem decodeFileWriteLoop_encode {record : FileRecordWrite} (rest : List UInt8)
    (hne : record.values ≠ []) (hlen : record.values.length < 65536) :
    decodeFileWriteLoop (record.encode ++ rest) =
      (decodeFileWriteLoop rest >>= fun out => .ok (record :: out)) := by
  have hn : (UInt16.ofNat record.values.length).toNat = record.values.length :=
    toNat_ofNat_length hlen
  have h0 : UInt16.ofNat record.values.length ≠ 0 := by
    intro h
    rw [h] at hn
    exact hne (List.length_eq_zero_iff.mp hn.symm)
  have htake : (wordsBytes record.values ++ rest).take (record.values.length * 2) =
      wordsBytes record.values := by
    rw [Nat.mul_comm, ← length_wordsBytes, List.take_left]
  have hdrop : (wordsBytes record.values ++ rest).drop (record.values.length * 2) = rest := by
    rw [Nat.mul_comm, ← length_wordsBytes, List.drop_left]
  rw [decodeFileWriteLoop.eq_def]
  simp only [FileRecordWrite.encode, toBeBytes, List.cons_append, List.nil_append, u16At,
    List.drop_succ_cons, List.drop_zero, ofBeBytes_hi_lo, ok_bind, h0, if_false, hn, htake, hdrop,
    words_wordsBytes, List.length_cons, List.length_append, length_wordsBytes]
  rw [if_neg (by simp), if_neg (by omega)]

theorem decode_encodeFileWrites {records : List FileRecordWrite} :
    (∀ record ∈ records, record.values ≠ [] ∧ record.values.length < 65536) →
      decodeFileWriteLoop (records.flatMap FileRecordWrite.encode) = .ok records := by
  induction records with
  | nil => intro _; rw [decodeFileWriteLoop.eq_def]; rfl
  | cons record records ih =>
    intro h
    obtain ⟨hne, hlen⟩ := h record (List.mem_cons_self ..)
    rw [List.flatMap_cons, decodeFileWriteLoop_encode _ hne hlen,
      ih fun r hr => h r (List.mem_cons_of_mem _ hr)]
    rfl

theorem length_le_of_mem_flatMap {record : FileRecordWrite} {records : List FileRecordWrite}
    (h : record ∈ records) :
    record.encode.length ≤ (records.flatMap FileRecordWrite.encode).length := by
  rw [List.length_flatMap]
  exact List.le_sum_of_mem (List.mem_map_of_mem h)

theorem decode_writeFileRecord {records : List FileRecordWrite} {fields : List UInt8}
    (h : encodeFields (.writeFileRecord records) = .ok fields) :
    decodeFileWrites fields = .ok records := by
  simp only [encodeFields, ite_error_eq_ok, bind_eq_ok, Except.ok.injEq] at h
  obtain ⟨-, count, hcount, hmax, rfl⟩ := h
  obtain ⟨hn, hall⟩ := fileWritesByteCount_eq_ok hcount
  have hc : (UInt8.ofNat count).toNat = (records.flatMap FileRecordWrite.encode).length := by
    rw [toNat_ofNat_byte (by omega), hn, Nat.zero_add]
  have hdec : decodeFileWriteLoop (records.flatMap FileRecordWrite.encode) = .ok records := by
    apply decode_encodeFileWrites
    intro record hr
    have := length_le_of_mem_flatMap hr
    rw [length_encode_fileWrite] at this
    exact ⟨hall record hr, by omega⟩
  simp only [decodeFileWrites, hc, ne_eq, not_true_eq_false, if_false, hdec]

/-! ## The round trip -/

theorem decodeFields_encodeFields {request : ModbusRequest} {fields : List UInt8}
    (hraw : ¬ request.ShadowsCode) (h : encodeFields request = .ok fields)
    (hmax : fields.length < MAX_PDU_LEN) :
    decodeFields request.function fields = .ok request := by
  cases request with
  | readBits area address quantity => exact decode_readBits h
  | readRegisters area address quantity => exact decode_readRegisters h
  | writeSingleCoil address value => cases h; exact decode_writeSingleCoil address value
  | writeSingleRegister address value => cases h; exact decode_writeSingleRegister address value
  | readExceptionStatus => cases h; rfl
  | diagnostics subFunction data =>
    simp only [encodeFields, ite_error_eq_ok, Except.ok.injEq] at h
    obtain ⟨-, rfl⟩ := h
    exact decode_diagnostics subFunction data
  | getCommEventCounter => cases h; rfl
  | getCommEventLog => cases h; rfl
  | writeMultipleCoils address values => exact decode_writeMultipleCoils h hmax
  | writeMultipleRegisters address values => exact decode_writeMultipleRegisters h hmax
  | reportServerId => cases h; rfl
  | readFileRecord records =>
    show ModbusRequest.readFileRecord <$> decodeFileReads fields = _
    rw [decode_readFileRecord h]
    rfl
  | writeFileRecord records =>
    show ModbusRequest.writeFileRecord <$> decodeFileWrites fields = _
    rw [decode_writeFileRecord h]
    rfl
  | maskWriteRegister address andMask orMask =>
    cases h
    exact decode_maskWriteRegister address andMask orMask
  | readWriteMultipleRegisters readAddress readQuantity writeAddress values =>
    exact decode_readWriteMultipleRegisters h hmax
  | readFifoQueue address => cases h; exact decode_readFifoQueue address
  | mei meiType data =>
    simp only [encodeFields, ite_error_eq_ok, Except.ok.injEq] at h
    obtain ⟨-, rfl⟩ := h
    rfl
  | raw function data => cases h; exact decodeFields_of_not_mem hraw fields

theorem encodeRequest_eq_ok {request : ModbusRequest} {pdu : List UInt8} :
    encodeRequest request = .ok pdu ↔
      ∃ fields, encodeFields request = .ok fields ∧ fields.length < MAX_PDU_LEN ∧
        pdu = request.function :: fields := by
  simp only [encodeRequest, bind_eq_ok, ite_error_eq_ok, Except.ok.injEq, List.length_cons]
  constructor
  · rintro ⟨fields, h, hmax, rfl⟩
    exact ⟨fields, h, by omega, rfl⟩
  · rintro ⟨fields, h, hmax, rfl⟩
    exact ⟨fields, h, by omega, rfl⟩

/-- An encoded request is a PDU of 1 to 253 bytes that starts with its function
code and decodes to the request itself. -/
theorem decodeRequest_encodeRequest (request : ModbusRequest) (pdu : List UInt8)
    (hraw : ¬ request.ShadowsCode) (h : encodeRequest request = .ok pdu) :
    1 ≤ pdu.length ∧ pdu.length ≤ 253 ∧ pdu.head? = some request.function ∧
      decodeRequest pdu = .ok { function := request.function, request := request } := by
  obtain ⟨fields, hfields, hmax, rfl⟩ := (encodeRequest_eq_ok).mp h
  have hdec := decodeFields_encodeFields hraw hfields hmax
  refine ⟨by simp, ?_, rfl, ?_⟩
  · simp only [List.length_cons, MAX_PDU_LEN] at hmax ⊢
    omega
  · simp only [decodeRequest, hdec, ok_bind]

theorem decodeRequest_encodeRequest_fileWrite :
    ¬ (ModbusRequest.writeFileRecord [⟨1, 2, [7, 8]⟩]).ShadowsCode ∧
      encodeRequest (.writeFileRecord [⟨1, 2, [7, 8]⟩]) =
        .ok [0x15, 11, 6, 0, 1, 0, 2, 0, 2, 0, 7, 0, 8] ∧
      decodeRequest [0x15, 11, 6, 0, 1, 0, 2, 0, 2, 0, 7, 0, 8] =
        .ok ⟨0x15, .writeFileRecord [⟨1, 2, [7, 8]⟩]⟩ :=
  ⟨id, by decide, (decodeRequest_encodeRequest (.writeFileRecord [⟨1, 2, [7, 8]⟩])
    [0x15, 11, 6, 0, 1, 0, 2, 0, 2, 0, 7, 0, 8] id (by decide)).2.2.2⟩

end TauTerm.Modbus
