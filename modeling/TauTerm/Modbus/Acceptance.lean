import Mathlib
import TauTerm.Modbus.RoundTrip

/-!
# What the decoder accepts

The converse of `RoundTrip`: for the data-access codes, a PDU that
`decodeRequest` accepts is the encoding of the request it decodes to, up to the
padding bits of the last coil byte. The two file-record arms accept more than the
encoder sends: `EmptyRecordList` and `OversizedFileWrite`.
-/

namespace TauTerm.Modbus

open Lib

theorem split_word : ∀ {data : List UInt8}, 2 ≤ data.length →
    ∃ v rest, data = toBeBytes v ++ rest ∧ rest.length + 2 = data.length
  | [], h => by simp at h
  | [_], h => by simp at h
  | hi :: lo :: rest, _ => ⟨ofBeBytes hi lo, rest, by simp, rfl⟩

theorem split_word_eq {data : List UInt8} (h : data.length = 2) : ∃ v, data = toBeBytes v := by
  obtain ⟨v, rest, rfl, hr⟩ := split_word (by omega : 2 ≤ data.length)
  have : rest = [] := List.length_eq_zero_iff.mp (by omega)
  exact ⟨v, by simp [this]⟩

theorem ofNat_toNat_length {q : UInt16} {n : Nat} (h : n = q.toNat) : UInt16.ofNat n = q := by
  rw [h, UInt16.ofNat_toNat]

theorem ofNat_toNat_count {c : UInt8} {n : Nat} (h : n = c.toNat) : UInt8.ofNat n = c := by
  rw [h, UInt8.ofNat_toNat]

/-! ## Requests without lists -/

theorem encode_decodeReadBits {area : BitReadArea} {data : List UInt8} {r : ModbusRequest}
    (h : decodeReadBits area data = .ok r) :
    r.function = area.function ∧ encodeFields r = .ok data := by
  simp only [decodeReadBits, bind_eq_ok, requireLen_eq_ok, ensureRange_eq_ok, exists_and_left,
    exists_const, Except.ok.injEq] at h
  obtain ⟨hlen, quantity, hq, hrange, address, ha, rfl⟩ := h
  obtain ⟨v, rest, rfl, hr⟩ := split_word (by omega : 2 ≤ data.length)
  obtain ⟨w, rfl⟩ := split_word_eq (by omega : rest.length = 2)
  simp only [u16At, toBeBytes, List.cons_append, List.nil_append, List.drop_succ_cons,
    List.drop_zero, ofBeBytes_hi_lo, Except.ok.injEq] at hq ha
  subst hq ha
  exact ⟨rfl, by simp only [encodeFields, ensureRange_ok _ hrange, ok_bind]⟩

theorem encode_decodeReadRegisters {area : RegisterReadArea} {data : List UInt8}
    {r : ModbusRequest} (h : decodeReadRegisters area data = .ok r) :
    r.function = area.function ∧ encodeFields r = .ok data := by
  simp only [decodeReadRegisters, bind_eq_ok, requireLen_eq_ok, ensureRange_eq_ok, exists_and_left,
    exists_const, Except.ok.injEq] at h
  obtain ⟨hlen, quantity, hq, hrange, address, ha, rfl⟩ := h
  obtain ⟨v, rest, rfl, hr⟩ := split_word (by omega : 2 ≤ data.length)
  obtain ⟨w, rfl⟩ := split_word_eq (by omega : rest.length = 2)
  simp only [u16At, toBeBytes, List.cons_append, List.nil_append, List.drop_succ_cons,
    List.drop_zero, ofBeBytes_hi_lo, Except.ok.injEq] at hq ha
  subst hq ha
  exact ⟨rfl, by simp only [encodeFields, ensureRange_ok _ hrange, ok_bind]⟩

theorem encode_decodeWriteSingleCoil {data : List UInt8} {r : ModbusRequest}
    (h : decodeWriteSingleCoil data = .ok r) : r.function = 0x05 ∧ encodeFields r = .ok data := by
  simp only [decodeWriteSingleCoil, bind_eq_ok, requireLen_eq_ok, exists_and_left, exists_const,
    Except.ok.injEq] at h
  obtain ⟨hlen, raw, hraw, value, hvalue, address, ha, rfl⟩ := h
  obtain ⟨v, rest, rfl, hr⟩ := split_word (by omega : 2 ≤ data.length)
  obtain ⟨w, rfl⟩ := split_word_eq (by omega : rest.length = 2)
  simp only [u16At, toBeBytes, List.cons_append, List.nil_append, List.drop_succ_cons,
    List.drop_zero, ofBeBytes_hi_lo, Except.ok.injEq] at hraw ha
  subst hraw ha
  refine ⟨rfl, ?_⟩
  unfold coilValue at hvalue
  split at hvalue
  · rename_i h0
    cases hvalue
    rw [h0]
    rfl
  · split at hvalue
    · rename_i h1
      cases hvalue
      rw [h1]
      rfl
    · cases hvalue

theorem encode_decodeWriteSingleRegister {data : List UInt8} {r : ModbusRequest}
    (h : decodeWriteSingleRegister data = .ok r) :
    r.function = 0x06 ∧ encodeFields r = .ok data := by
  simp only [decodeWriteSingleRegister, bind_eq_ok, requireLen_eq_ok, exists_and_left, exists_const,
    Except.ok.injEq] at h
  obtain ⟨hlen, address, ha, value, hv, rfl⟩ := h
  obtain ⟨v, rest, rfl, hr⟩ := split_word (by omega : 2 ≤ data.length)
  obtain ⟨w, rfl⟩ := split_word_eq (by omega : rest.length = 2)
  simp only [u16At, toBeBytes, List.cons_append, List.nil_append, List.drop_succ_cons,
    List.drop_zero, ofBeBytes_hi_lo, Except.ok.injEq] at ha hv
  subst ha hv
  exact ⟨rfl, rfl⟩

theorem encode_decodeMaskWriteRegister {data : List UInt8} {r : ModbusRequest}
    (h : decodeMaskWriteRegister data = .ok r) : r.function = 0x16 ∧ encodeFields r = .ok data := by
  simp only [decodeMaskWriteRegister, bind_eq_ok, requireLen_eq_ok, exists_and_left, exists_const,
    Except.ok.injEq] at h
  obtain ⟨hlen, address, ha, andMask, hm, orMask, ho, rfl⟩ := h
  obtain ⟨v, rest, rfl, hr⟩ := split_word (by omega : 2 ≤ data.length)
  obtain ⟨w, rest', rfl, hr'⟩ := split_word (by omega : 2 ≤ rest.length)
  obtain ⟨x, rfl⟩ := split_word_eq (by omega : rest'.length = 2)
  simp only [u16At, toBeBytes, List.cons_append, List.nil_append, List.drop_succ_cons,
    List.drop_zero, ofBeBytes_hi_lo, Except.ok.injEq] at ha hm ho
  subst ha hm ho
  exact ⟨rfl, by simp only [encodeFields, List.append_assoc]⟩

theorem encode_decodeReadFifoQueue {data : List UInt8} {r : ModbusRequest}
    (h : decodeReadFifoQueue data = .ok r) : r.function = 0x18 ∧ encodeFields r = .ok data := by
  simp only [decodeReadFifoQueue, bind_eq_ok, requireLen_eq_ok, exists_and_left, exists_const,
    Except.ok.injEq] at h
  obtain ⟨hlen, address, ha, rfl⟩ := h
  obtain ⟨v, rfl⟩ := split_word_eq hlen
  simp only [u16At, toBeBytes, List.drop_zero, ofBeBytes_hi_lo, Except.ok.injEq] at ha
  subst ha
  exact ⟨rfl, rfl⟩

/-! ## Counted lists -/

theorem words_eq_ok {bytes : List UInt8} {values : List UInt16} :
    words bytes = .ok values ↔ bytes = wordsBytes values := by
  simp only [words, ite_ok_error_eq_ok]
  constructor
  · rintro ⟨hmod, rfl⟩
    exact (wordsBytes_ofPairs hmod).symm
  · rintro rfl
    exact ⟨by simp, by simp⟩

theorem encode_decodeWriteMultipleRegisters {data : List UInt8} {r : ModbusRequest}
    (h : decodeWriteMultipleRegisters data = .ok r) :
    r.function = 0x10 ∧ encodeFields r = .ok data := by
  simp only [decodeWriteMultipleRegisters, bind_eq_ok, ite_error_eq_ok, ensureRange_eq_ok,
    exists_and_left, exists_const, Except.ok.injEq] at h
  obtain ⟨hlen, address, ha, quantity, hq, hrange, hcount, values, hv, rfl⟩ := h
  obtain ⟨v, rest, rfl, hr⟩ := split_word (by omega : 2 ≤ data.length)
  obtain ⟨w, rest', rfl, hr'⟩ := split_word (by omega : 2 ≤ rest.length)
  obtain ⟨c, body, rfl⟩ := List.exists_cons_of_ne_nil (l := rest') (by rintro rfl; simp at *)
  simp only [u16At, toBeBytes, List.cons_append, List.nil_append, List.drop_succ_cons,
    List.drop_zero, ofBeBytes_hi_lo, Except.ok.injEq, List.getD_cons_succ, List.getD_cons_zero,
    words_eq_ok] at ha hq hcount hv
  subst ha hq hv
  simp only [List.length_cons, length_wordsBytes] at hcount
  have hn : UInt16.ofNat values.length = w := ofNat_toNat_length (by omega)
  have hc : UInt8.ofNat (values.length * 2) = c := ofNat_toNat_count (by omega)
  refine ⟨rfl, ?_⟩
  simp only [encodeFields, hn, hc, ensureRange_ok _ hrange, ok_bind, List.append_assoc]

theorem encode_decodeReadWriteMultipleRegisters {data : List UInt8} {r : ModbusRequest}
    (h : decodeReadWriteMultipleRegisters data = .ok r) :
    r.function = 0x17 ∧ encodeFields r = .ok data := by
  simp only [decodeReadWriteMultipleRegisters, bind_eq_ok, ite_error_eq_ok, ensureRange_eq_ok,
    exists_and_left, exists_const, Except.ok.injEq] at h
  obtain ⟨hlen, ra, hra, rq, hrq, wa, hwa, wq, hwq, hrange, hrange', hcount, values, hv, rfl⟩ := h
  obtain ⟨v, rest, rfl, hr⟩ := split_word (by omega : 2 ≤ data.length)
  obtain ⟨w, rest', rfl, hr'⟩ := split_word (by omega : 2 ≤ rest.length)
  obtain ⟨x, rest'', rfl, hr''⟩ := split_word (by omega : 2 ≤ rest'.length)
  obtain ⟨y, rest''', rfl, hr'''⟩ := split_word (by omega : 2 ≤ rest''.length)
  obtain ⟨c, body, rfl⟩ :=
    List.exists_cons_of_ne_nil (l := rest''') (by rintro rfl; simp at *)
  simp only [u16At, toBeBytes, List.cons_append, List.nil_append, List.drop_succ_cons,
    List.drop_zero, ofBeBytes_hi_lo, Except.ok.injEq, List.getD_cons_succ, List.getD_cons_zero,
    words_eq_ok] at hra hrq hwa hwq hcount hv
  subst hra hrq hwa hwq hv
  simp only [List.length_cons, length_wordsBytes] at hcount
  have hn : UInt16.ofNat values.length = y := ofNat_toNat_length (by omega)
  have hc : UInt8.ofNat (values.length * 2) = c := ofNat_toNat_count (by omega)
  refine ⟨rfl, ?_⟩
  simp only [encodeFields, hn, hc, ensureRange_ok _ hrange, ensureRange_ok _ hrange', ok_bind,
    List.append_assoc]

/-- Decoded coils re-encode to the same bytes up to the padding bits, which the
encoder clears. -/
theorem encode_decodeWriteMultipleCoils {data : List UInt8} {r : ModbusRequest}
    (h : decodeWriteMultipleCoils data = .ok r) :
    ∃ address quantity count coils, data = toBeBytes address ++ toBeBytes quantity ++ count :: coils ∧
      coils.length = divCeil8 quantity.toNat ∧
      r = .writeMultipleCoils address (unpackBits coils quantity) ∧
      encodeFields r = .ok (toBeBytes address ++ toBeBytes quantity ++
        count :: packBits (unpackBits coils quantity)) := by
  simp only [decodeWriteMultipleCoils, bind_eq_ok, ite_error_eq_ok, ensureRange_eq_ok,
    exists_and_left, exists_const, Except.ok.injEq] at h
  obtain ⟨hlen, address, ha, quantity, hq, hrange, hcount, rfl⟩ := h
  obtain ⟨v, rest, rfl, hr⟩ := split_word (by omega : 2 ≤ data.length)
  obtain ⟨w, rest', rfl, hr'⟩ := split_word (by omega : 2 ≤ rest.length)
  obtain ⟨c, coils, rfl⟩ := List.exists_cons_of_ne_nil (l := rest') (by rintro rfl; simp at *)
  simp only [u16At, toBeBytes, List.cons_append, List.nil_append, List.drop_succ_cons,
    List.drop_zero, ofBeBytes_hi_lo, Except.ok.injEq, List.getD_cons_succ,
    List.getD_cons_zero] at ha hq hcount
  subst ha hq
  simp only [List.length_cons] at hcount
  have hn : UInt16.ofNat (unpackBits coils w).length = w := by
    rw [length_unpackBits, UInt16.ofNat_toNat]
  have hc : UInt8.ofNat (packBits (unpackBits coils w)).length = c := by
    rw [length_packBits, length_unpackBits]
    exact ofNat_toNat_count (by omega)
  refine ⟨v, w, c, coils, by simp, by omega, ?_, ?_⟩
  · simp [toBeBytes]
  · simp only [toBeBytes, List.cons_append, List.nil_append, List.drop_succ_cons, List.drop_zero,
      encodeFields, hn, hc, ensureRange_ok _ hrange, ok_bind]

/-! ## File records -/

theorem encode_decodeFileReadChunks : ∀ {body : List UInt8} {records : List FileRecordRead},
    body.length % 7 = 0 → decodeFileReadChunks body = .ok records →
      encodeFileReads records = .ok body ∧ body.length = records.length * 7
  | [], _, _, h => by cases h; exact ⟨rfl, rfl⟩
  | [_], _, hmod, _ => by simp at hmod
  | [_, _], _, hmod, _ => by simp at hmod
  | [_, _, _], _, hmod, _ => by simp at hmod
  | [_, _, _, _], _, hmod, _ => by simp at hmod
  | [_, _, _, _, _], _, hmod, _ => by simp at hmod
  | [_, _, _, _, _, _], _, hmod, _ => by simp at hmod
  | c0 :: c1 :: c2 :: c3 :: c4 :: c5 :: c6 :: rest, records, hmod, h => by
    simp only [decodeFileReadChunks, ite_error_eq_ok, bind_eq_ok, ensureRange_eq_ok,
      exists_and_left, exists_const, Except.ok.injEq, u16At, List.drop_succ_cons,
      List.drop_zero, not_not] at h
    obtain ⟨rfl, rl, rfl, hrange, fn, rfl, rn, rfl, out, hout, rfl⟩ := h
    have hm : rest.length % 7 = 0 := by simp only [List.length_cons] at hmod; omega
    obtain ⟨henc, hlen⟩ := encode_decodeFileReadChunks hm hout
    refine ⟨?_, ?_⟩
    · simp only [encodeFileReads, ensureRange_ok _ hrange, henc, ok_bind, FileRecordRead.encode,
        toBeBytes_ofBeBytes, List.cons_append, List.nil_append]
    · simp only [List.length_cons, hlen]
      omega

theorem encode_decodeFileReads {data : List UInt8} {records : List FileRecordRead}
    (h : decodeFileReads data = .ok records) (hlen : data.length ≤ 252) :
    (records = [] ↔ data.getD 0 0 = 0) ∧
      (records ≠ [] → encodeFields (.readFileRecord records) = .ok data) := by
  rcases data with _ | ⟨count, body⟩
  · cases h
  simp only [decodeFileReads, ite_error_eq_ok] at h
  obtain ⟨hcount, h⟩ := h
  obtain ⟨henc, hbody⟩ := encode_decodeFileReadChunks (by omega) h
  have hc : UInt8.ofNat (records.length * 7) = count := ofNat_toNat_count (by omega)
  refine ⟨?_, ?_⟩
  · rw [List.getD_cons_zero, ← UInt8.toNat_inj, ← List.length_eq_zero_iff]
    show _ ↔ count.toNat = 0
    omega
  · intro hne
    have hmax : ¬ records.length * 7 > 0xF5 := by
      simp only [List.length_cons] at hlen
      omega
    simp only [encodeFields, if_neg hne, if_neg hmax, henc, ok_bind, hc]

theorem encode_decodeFileWriteLoop (n : Nat) : ∀ {body : List UInt8}
    {records : List FileRecordWrite}, body.length ≤ n → decodeFileWriteLoop body = .ok records →
      records.flatMap FileRecordWrite.encode = body ∧ ∀ record ∈ records, record.values ≠ [] := by
  induction n with
  | zero =>
    intro body records hn h
    have : body = [] := List.length_eq_zero_iff.mp (by omega)
    subst this
    rw [decodeFileWriteLoop.eq_def] at h
    cases h
    simp
  | succ n ih =>
    intro body records hn h
    rw [decodeFileWriteLoop.eq_def] at h
    rcases body with _ | ⟨reference, header⟩
    · cases h
      simp
    simp only [ite_error_eq_ok, bind_eq_ok, Except.ok.injEq, words_eq_ok] at h
    obtain ⟨hhdr, fn, hfn, rn, hrn, count, hcount, hne, htrunc, values, hv, out, hout, rfl⟩ := h
    obtain ⟨hlen, href⟩ : 6 ≤ header.length ∧ reference = 0x06 := by
      simpa [not_or, not_not] using hhdr
    subst href
    obtain ⟨v, rest, rfl, hr⟩ := split_word (by omega : 2 ≤ header.length)
    obtain ⟨w, rest', rfl, hr'⟩ := split_word (by omega : 2 ≤ rest.length)
    obtain ⟨x, tail, rfl, hr''⟩ := split_word (by omega : 2 ≤ rest'.length)
    simp only [u16At, toBeBytes, List.cons_append, List.nil_append, List.drop_succ_cons,
      List.drop_zero, ofBeBytes_hi_lo, Except.ok.injEq] at hfn hrn hcount hv hout htrunc
    subst hfn hrn hcount
    have hvlen : values.length = x.toNat := by
      have := congrArg List.length hv
      rw [length_wordsBytes, List.length_take] at this
      omega
    have hn' : (tail.drop (x.toNat * 2)).length ≤ n := by
      simp only [List.length_append, length_toBeBytes, List.length_cons, List.length_drop] at hn ⊢
      omega
    obtain ⟨henc, hall⟩ := ih hn' hout
    refine ⟨?_, ?_⟩
    · rw [List.flatMap_cons, henc, FileRecordWrite.encode, ofNat_toNat_length hvlen, ← hv]
      simp only [List.append_assoc, List.cons_append, List.take_append_drop]
    · intro record hrec
      rcases List.mem_cons.mp hrec with rfl | hrec
      · intro hnil
        apply hne
        rw [← UInt16.toNat_inj, ← hvlen]
        simp only at hnil
        rw [hnil]
        rfl
      · exact hall record hrec

theorem fileWritesByteCount_of_ne {records : List FileRecordWrite} : ∀ {acc : Nat},
    (∀ record ∈ records, record.values ≠ []) →
      fileWritesByteCount records acc =
        .ok (acc + (records.flatMap FileRecordWrite.encode).length) := by
  induction records with
  | nil => intro acc _; rfl
  | cons record records ih =>
    intro acc h
    have hne := h record (List.mem_cons_self ..)
    rw [fileWritesByteCount, if_neg hne, ih fun r hr => h r (List.mem_cons_of_mem _ hr),
      List.flatMap_cons, List.length_append, length_encode_fileWrite]
    congr 1
    omega

theorem encode_decodeFileWrites {data : List UInt8} {records : List FileRecordWrite}
    (h : decodeFileWrites data = .ok records) :
    (records = [] ↔ data.getD 0 0 = 0) ∧
      encodeFields (.writeFileRecord records) =
        if records = [] then .error "at least one file record is required"
        else if 0xF5 < data.getD 0 0 then .error "file record request exceeds PDU limit"
        else .ok data := by
  rcases data with _ | ⟨count, body⟩
  · cases h
  simp only [decodeFileWrites, ite_error_eq_ok, not_not] at h
  obtain ⟨hcount, h⟩ := h
  obtain ⟨henc, hall⟩ := encode_decodeFileWriteLoop body.length le_rfl h
  refine ⟨?_, ?_⟩
  · rw [List.getD_cons_zero, ← UInt8.toNat_inj, hcount, ← henc]
    constructor
    · rintro rfl; rfl
    · intro h0
      rcases records with _ | ⟨record, records⟩
      · rfl
      · rw [List.flatMap_cons, List.length_append, length_encode_fileWrite] at h0
        simp at h0
  · have hlt : (0xF5 < count) ↔ body.length > 0xF5 := by
      rw [UInt8.lt_iff_toNat_lt, hcount]
      rfl
    simp only [encodeFields, fileWritesByteCount_of_ne hall, henc, Nat.zero_add, ok_bind,
      List.getD_cons_zero, ofNat_toNat_count hcount.symm, hlt]

/-! ## The encoder's image -/

/-- The function codes of requests that access data. -/
def dataAccessCodes : List UInt8 :=
  [0x01, 0x02, 0x03, 0x04, 0x05, 0x06, 0x0F, 0x10, 0x14, 0x15, 0x16, 0x17, 0x18]

/-- The quantity field of a write-coils PDU. -/
def announcedCoils (pdu : List UInt8) : Nat := (ofBeBytes (pdu.getD 3 0) (pdu.getD 4 0)).toNat

/-- `pdu'` is `pdu` except in the bits of the last coil byte of a write-coils PDU
that lie beyond the announced quantity. -/
def SameUpToCoilPadding (pdu pdu' : List UInt8) : Prop :=
  pdu'.length = pdu.length ∧ ∀ i, pdu'.getD i 0 = pdu.getD i 0 ∨
    (pdu.getD 0 0 = 0x0F ∧ i + 1 = pdu.length ∧ ∀ j, j < 8 →
      8 * (i - 6) + j < announcedCoils pdu →
        (pdu'.getD i 0).toNat.testBit j = (pdu.getD i 0).toNat.testBit j)

theorem SameUpToCoilPadding.refl (pdu : List UInt8) : SameUpToCoilPadding pdu pdu :=
  ⟨rfl, fun _ => .inl rfl⟩

/-- A file-record request whose byte count is zero. -/
def EmptyRecordList (pdu : List UInt8) : Prop :=
  (pdu.getD 0 0 = 0x14 ∨ pdu.getD 0 0 = 0x15) ∧ pdu.getD 1 0 = 0

/-- A write-file-record request whose byte count passes the encoder's limit. -/
def OversizedFileWrite (pdu : List UInt8) : Prop := pdu.getD 0 0 = 0x15 ∧ 0xF5 < pdu.getD 1 0

theorem testBit_getD (bytes : List UInt8) (k : Nat) {j : Nat} (hj : j < 8) :
    (bytes.getD k 0).toNat.testBit j = bitAt bytes (8 * k + j) := by
  rw [bitAt_eq, show (8 * k + j) / 8 = k by omega, show (8 * k + j) % 8 = j by omega]

theorem sameUpToCoilPadding_coils {address quantity : UInt16} {count : UInt8} {coils : List UInt8}
    (hlen : coils.length = divCeil8 quantity.toNat) :
    SameUpToCoilPadding (0x0F :: (toBeBytes address ++ toBeBytes quantity ++ count :: coils))
      (0x0F :: (toBeBytes address ++ toBeBytes quantity ++
        count :: packBits (unpackBits coils quantity))) := by
  have hplen : (packBits (unpackBits coils quantity)).length = coils.length := by
    rw [length_packBits, length_unpackBits, hlen]
  have hq : announcedCoils (0x0F :: (toBeBytes address ++ toBeBytes quantity ++ count :: coils)) =
      quantity.toNat := by
    simp only [announcedCoils, toBeBytes, List.cons_append, List.nil_append, List.getD_cons_succ,
      List.getD_cons_zero, ofBeBytes_hi_lo]
  refine ⟨by simp [hplen], fun i => ?_⟩
  rw [hq]
  by_cases hi : i < 6
  · left
    rcases i with _ | _ | _ | _ | _ | _ | i <;> first | rfl | omega
  obtain ⟨k, rfl⟩ : ∃ k, i = k + 6 := ⟨i - 6, by omega⟩
  have hget : ∀ l : List UInt8,
      (0x0F :: (toBeBytes address ++ toBeBytes quantity ++ count :: l)).getD (k + 6) 0 =
        l.getD k 0 := fun _ => rfl
  have hbit : ∀ j, j < 8 → 8 * k + j < quantity.toNat →
      ((packBits (unpackBits coils quantity)).getD k 0).toNat.testBit j =
        (coils.getD k 0).toNat.testBit j := by
    intro j hj hlt
    rw [testBit_getD _ _ hj, testBit_getD _ _ hj, bitAt_packBits_unpackBits]
    simp [hlt]
  simp only [hget, Nat.add_sub_cancel]
  rcases Nat.lt_trichotomy (k + 1) coils.length with hk | hk | hk
  · left
    apply byte_ext
    intro j hj
    rw [hlen, divCeil8] at hk
    exact hbit j hj (by omega)
  · right
    exact ⟨rfl, by simp; omega, hbit⟩
  · left
    rw [List.getD_eq_getElem?_getD, List.getD_eq_getElem?_getD,
      List.getElem?_eq_none (by omega), List.getElem?_eq_none (by omega)]

/-- An arm that accepts nothing but encodings. -/
theorem sent_of_encodeFields {function : UInt8} {data : List UInt8} {r : ModbusRequest}
    (hlen : (function :: data).length ≤ 253)
    (h : r.function = function ∧ encodeFields r = .ok data) :
    ∃ pdu', encodeRequest r = .ok pdu' ∧ SameUpToCoilPadding (function :: data) pdu' := by
  refine ⟨function :: data, (encodeRequest_eq_ok).mpr ⟨data, h.2, ?_, by rw [h.1]⟩, .refl _⟩
  simp only [List.length_cons, MAX_PDU_LEN] at hlen ⊢
  omega

theorem not_sent_of_error {r : ModbusRequest} {e : String} (h : encodeFields r = .error e)
    (pdu : List UInt8) :
    ¬ ∃ pdu', encodeRequest r = .ok pdu' ∧ SameUpToCoilPadding pdu pdu' := by
  rintro ⟨pdu', henc, -⟩
  rw [encodeRequest, h] at henc
  cases henc

/-- A PDU under a data-access code that decodes is what the encoder sends for the
decoded request, up to coil padding, exactly when it is neither an empty record
list nor an oversized file write. -/
theorem encodeRequest_decodeRequest_iff (pdu : List UInt8) (d : DecodedRequest)
    (hlen : pdu.length ≤ 253) (hcode : pdu.getD 0 0 ∈ dataAccessCodes)
    (h : decodeRequest pdu = .ok d) :
    (∃ pdu', encodeRequest d.request = .ok pdu' ∧ SameUpToCoilPadding pdu pdu') ↔
      ¬ EmptyRecordList pdu ∧ ¬ OversizedFileWrite pdu := by
  rcases pdu with _ | ⟨function, data⟩
  · cases h
  simp only [decodeRequest, bind_eq_ok, Except.ok.injEq] at h
  obtain ⟨r, h, rfl⟩ := h
  have hdata : data.length ≤ 252 := by simp only [List.length_cons] at hlen; omega
  simp only [EmptyRecordList, OversizedFileWrite, List.getD_cons_zero, List.getD_cons_succ] at hcode ⊢
  simp only [dataAccessCodes, List.mem_cons, List.not_mem_nil, or_false] at hcode
  have hexact : ∀ code : UInt8, function = code → code ≠ 0x14 → code ≠ 0x15 →
      (∃ pdu', encodeRequest r = .ok pdu' ∧ SameUpToCoilPadding (function :: data) pdu') →
      ((∃ pdu', encodeRequest r = .ok pdu' ∧ SameUpToCoilPadding (function :: data) pdu') ↔
        ¬ ((function = 0x14 ∨ function = 0x15) ∧ data.getD 0 0 = 0) ∧
          ¬ (function = 0x15 ∧ 0xF5 < data.getD 0 0)) := by
    rintro code rfl h14 h15 hsent
    simp [hsent, h14, h15]
  rcases hcode with rfl | rfl | rfl | rfl | rfl | rfl | rfl | rfl | rfl | rfl | rfl | rfl | rfl
  · exact hexact 0x01 rfl (by decide) (by decide)
      (sent_of_encodeFields hlen (@encode_decodeReadBits .coils _ _ h))
  · exact hexact 0x02 rfl (by decide) (by decide)
      (sent_of_encodeFields hlen (@encode_decodeReadBits .discreteInputs _ _ h))
  · exact hexact 0x03 rfl (by decide) (by decide)
      (sent_of_encodeFields hlen (@encode_decodeReadRegisters .holdingRegisters _ _ h))
  · exact hexact 0x04 rfl (by decide) (by decide)
      (sent_of_encodeFields hlen (@encode_decodeReadRegisters .inputRegisters _ _ h))
  · exact hexact 0x05 rfl (by decide) (by decide)
      (sent_of_encodeFields hlen (encode_decodeWriteSingleCoil h))
  · exact hexact 0x06 rfl (by decide) (by decide)
      (sent_of_encodeFields hlen (encode_decodeWriteSingleRegister h))
  · obtain ⟨address, quantity, count, coils, rfl, hcoils, rfl, henc⟩ :=
      encode_decodeWriteMultipleCoils h
    refine hexact 0x0F rfl (by decide) (by decide) ⟨_, (encodeRequest_eq_ok).mpr ⟨_, henc, ?_, rfl⟩,
      sameUpToCoilPadding_coils hcoils⟩
    simp only [List.length_append, length_toBeBytes, List.length_cons, length_packBits,
      length_unpackBits, ← hcoils, MAX_PDU_LEN] at hlen ⊢
    omega
  · exact hexact 0x10 rfl (by decide) (by decide)
      (sent_of_encodeFields hlen (encode_decodeWriteMultipleRegisters h))
  · -- 0x14: only the empty list is accepted and never sent
    obtain ⟨records, hrec, rfl⟩ : ∃ records, decodeFileReads data = .ok records ∧
        ModbusRequest.readFileRecord records = r := by
      cases hd : decodeFileReads data with
      | error e => simp [decodeFields, hd] at h
      | ok records => exact ⟨records, rfl, by simpa [decodeFields, hd] using h⟩
    obtain ⟨hnil, henc⟩ := encode_decodeFileReads hrec hdata
    by_cases hz : data.getD 0 0 = 0
    · have herr : encodeFields (.readFileRecord records) =
          .error "at least one file record is required" := by
        rw [hnil.mpr hz]
        rfl
      simp only [hz, not_sent_of_error herr]
      simp
    · have hsent := sent_of_encodeFields (r := .readFileRecord records) hlen
        ⟨rfl, henc fun e => hz (hnil.mp e)⟩
      simp only [hsent, hz]
      simp
  · -- 0x15: neither the empty list nor a byte count above 0xF5 is ever sent
    obtain ⟨records, hrec, rfl⟩ : ∃ records, decodeFileWrites data = .ok records ∧
        ModbusRequest.writeFileRecord records = r := by
      cases hd : decodeFileWrites data with
      | error e => simp [decodeFields, hd] at h
      | ok records => exact ⟨records, rfl, by simpa [decodeFields, hd] using h⟩
    obtain ⟨hnil, henc⟩ := encode_decodeFileWrites hrec
    by_cases hz : data.getD 0 0 = 0
    · rw [if_pos (hnil.mpr hz)] at henc
      simp only [hz, not_sent_of_error henc]
      simp
    · rw [if_neg fun e => hz (hnil.mp e)] at henc
      by_cases hbig : 0xF5 < data.getD 0 0
      · rw [if_pos hbig] at henc
        simp only [hbig, not_sent_of_error henc]
        simp
      · rw [if_neg hbig] at henc
        have hsent := sent_of_encodeFields (r := .writeFileRecord records) hlen ⟨rfl, henc⟩
        simp only [hsent, hz, hbig]
        simp
  · exact hexact 0x16 rfl (by decide) (by decide)
      (sent_of_encodeFields hlen (encode_decodeMaskWriteRegister h))
  · exact hexact 0x17 rfl (by decide) (by decide)
      (sent_of_encodeFields hlen (encode_decodeReadWriteMultipleRegisters h))
  · exact hexact 0x18 rfl (by decide) (by decide)
      (sent_of_encodeFields hlen (encode_decodeReadFifoQueue h))

theorem encodeRequest_decodeRequest_iff_coils :
    ∃ pdu', encodeRequest (.writeMultipleCoils 5 [true, false]) = .ok pdu' ∧
      SameUpToCoilPadding [0x0F, 0, 5, 0, 2, 1, 0xFD] pdu' :=
  (encodeRequest_decodeRequest_iff [0x0F, 0, 5, 0, 2, 1, 0xFD]
    ⟨0x0F, .writeMultipleCoils 5 [true, false]⟩ (by decide) (by decide) (by decide)).mpr
    ⟨fun h => absurd h.1 (by decide), fun h => absurd h.1 (by decide)⟩

/-- The decoder accepts a read-file request without records, which the encoder
refuses to send. -/
theorem decodeRequest_accepts_empty_records :
    ¬ ∀ (pdu : List UInt8) (d : DecodedRequest), pdu.length ≤ 253 →
      pdu.getD 0 0 ∈ dataAccessCodes → decodeRequest pdu = .ok d →
        ∃ pdu', encodeRequest d.request = .ok pdu' ∧ SameUpToCoilPadding pdu pdu' := by
  intro h
  obtain ⟨pdu', henc, -⟩ := h [0x14, 0x00] ⟨0x14, .readFileRecord []⟩ (by decide) (by decide)
    (by decide)
  cases henc

end TauTerm.Modbus
