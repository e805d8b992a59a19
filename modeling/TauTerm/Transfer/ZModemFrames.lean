import Mathlib
import TauTerm.Transfer.CrcBits
import TauTerm.Transfer.ZModem

/-!
# What a reader makes of a frame

The bytes of a frame, with anything behind them. A header in binary comes back as it
was sent, one in hexadecimal with its four bytes in the opposite order; a data frame
comes back with its payload and end, and in CRC-16 with the bytes of the checksum
taken the wrong way round.
-/

namespace TauTerm.Transfer.ZModem

open TauTerm.Transfer

/-- The bytes that a port delivers in time. -/
def onWire (bytes : List UInt8) : Wire := bytes.map some

@[simp] theorem onWire_nil : onWire [] = [] := rfl

@[simp] theorem onWire_cons (byte : UInt8) (bytes : List UInt8) :
    onWire (byte :: bytes) = some byte :: onWire bytes := rfl

@[simp] theorem onWire_append (bytes more : List UInt8) :
    onWire (bytes ++ more) = onWire bytes ++ onWire more := List.map_append

theorem andThen_ok {α β : Type} {reader : Reader α} {wire rest : Wire} {a : α}
    (h : reader wire = (.ok a, rest)) (next : α → Reader β) :
    andThen reader next wire = next a rest := by
  rw [andThen, h]

theorem andThen_readByte {β : Type} (context : String) (byte : UInt8) (wire : Wire)
    (next : UInt8 → Reader β) :
    andThen (readByteRequired context) next (some byte :: wire) = next byte wire := rfl

/-! ## Headers -/

theorem receiveFrame_kind (kind : UInt8) (wire : Wire) :
    receiveFrame (some zpad :: some zpad :: some kind :: wire) =
      receiveKind (some kind :: wire) := by
  simp [receiveFrame, andThen, awaitPad, secondPad, readByte]

theorem receiveFrame_binary (useCrc32 : Bool) (wire : Wire) :
    receiveFrame (onWire [zpad, zpad, zdle, binType useCrc32] ++ wire) =
      receiveBinaryFrame (binType useCrc32) wire := by
  change receiveFrame (some zpad :: some zpad :: some zdle :: some (binType useCrc32) :: wire) = _
  rw [receiveFrame_kind]
  cases useCrc32 <;> rfl

theorem skipHeaderCrc_headerCrc (useCrc32 : Bool) (frameType : UInt8) (hdr : HeaderBytes)
    (wire : Wire) :
    skipHeaderCrc useCrc32 (onWire (headerCrc useCrc32 frameType hdr) ++ wire) = (.ok (), wire) := by
  cases useCrc32 <;> rfl

/-- What a binary header is followed by. -/
theorem receiveFrame_sendBinaryHeader (frameType : UInt8) (hdr : HeaderBytes) (useCrc32 : Bool)
    (wire : Wire) :
    receiveFrame (onWire (sendBinaryHeader frameType hdr useCrc32) ++ wire) =
      if frameType = zdata ∨ frameType = zfile then receivePayload useCrc32 frameType [] wire
      else (.ok (.header frameType hdr), wire) := by
  have hbin : decide (binType useCrc32 = zbin32) = useCrc32 := by cases useCrc32 <;> decide
  obtain ⟨b0, b1, b2, b3⟩ := hdr
  rw [sendBinaryHeader, onWire_append, onWire_append, List.append_assoc, List.append_assoc,
    receiveFrame_binary]
  change andThen (skipHeaderCrc (decide (binType useCrc32 = zbin32))) _
    (onWire (headerCrc useCrc32 frameType ⟨b0, b1, b2, b3⟩) ++ wire) = _
  rw [hbin, andThen_ok (skipHeaderCrc_headerCrc ..)]
  split_ifs <;> rfl

theorem hexDigit_spec {nibble : UInt8} (h : nibble.toNat < 16) :
    (isHexDigit (hexDigit nibble) = true ∧ hexDigit nibble ≠ lf ∧ hexDigit nibble ≠ cr) ∧
      hexValue (hexDigit nibble) = nibble := by
  have hall : ∀ i : Fin 16, (isHexDigit (hexDigit (UInt8.ofNat i)) = true ∧
      hexDigit (UInt8.ofNat i) ≠ lf ∧ hexDigit (UInt8.ofNat i) ≠ cr) ∧
      hexValue (hexDigit (UInt8.ofNat i)) = UInt8.ofNat i := by
    decide
  have hnibble := hall ⟨nibble.toNat, h⟩
  rwa [UInt8.ofNat_toNat] at hnibble

theorem toNat_high (byte : UInt8) : (byte >>> 4).toNat = byte.toNat / 16 := by
  rw [UInt8.toNat_shiftRight, Nat.shiftRight_eq_div_pow]
  rfl

theorem toNat_low (byte : UInt8) : (byte &&& 0xF).toNat = byte.toNat % 16 := by
  rw [UInt8.toNat_and]
  exact Nat.and_two_pow_sub_one_eq_mod byte.toNat 4

theorem isHexDigit_hexByte (byte : UInt8) : ∀ digit ∈ hexByte byte,
    isHexDigit digit = true ∧ digit ≠ lf ∧ digit ≠ cr := by
  have hbyte := byte.toNat_lt
  have hhigh : (byte >>> 4).toNat < 16 := by
    rw [toNat_high]
    omega
  have hlow : (byte &&& 0xF).toNat < 16 := by
    rw [toNat_low]
    omega
  simp only [hexByte, List.forall_mem_cons]
  exact ⟨(hexDigit_spec hhigh).1, (hexDigit_spec hlow).1, nofun⟩

theorem fromHex_hexByte (byte : UInt8) :
    fromHex (hexDigit (byte >>> 4)) (hexDigit (byte &&& 0xF)) = byte := by
  have hbyte := byte.toNat_lt
  have hhigh : (byte >>> 4).toNat < 16 := by
    rw [toNat_high]
    omega
  have hlow : (byte &&& 0xF).toNat < 16 := by
    rw [toNat_low]
    omega
  rw [fromHex, (hexDigit_spec hhigh).2, (hexDigit_spec hlow).2]
  apply UInt8.toNat_inj.mp
  have h16 : UInt8.toNat 16 = 16 := rfl
  rw [UInt8.toNat_add, UInt8.toNat_mul, toNat_high, toNat_low, h16]
  omega

/-- Digits are collected up to the line feed. -/
theorem readHexDigits_digits {digits : List UInt8}
    (h : ∀ digit ∈ digits, isHexDigit digit = true ∧ digit ≠ lf ∧ digit ≠ cr) (n : Nat)
    (wire : Wire) :
    readHexDigits (digits.length + 2 + n) (onWire (digits ++ [cr, lf]) ++ wire) =
      (.ok digits, wire) := by
  induction digits with
  | nil => rw [List.length_nil, Nat.add_comm 0 2, Nat.add_comm 2 n]; rfl
  | cons digit digits ih =>
    obtain ⟨hdigit, hlf, hcr⟩ := h digit List.mem_cons_self
    have hrest := ih fun digit hmem => h digit (List.mem_cons_of_mem _ hmem)
    rw [List.length_cons, show digits.length + 1 + 2 + n = (digits.length + 2 + n) + 1 by omega,
      readHexDigits, List.cons_append, onWire_cons, List.cons_append, andThen_readByte,
      if_neg hlf, if_neg hcr, if_pos hdigit, andThen_ok hrest]

/-- A header in hexadecimal comes back with its bytes in the opposite order. -/
theorem receiveFrame_sendHexHeader (frameType : UInt8) (hdr : HeaderBytes) (wire : Wire) :
    receiveFrame (onWire (sendHexHeader frameType hdr) ++ wire) =
      (.ok (.header frameType ⟨hdr.b3, hdr.b2, hdr.b1, hdr.b0⟩), some xon :: wire) := by
  let crc := crc16Ccitt (frameType :: hdr.toList)
  let digits := hexByte frameType ++ hexByte hdr.zf0 ++ hexByte hdr.zf1 ++ hexByte hdr.zf2 ++
    hexByte hdr.zf3 ++ hexByte (crc >>> 8).toUInt8 ++ hexByte crc.toUInt8
  have hdigits : ∀ digit ∈ digits, isHexDigit digit = true ∧ digit ≠ lf ∧ digit ≠ cr := by
    intro digit hmem
    simp only [digits, List.mem_append] at hmem
    rcases hmem with (((((h | h) | h) | h) | h) | h) | h
    all_goals exact isHexDigit_hexByte _ digit h
  have hread : readHexDigits 20 (onWire (digits ++ [cr, lf]) ++ some xon :: wire) =
      (.ok digits, some xon :: wire) := readHexDigits_digits hdigits 4 _
  have hwire : onWire (sendHexHeader frameType hdr) ++ wire =
      some zpad :: some zpad :: some zhex :: (onWire (digits ++ [cr, lf]) ++ some xon :: wire) := by
    simp [sendHexHeader, digits, crc]
  rw [hwire, receiveFrame_kind]
  change receiveHexFrame (onWire (digits ++ [cr, lf]) ++ some xon :: wire) = _
  rw [receiveHexFrame, andThen_ok hread]
  simp only [digits, hexByte, List.cons_append, List.nil_append, fromHex_hexByte]
  rfl

/-! ## Data frames -/

/-- An escaped byte is no frame end and no cancel. -/
theorem escaped_plain {byte : UInt8} (h : needsEscaping byte = true) :
    isFrameEnd (byte ^^^ 0x40) = false ∧ byte ^^^ 0x40 ≠ zcan ∧ (byte ^^^ 0x40) ^^^ 0x40 = byte := by
  simp only [needsEscaping, Bool.or_eq_true, decide_eq_true_eq] at h
  rcases h with ((((rfl | rfl) | rfl) | rfl) | rfl) | rfl <;> decide

theorem receivePayload_byte (useCrc32 : Bool) (frameType byte : UInt8) (rawData : List UInt8)
    (wire : Wire) :
    receivePayload useCrc32 frameType rawData (onWire (escape byte) ++ wire) =
      receivePayload useCrc32 frameType (rawData ++ [byte]) wire := by
  unfold escape
  by_cases h : needsEscaping byte = true
  · obtain ⟨hend, hcan, hback⟩ := escaped_plain h
    rw [if_pos h]
    simp only [onWire_cons, onWire_nil, List.cons_append, List.nil_append, receivePayload, if_true,
      hend, if_neg hcan, hback, Bool.false_eq_true, if_false]
  · have hne : byte ≠ zdle := fun heq => h (by rw [heq]; decide)
    rw [if_neg h]
    simp only [onWire_cons, onWire_nil, List.cons_append, List.nil_append]
    rw [receivePayload.eq_def]
    simp only [if_neg hne]

theorem receivePayload_bytes (useCrc32 : Bool) (frameType : UInt8) (bytes rawData : List UInt8)
    (wire : Wire) :
    receivePayload useCrc32 frameType rawData (onWire (bytes.flatMap escape) ++ wire) =
      receivePayload useCrc32 frameType (rawData ++ bytes) wire := by
  induction bytes generalizing rawData with
  | nil => simp
  | cons byte bytes ih =>
    rw [List.flatMap_cons, onWire_append, List.append_assoc, receivePayload_byte, ih]
    simp

theorem receivePayload_end (useCrc32 : Bool) (frameType : UInt8) (rawData : List UInt8)
    {frameend : UInt8} (hend : isFrameEnd frameend = true) (wire : Wire) :
    receivePayload useCrc32 frameType rawData (onWire [zdle, frameend] ++ wire) =
      (.ok (closeFrame useCrc32 frameType rawData frameend), wire) := by
  simp only [onWire_cons, onWire_nil, List.cons_append, List.nil_append, receivePayload, if_true,
    hend]

theorem length_dataCrc (useCrc32 : Bool) (data : List UInt8) :
    (dataCrc useCrc32 data).length = if useCrc32 then 4 else 2 := by
  cases useCrc32 <;> rfl

theorem closeFrame_dataCrc (useCrc32 : Bool) (frameType : UInt8) (data : List UInt8)
    (frameend : UInt8) :
    closeFrame useCrc32 frameType (data ++ dataCrc useCrc32 data) frameend =
      .data frameType data frameend (some (crcMatches useCrc32 data (dataCrc useCrc32 data))) := by
  have hlen : (data ++ dataCrc useCrc32 data).length - (if useCrc32 then 4 else 2) = data.length := by
    rw [List.length_append, length_dataCrc, Nat.add_sub_cancel]
  have hle : ¬ (data ++ dataCrc useCrc32 data).length < if useCrc32 then 4 else 2 := by
    rw [List.length_append, length_dataCrc]
    omega
  unfold closeFrame
  rw [if_neg hle]
  simp only [hlen, List.take_left, List.drop_left]

/-- A data frame comes back with its type, payload and end, and nothing behind it is read. -/
theorem receiveFrame_sendDataFrameWithHeader {frameType : UInt8}
    (htype : frameType = zdata ∨ frameType = zfile) (data : List UInt8) {frameend : UInt8}
    (hend : isFrameEnd frameend = true) (useCrc32 : Bool) (wire : Wire) :
    receiveFrame (onWire (sendDataFrameWithHeader frameType data frameend useCrc32) ++ wire) =
      (.ok (.data frameType data frameend
        (some (crcMatches useCrc32 data (dataCrc useCrc32 data)))), wire) := by
  rw [sendDataFrameWithHeader, onWire_append, onWire_append, onWire_append, List.append_assoc,
    List.append_assoc, List.append_assoc, receiveFrame_sendBinaryHeader, if_pos htype,
    receivePayload_bytes, receivePayload_bytes, receivePayload_end _ _ _ hend, List.nil_append,
    closeFrame_dataCrc]

theorem fromLe32_crc32Le (crc : UInt32) : fromLe32 (crc32Le crc) = crc := by
  apply UInt32.toNat_inj.mp
  have hcrc : crc.toNat < 2 ^ 32 := crc.toNat_lt
  have h8 : (crc >>> 8).toNat = crc.toNat / 2 ^ 8 := Nat.shiftRight_eq_div_pow ..
  have h16 : (crc >>> 16).toNat = crc.toNat / 2 ^ 16 := Nat.shiftRight_eq_div_pow ..
  have h24 : (crc >>> 24).toNat = crc.toNat / 2 ^ 24 := Nat.shiftRight_eq_div_pow ..
  simp only [crc32Le, fromLe32, UInt32.toNat_ofNat', UInt32.toNat_toUInt8, h8, h16, h24]
  omega

theorem fromLe16_swapped (crc : UInt16) :
    crc = fromLe16 [(crc >>> 8).toUInt8, crc.toUInt8] ↔ (crc >>> 8).toUInt8 = crc.toUInt8 := by
  have hcrc : crc.toNat < 2 ^ 16 := crc.toNat_lt
  rw [fromLe16, ← UInt16.toNat_inj, Lib.toNat_ofBeBytes, ← UInt8.toNat_inj, Lib.toNat_hi,
    Lib.toNat_lo]
  omega

/-- The two ends of CRC-16 agree exactly where the bytes of the checksum are equal. -/
theorem crcMatches_dataCrc (useCrc32 : Bool) (data : List UInt8) :
    crcMatches useCrc32 data (dataCrc useCrc32 data) = true ↔
      useCrc32 = true ∨ (crc16Ccitt data >>> 8).toUInt8 = (crc16Ccitt data).toUInt8 := by
  cases useCrc32 with
  | true =>
    refine iff_of_true ?_ (.inl rfl)
    exact beq_iff_eq.mpr (fromLe32_crc32Le _).symm
  | false =>
    refine Iff.trans beq_iff_eq ((fromLe16_swapped _).trans ?_)
    simp

/-! ## Round trips -/

/-- The writers of data frames: `send_data_frame`, and `send_data_frame_with_header` for a file. -/
inductive DataWriter where
  | dataFrame
  | fileFrame
  deriving DecidableEq

def DataWriter.frameType : DataWriter → UInt8
  | .dataFrame => zdata
  | .fileFrame => zfile

def DataWriter.write : DataWriter → List UInt8 → UInt8 → Bool → List UInt8
  | .dataFrame => sendDataFrame
  | .fileFrame => sendDataFrameWithHeader zfile

/-- The reader consumes the frame, returns it, and finds its checksum right. -/
def DataRoundTrip (writer : DataWriter) (payload : List UInt8) (frameend : UInt8)
    (useCrc32 : Bool) : Prop :=
  ∀ wire, receiveFrame (onWire (writer.write payload frameend useCrc32) ++ wire) =
    (.ok (.data writer.frameType payload frameend (some true)), wire)

theorem receiveFrame_write (writer : DataWriter) (payload : List UInt8) {frameend : UInt8}
    (hend : isFrameEnd frameend = true) (useCrc32 : Bool) (wire : Wire) :
    receiveFrame (onWire (writer.write payload frameend useCrc32) ++ wire) =
      (.ok (.data writer.frameType payload frameend
        (some (crcMatches useCrc32 payload (dataCrc useCrc32 payload)))), wire) := by
  cases writer with
  | dataFrame => exact receiveFrame_sendDataFrameWithHeader (.inl rfl) payload hend useCrc32 wire
  | fileFrame => exact receiveFrame_sendDataFrameWithHeader (.inr rfl) payload hend useCrc32 wire

theorem data_roundTrip_iff (writer : DataWriter) (payload : List UInt8) (frameend : UInt8)
    (hend : isFrameEnd frameend = true) (useCrc32 : Bool) :
    DataRoundTrip writer payload frameend useCrc32 ↔
      useCrc32 = true ∨ (crc16Ccitt payload >>> 8).toUInt8 = (crc16Ccitt payload).toUInt8 := by
  rw [← crcMatches_dataCrc]
  simp only [DataRoundTrip, receiveFrame_write writer payload hend]
  constructor
  · intro h
    have hframe := Except.ok.inj (congrArg Prod.fst (h []))
    simpa using hframe
  · intro h wire
    rw [h]

theorem data_roundTrip_crc32 : DataRoundTrip .dataFrame [0x18, 0xff] zcrcw true :=
  (data_roundTrip_iff .dataFrame [0x18, 0xff] zcrcw (by decide) true).mpr (.inl rfl)

set_option maxRecDepth 20000 in
/-- In CRC-16 the checksum of a payload of one byte is not recognised. -/
theorem data_crc16_mismatch :
    ¬ DataRoundTrip .dataFrame [0x01] zcrcw false ∧
    receiveFrame (onWire (sendDataFrame [0x01] zcrcw false)) =
      (.ok (.data zdata [0x01] zcrcw (some false)), []) := by
  have hread : receiveFrame (onWire (sendDataFrame [0x01] zcrcw false)) =
      (.ok (.data zdata [0x01] zcrcw (some false)), []) := by
    decide
  refine ⟨fun h => ?_, hread⟩
  have hgood := h []
  rw [List.append_nil] at hgood
  have hsame : ZFrame.data zdata [0x01] zcrcw (some false) = .data zdata [0x01] zcrcw (some true) :=
    Except.ok.inj (congrArg Prod.fst (hread.symm.trans hgood))
  injection hsame with _ _ _ hcrc
  cases hcrc

inductive HeaderWriter where
  | hex
  | binary (useCrc32 : Bool)
  deriving DecidableEq

def HeaderWriter.write : HeaderWriter → UInt8 → HeaderBytes → List UInt8
  | .hex, frameType, hdr => sendHexHeader frameType hdr
  | .binary useCrc32, frameType, hdr => sendBinaryHeader frameType hdr useCrc32

/-- The reader returns the header that was sent. -/
def HeaderRoundTrip (writer : HeaderWriter) (frameType : UInt8) (hdr : HeaderBytes) : Prop :=
  ∀ wire, (receiveFrame (onWire (writer.write frameType hdr) ++ wire)).1 =
    .ok (.header frameType hdr)

/-- `flags[ZF0] & CANFC32 != 0`, of a header that is received. -/
def receiverCrc32 : Except String ZFrame → Bool
  | .ok (.header _ flags) => flags.zf0 &&& canfc32 != 0
  | _ => false

/-- The sender finds the capability that the receiver put at `ZF0`. -/
def CapabilityAgrees (writer : HeaderWriter) (frameType : UInt8) (hdr : HeaderBytes) : Prop :=
  ∀ wire, receiverCrc32 (receiveFrame (onWire (writer.write frameType hdr) ++ wire)).1 =
    (hdr.zf0 &&& canfc32 != 0)

theorem capability_of_roundTrip {writer : HeaderWriter} {frameType : UInt8} {hdr : HeaderBytes}
    (h : HeaderRoundTrip writer frameType hdr) : CapabilityAgrees writer frameType hdr := by
  intro wire
  rw [h wire]
  rfl

theorem header_roundTrip_iff (writer : HeaderWriter) (frameType : UInt8)
    (htype : frameType ≠ zdata ∧ frameType ≠ zfile) (hdr : HeaderBytes) :
    HeaderRoundTrip writer frameType hdr ∧ CapabilityAgrees writer frameType hdr ↔
      (writer = .hex → hdr.b0 = hdr.b3 ∧ hdr.b1 = hdr.b2) := by
  refine (and_iff_left_of_imp capability_of_roundTrip).trans ?_
  obtain ⟨b0, b1, b2, b3⟩ := hdr
  cases writer with
  | hex =>
    simp only [HeaderRoundTrip, HeaderWriter.write, receiveFrame_sendHexHeader, forall_const,
      Except.ok.injEq, ZFrame.header.injEq, HeaderBytes.mk.injEq, true_and]
    constructor
    · rintro ⟨h3, h2, -, -⟩
      exact ⟨h3.symm, h2.symm⟩
    · rintro ⟨rfl, rfl⟩
      exact ⟨rfl, rfl, rfl, rfl⟩
  | binary useCrc32 =>
    have hplain : ¬ (frameType = zdata ∨ frameType = zfile) := not_or.mpr htype
    simp [HeaderRoundTrip, HeaderWriter.write, receiveFrame_sendBinaryHeader, hplain]

theorem header_roundTrip_binary :
    HeaderRoundTrip (.binary true) zrinit ⟨0, 0, 0, canfc32 ||| canfdx⟩ ∧
    CapabilityAgrees (.binary true) zrinit ⟨0, 0, 0, canfc32 ||| canfdx⟩ :=
  (header_roundTrip_iff (.binary true) zrinit (by decide) ⟨0, 0, 0, canfc32 ||| canfdx⟩).mpr nofun

set_option maxRecDepth 20000 in
/-- The sender does not find the capability in the first `ZRINIT` of a receiver. -/
theorem hex_header_permuted :
    ¬ HeaderRoundTrip .hex zrinit ⟨0, 0, 0, canfc32 ||| canfdx⟩ ∧
    ¬ CapabilityAgrees .hex zrinit ⟨0, 0, 0, canfc32 ||| canfdx⟩ := by
  have hlost : receiverCrc32 (receiveFrame
      (onWire (HeaderWriter.hex.write zrinit ⟨0, 0, 0, canfc32 ||| canfdx⟩) ++ [])).1 = false := by
    decide
  have hagrees : ¬ CapabilityAgrees .hex zrinit ⟨0, 0, 0, canfc32 ||| canfdx⟩ := by
    intro h
    have hbit : (HeaderBytes.zf0 ⟨0, 0, 0, canfc32 ||| canfdx⟩ &&& canfc32 != 0) = true := by decide
    cases hlost.symm.trans ((h []).trans hbit)
  exact ⟨fun h => hagrees (capability_of_roundTrip h), hagrees⟩

end TauTerm.Transfer.ZModem
