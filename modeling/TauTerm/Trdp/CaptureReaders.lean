import Mathlib
import TauTerm.Lib.Checked
import TauTerm.Trdp.PcapNg

/-!
# Capture files that are not what they claim

`visit_pcap` and `visit_pcapng` with every sum, difference, index and range that they compute. A
file gives its bytes in pieces: `chunk` says how many a call to `read` returns, of the bytes that are
left and the room there is in the buffer.

`visitPcapng_eq` says that the checked reader is the one of `PcapNg`, so it never panics.
-/

namespace TauTerm.Trdp.Capture

open Lib Lib.Checked

abbrev Run (α : Type) : Type := Checked String α

/-! ## Words -/

section Words

variable {ε : Type}

/-- `*data.get(offset + i)?` for `n` bytes from the `i`-th on. -/
def getBytes (data : List UInt8) (offset : Nat) : Nat → Nat → Checked ε (Option (List UInt8))
  | _, 0 => .ok (some [])
  | i, n + 1 => do
    let position ← add offset i
    match data[position]? with
    | none => .ok none
    | some byte =>
      let bytes ← getBytes data offset (i + 1) n
      .ok (bytes.map (byte :: ·))

def readWord (width : Nat) (data : List UInt8) (offset : Nat) (littleEndian : Bool) :
    Checked ε (Option Nat) := do
  let bytes ← getBytes data offset 0 width
  .ok (bytes.map fun bytes => if littleEndian then ofLeBytes bytes else ofBeList bytes)

def readU16 (data : List UInt8) (offset : Nat) (littleEndian : Bool) : Checked ε (Option Nat) :=
  readWord 2 data offset littleEndian

def readU32 (data : List UInt8) (offset : Nat) (littleEndian : Bool) : Checked ε (Option Nat) :=
  readWord 4 data offset littleEndian

variable {data : List UInt8} {offset : Nat}

theorem getBytes_eq (hdata : data.length < WORD) {i n : Nat} (hoffset : offset + i < WORD) :
    (getBytes data offset i n : Checked ε _) =
      .ok (if ((data.drop (offset + i)).take n).length = n then some ((data.drop (offset + i)).take n)
        else none) := by
  induction n generalizing i with
  | zero => simp [getBytes]
  | succ n ih =>
    rw [getBytes, add_ok hoffset, ok_bind]
    by_cases hlt : offset + i < data.length
    · rw [List.getElem?_eq_getElem hlt, List.drop_eq_getElem_cons hlt]
      simp only
      rw [ih (by omega), ok_bind, Nat.add_assoc, List.take_succ_cons, List.length_cons]
      by_cases hlen : ((data.drop (offset + (i + 1))).take n).length = n
      · rw [if_pos hlen, if_pos (by omega)]
        rfl
      · rw [if_neg hlen, if_neg (by omega)]
        rfl
    · rw [List.getElem?_eq_none (not_lt.mp hlt), List.drop_eq_nil_of_le (not_lt.mp hlt)]
      simp

/-- A word is read without a panic. -/
theorem readWord_eq (hdata : data.length < WORD) (hoffset : offset < WORD) (width : Nat)
    (littleEndian : Bool) :
    (readWord width data offset littleEndian : Checked ε _) =
      .ok (Trdp.readWord width data offset littleEndian) := by
  rw [readWord, getBytes_eq hdata (i := 0) hoffset, ok_bind, Nat.add_zero, Trdp.readWord]
  by_cases hlen : ((data.drop offset).take width).length = width
  · simp only [hlen, if_true, Option.map_some]
  · simp only [hlen, if_false, Option.map_none]

theorem readU16_eq (hdata : data.length < WORD) (hoffset : offset < WORD) (littleEndian : Bool) :
    (readU16 data offset littleEndian : Checked ε _) = .ok (Trdp.readU16 data offset littleEndian) :=
  readWord_eq hdata hoffset 2 littleEndian

theorem readU32_eq (hdata : data.length < WORD) (hoffset : offset < WORD) (littleEndian : Bool) :
    (readU32 data offset littleEndian : Checked ε _) = .ok (Trdp.readU32 data offset littleEndian) :=
  readWord_eq hdata hoffset 4 littleEndian

end Words

/-! ## Reading -/

section Files

variable (chunk : Nat → Nat → Nat)

/-- How many bytes a call to `read` returns: none at the end of the file only. -/
def readCount (left room : Nat) : Nat := min (max 1 (chunk left room)) (min left room)

/-- One turn of `read_exact_or_eof`, with what is in the buffer and the rest of the file. -/
def readTurn (n : Nat) (state : List UInt8 × List UInt8) :
    Run ((List UInt8 × List UInt8) ⊕ Option (List UInt8 × List UInt8)) :=
  let (buffer, reader) := state
  if buffer.length < n then do
    let room ← sub n buffer.length
    let read := readCount chunk reader.length room
    if read = 0 then
      if buffer.length = 0 then .ok (.inr none) else fail "抓包文件在记录中途结束"
    else
      let _ ← add buffer.length read
      .ok (.inl (buffer ++ reader.take read, reader.drop read))
  else .ok (.inr (some (buffer, reader)))

def readExactOrEof (n : Nat) (reader : List UInt8) : Run (Option (List UInt8 × List UInt8)) :=
  loop (readTurn chunk n) (n + 1) ([], reader)

/-- The whole of it, once the buffer holds something. -/
def readValue (n : Nat) (state : List UInt8 × List UInt8) :
    Except String (Option (List UInt8 × List UInt8)) :=
  if n ≤ state.1.length + state.2.length then
    .ok (some (state.1 ++ state.2.take (n - state.1.length), state.2.drop (n - state.1.length)))
  else if state.1 = [] ∧ state.2 = [] then .ok none
  else .error "抓包文件在记录中途结束"

theorem readValue_move {n count : Nat} {buffer reader : List UInt8} (hpos : 0 < count)
    (hle : buffer.length + count ≤ n) (hleft : count ≤ reader.length) :
    readValue n (buffer ++ reader.take count, reader.drop count) = readValue n (buffer, reader) := by
  have hreader : reader ≠ [] := by
    rintro rfl
    exact absurd hleft (not_le.mpr hpos)
  have hbuffer : (buffer ++ reader.take count).length = buffer.length + count := by
    rw [List.length_append, List.length_take, Nat.min_eq_left hleft]
  have hlength : (buffer ++ reader.take count).length + (reader.drop count).length =
      buffer.length + reader.length := by
    rw [hbuffer, List.length_drop]
    omega
  have hn : n - buffer.length = count + (n - (buffer.length + count)) := by omega
  unfold readValue
  rw [hlength]
  by_cases hfull : n ≤ buffer.length + reader.length
  · rw [if_pos hfull, if_pos hfull]
    simp only [hbuffer]
    rw [hn, List.take_add, List.append_assoc, List.drop_drop]
  · have hnone : ¬ (buffer ++ reader.take count = [] ∧ reader.drop count = []) := by
      rintro ⟨hnil, -⟩
      rw [hnil, List.length_nil] at hbuffer
      omega
    rw [if_neg hfull, if_neg hfull, if_neg hnone, if_neg fun h => hreader h.2]

/-- A turn reads more into the buffer, or all has been read. -/
theorem readTurn_eq {n : Nat} (hn : n < WORD) {buffer reader : List UInt8}
    (hbuffer : buffer.length ≤ n) :
    (∃ count, 0 < count ∧ buffer.length + count ≤ n ∧ count ≤ reader.length ∧
        readTurn chunk n (buffer, reader) =
          .ok (.inl (buffer ++ reader.take count, reader.drop count))) ∨
      ((n ≤ buffer.length ∨ reader = []) ∧
        readTurn chunk n (buffer, reader) = (lift (readValue n (buffer, reader))).map .inr) := by
  unfold readTurn
  by_cases hlt : buffer.length < n
  · simp only [hlt, if_true, sub_ok hlt.le, ok_bind]
    have hcount : readCount chunk reader.length (n - buffer.length) ≤
        min reader.length (n - buffer.length) := min_le_right _ _
    by_cases hread : readCount chunk reader.length (n - buffer.length) = 0
    · have hreader : reader = [] := by
        by_contra hne
        have := List.length_pos_of_ne_nil hne
        unfold readCount at hread
        omega
      refine .inr ⟨.inr hreader, ?_⟩
      subst hreader
      rw [if_pos hread, readValue]
      have hnot : ¬ n ≤ buffer.length + ([] : List UInt8).length := by simpa using hlt
      rw [if_neg hnot]
      cases buffer with
      | nil => rfl
      | cons byte buffer => rfl
    · refine .inl ⟨readCount chunk reader.length (n - buffer.length), Nat.pos_of_ne_zero hread,
        by omega, by omega, ?_⟩
      rw [if_neg hread, add_ok (by omega), ok_bind]
  · have hle := not_lt.mp hlt
    refine .inr ⟨.inl hle, ?_⟩
    have heq : n = buffer.length := le_antisymm hle hbuffer
    simp only [hlt, if_false]
    rw [readValue, if_pos (hle.trans (Nat.le_add_right _ _)), heq]
    simp [lift, Except.map]

theorem readExactOrEof_eq {n : Nat} (hn : n < WORD) (reader : List UInt8) :
    readExactOrEof chunk n reader = lift (Trdp.readExactOrEof n reader) := by
  have hvalue : Trdp.readExactOrEof n reader = readValue n ([], reader) := by
    simp [Trdp.readExactOrEof, readValue]
  rw [hvalue, readExactOrEof]
  refine @loop_eq _ _ _ _ (fun state => lift (readValue n state))
      (fun state : List UInt8 × List UInt8 => state.1.length ≤ n)
      (fun state : List UInt8 × List UInt8 => n - state.1.length) ?_ ?_ _ _ (Nat.zero_le _)
      (by simp)
  · rintro ⟨buffer, reader⟩ s' (hbuffer : buffer.length ≤ n) hturn
    obtain ⟨count, hpos, hle, hleft, heq⟩ | ⟨-, heq⟩ := readTurn_eq chunk hn hbuffer
    · rw [heq] at hturn
      cases hturn
      change (buffer ++ reader.take count).length ≤ n ∧
        n - (buffer ++ reader.take count).length < n - buffer.length
      rw [List.length_append, List.length_take, Nat.min_eq_left hleft]
      omega
    · rw [heq] at hturn
      cases hvalue : readValue n (buffer, reader) <;> rw [hvalue] at hturn <;> cases hturn
  · rintro ⟨buffer, reader⟩ (hbuffer : buffer.length ≤ n)
    obtain ⟨count, hpos, hle, hleft, heq⟩ | ⟨-, heq⟩ := readTurn_eq chunk hn hbuffer
    · rw [heq, ok_bind, Sum.elim_inl, readValue_move hpos hle hleft]
    · rw [heq]
      cases readValue n (buffer, reader) <;> rfl

/-! ## pcapng -/

/-- What the options have said so far. -/
abbrev Found := UInt8 × Bool × Option (List Char)

/-- What an option with a value of so many bytes adds. -/
def idbValue (data : List UInt8) (offset code length : Nat) (found : Found) : Run Found :=
  if code = 2 ∧ 0 < length then do
    let value ← slice data offset (← add offset length)
    .ok (found.1, found.2.1, (optionName value).or found.2.2)
  else if code = 9 ∧ 1 ≤ length then do
    let value ← index data offset
    .ok (value &&& 0x7F, value &&& 0x80 != 0, found.2.2)
  else .ok found

/-- One turn of `parse_idb_options`, at an offset. -/
def idbOption (data : List UInt8) (stop : Nat) (littleEndian : Bool) (state : Nat × Found) :
    Run ((Nat × Found) ⊕ Found) := do
  let (offset, found) := state
  if (← add offset 4) ≤ stop then
    let code := (← readU16 data offset littleEndian).getD 0
    let length := (← readU16 data (← add offset 2) littleEndian).getD 0
    let offset ← add offset 4
    if code = 0 then .ok (.inr found)
    else if (← add offset length) > stop then .ok (.inr found)
    else
      let found ← idbValue data offset code length found
      .ok (.inl (← add offset ((← add length 3) / 4 * 4), found))
  else .ok (.inr found)

def parseIdbOptions (data : List UInt8) (blockStart blockLength : Nat) (littleEndian : Bool) :
    Run Found := do
  let offset ← add blockStart 16
  let stop ← sub (← add blockStart blockLength) 4
  loop (idbOption data stop littleEndian) (data.length + 1) (offset, (6, false, none))

def pcapngTimestampToUs (raw : UInt64) (resolution : UInt8) (base2 : Bool) : Run UInt64 :=
  if base2 then
    -- a shift by 128 or more has no result
    let denominator := if resolution.toNat < 128 then 2 ^ resolution.toNat else 2 ^ 128 - 1
    if denominator = 0 then .ok 0
    else do
      .ok (UInt64.ofNat (← div (min (raw.toNat * 1000000) (2 ^ 128 - 1)) denominator))
  else if resolution = 6 then .ok raw
  else if resolution < 6 then do
    let factor ← pow 10 (← sub 6 resolution.toNat)
    .ok (UInt64.ofNat (saturate (raw.toNat * factor)))
  else do
    let divisor ← pow 10 (min (← sub resolution.toNat 6) 19)
    .ok (UInt64.ofNat (← div raw.toNat divisor))

namespace Section

variable (s : Section)

/-- What is missing of a block, read into the room that there is behind the beginning. -/
def readMissing (blockLength : Nat) (initial reader : List UInt8) : Run (List UInt8 × List UInt8) :=
  if blockLength > initial.length then do
    let room ← slice (List.replicate blockLength (0 : UInt8)) initial.length blockLength
    lift (okOr (← readExactOrEof chunk room.length reader) "pcapng block truncated")
  else .ok ([], reader)

/-- The whole block, and what is behind it. -/
def readRest (initial reader : List UInt8) : Run (List UInt8 × List UInt8) := do
  let blockLength ← lift (okOr (← readU32 initial 4 s.littleEndian) "pcapng length invalid")
  lift (Section.checkLength blockLength initial.length)
  let _ ← slice (List.replicate blockLength (0 : UInt8)) 0 initial.length
  let (rest, reader) ← readMissing chunk blockLength initial reader
  let block := initial ++ rest
  let trailingLength ←
    lift (okOr (← readU32 block (← sub blockLength 4) s.littleEndian) "pcapng trailing length invalid")
  if trailingLength ≠ blockLength then fail "pcapng block length mismatch" else .ok (block, reader)

def interfaceBlock (block : List UInt8) : Run Section := do
  let linktype := (← readU16 block 8 s.littleEndian).getD 1
  let options ← parseIdbOptions block 0 block.length s.littleEndian
  .ok { s with
    interfaces := s.interfaces ++
      [{ linktype := UInt32.ofNat linktype
         timestampResolution := options.1
         timestampBase2 := options.2.1
         link := options.2.2.getD (s.defaultLink s.interfaces.length) }] }

/-- An enhanced packet block. -/
def packetBlock (block : List UInt8) : Run CaptureRecord := do
  let interfaceIndex := (← readU32 block 8 s.littleEndian).getD 0
  let timestampHigh := (← readU32 block 12 s.littleEndian).getD 0
  let timestampLow := (← readU32 block 16 s.littleEndian).getD 0
  let capturedLength := (← readU32 block 20 s.littleEndian).getD 0
  if maxCaptureFrameBytes < capturedLength then
    fail ("pcapng packet 过大: " ++ toString capturedLength ++ " bytes（上限 " ++
      toString maxCaptureFrameBytes ++ "）")
  else if (← sub block.length 4) < saturate (28 + capturedLength) then
    fail "pcapng packet length exceeds block size"
  else
    let interface := s.interfaces.getD interfaceIndex (s.defaultInterface interfaceIndex)
    let timestampUs ← pcapngTimestampToUs (UInt64.ofNat (timestampHigh * 2 ^ 32 + timestampLow))
      interface.timestampResolution interface.timestampBase2
    let bytes ← slice block 28 (← add 28 capturedLength)
    .ok (.frame
      { link := interface.link
        timestampUs
        bytes
        linkType := interface.linktype })

/-- A simple packet block. -/
def simplePacketBlock (block : List UInt8) : Run CaptureRecord := do
  let interface := s.interfaces.headD (s.defaultInterface 0)
  let originalLength := (← readU32 block 8 s.littleEndian).getD 0
  let capturedLength := min originalLength (block.length - 16)
  if maxCaptureFrameBytes < capturedLength then
    fail ("pcapng simple packet 过大: " ++ toString capturedLength ++ " bytes")
  else
    let bytes ← slice block 12 (← add 12 capturedLength)
    .ok (.frame
      { link := interface.link
        timestampUs := 0
        bytes
        linkType := interface.linktype })

def blockType (block : List UInt8) : Run Nat := do
  if block.take 4 = [0x0A, 0x0D, 0x0D, 0x0A] then .ok 0x0A0D0D0A
  else lift (okOr (← readU32 block 0 s.littleEndian) "pcapng block invalid")

def visitBlock (block : List UInt8) : Run (Section × List CaptureRecord) := do
  let blockType ← blockType s block
  if blockType = 0x0A0D0D0A then .ok (s.sectionBlock.1, [s.sectionBlock.2])
  else if blockType = 1 ∧ 20 ≤ block.length then do .ok (← interfaceBlock s block, [])
  else if blockType = 6 ∧ 32 ≤ block.length then do .ok (s, [← packetBlock s block])
  else if blockType = 3 ∧ 16 ≤ block.length then do .ok (s, [← simplePacketBlock s block])
  else .ok (s, [])

/-- What has to be read of a block before its length is known. -/
def readInitial (head reader : List UInt8) : Run (Section × List UInt8 × List UInt8) := do
  if head.take 4 = [0x0A, 0x0D, 0x0D, 0x0A] then
    let (magic, reader) ← lift (okOr (← readExactOrEof chunk 4 reader)
      "pcapng Section Header 缺少 byte-order magic")
    let littleEndian ← lift (Section.byteOrder magic)
    .ok ({ s with littleEndian, haveSection := true }, head ++ magic, reader)
  else if !s.haveSection then fail "pcapng 缺少 Section Header"
  else .ok (s, head, reader)

/-- One turn of `visit_pcapng`; nothing at the end of the file. -/
def nextBlock (reader : List UInt8) : Run (Option (Section × List CaptureRecord × List UInt8)) := do
  match ← readExactOrEof chunk 8 reader with
  | none => .ok none
  | some (head, reader) =>
    let (s, initial, reader) ← readInitial chunk s head reader
    let (block, reader) ← readRest chunk s initial reader
    let (s, records) ← visitBlock s block
    .ok (some (s, records, reader))

end Section

/-- The loop, with the records that the visitor has been given. -/
def pcapngTurn (state : Section × List UInt8 × List CaptureRecord) :
    Run ((Section × List UInt8 × List CaptureRecord) ⊕ List CaptureRecord) := do
  let (s, reader, visited) := state
  match ← Section.nextBlock chunk s reader with
  | none => .ok (.inr visited)
  | some (s, records, reader) => .ok (.inl (s, reader, visited ++ records))

/-- `visit_pcapng`, so many turns at most. -/
def visitPcapng (turns : Nat) (reader : List UInt8) : Run (List CaptureRecord) :=
  loop (pcapngTurn chunk) turns (Section.start, reader, [])

/-! ## pcap -/

/-- The byte order of a file, and whether its fractions are nanoseconds. -/
def pcapMagic (magic : List UInt8) : Run (Bool × Bool) :=
  if magic = [0xD4, 0xC3, 0xB2, 0xA1] then .ok (true, false)
  else if magic = [0xA1, 0xB2, 0xC3, 0xD4] then .ok (false, false)
  else if magic = [0x4D, 0x3C, 0xB2, 0xA1] then .ok (true, true)
  else if magic = [0xA1, 0xB2, 0x3C, 0x4D] then .ok (false, true)
  else fail "不支持的 pcap magic"

/-- The bytes of a packet. -/
def readCaptured (capturedLength : Nat) (reader : List UInt8) : Run (List UInt8 × List UInt8) := do
  if 0 < capturedLength then
    lift (okOr (← readExactOrEof chunk capturedLength reader) "pcap packet data missing")
  else .ok ([], reader)

/-- One turn of the loop of `visit_pcap`, with the records that the visitor has been given. -/
def pcapTurn (littleEndian nanoseconds : Bool) (linktype : Nat)
    (state : List UInt8 × List CaptureRecord) :
    Run ((List UInt8 × List CaptureRecord) ⊕ List CaptureRecord) := do
  let (reader, visited) := state
  match ← readExactOrEof chunk 16 reader with
  | none => .ok (.inr visited)
  | some (record, reader) =>
    let seconds := (← readU32 record 0 littleEndian).getD 0
    let fraction := (← readU32 record 4 littleEndian).getD 0
    let capturedLength ← lift (okOr (← readU32 record 8 littleEndian) "pcap packet length invalid")
    if maxCaptureFrameBytes < capturedLength then
      fail ("pcap packet 过大: " ++ toString capturedLength ++ " bytes（上限 " ++
        toString maxCaptureFrameBytes ++ "）")
    else
      let (bytes, reader) ← readCaptured chunk capturedLength reader
      let timestampUs ← add (saturate (seconds * 1000000))
        (if nanoseconds then fraction / 1000 else fraction)
      let frame : StoredFrame :=
        { link := "capture".toList
          timestampUs := UInt64.ofNat timestampUs
          bytes
          linkType := UInt32.ofNat linktype }
      .ok (.inl (reader, visited ++ [.frame frame]))

/-- `visit_pcap`, so many turns of its loop at most. -/
def visitPcap (turns : Nat) (reader : List UInt8) : Run (List CaptureRecord) := do
  let (header, reader) ← lift (okOr (← readExactOrEof chunk 24 reader) "pcap 文件过短")
  let (littleEndian, nanoseconds) ← pcapMagic (← slice header 0 4)
  let linktype ← lift (okOr (← readU32 header 20 littleEndian) "pcap header invalid")
  loop (pcapTurn chunk littleEndian nanoseconds linktype) turns (reader, [.sectionStart])

/-! ## Options without a panic -/

theorem readWord_getD_lt (width : Nat) (data : List UInt8) (offset : Nat) (littleEndian : Bool) :
    (Trdp.readWord width data offset littleEndian).getD 0 < 256 ^ width := by
  cases hread : Trdp.readWord width data offset littleEndian with
  | none => exact Nat.pow_pos (by decide)
  | some value => exact readWord_lt hread

/-- A word of a part of the data. -/
theorem readWord_part {width offset more stop : Nat} {data : List UInt8}
    (h : offset + more + width ≤ stop) (littleEndian : Bool) :
    Trdp.readWord width ((data.take stop).drop offset) more littleEndian =
      Trdp.readWord width data (offset + more) littleEndian := by
  have hbytes : (((data.take stop).drop offset).drop more).take width =
      (data.drop (offset + more)).take width := by
    rw [List.drop_drop, List.drop_take, List.take_take, Nat.min_eq_left (by omega)]
  simp only [Trdp.readWord, hbytes]

section Options

variable {data : List UInt8} {stop offset : Nat} {littleEndian : Bool} {found : Found}

/-- The options from an offset on. -/
def optionsAt (data : List UInt8) (stop offset : Nat) : List UInt8 := (data.take stop).drop offset

theorem idbValue_eq (hdata : data.length < WORD) {code length : Nat}
    (hle : offset + length ≤ data.length) :
    idbValue data offset code length found =
      .ok (foundOption code ((data.drop offset).take length) found) := by
  have hlength : ((data.drop offset).take length).length = length := by
    rw [List.length_take, List.length_drop]
    omega
  unfold idbValue foundOption
  rw [hlength]
  by_cases hname : code = 2 ∧ 0 < length
  · rw [if_pos hname, if_pos hname, add_ok (by omega), ok_bind,
      slice_ok (Nat.le_add_right _ _) hle, ok_bind, List.drop_take, Nat.add_sub_cancel_left]
  rw [if_neg hname, if_neg hname]
  by_cases hresolution : code = 9 ∧ 1 ≤ length
  · have hlt : offset < data.length := by omega
    obtain ⟨length, rfl⟩ := Nat.exists_eq_add_one_of_ne_zero (Nat.ne_zero_of_lt hresolution.2)
    rw [if_pos hresolution, if_pos hresolution, index_ok hlt, ok_bind, List.drop_eq_getElem_cons hlt]
    rfl
  · rw [if_neg hresolution, if_neg hresolution]

theorem length_optionsAt (hstop : stop ≤ data.length) :
    (optionsAt data stop offset).length = stop - offset := by
  rw [optionsAt, List.length_drop, List.length_take, Nat.min_eq_left hstop]

/-- One turn: the end, or one option of which the value lies in front of `stop`. -/
theorem idbOption_cases (hdata : data.length ≤ maxPcapngBlockBytes) (hstop : stop ≤ data.length)
    (hoffset : offset ≤ stop + 3) (littleEndian : Bool) (found : Found) :
    (idbOption data stop littleEndian (offset, found) = .ok (.inr found) ∧
        Trdp.parseIdbOptions littleEndian (optionsAt data stop offset) found = found) ∨
      ∃ offset' found', idbOption data stop littleEndian (offset, found) =
          .ok (.inl (offset', found')) ∧ offset + 4 ≤ offset' ∧ offset' ≤ stop + 3 ∧
        Trdp.parseIdbOptions littleEndian (optionsAt data stop offset) found =
          Trdp.parseIdbOptions littleEndian (optionsAt data stop offset') found' := by
  have hsmall : data.length < 2 ^ 27 := hdata.trans_lt (by decide)
  have hword : WORD = 2 ^ 64 := rfl
  have hrest := @length_optionsAt _ _ offset hstop
  by_cases hle : offset + 4 ≤ stop
  · obtain ⟨code, hcode⟩ : ∃ code, code = (Trdp.readU16 data offset littleEndian).getD 0 := ⟨_, rfl⟩
    obtain ⟨length, hlength⟩ :
        ∃ length, length = (Trdp.readU16 data (offset + 2) littleEndian).getD 0 := ⟨_, rfl⟩
    have hlt : length < 65536 := hlength ▸ readWord_getD_lt 2 data (offset + 2) littleEndian
    have hcode' : (Trdp.readU16 (optionsAt data stop offset) 0 littleEndian).getD 0 = code := by
      rw [hcode, Trdp.readU16, optionsAt, readWord_part (by omega)]
      rfl
    have hlength' : (Trdp.readU16 (optionsAt data stop offset) 2 littleEndian).getD 0 = length := by
      rw [hlength, Trdp.readU16, optionsAt, readWord_part (by omega)]
      rfl
    rw [Trdp.parseIdbOptions, dif_pos (by omega)]
    simp only [idbOption, add_ok (show offset + 4 < WORD by omega), ok_bind, if_pos hle,
      add_ok (show offset + 2 < WORD by omega),
      readU16_eq (show data.length < WORD by omega) (show offset < WORD by omega),
      readU16_eq (show data.length < WORD by omega) (show offset + 2 < WORD by omega), hcode', hlength',
      ← hcode, ← hlength]
    by_cases hzero : code = 0
    · rw [if_pos hzero, if_pos (.inl hzero)]
      exact .inl ⟨rfl, rfl⟩
    rw [if_neg hzero, add_ok (show offset + 4 + length < WORD by omega), ok_bind]
    by_cases hfit : stop < offset + 4 + length
    · rw [if_pos hfit, if_pos (.inr (by rw [List.length_drop]; omega))]
      exact .inl ⟨rfl, rfl⟩
    rw [if_neg hfit, if_neg (by rw [not_or, List.length_drop]; exact ⟨hzero, by omega⟩),
      idbValue_eq (by omega) (by omega), ok_bind, add_ok (show length + 3 < WORD by omega), ok_bind,
      add_ok (show offset + 4 + (length + 3) / 4 * 4 < WORD by omega), ok_bind]
    refine .inr ⟨_, _, rfl, by omega, by omega, ?_⟩
    have hvalue : ((optionsAt data stop offset).drop 4).take length =
        (data.drop (offset + 4)).take length := by
      rw [optionsAt, List.drop_drop, List.drop_take, List.take_take, Nat.min_eq_left (by omega)]
    have hlen : ((data.drop (offset + 4)).take length).length = length := by
      rw [List.length_take, List.length_drop]
      omega
    have hnext : ((optionsAt data stop offset).drop 4).drop ((length + 3) / 4 * 4) =
        optionsAt data stop (offset + 4 + (length + 3) / 4 * 4) := by
      rw [optionsAt, optionsAt, List.drop_drop, List.drop_drop, Nat.add_assoc offset]
    rw [hnext, hvalue, foundOption, hlen]
  · simp only [idbOption, add_ok (show offset + 4 < WORD by omega), ok_bind, if_neg hle]
    rw [Trdp.parseIdbOptions, dif_neg (by omega)]
    exact .inl ⟨trivial, rfl⟩

/-- The options are parsed as they are in the plain reader. -/
theorem parseIdbOptions_eq {block : List UInt8} (hblock : block.length ≤ maxPcapngBlockBytes)
    (hmin : 20 ≤ block.length) (littleEndian : Bool) :
    parseIdbOptions block 0 block.length littleEndian =
      .ok (Trdp.parseIdbOptions littleEndian ((block.drop 16).take (block.length - 4 - 16))
        (6, false, none)) := by
  have hsmall : block.length < 2 ^ 27 := hblock.trans_lt (by decide)
  have hword : WORD = 2 ^ 64 := rfl
  have hoptions : (block.drop 16).take (block.length - 4 - 16) =
      optionsAt block (block.length - 4) 16 := by
    rw [optionsAt, List.drop_take]
  rw [hoptions, parseIdbOptions, add_ok (by omega), ok_bind, add_ok (by omega), ok_bind, Nat.zero_add,
    sub_ok (by omega), ok_bind]
  refine @loop_eq _ _ _ _ (fun state => .ok (Trdp.parseIdbOptions littleEndian
      (optionsAt block (block.length - 4) state.1) state.2))
      (fun state : Nat × Found => state.1 ≤ block.length - 4 + 3)
      (fun state => block.length - state.1) ?_ ?_ _ _ ?_ ?_
  · rintro ⟨offset, found⟩ ⟨offset', found'⟩ (hoffset : offset ≤ _) hturn
    obtain ⟨heq, -⟩ | ⟨_, _, heq, hge, hle, -⟩ :=
      idbOption_cases hblock (Nat.sub_le _ 4) hoffset littleEndian found
    · rw [heq] at hturn
      cases hturn
    · rw [heq] at hturn
      cases hturn
      change offset' ≤ _ ∧ block.length - offset' < block.length - offset
      omega
  · rintro ⟨offset, found⟩ (hoffset : offset ≤ _)
    obtain ⟨heq, hparsed⟩ | ⟨_, _, heq, -, -, hparsed⟩ :=
      idbOption_cases hblock (Nat.sub_le _ 4) hoffset littleEndian found
    · simp only [heq, ok_bind, Sum.elim_inr, hparsed]
    · simp only [heq, ok_bind, Sum.elim_inl, hparsed]
  · change 16 ≤ _
    omega
  · change block.length - 16 < _
    omega

end Options

/-! ## Blocks without a panic -/

theorem pcapngTimestampToUs_eq (raw : UInt64) (resolution : UInt8) (base2 : Bool) :
    pcapngTimestampToUs raw resolution base2 = .ok (Trdp.pcapngTimestampToUs raw resolution base2) := by
  have hraw : raw.toNat < 2 ^ 64 := raw.toNat_lt
  have hres : resolution.toNat < 256 := resolution.toNat_lt
  unfold pcapngTimestampToUs Trdp.pcapngTimestampToUs
  cases base2 with
  | true =>
    simp only [if_true]
    have hmin : min (raw.toNat * 1000000) (2 ^ 128 - 1) = raw.toNat * 1000000 :=
      Nat.min_eq_left (by omega)
    rw [hmin]
    by_cases hshift : resolution.toNat < 128
    · have hpos : 2 ^ resolution.toNat ≠ 0 := by positivity
      rw [if_pos hshift, if_neg hpos, div_ok hpos, ok_bind]
    · have hlarge : 2 ^ 128 ≤ 2 ^ resolution.toNat :=
        Nat.pow_le_pow_right (by decide) (not_lt.mp hshift)
      rw [if_neg hshift, if_neg (by decide), div_ok (by decide), ok_bind,
        Nat.div_eq_of_lt (by omega), Nat.div_eq_of_lt (by omega)]
  | false =>
    simp only [Bool.false_eq_true, if_false]
    by_cases hmicro : resolution = 6
    · rw [if_pos hmicro, if_pos hmicro]
    rw [if_neg hmicro, if_neg hmicro]
    by_cases hcoarse : resolution < 6
    · have hlt : resolution.toNat < 6 := hcoarse
      have hpow : 10 ^ (6 - resolution.toNat) < WORD :=
        (Nat.pow_le_pow_right (by decide) (Nat.sub_le 6 _)).trans_lt (by decide)
      rw [if_pos hcoarse, if_pos hcoarse, sub_ok hlt.le, ok_bind, pow_ok hpow, ok_bind]
    · have hle : 6 ≤ resolution.toNat := not_lt.mp hcoarse
      have hpow : 10 ^ min (resolution.toNat - 6) 19 < WORD :=
        (Nat.pow_le_pow_right (by decide) (Nat.min_le_right _ 19)).trans_lt (by decide)
      rw [if_neg hcoarse, if_neg hcoarse, sub_ok hle, ok_bind, pow_ok hpow, ok_bind,
        div_ok (by positivity), ok_bind]

namespace Section

/-- What is missing fills a block up. -/
theorem length_readMissing {blockLength : Nat} {initial reader rest reader' : List UInt8}
    (h : Trdp.Section.readMissing blockLength initial reader = .ok (rest, reader'))
    (hinitial : initial.length ≤ blockLength) : (initial ++ rest).length = blockLength := by
  unfold Trdp.Section.readMissing at h
  rw [List.length_append]
  split at h
  · have := (Section.readOrError_ok h).2
    omega
  · cases h
    rw [List.length_nil]
    omega

theorem checkLength_ok {blockLength initialLength : Nat} {u : Unit}
    (h : Trdp.Section.checkLength blockLength initialLength = .ok u) :
    blockLength ≤ maxPcapngBlockBytes ∧ initialLength ≤ blockLength ∧ 12 ≤ blockLength := by
  unfold Trdp.Section.checkLength at h
  split_ifs at h
  omega

theorem length_readRest {s : Section} {initial reader block rest : List UInt8}
    (h : Trdp.Section.readRest s initial reader = .ok (block, rest)) :
    block.length ≤ maxPcapngBlockBytes ∧ 12 ≤ block.length := by
  unfold Trdp.Section.readRest at h
  obtain ⟨blockLength, -, h⟩ := bind_eq_ok.mp h
  obtain ⟨_, hcheck, h⟩ := bind_eq_ok.mp h
  obtain ⟨⟨more, reader'⟩, hmore, h⟩ := bind_eq_ok.mp h
  obtain ⟨_, -, h⟩ := bind_eq_ok.mp h
  obtain ⟨hmax, hinitial, hmin⟩ := checkLength_ok hcheck
  split_ifs at h
  cases h
  rw [length_readMissing hmore hinitial]
  exact ⟨hmax, hmin⟩

/-- Eight bytes, or twelve of a section header. -/
theorem length_readInitial {s s' : Section} {head reader initial rest : List UInt8}
    (h : Trdp.Section.readInitial s head reader = .ok (s', initial, rest)) (hhead : head.length = 8) :
    initial.length ≤ 12 := by
  unfold Trdp.Section.readInitial at h
  split_ifs at h
  · obtain ⟨⟨magic, reader'⟩, hmagic, h⟩ := bind_eq_ok.mp h
    obtain ⟨_, -, h⟩ := bind_eq_ok.mp h
    cases h
    rw [List.length_append, (Section.readOrError_ok hmagic).2, hhead]
  · cases h
    omega

variable {s : Section} {block : List UInt8}

theorem packetBlock_eq (hblock : block.length ≤ maxPcapngBlockBytes) (hmin : 32 ≤ block.length) :
    packetBlock s block = lift (Trdp.Section.packetBlock s block) := by
  have hsmall : block.length < 2 ^ 27 := hblock.trans_lt (by decide)
  have hword : WORD = 2 ^ 64 := rfl
  unfold packetBlock Trdp.Section.packetBlock
  simp only [readU32_eq (show block.length < WORD by omega) (show 8 < WORD by decide),
    readU32_eq (show block.length < WORD by omega) (show 12 < WORD by decide),
    readU32_eq (show block.length < WORD by omega) (show 16 < WORD by decide),
    readU32_eq (show block.length < WORD by omega) (show 20 < WORD by decide), ok_bind]
  generalize (Trdp.readU32 block 20 s.littleEndian).getD 0 = capturedLength
  by_cases hlarge : maxCaptureFrameBytes < capturedLength
  · rw [if_pos hlarge, if_pos hlarge]
    rfl
  have hcaptured : capturedLength ≤ 2 ^ 24 := not_lt.mp hlarge
  have hsaturate : saturate (28 + capturedLength) = 28 + capturedLength :=
    Nat.min_eq_left (by omega)
  rw [if_neg hlarge, if_neg hlarge, sub_ok (by omega), ok_bind, hsaturate]
  by_cases hexceeds : block.length - 4 < 28 + capturedLength
  · rw [if_pos hexceeds, if_pos hexceeds]
    rfl
  · rw [if_neg hexceeds, if_neg hexceeds, pcapngTimestampToUs_eq, ok_bind, add_ok (by omega), ok_bind,
      slice_ok (by omega) (by omega), ok_bind, List.drop_take, Nat.add_sub_cancel_left]
    rfl

theorem simplePacketBlock_eq (hblock : block.length ≤ maxPcapngBlockBytes)
    (hmin : 16 ≤ block.length) :
    simplePacketBlock s block = lift (Trdp.Section.simplePacketBlock s block) := by
  have hsmall : block.length < 2 ^ 27 := hblock.trans_lt (by decide)
  have hword : WORD = 2 ^ 64 := rfl
  unfold simplePacketBlock Trdp.Section.simplePacketBlock
  simp only [readU32_eq (show block.length < WORD by omega) (show 8 < WORD by decide), ok_bind]
  have hcaptured := Nat.min_le_right ((Trdp.readU32 block 8 s.littleEndian).getD 0) (block.length - 16)
  generalize min ((Trdp.readU32 block 8 s.littleEndian).getD 0) (block.length - 16) =
    capturedLength at hcaptured ⊢
  by_cases hlarge : maxCaptureFrameBytes < capturedLength
  · rw [if_pos hlarge, if_pos hlarge]
    rfl
  · rw [if_neg hlarge, if_neg hlarge, add_ok (by omega), ok_bind, slice_ok (by omega) (by omega), ok_bind,
      List.drop_take, Nat.add_sub_cancel_left]
    rfl

theorem visitBlock_eq (hblock : block.length ≤ maxPcapngBlockBytes) :
    visitBlock s block = lift (Trdp.Section.visitBlock s block) := by
  have hsmall : block.length < 2 ^ 27 := hblock.trans_lt (by decide)
  have hword : WORD = 2 ^ 64 := rfl
  have htype : blockType s block = lift (Trdp.Section.blockType s block) := by
    unfold blockType Trdp.Section.blockType
    simp only [readU32_eq (show block.length < WORD by omega) (show 0 < WORD by decide), ok_bind]
    split <;> rfl
  rw [visitBlock, Trdp.Section.visitBlock, htype, lift_bind]
  congr 1
  funext blockType
  by_cases hsection : blockType = 0x0A0D0D0A
  · rw [if_pos hsection, if_pos hsection]
    rfl
  rw [if_neg hsection, if_neg hsection]
  by_cases hinterface : blockType = 1 ∧ 20 ≤ block.length
  · rw [if_pos hinterface, if_pos hinterface, interfaceBlock,
      readU16_eq (by omega) (by decide), ok_bind, parseIdbOptions_eq hblock hinterface.2, ok_bind]
    rfl
  rw [if_neg hinterface, if_neg hinterface]
  by_cases hpacket : blockType = 6 ∧ 32 ≤ block.length
  · rw [if_pos hpacket, if_pos hpacket, packetBlock_eq hblock hpacket.2, lift_bind]
    rfl
  rw [if_neg hpacket, if_neg hpacket]
  by_cases hsimple : blockType = 3 ∧ 16 ≤ block.length
  · rw [if_pos hsimple, if_pos hsimple, simplePacketBlock_eq hblock hsimple.2, lift_bind]
    rfl
  · rw [if_neg hsimple, if_neg hsimple]
    rfl

theorem readOrError_eq {n : Nat} (hn : n < WORD) (reader : List UInt8) (missing : String) :
    (readExactOrEof chunk n reader >>= fun read => lift (okOr read missing)) =
      lift (readOrError n reader missing) := by
  rw [readExactOrEof_eq chunk hn, readOrError, lift_bind]
  congr 1
  funext read
  cases read <;> rfl

theorem readInitial_eq (s : Section) (head reader : List UInt8) :
    readInitial chunk s head reader = lift (Trdp.Section.readInitial s head reader) := by
  unfold readInitial Trdp.Section.readInitial
  by_cases hsection : head.take 4 = [0x0A, 0x0D, 0x0D, 0x0A]
  · rw [if_pos hsection, if_pos hsection, lift_bind, ← readOrError_eq chunk (by decide), bind_assoc]
    congr 1
    funext read
    congr 1
    funext magic
    rw [lift_bind]
    rfl
  · rw [if_neg hsection, if_neg hsection]
    split <;> rfl

theorem readMissing_eq {blockLength : Nat} (hlength : blockLength ≤ maxPcapngBlockBytes)
    (initial reader : List UInt8) :
    readMissing chunk blockLength initial reader =
      lift (Trdp.Section.readMissing blockLength initial reader) := by
  have hsmall : blockLength < 2 ^ 27 := hlength.trans_lt (by decide)
  have hword : WORD = 2 ^ 64 := rfl
  unfold readMissing Trdp.Section.readMissing
  by_cases hmissing : initial.length < blockLength
  · rw [if_pos hmissing, if_pos hmissing, slice_ok hmissing.le (by simp), ok_bind]
    have hroom : (((List.replicate blockLength (0 : UInt8)).take blockLength).drop initial.length).length =
        blockLength - initial.length := by simp
    rw [hroom, readOrError_eq chunk (by omega)]
  · rw [if_neg hmissing, if_neg hmissing]
    rfl

theorem readRest_eq (s : Section) {initial : List UInt8} (hinitial : initial.length < WORD)
    (reader : List UInt8) :
    readRest chunk s initial reader = lift (Trdp.Section.readRest s initial reader) := by
  unfold readRest Trdp.Section.readRest
  rw [readU32_eq hinitial (by decide), ok_bind, lift_bind]
  congr 1
  funext blockLength
  rw [lift_bind]
  cases hcheck : Section.checkLength blockLength initial.length with
  | error e => rfl
  | ok _ =>
    have hlength := checkLength_ok hcheck
    have hsmall : blockLength < 2 ^ 27 := hlength.1.trans_lt (by decide)
    have hword : WORD = 2 ^ 64 := rfl
    change (slice _ 0 initial.length >>= fun _ => _) = _
    rw [slice_ok (Nat.zero_le _) (by simpa using hlength.2.1), ok_bind,
      readMissing_eq chunk hlength.1]
    change _ = lift (Trdp.Section.readMissing blockLength initial reader >>= fun read => _)
    rw [lift_bind]
    cases hmissing : Trdp.Section.readMissing blockLength initial reader with
    | error e => rfl
    | ok read =>
      obtain ⟨rest, reader'⟩ := read
      have hblock := length_readMissing hmissing hlength.2.1
      change (sub blockLength 4 >>= fun _ => _) = lift (okOr _ _ >>= fun _ => _)
      rw [sub_ok (by omega), ok_bind, readU32_eq (by omega) (by omega), ok_bind, lift_bind]
      congr 1
      funext trailingLength
      split <;> rfl

theorem nextBlock_eq (s : Section) (reader : List UInt8) :
    nextBlock chunk s reader = lift (Trdp.Section.nextBlock s reader) := by
  unfold nextBlock Trdp.Section.nextBlock
  rw [readExactOrEof_eq chunk (by decide), lift_bind]
  cases hread : Trdp.readExactOrEof 8 reader with
  | error e => rfl
  | ok read =>
    cases read with
    | none => rfl
    | some read =>
      obtain ⟨head, reader₁⟩ := read
      have hhead : head.length = 8 := (Section.readExactOrEof_some hread).2
      change (readInitial chunk s head reader₁ >>= fun _ => _) =
        lift (Trdp.Section.readInitial s head reader₁ >>= fun _ => _)
      rw [readInitial_eq, lift_bind]
      cases hinitial : Trdp.Section.readInitial s head reader₁ with
      | error e => rfl
      | ok first =>
        obtain ⟨s₁, initial, reader₂⟩ := first
        have hlength : initial.length ≤ 12 := length_readInitial hinitial hhead
        change (readRest chunk s₁ initial reader₂ >>= fun _ => _) =
          lift (Trdp.Section.readRest s₁ initial reader₂ >>= fun _ => _)
        rw [readRest_eq chunk s₁ (hlength.trans_lt (by decide)), lift_bind]
        cases hrest : Trdp.Section.readRest s₁ initial reader₂ with
        | error e => rfl
        | ok whole =>
          obtain ⟨block, reader₃⟩ := whole
          have hblock := (length_readRest hrest).1
          change (visitBlock s₁ block >>= fun _ => _) =
            lift (Trdp.Section.visitBlock s₁ block >>= fun _ => _)
          rw [visitBlock_eq hblock, lift_bind]
          rfl

end Section

/-! ## Files without a panic -/

theorem nextBlock_consumes {s s' : Section} {reader rest : List UInt8} {records : List CaptureRecord}
    (h : Trdp.Section.nextBlock s reader = .ok (some (s', records, rest))) :
    rest.length + 12 ≤ reader.length := by
  unfold Trdp.Section.nextBlock at h
  obtain ⟨read, hread, h⟩ := bind_eq_ok.mp h
  cases read with
  | none => cases h
  | some read =>
    obtain ⟨head, reader'⟩ := read
    obtain ⟨⟨s₁, initial, rest₁⟩, hinitial, h⟩ := bind_eq_ok.mp h
    obtain ⟨⟨block, rest₂⟩, hblock, h⟩ := bind_eq_ok.mp h
    obtain ⟨⟨s₂, records'⟩, -, h⟩ := bind_eq_ok.mp h
    cases h
    have hreader : block ++ rest = reader := by
      rw [(Section.readRest_ok hblock).1, (Section.readInitial_ok hinitial).1,
        (Section.readExactOrEof_some hread).1]
    have hmin := (Section.length_readRest hblock).2
    rw [← hreader, List.length_append]
    omega

/-- Every turn takes a block from the file. -/
theorem pcapngTurn_consumes {s s' : Section} {reader reader' : List UInt8}
    {visited visited' : List CaptureRecord}
    (h : pcapngTurn chunk (s, reader, visited) = .ok (.inl (s', reader', visited'))) :
    reader'.length + 12 ≤ reader.length := by
  rw [pcapngTurn, Section.nextBlock_eq] at h
  cases hnext : Trdp.Section.nextBlock s reader with
  | error e =>
    rw [hnext] at h
    cases h
  | ok next =>
    rw [hnext] at h
    cases next with
    | none => cases h
    | some next =>
      cases h
      exact nextBlock_consumes hnext

/-- The checked reader is the plain one, if it is given as many turns as there are bytes. -/
theorem visitPcapng_eq {turns : Nat} {reader : List UInt8} (hturns : reader.length < turns) :
    visitPcapng chunk turns reader = lift (Trdp.visitPcapng Section.start reader) := by
  have hstart : lift (Trdp.visitPcapng Section.start reader) =
      lift ((Trdp.visitPcapng Section.start reader).map ([] ++ ·)) := by
    cases Trdp.visitPcapng Section.start reader <;> rfl
  rw [hstart, visitPcapng]
  refine @loop_eq _ _ _ _ (fun state : Section × List UInt8 × List CaptureRecord =>
      lift ((Trdp.visitPcapng state.1 state.2.1).map (state.2.2 ++ ·))) (fun _ => True)
      (fun state : Section × List UInt8 × List CaptureRecord => state.2.1.length) ?_ ?_ _ _ trivial
      hturns
  · rintro ⟨s, reader, visited⟩ ⟨s', reader', visited'⟩ - hturn
    have := pcapngTurn_consumes chunk hturn
    exact ⟨trivial, by change reader'.length < reader.length; omega⟩
  · rintro ⟨s, reader, visited⟩ -
    rw [pcapngTurn, Section.nextBlock_eq]
    cases hnext : Trdp.Section.nextBlock s reader with
    | error e =>
      rw [visitPcapng_error hnext]
      rfl
    | ok next =>
      cases next with
      | none =>
        rw [visitPcapng_none hnext]
        simp [lift, Except.map]
      | some next =>
        obtain ⟨s', records, reader'⟩ := next
        rw [visitPcapng_some hnext]
        change lift ((Trdp.visitPcapng s' reader').map (visited ++ records ++ ·)) = _
        cases Trdp.visitPcapng s' reader' with
        | error e => rfl
        | ok more =>
          change Except.ok (visited ++ records ++ more) = Except.ok (visited ++ (records ++ more))
          rw [List.append_assoc]

/-- What a read that has to succeed gives. -/
theorem ensures_read {n : Nat} (hn : n < WORD) (reader : List UInt8) (missing : String) :
    (readExactOrEof chunk n reader >>= fun read => lift (okOr read missing)).Ensures fun read =>
      read.1.length = n ∧ read.2.length + n = reader.length := by
  rw [Section.readOrError_eq chunk hn]
  refine (ensures_lift _).mono fun read hread => ?_
  obtain ⟨happ, hlen⟩ := Section.readOrError_ok hread
  refine ⟨hlen, ?_⟩
  rw [← happ, List.length_append, hlen, Nat.add_comm]

theorem ensures_readCaptured {capturedLength : Nat} (hle : capturedLength ≤ maxCaptureFrameBytes)
    (reader : List UInt8) :
    (readCaptured chunk capturedLength reader).Ensures fun read => read.2.length ≤ reader.length := by
  unfold readCaptured
  split
  · refine (ensures_read chunk (hle.trans_lt (by decide)) reader _).mono fun read hread => ?_
    omega
  · exact le_rfl

theorem ensures_pcapMagic (magic : List UInt8) : (pcapMagic magic).Ensures fun _ => True := by
  unfold pcapMagic
  split_ifs <;> exact trivial

/-- A turn of the loop ends it, or takes a record header from the file. -/
theorem ensures_pcapTurn (littleEndian nanoseconds : Bool) (linktype : Nat) (reader : List UInt8)
    (visited : List CaptureRecord) :
    (pcapTurn chunk littleEndian nanoseconds linktype (reader, visited)).Ensures
      (Sum.elim (fun state => state.1.length + 16 ≤ reader.length) fun _ => True) := by
  have hword : WORD = 2 ^ 64 := rfl
  unfold pcapTurn
  dsimp only
  rw [readExactOrEof_eq chunk (by decide)]
  refine (ensures_lift _).bind fun read hread => ?_
  cases read with
  | none => exact trivial
  | some read =>
    obtain ⟨record, rest⟩ := read
    obtain ⟨happ, hrecord⟩ := Section.readExactOrEof_some hread
    have hreader : rest.length + 16 = reader.length := by
      rw [← happ, List.length_append, hrecord, Nat.add_comm]
    have hlt : record.length < WORD := by omega
    have hseconds : (Trdp.readU32 record 0 littleEndian).getD 0 < 2 ^ 32 :=
      readWord_getD_lt 4 record 0 littleEndian
    have hfraction : (Trdp.readU32 record 4 littleEndian).getD 0 < 2 ^ 32 :=
      readWord_getD_lt 4 record 4 littleEndian
    simp only [readU32_eq hlt (show 0 < WORD by decide), readU32_eq hlt (show 4 < WORD by decide),
      readU32_eq hlt (show 8 < WORD by decide), ok_bind]
    refine (ensures_lift _).bind fun capturedLength _ => ?_
    by_cases hlarge : maxCaptureFrameBytes < capturedLength
    · rw [if_pos hlarge]
      exact ensures_fail _
    rw [if_neg hlarge]
    refine (ensures_readCaptured chunk (not_lt.mp hlarge) rest).bind fun captured hcaptured => ?_
    have hsum : saturate ((Trdp.readU32 record 0 littleEndian).getD 0 * 1000000) +
        (if nanoseconds then (Trdp.readU32 record 4 littleEndian).getD 0 / 1000
          else (Trdp.readU32 record 4 littleEndian).getD 0) < WORD := by
      have hsaturate := Nat.min_le_left
        ((Trdp.readU32 record 0 littleEndian).getD 0 * 1000000) (2 ^ 64 - 1)
      unfold saturate
      split <;> omega
    refine (ensures_add hsum).bind fun timestampUs _ => ?_
    change captured.2.length + 16 ≤ reader.length
    omega

theorem ensures_visitPcap {turns : Nat} {reader : List UInt8} (hturns : reader.length < turns) :
    (visitPcap chunk turns reader).Ensures fun _ => True := by
  unfold visitPcap
  rw [← bind_assoc]
  refine (ensures_read chunk (by decide) reader _).bind fun header hheader => ?_
  have hlt : header.1.length < WORD := by
    rw [hheader.1]
    decide
  refine (ensures_slice (Nat.zero_le _) (by omega)).bind fun magic _ => ?_
  refine (ensures_pcapMagic magic).bind fun order _ => ?_
  dsimp only
  rw [readU32_eq hlt (by decide), ok_bind]
  refine (ensures_lift _).bind fun linktype _ => ?_
  refine ensures_loop (I := fun _ => True) (fun state : List UInt8 × List CaptureRecord => state.1.length)
    ?_ trivial (by dsimp only; omega)
  rintro ⟨reader, visited⟩ -
  refine (ensures_pcapTurn chunk _ _ _ reader visited).mono fun next hnext => ?_
  cases next with
  | inl state =>
    change state.1.length + 16 ≤ reader.length at hnext
    exact ⟨trivial, by dsimp only; omega⟩
  | inr records => exact trivial

end Files

end TauTerm.Trdp.Capture
