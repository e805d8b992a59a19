import Mathlib
import TauTerm.Lib.Bytes
import TauTerm.Lib.RustText
import TauTerm.Lib.Words

/-!
# pcapng files of TRDP captures

`PcapNgWriter` and `visit_pcapng`. A file is a list of bytes, and the visitor collects what it is
given. Reading from a list does not fail by itself; what is left is the end of the file inside
a record.
-/

namespace TauTerm.Trdp

open Lib

def linktypeEthernet : UInt32 := 1

def maxCaptureFrameBytes : Nat := 16 * 1024 * 1024

def maxPcapngBlockBytes : Nat := 64 * 1024 * 1024

structure StoredFrame where
  link : List Char
  timestampUs : UInt64
  bytes : List UInt8
  linkType : UInt32
  deriving DecidableEq

inductive CaptureRecord where
  | sectionStart
  | frame (frame : StoredFrame)
  deriving DecidableEq

/-! ## Writing -/

def appendU16 (output : List UInt8) (value : Nat) : List UInt8 := output ++ leBytes 2 value

def appendU32 (output : List UInt8) (value : Nat) : List UInt8 := output ++ leBytes 4 value

/-- The zeros behind `n` bytes, up to a multiple of four. -/
def padding (n : Nat) : List UInt8 := List.replicate ((4 - n % 4) % 4) 0

/-- `append_pcapng_option`; the length is cut to 16 bits. -/
def appendPcapngOption (output : List UInt8) (code : Nat) (value : List UInt8) : List UInt8 :=
  appendU16 (appendU16 output code) value.length ++ value ++ padding value.length

/-- The bytes written so far, and the interfaces among them. -/
structure PcapNgWriter where
  writer : List UInt8
  interfaces : List (List Char × UInt32)
  deriving DecidableEq

namespace PcapNgWriter

def new : PcapNgWriter where
  writer :=
    appendU32
      (appendU32 (appendU32 (appendU32 [] 0x0A0D0D0A) 28) 0x1A2B3C4D ++ leBytes 2 1 ++ leBytes 2 0 ++
        leBytes 8 (2 ^ 64 - 1)) 28
  interfaces := []

def interfaceBody (link : List Char) (linktype : UInt32) : List UInt8 :=
  let body := appendU32 (appendU16 (appendU16 [] linktype.toNat) 0) 65535
  appendPcapngOption (appendPcapngOption (appendPcapngOption body 2 (utf8 link)) 9 [6]) 0 []

def interfaceBlock (link : List Char) (linktype : UInt32) : List UInt8 :=
  let body := interfaceBody link linktype
  let blockLength := 12 + body.length
  appendU32 (appendU32 (appendU32 [] 1) blockLength ++ body) blockLength

/-- `ensure_interface`, and the index it gives, before it is cut to 32 bits. -/
def ensureInterface (w : PcapNgWriter) (link : List Char) (linktype : UInt32) : Nat × PcapNgWriter :=
  match w.interfaces.findIdx? (· == (link, linktype)) with
  | some index => (index, w)
  | none =>
    (w.interfaces.length,
      { writer := w.writer ++ interfaceBlock link linktype
        interfaces := w.interfaces ++ [(link, linktype)] })

def frameBlock (interfaceIndex : Nat) (raw : StoredFrame) : List UInt8 :=
  let blockLength := 32 + (raw.bytes.length + 3) / 4 * 4
  let header := appendU32 (appendU32 (appendU32 [] 6) blockLength) interfaceIndex
  let header := appendU32 (appendU32 header (raw.timestampUs.toNat / 2 ^ 32)) raw.timestampUs.toNat
  let header := appendU32 (appendU32 header raw.bytes.length) raw.bytes.length
  appendU32 (header ++ raw.bytes ++ padding raw.bytes.length) blockLength

def captureLink : List Char := "capture".toList

def frameLink (raw : StoredFrame) : List Char :=
  if raw.link.all Rust.isWhitespace then captureLink else raw.link

def writeFrame (w : PcapNgWriter) (raw : StoredFrame) : PcapNgWriter :=
  if raw.bytes = [] then w
  else
    let ensured := w.ensureInterface (frameLink raw) raw.linkType
    { ensured.2 with writer := ensured.2.writer ++ frameBlock ensured.1 raw }

/-- What is in the file in the end. -/
def finish (w : PcapNgWriter) : List UInt8 :=
  if w.interfaces = [] then (w.ensureInterface captureLink linktypeEthernet).2.writer else w.writer

end PcapNgWriter

def saveFrames (frames : List StoredFrame) : List UInt8 :=
  (frames.foldl PcapNgWriter.writeFrame PcapNgWriter.new).finish

/-! ## Reading -/

/-- `read_exact_or_eof` into a buffer of `n` bytes: nothing at the end of the file. -/
def readExactOrEof (n : Nat) (reader : List UInt8) :
    Except String (Option (List UInt8 × List UInt8)) :=
  if n ≤ reader.length then .ok (some (reader.take n, reader.drop n))
  else if reader = [] then .ok none
  else .error "抓包文件在记录中途结束"

/-- `n` bytes that have to be there. -/
def readOrError (n : Nat) (reader : List UInt8) (missing : String) :
    Except String (List UInt8 × List UInt8) := do
  match ← readExactOrEof n reader with
  | some read => .ok read
  | none => .error missing

def readWord (width : Nat) (data : List UInt8) (offset : Nat) (littleEndian : Bool) : Option Nat :=
  let bytes := (data.drop offset).take width
  if bytes.length = width then some (if littleEndian then ofLeBytes bytes else ofBeList bytes)
  else none

def readU16 (data : List UInt8) (offset : Nat) (littleEndian : Bool) : Option Nat :=
  readWord 2 data offset littleEndian

def readU32 (data : List UInt8) (offset : Nat) (littleEndian : Bool) : Option Nat :=
  readWord 4 data offset littleEndian

theorem readWord_lt {width offset value : Nat} {data : List UInt8} {le : Bool}
    (h : readWord width data offset le = some value) : value < 256 ^ width := by
  unfold readWord at h
  dsimp only at h
  split_ifs at h with hlen hle
  · have hlt := ofLeBytes_lt ((data.drop offset).take width)
    rw [hlen] at hlt
    cases h
    exact hlt
  · have hlt := ofBeList_lt ((data.drop offset).take width)
    rw [hlen] at hlt
    cases h
    exact hlt

/-- `ok_or`. -/
def okOr {α : Type} (value : Option α) (missing : String) : Except String α :=
  value.elim (.error missing) .ok

structure PcapNgInterface where
  linktype : UInt32
  timestampResolution : UInt8
  timestampBase2 : Bool
  link : List Char
  deriving DecidableEq

/-- The name in an `if_name` option, if it is not empty. -/
def optionName (value : List UInt8) : Option (List Char) :=
  let text := ((fromUtf8Lossy value).reverse.dropWhile (· == Char.ofNat 0)).reverse
  if text = [] then none else some text

/-- `parse_idb_options`, from the options that are left and what has been found so far. -/
def parseIdbOptions (littleEndian : Bool) (data : List UInt8)
    (found : UInt8 × Bool × Option (List Char)) : UInt8 × Bool × Option (List Char) :=
  if _h : 4 ≤ data.length then
    let code := (readU16 data 0 littleEndian).getD 0
    let length := (readU16 data 2 littleEndian).getD 0
    let rest := data.drop 4
    if code = 0 ∨ rest.length < length then found
    else
      let value := rest.take length
      let found :=
        if code = 2 ∧ 0 < length then (found.1, found.2.1, (optionName value).or found.2.2)
        else if code = 9 ∧ 1 ≤ length then
          (value.headD 0 &&& 0x7F, value.headD 0 &&& 0x80 != 0, found.2.2)
        else found
      parseIdbOptions littleEndian (rest.drop ((length + 3) / 4 * 4)) found
  else found
termination_by data.length
decreasing_by
  simp only [List.length_drop]
  omega

/-- What an option changes of what has been found. -/
def foundOption (code : Nat) (value : List UInt8) (found : UInt8 × Bool × Option (List Char)) :
    UInt8 × Bool × Option (List Char) :=
  if code = 2 ∧ 0 < value.length then (found.1, found.2.1, (optionName value).or found.2.2)
  else if code = 9 ∧ 1 ≤ value.length then
    (value.headD 0 &&& 0x7F, value.headD 0 &&& 0x80 != 0, found.2.2)
  else found

def saturate (n : Nat) : Nat := min n (2 ^ 64 - 1)

/-- `pcapng_timestamp_to_us`. -/
def pcapngTimestampToUs (raw : UInt64) (resolution : UInt8) (base2 : Bool) : UInt64 :=
  if base2 then UInt64.ofNat (raw.toNat * 1000000 / 2 ^ resolution.toNat)
  else if resolution = 6 then raw
  else if resolution < 6 then UInt64.ofNat (saturate (raw.toNat * 10 ^ (6 - resolution.toNat)))
  else UInt64.ofNat (raw.toNat / 10 ^ min (resolution.toNat - 6) 19)

/-- The state of `visit_pcapng` between two blocks. -/
structure Section where
  littleEndian : Bool
  haveSection : Bool
  sectionIndex : Nat
  interfaces : List PcapNgInterface
  deriving DecidableEq

namespace Section

def start : Section := ⟨true, false, 0, []⟩

/-- The name of an interface without one. Both numbers are `usize`. -/
def defaultLink (s : Section) (interfaceIndex : Nat) : List Char :=
  "capture:".toList ++ Nat.toDigits 10 ((s.sectionIndex - 1) % 2 ^ 64) ++
    ':' :: Nat.toDigits 10 (interfaceIndex % 2 ^ 64)

def defaultInterface (s : Section) (interfaceIndex : Nat) : PcapNgInterface :=
  ⟨linktypeEthernet, 6, false, s.defaultLink interfaceIndex⟩

/-- The byte order of a section. -/
def byteOrder (magic : List UInt8) : Except String Bool :=
  if magic = [0x4D, 0x3C, 0x2B, 0x1A] then .ok true
  else if magic = [0x1A, 0x2B, 0x3C, 0x4D] then .ok false
  else .error "pcapng byte-order magic invalid"

/-- What has to be read of a block before its length is known. -/
def readInitial (s : Section) (head reader : List UInt8) :
    Except String (Section × List UInt8 × List UInt8) :=
  if head.take 4 = [0x0A, 0x0D, 0x0D, 0x0A] then do
    let (magic, reader) ← readOrError 4 reader "pcapng Section Header 缺少 byte-order magic"
    let littleEndian ← byteOrder magic
    .ok ({ s with littleEndian, haveSection := true }, head ++ magic, reader)
  else if !s.haveSection then .error "pcapng 缺少 Section Header"
  else .ok (s, head, reader)

def checkLength (blockLength initialLength : Nat) : Except String Unit :=
  if blockLength < 12 ∨ blockLength % 4 ≠ 0 ∨ maxPcapngBlockBytes < blockLength then
    .error ("pcapng block length invalid: " ++ toString blockLength)
  else if blockLength < initialLength then .error "pcapng block length smaller than header"
  else .ok ()

/-- What is missing of a block. -/
def readMissing (blockLength : Nat) (initial reader : List UInt8) :
    Except String (List UInt8 × List UInt8) :=
  if initial.length < blockLength then
    readOrError (blockLength - initial.length) reader "pcapng block truncated"
  else .ok ([], reader)

/-- The whole block, and what is behind it. -/
def readRest (s : Section) (initial reader : List UInt8) :
    Except String (List UInt8 × List UInt8) := do
  let blockLength ← okOr (readU32 initial 4 s.littleEndian) "pcapng length invalid"
  checkLength blockLength initial.length
  let (rest, reader) ← readMissing blockLength initial reader
  let block := initial ++ rest
  let trailingLength ←
    okOr (readU32 block (blockLength - 4) s.littleEndian) "pcapng trailing length invalid"
  if trailingLength ≠ blockLength then .error "pcapng block length mismatch" else .ok (block, reader)

def sectionBlock (s : Section) : Section × CaptureRecord :=
  ({ s with interfaces := [], sectionIndex := saturate (s.sectionIndex + 1) }, .sectionStart)

def interfaceBlock (s : Section) (block : List UInt8) : Section :=
  let options := parseIdbOptions s.littleEndian ((block.drop 16).take (block.length - 4 - 16))
    (6, false, none)
  { s with
    interfaces := s.interfaces ++
      [{ linktype := UInt32.ofNat ((readU16 block 8 s.littleEndian).getD 1)
         timestampResolution := options.1
         timestampBase2 := options.2.1
         link := options.2.2.getD (s.defaultLink s.interfaces.length) }] }

/-- An enhanced packet block. -/
def packetBlock (s : Section) (block : List UInt8) : Except String CaptureRecord :=
  let word := fun offset => (readU32 block offset s.littleEndian).getD 0
  let interfaceIndex := word 8
  let capturedLength := word 20
  if maxCaptureFrameBytes < capturedLength then
    .error ("pcapng packet 过大: " ++ toString capturedLength ++ " bytes（上限 " ++
      toString maxCaptureFrameBytes ++ "）")
  else if block.length - 4 < 28 + capturedLength then
    .error "pcapng packet length exceeds block size"
  else
    let interface := s.interfaces.getD interfaceIndex (s.defaultInterface interfaceIndex)
    .ok (.frame
      { link := interface.link
        timestampUs := pcapngTimestampToUs (UInt64.ofNat (word 12 * 2 ^ 32 + word 16))
          interface.timestampResolution interface.timestampBase2
        bytes := (block.drop 28).take capturedLength
        linkType := interface.linktype })

/-- A simple packet block. -/
def simplePacketBlock (s : Section) (block : List UInt8) : Except String CaptureRecord :=
  let interface := s.interfaces.headD (s.defaultInterface 0)
  let capturedLength :=
    min ((readU32 block 8 s.littleEndian).getD 0) (block.length - 16)
  if maxCaptureFrameBytes < capturedLength then
    .error ("pcapng simple packet 过大: " ++ toString capturedLength ++ " bytes")
  else
    .ok (.frame
      { link := interface.link
        timestampUs := 0
        bytes := (block.drop 12).take capturedLength
        linkType := interface.linktype })

def blockType (s : Section) (block : List UInt8) : Except String Nat :=
  if block.take 4 = [0x0A, 0x0D, 0x0D, 0x0A] then .ok 0x0A0D0D0A
  else okOr (readU32 block 0 s.littleEndian) "pcapng block invalid"

def visitBlock (s : Section) (block : List UInt8) :
    Except String (Section × List CaptureRecord) := do
  let blockType ← s.blockType block
  if blockType = 0x0A0D0D0A then .ok (s.sectionBlock.1, [s.sectionBlock.2])
  else if blockType = 1 ∧ 20 ≤ block.length then .ok (s.interfaceBlock block, [])
  else if blockType = 6 ∧ 32 ≤ block.length then do .ok (s, [← s.packetBlock block])
  else if blockType = 3 ∧ 16 ≤ block.length then do .ok (s, [← s.simplePacketBlock block])
  else .ok (s, [])

/-- One turn of the loop; nothing at the end of the file. -/
def nextBlock (s : Section) (reader : List UInt8) :
    Except String (Option (Section × List CaptureRecord × List UInt8)) := do
  match ← readExactOrEof 8 reader with
  | none => .ok none
  | some (head, reader) =>
    let (s, initial, reader) ← s.readInitial head reader
    let (block, reader) ← s.readRest initial reader
    let (s, records) ← s.visitBlock block
    .ok (some (s, records, reader))

/-! ### Every turn takes something from the file -/

theorem readExactOrEof_some {n : Nat} {reader bytes rest : List UInt8}
    (h : readExactOrEof n reader = .ok (some (bytes, rest))) :
    bytes ++ rest = reader ∧ bytes.length = n := by
  unfold readExactOrEof at h
  split_ifs at h with hn
  · cases h
    exact ⟨List.take_append_drop n reader, List.length_take_of_le hn⟩
  all_goals cases h

theorem readOrError_ok {n : Nat} {reader bytes rest : List UInt8} {missing : String}
    (h : readOrError n reader missing = .ok (bytes, rest)) :
    bytes ++ rest = reader ∧ bytes.length = n := by
  unfold readOrError at h
  obtain ⟨read, hread, h⟩ := bind_eq_ok.mp h
  cases read with
  | none => cases h
  | some read =>
    cases h
    exact readExactOrEof_some hread

theorem readInitial_ok {s s' : Section} {head reader initial rest : List UInt8}
    (h : s.readInitial head reader = .ok (s', initial, rest)) :
    initial ++ rest = head ++ reader ∧ head.length ≤ initial.length := by
  unfold readInitial at h
  split_ifs at h
  · obtain ⟨⟨magic, rest'⟩, hmagic, h⟩ := bind_eq_ok.mp h
    obtain ⟨le, -, h⟩ := bind_eq_ok.mp h
    cases h
    rw [List.append_assoc, (readOrError_ok hmagic).1, List.length_append]
    exact ⟨rfl, Nat.le_add_right _ _⟩
  · cases h
    exact ⟨rfl, le_rfl⟩

theorem readRest_ok {s : Section} {initial reader block rest : List UInt8}
    (h : s.readRest initial reader = .ok (block, rest)) :
    block ++ rest = initial ++ reader ∧ initial.length ≤ block.length := by
  unfold readRest at h
  obtain ⟨blockLength, -, h⟩ := bind_eq_ok.mp h
  obtain ⟨-, -, h⟩ := bind_eq_ok.mp h
  obtain ⟨⟨more, rest'⟩, hmore, h⟩ := bind_eq_ok.mp h
  obtain ⟨trailing, -, h⟩ := bind_eq_ok.mp h
  split_ifs at h
  cases h
  rw [List.length_append]
  refine ⟨?_, Nat.le_add_right _ _⟩
  unfold readMissing at hmore
  split_ifs at hmore
  · rw [List.append_assoc, (readOrError_ok hmore).1]
  · cases hmore
    simp

theorem nextBlock_lt {s s' : Section} {reader rest : List UInt8} {records : List CaptureRecord}
    (h : s.nextBlock reader = .ok (some (s', records, rest))) : rest.length < reader.length := by
  unfold nextBlock at h
  obtain ⟨read, hread, h⟩ := bind_eq_ok.mp h
  cases read with
  | none => cases h
  | some read =>
    obtain ⟨head, reader'⟩ := read
    obtain ⟨⟨s₁, initial, rest₁⟩, hinitial, h⟩ := bind_eq_ok.mp h
    obtain ⟨⟨block, rest₂⟩, hblock, h⟩ := bind_eq_ok.mp h
    obtain ⟨⟨s₂, records'⟩, -, h⟩ := bind_eq_ok.mp h
    cases h
    obtain ⟨hhead, hlen⟩ := readExactOrEof_some hread
    obtain ⟨hinit, hle⟩ := readInitial_ok hinitial
    obtain ⟨happ, hle'⟩ := readRest_ok hblock
    have hreader : block ++ rest = reader := by rw [happ, hinit, hhead]
    rw [← hreader, List.length_append]
    omega

end Section

/-- `visit_pcapng` with a visitor that collects the records. -/
def visitPcapng (s : Section) (reader : List UInt8) : Except String (List CaptureRecord) :=
  match _h : s.nextBlock reader with
  | .error e => .error e
  | .ok none => .ok []
  | .ok (some (s', records, rest)) => (visitPcapng s' rest).map (records ++ ·)
termination_by reader.length
decreasing_by exact Section.nextBlock_lt _h

theorem visitPcapng_some {s s' : Section} {reader rest : List UInt8} {records : List CaptureRecord}
    (h : s.nextBlock reader = .ok (some (s', records, rest))) :
    visitPcapng s reader = (visitPcapng s' rest).map (records ++ ·) := by
  rw [visitPcapng]
  split
  · rename_i heq
    rw [h] at heq
    cases heq
  · rename_i heq
    rw [h] at heq
    cases heq
  · rename_i heq
    rw [h] at heq
    cases heq
    rfl

theorem visitPcapng_error {s : Section} {reader : List UInt8} {e : String}
    (h : s.nextBlock reader = .error e) : visitPcapng s reader = .error e := by
  rw [visitPcapng]
  split
  · rename_i heq
    rw [h] at heq
    cases heq
    rfl
  all_goals
    rename_i heq
    rw [h] at heq
    cases heq

theorem visitPcapng_none {s : Section} {reader : List UInt8} (h : s.nextBlock reader = .ok none) :
    visitPcapng s reader = .ok [] := by
  rw [visitPcapng]
  split
  · rename_i heq
    rw [h] at heq
    cases heq
  · rfl
  · rename_i heq
    rw [h] at heq
    cases heq

theorem visitPcapng_nil (s : Section) : visitPcapng s [] = .ok [] := visitPcapng_none rfl

end TauTerm.Trdp
