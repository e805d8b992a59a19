import Mathlib
import TauTerm.Lib.Path
import TauTerm.Lib.Utf8
import TauTerm.Transfer.XModem

/-!
# The YModem receiver

`ymodem_receive` as a machine that takes one read at a time and answers with the bytes it
writes. The handshake reads the first block on its own; the outer loop takes every later
block, be it metadata or data, and every `EOT`.

The totals that only the progress callback gets are left out. What `flush_port_buffer` throws away is
not read, so it is no input of the machine.
-/

namespace TauTerm.Transfer.YModem

open Lib XModem

/-! ## Block 0 -/

/-- `char::is_whitespace`, on the characters that are one byte. -/
def isWhitespace (b : UInt8) : Bool :=
  (0x09 ≤ b && b ≤ 0x0D) || b == 0x20 || b == 0x85 || b == 0xA0

/-- The first of `split_whitespace`, empty if there is none. -/
def firstToken (info : List UInt8) : List UInt8 :=
  (info.dropWhile isWhitespace).takeWhile (!isWhitespace ·)

def isDigit (b : UInt8) : Bool := 0x30 ≤ b && b ≤ 0x39

def isAlphabetic (b : UInt8) : Bool := (0x41 ≤ b && b ≤ 0x5A) || (0x61 ≤ b && b ≤ 0x7A)

/-- `str::parse::<u64>`. -/
def parseU64 (token : List UInt8) : Option Nat :=
  let digits := if token.head? = some 0x2B then token.tail else token
  let value := digits.foldl (fun acc b => acc * 10 + (b.toNat - 0x30)) 0
  if digits ≠ [] ∧ digits.all isDigit ∧ value < 2 ^ 64 then some value else none

/-- The size a block 0 announces, 0 if it does not. -/
def announcedSize (info : List UInt8) : Nat := (parseU64 (firstToken info)).getD 0

def safeName (raw : List Char) : List Char := ((Path.new raw).fileName).getD raw

/-- A name and a size. -/
structure Metadata where
  name : List Char
  totalSize : Nat
  deriving DecidableEq

/-- A block 0 with a NUL behind the name, at `pos`. -/
def parseNul (data : List UInt8) (pos : Nat) : Metadata where
  name := safeName (fromUtf8Lossy (data.take pos))
  totalSize := announcedSize ((data.drop (pos + 1)).takeWhile (· != 0))

/-- The first place where a letter is followed by a digit. -/
def letterDigitBoundary (data : List UInt8) : Option Nat :=
  ((List.range data.length).drop 1).find? fun i =>
    isAlphabetic (data.getD (i - 1) 0) && isDigit (data.getD i 0)

def fallbackByBoundary (data : List UInt8) : Option (List Char) :=
  (letterDigitBoundary data).bind fun i =>
    (fromUtf8 (data.take i)).bind fun raw => (Path.new raw).fileName

def fallbackBySpace (data : List UInt8) : Option (List Char) :=
  (data.findIdx? (· == 0x20)).bind fun pos =>
    (fromUtf8 (data.take pos)).bind fun raw =>
      if safeName raw = [] then none else some (safeName raw)

/-- A block 0 without a NUL. -/
def parseFallback (data : List UInt8) : Option Metadata :=
  ((fallbackByBoundary data).or (fallbackBySpace data)).bind fun name =>
    if name = [] then none
    else
      let start := (data.findIdx? isDigit).getD 0
      some ⟨name, announcedSize ((data.drop start).takeWhile fun b => b != 0 && b != cpmeof)⟩

/-- `send_packet_only`; the length of the data is the block size. -/
def sendPacketOnly (blockNum : UInt8) (data : List UInt8) (crcMode : Bool) : List UInt8 :=
  let header := if data.length = 1024 then stx else soh
  let crc := crc16CcittZeroPad data
  header :: blockNum :: ~~~blockNum ::
    (data ++ if crcMode then [(crc >>> 8).toUInt8, (crc &&& 0xFF).toUInt8] else [checksum data])

/-! ## The receiver -/

/-- The file that is being received. `written` is what `file` holds. -/
structure OpenFile where
  name : List Char
  totalSize : Nat
  written : List UInt8
  deriving DecidableEq

inductive YModemError where
  | cancelledBySender
  | startTimeout
  | firstBlockNumber (number : UInt8)
  | createFailed (path : Path) (error : String)
  | blockTimeout
  | numberTimeout
  | complementTimeout
  | dataTimeout
  | crcTimeout
  deriving DecidableEq

structure Batch where
  currentFile : Option OpenFile
  lastBlockNum : Option UInt8
  fileIndex : Nat
  results : List BatchFileResult
  allPaddingFailureHandled : Bool
  lastCan : Bool
  /-- The paths given to `File::create`. -/
  opened : List Path
  /-- The files reported as completed, as they were then. -/
  completed : List OpenFile
  deriving DecidableEq

/-- Where `ymodem_receive` waits for a byte. -/
inductive Phase where
  | probing (retry : Nat)
  | firstBlock (retry : Nat) (header : UInt8) (got : List UInt8)
  | waiting
  | block (header : UInt8) (got : List UInt8)
  | finished (error : Option YModemError)
  deriving DecidableEq

structure Receiver where
  batch : Batch
  phase : Phase
  deriving DecidableEq

/-- A read, and whether the window of a probe is over behind it. -/
structure Input where
  answer : Option UInt8
  windowOver : Bool
  deriving DecidableEq

def initCRetries : Nat := 30

def ymodemReceive : Receiver × List UInt8 :=
  ({ batch :=
      { currentFile := none, lastBlockNum := none, fileIndex := 0, results := [],
        allPaddingFailureHandled := false, lastCan := false, opened := [], completed := [] }
     phase := .probing 0 }, [wantCrc])

/-- The payload without its padding. -/
def stripPadding (data : List UInt8) : List UInt8 :=
  (data.reverse.dropWhile (· == cpmeof)).reverse

/-- What is written of a block: up to the announced size or, if that is unknown, up to the
padding. -/
def OpenFile.payload (f : OpenFile) (data : List UInt8) : List UInt8 :=
  if 0 < f.totalSize then data.take (f.totalSize - f.written.length) else stripPadding data

def OpenFile.write (f : OpenFile) (data : List UInt8) : OpenFile :=
  { f with written := f.written ++ f.payload data }

namespace Batch

/-- Take the current file and report it as completed. -/
def complete (b : Batch) : Batch :=
  match b.currentFile with
  | none => b
  | some f =>
    { b with
      currentFile := none
      results := b.results ++ [⟨f.name, .completed, f.written.length, none⟩]
      completed := b.completed ++ [f] }

def failFile (b : Batch) (placeholder error : String) : Batch :=
  { b with
    results := b.results ++
      [⟨("<" ++ placeholder ++ "_at_index_" ++ toString b.fileIndex ++ ">").toList, .failed, 0,
        some error⟩] }

def endOfFile (b : Batch) : Batch :=
  match b.currentFile with
  | some _ => { b.complete with fileIndex := b.fileIndex + 1 }
  | none =>
    if b.allPaddingFailureHandled then { b with allPaddingFailureHandled := false }
    else b.failFile "lost_file" "block 0 metadata was not received — file data discarded"

section Open

variable (downloadDir : Path) (createFile : Path → Option String)

/-- Where a file of this name goes. -/
def destination (name : List Char) : Path := downloadDir.join (Path.new name)

/-- `File::create`, and what follows if it succeeds. -/
def openFile (b : Batch) (m : Metadata) : Except (Path × String) Unit × Batch :=
  let path := destination downloadDir m.name
  let b := { b with opened := b.opened ++ [path] }
  match createFile path with
  | some e => (.error (path, e), b)
  | none =>
    (.ok (), { b with currentFile := some ⟨m.name, m.totalSize, []⟩, lastBlockNum := none })

/-- Open the file of a block 0 with a NUL; a failure ends the transfer. -/
def openOrFail (b : Batch) (m : Metadata) (out : List UInt8) : Receiver × List UInt8 :=
  let result := b.openFile downloadDir createFile m
  match result.1 with
  | .ok () => (⟨result.2, .waiting⟩, out)
  | .error (path, e) => (⟨result.2, .finished (some (.createFailed path e))⟩, [])

/-- The first block, once its CRC has been verified and acknowledged. -/
def firstBlock (b : Batch) (block : ReceivedBlock) : Receiver × List UInt8 :=
  if block.number ≠ 0 then (⟨b, .finished (some (.firstBlockNumber block.number))⟩, [])
  else if block.data.head? = some 0 then (⟨b, .finished none⟩, [ack])
  else
    match block.data.findIdx? (· == 0) with
    | none => (⟨b, .waiting⟩, [])
    | some pos =>
      let m := parseNul block.data pos
      if m.name = [] then (⟨b, .waiting⟩, [ack, wantCrc])
      else b.openOrFail downloadDir createFile m [wantCrc]

/-- A block 0 in the outer loop. -/
def blockZero (b : Batch) (data : List UInt8) : Receiver × List UInt8 :=
  let b := b.complete
  if data.head? = some 0 then (⟨b, .finished none⟩, [ack])
  else if data.all (· == cpmeof) then
    (⟨{ b.failFile "sender_bug" "sender firmware bug: rt_snprintf failed (block 0 all 0x1A)" with
        allPaddingFailureHandled := true }, .waiting⟩, [ack])
  else
    match data.findIdx? (· == 0) with
    | some pos =>
      let m := parseNul data pos
      if m.name = [] then (⟨b, .waiting⟩, [ack])
      else b.openOrFail downloadDir createFile m [ack, wantCrc]
    | none =>
      match parseFallback data with
      | none => (⟨b, .waiting⟩, [ack, wantCrc])
      -- A file that cannot be created is only logged here.
      | some m => (⟨(b.openFile downloadDir createFile m).2, .waiting⟩, [ack, wantCrc])

end Open

/-- A data block in the outer loop. -/
def dataBlock (b : Batch) (block : ReceivedBlock) : Batch :=
  if b.lastBlockNum = some block.number then b
  else
    { b with
      currentFile := b.currentFile.map (·.write block.data), lastBlockNum := some block.number }

/-- Refuse a first block and go on with the next probe, if there is one. -/
def nextProbe (b : Batch) (retry : Nat) : Receiver × List UInt8 :=
  let b := { b with lastCan := false }
  if retry + 1 < initCRetries then (⟨b, .probing (retry + 1)⟩, [nak, wantCrc])
  else (⟨b, .waiting⟩, [nak])

end Batch

def readBlock (header : UInt8) (bytes : List UInt8) : ReceivedBlock :=
  readDataBlock .crc16 header bytes

/-- The number and its complement have been read and do not match. -/
def Mismatch (got : List UInt8) : Prop := got.length = 2 ∧ got.getD 0 0 ≠ ~~~(got.getD 1 0)

instance (got : List UInt8) : Decidable (Mismatch got) := inferInstanceAs (Decidable (_ ∧ _))

/-- What was being read when the time ran out. -/
def readTimeout (header : UInt8) (got : List UInt8) : YModemError :=
  if got.length = 0 then .numberTimeout
  else if got.length = 1 then .complementTimeout
  else if got.length < 2 + blockSize header then .dataTimeout
  else .crcTimeout

section Read

variable (downloadDir : Path) (createFile : Path → Option String)

/-- A block of the outer loop, once it has been read. -/
def Batch.block (b : Batch) (header : UInt8) (block : ReceivedBlock) : Receiver × List UInt8 :=
  if !block.valid then (⟨b, .waiting⟩, [nak])
  else if block.number = 0 ∧ header ≠ stx then b.blockZero downloadDir createFile block.data
  else (⟨b.dataBlock block, .waiting⟩, [ack])

/-- The top of the loop of a probe: its window may be over. -/
def Batch.probe (b : Batch) (retry : Nat) (windowOver : Bool) : Receiver × List UInt8 :=
  if !windowOver then (⟨b, .probing retry⟩, [])
  else if retry = initCRetries - 1 then (⟨b, .finished (some .startTimeout)⟩, [])
  else (⟨b, .probing (retry + 1)⟩, [wantCrc])

def Batch.readProbing (b : Batch) (retry : Nat) (input : Input) : Receiver × List UInt8 :=
  match input.answer with
  | none => { b with lastCan := false }.probe retry input.windowOver
  | some byte =>
    if IsHeader byte then (⟨b, .firstBlock retry byte []⟩, [])
    else
      let detected := detectCancel byte b.lastCan
      if detected.1 then (⟨b, .finished (some .cancelledBySender)⟩, [])
      else { b with lastCan := detected.2 }.probe retry input.windowOver

def Batch.readFirstBlock (b : Batch) (retry : Nat) (header : UInt8) (got : List UInt8) :
    Option UInt8 → Receiver × List UInt8
  | none => b.nextProbe retry
  | some byte =>
    let got := got ++ [byte]
    if Mismatch got then b.nextProbe retry
    else if got.length < blockLength .crc16 header then (⟨b, .firstBlock retry header got⟩, [])
    else if !(readBlock header got).valid then b.nextProbe retry
    else
      let next := { b with lastCan := false }.firstBlock downloadDir createFile (readBlock header got)
      (next.1, ack :: next.2)

def Batch.readWaiting (b : Batch) : Option UInt8 → Receiver × List UInt8
  | none => (⟨b, .finished (some .blockTimeout)⟩, [])
  | some byte =>
    if IsHeader byte then (⟨b, .block byte []⟩, [])
    else if byte = eot then (⟨{ b.endOfFile with lastCan := false }, .waiting⟩, [ack, wantCrc])
    else
      let detected := detectCancel byte b.lastCan
      if detected.1 then (⟨b, .finished (some .cancelledBySender)⟩, [])
      else (⟨{ b with lastCan := detected.2 }, .waiting⟩, [])

def Batch.readBlock (b : Batch) (header : UInt8) (got : List UInt8) :
    Option UInt8 → Receiver × List UInt8
  | none => (⟨b, .finished (some (readTimeout header got))⟩, [])
  | some byte =>
    let got := got ++ [byte]
    if Mismatch got then (⟨b, .waiting⟩, [nak])
    else if got.length < blockLength .crc16 header then (⟨b, .block header got⟩, [])
    else b.block downloadDir createFile header (YModem.readBlock header got)

def Receiver.step (r : Receiver) (input : Input) : Receiver × List UInt8 :=
  match r.phase with
  | .probing retry => r.batch.readProbing retry input
  | .firstBlock retry header got =>
    r.batch.readFirstBlock downloadDir createFile retry header got input.answer
  | .waiting => r.batch.readWaiting input.answer
  | .block header got => r.batch.readBlock downloadDir createFile header got input.answer
  | .finished _ => (r, [])

def Receiver.run (r : Receiver) (inputs : List Input) : Receiver × List UInt8 :=
  transduce (Receiver.step downloadDir createFile) r inputs

end Read

end TauTerm.Transfer.YModem
