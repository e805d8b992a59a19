import Mathlib
import TauTerm.Lib.Run
import TauTerm.Transfer.YModemDelivery

/-!
# What a YModem receiver has written

What has been read is cut into stretches (`Transcript.read`), from the reads alone. They tell
which block 0 came last and what came behind it (`lastFile`), and so what a receiver should keep:
the packets numbered 1, 2, 3, ... modulo 256 (`reassemble`). `ymodem_receive` keeps no expected
number, and it takes an `EOT` or a block 0 for the end of the file whatever is missing, so it
keeps just that as long as what is heard is in order (`Heard.InOrder`).
-/

namespace TauTerm.Transfer.YModem

open Lib XModem

/-! ## What is heard -/

/-- A stretch of what is read: an answer that is no header, a packet that breaks off, a header with
a number that its complement refutes, or a packet. -/
inductive Heard where
  | idle (answer : Option UInt8)
  | cut (header : UInt8) (got : List UInt8)
  | mismatch (header : UInt8) (got : List UInt8)
  | packet (header : UInt8) (bytes : List UInt8)
  deriving DecidableEq

namespace Heard

def reads : Heard → List (Option UInt8)
  | idle answer => [answer]
  | cut header got => packetReads header got ++ [none]
  | mismatch header got | packet header got => packetReads header got

def blocks : Heard → List ReceivedBlock
  | packet header bytes => [readBlock header bytes]
  | _ => []

/-- The data of a block 0: an intact packet numbered 0 that is the first one of its kind or comes
with a `SOH`. Behind the first one, the number 0 of an `STX` has wrapped. -/
def zero? (first : Bool) : Heard → Option (List UInt8)
  | packet header bytes =>
    if (readBlock header bytes).Intact ∧ (readBlock header bytes).number = 0 ∧
      (first = true ∨ header ≠ stx) then some (readBlock header bytes).data
    else none
  | _ => none

/-- Behind this stretch no file is open: it is an `EOT` or a block 0. -/
def EndsFile (h : Heard) : Prop := h = idle (some eot) ∨ (h.zero? false).isSome

instance (h : Heard) : Decidable h.EndsFile := inferInstanceAs (Decidable (_ ∨ _))

end Heard

/-- The stretches that are over, and the packet that is under way. -/
structure Transcript where
  heard : List Heard
  underWay : Option (UInt8 × List UInt8)

namespace Transcript

/-- The stretch that the next read ends, or the packet that is under way behind it. -/
def next (t : Transcript) (answer : Option UInt8) : Heard ⊕ (UInt8 × List UInt8) :=
  match t.underWay, answer with
  | none, none => .inl (.idle none)
  | none, some byte => if IsHeader byte then .inr (byte, []) else .inl (.idle (some byte))
  | some (header, got), none => .inl (.cut header got)
  | some (header, got), some byte =>
    if Mismatch (got ++ [byte]) then .inl (.mismatch header (got ++ [byte]))
    else if (got ++ [byte]).length < blockLength .crc16 header then .inr (header, got ++ [byte])
    else .inl (.packet header (got ++ [byte]))

def read (t : Transcript) (answer : Option UInt8) : Transcript :=
  match t.next answer with
  | .inl h => ⟨t.heard ++ [h], none⟩
  | .inr packet => ⟨t.heard, some packet⟩

section Next

variable {heard : List Heard} {header byte : UInt8} {got : List UInt8} {answer : Option UInt8}
  {t : Transcript} {h : Heard} {packet : UInt8 × List UInt8}

theorem read_of_inl (hnext : t.next answer = .inl h) : t.read answer = ⟨t.heard ++ [h], none⟩ := by
  rw [read, hnext]

theorem read_of_inr (hnext : t.next answer = .inr packet) :
    t.read answer = ⟨t.heard, some packet⟩ := by
  rw [read, hnext]

theorem next_idle (hidle : ∀ b ∈ answer, ¬IsHeader b) :
    next ⟨heard, none⟩ answer = .inl (.idle answer) := by
  cases answer with
  | none => rfl
  | some byte => exact if_neg (hidle byte rfl)

theorem next_header (hheader : IsHeader byte) : next ⟨heard, none⟩ (some byte) = .inr (byte, []) :=
  if_pos hheader

theorem next_mismatch (hm : Mismatch (got ++ [byte])) :
    next ⟨heard, some (header, got)⟩ (some byte) = .inl (.mismatch header (got ++ [byte])) :=
  if_pos hm

theorem next_short (hm : ¬Mismatch (got ++ [byte]))
    (hl : (got ++ [byte]).length < blockLength .crc16 header) :
    next ⟨heard, some (header, got)⟩ (some byte) = .inr (header, got ++ [byte]) :=
  (if_neg hm).trans (if_pos hl)

theorem next_packet (hm : ¬Mismatch (got ++ [byte]))
    (hl : ¬(got ++ [byte]).length < blockLength .crc16 header) :
    next ⟨heard, some (header, got)⟩ (some byte) = .inl (.packet header (got ++ [byte])) :=
  (if_neg hm).trans (if_neg hl)

end Next

def reads (t : Transcript) : List (Option UInt8) :=
  t.heard.flatMap Heard.reads ++ t.underWay.elim [] fun p => packetReads p.1 p.2

/-- The stretches are what has been read. -/
theorem reads_read (t : Transcript) (answer : Option UInt8) :
    (t.read answer).reads = t.reads ++ [answer] := by
  obtain ⟨heard, underWay⟩ := t
  cases underWay with
  | none =>
    cases answer with
    | none => simp [read, next, reads, Heard.reads]
    | some byte =>
      by_cases hheader : IsHeader byte
      · simp [read, next, reads, hheader, packetReads]
      · simp [read, next, reads, hheader, Heard.reads]
  | some packet =>
    obtain ⟨header, got⟩ := packet
    cases answer with
    | none => simp [read, next, reads, Heard.reads]
    | some byte =>
      by_cases hm : Mismatch (got ++ [byte])
      · simp [read, next, reads, hm, Heard.reads, packetReads]
      · by_cases hl : got.length + 1 < blockLength .crc16 header
        · simp [read, next, reads, hm, hl, packetReads]
        · simp [read, next, reads, hm, hl, Heard.reads, packetReads]

end Transcript

/-! ## What is heard of a file -/

/-- The data of a block 0, and what has been heard behind it. -/
structure HeardFile where
  metadata : List UInt8
  since : List Heard

def HeardFile.hear (file : Option HeardFile) (h : Heard) : Option HeardFile :=
  match h.zero? file.isNone with
  | some data => some ⟨data, []⟩
  | none => file.map fun f => ⟨f.metadata, f.since ++ [h]⟩

/-- The last block 0 and what has been heard behind it. -/
def lastFile (heard : List Heard) : Option HeardFile := heard.foldl HeardFile.hear none

/-- The name and the size in the data of a block 0. -/
def announcement (data : List UInt8) : Option Metadata :=
  match data.findIdx? (· == 0) with
  | some pos => some (parseNul data pos)
  | none => parseFallback data

/-- The blocks numbered 1, 2, 3, ..., in the order in which they come. -/
def reassemble (heard : List Heard) : List ReceivedBlock :=
  (heard.flatMap Heard.blocks).foldl accept []

/-- What a file of the announced size holds of these blocks; without a size, the blocks without
their padding. -/
def contentOf (totalSize : Nat) (blocks : List ReceivedBlock) : List UInt8 :=
  if 0 < totalSize then (blocks.flatMap (·.data)).take totalSize
  else blocks.flatMap fun b => stripPadding b.data

/-- The file is the one that this block 0 announces, and holds the intact packets numbered 1, 2, 3,
... modulo 256 that came behind it, each once and in their order, up to the announced size. -/
structure OpenFile.Holds (f : OpenFile) (file : HeardFile) : Prop where
  announced : announcement file.metadata = some ⟨f.name, f.totalSize⟩
  sublist : (reassemble file.since).Sublist (file.since.flatMap Heard.blocks)
  numbered : ∀ i (hi : i < (reassemble file.since).length), (reassemble file.since)[i].IsNext i
  written : f.written = contentOf f.totalSize (reassemble file.since)

def OpenFile.Whole (f : OpenFile) : Prop := 0 < f.totalSize → f.written.length = f.totalSize

/-- The file holds what came behind its block 0 until it was ended, and that is all of it. -/
def OpenFile.CompletedIn (f : OpenFile) (heard : List Heard) : Prop :=
  ∃ front h rest, heard = front ++ h :: rest ∧ h.EndsFile ∧
    (∃ file ∈ lastFile front, f.Holds file) ∧ f.Whole

section Content

variable {heard : List Heard} {h : Heard} {file : HeardFile} {f : OpenFile} {data : List UInt8}

theorem reassemble_concat (heard : List Heard) (h : Heard) :
    reassemble (heard ++ [h]) = h.blocks.foldl accept (reassemble heard) := by
  simp [reassemble]

/-- A stretch without an intact block adds nothing. -/
theorem reassemble_refused (hblocks : ∀ block ∈ h.blocks, ¬block.Intact) :
    reassemble (heard ++ [h]) = reassemble heard := by
  rw [reassemble_concat]
  cases h with
  | packet header bytes =>
    have hnot : ¬(readBlock header bytes).IsNext (reassemble heard).length :=
      fun hnext => hblocks _ (List.mem_singleton.mpr rfl) hnext.1
    simp [Heard.blocks, accept, hnot]
  | idle => rfl
  | cut => rfl
  | mismatch => rfl

theorem contentOf_concat (totalSize : Nat) (blocks : List ReceivedBlock) (b : ReceivedBlock) :
    contentOf totalSize (blocks ++ [b]) =
      contentOf totalSize blocks ++
        (OpenFile.mk [] totalSize (contentOf totalSize blocks)).payload b.data := by
  unfold contentOf OpenFile.payload
  by_cases h : 0 < totalSize
  · simp only [if_pos h, List.flatMap_append, List.flatMap_singleton, List.take_append,
      List.length_take]
    congr 2
    omega
  · simp only [if_neg h, List.flatMap_append, List.flatMap_singleton]

theorem length_contentOf {totalSize : Nat} {blocks : List ReceivedBlock} (hpos : 0 < totalSize)
    (hlen : totalSize ≤ (blocks.flatMap (·.data)).length) :
    (contentOf totalSize blocks).length = totalSize := by
  rw [contentOf, if_pos hpos, List.length_take, min_eq_left hlen]

/-- Blocks that do not end in padding are held as they are, when the size is unknown. -/
theorem contentOf_unpadded {blocks : List ReceivedBlock}
    (h : ∀ b ∈ blocks, b.data.getLast? ≠ some cpmeof) :
    contentOf 0 blocks = blocks.flatMap (·.data) := by
  unfold contentOf
  rw [if_neg (lt_irrefl 0)]
  refine List.flatMap_congr fun b hb => ?_
  unfold stripPadding
  cases hrev : b.data.reverse with
  | nil => rw [List.dropWhile_nil, List.reverse_nil, List.reverse_eq_nil_iff.mp hrev]
  | cons x xs =>
    have hx : x ≠ cpmeof := by
      rintro rfl
      refine h b hb ?_
      rw [← List.head?_reverse, hrev]
      rfl
    rw [List.dropWhile_cons_of_neg (by simpa using hx), ← hrev, List.reverse_reverse]

theorem OpenFile.holds (hannounced : announcement file.metadata = some ⟨f.name, f.totalSize⟩)
    (hwritten : f.written = contentOf f.totalSize (reassemble file.since)) : f.Holds file where
  announced := hannounced
  sublist := foldl_accept_sublist _ []
  numbered := foldl_accept_isNext _ [] (fun _ hj => absurd hj (Nat.not_lt_zero _))
  written := hwritten

theorem lastFile_concat (heard : List Heard) (h : Heard) :
    lastFile (heard ++ [h]) = HeardFile.hear (lastFile heard) h := by
  simp [lastFile]

/-- Behind the first block 0, a stretch that is none belongs to the same file. -/
theorem lastFile_since (hfile : lastFile heard = some file) (hzero : h.zero? false = none) :
    lastFile (heard ++ [h]) = some ⟨file.metadata, file.since ++ [h]⟩ := by
  rw [lastFile_concat, hfile]
  unfold HeardFile.hear
  rw [show (some file).isNone = false from rfl, hzero]
  rfl

/-- Before the first block 0. -/
theorem lastFile_none (hnone : lastFile heard = none) (hzero : h.zero? true = none) :
    lastFile (heard ++ [h]) = none := by
  rw [lastFile_concat, hnone]
  unfold HeardFile.hear
  rw [show (none : Option HeardFile).isNone = true from rfl, hzero]
  rfl

theorem lastFile_zero (hzero : h.zero? (lastFile heard).isNone = some data) :
    lastFile (heard ++ [h]) = some ⟨data, []⟩ := by
  rw [lastFile_concat]
  unfold HeardFile.hear
  rw [hzero]

theorem Heard.zero?_packet {header : UInt8} {bytes : List UInt8} {first : Bool}
    (hintact : (readBlock header bytes).Intact) (hnumber : (readBlock header bytes).number = 0)
    (hfirst : first = true ∨ header ≠ stx) :
    (Heard.packet header bytes).zero? first = some (readBlock header bytes).data :=
  if_pos ⟨hintact, hnumber, hfirst⟩

theorem Heard.zero?_of_refused (hblocks : ∀ block ∈ h.blocks, ¬block.Intact) (first : Bool) :
    h.zero? first = none := by
  cases h with
  | packet header bytes =>
    exact if_neg fun hzero => hblocks _ (List.mem_singleton.mpr rfl) hzero.1
  | idle => rfl
  | cut => rfl
  | mismatch => rfl

end Content

/-! ## Order -/

/-- What the last accepted number is. -/
def lastOf (accepted : List ReceivedBlock) : Option UInt8 :=
  if accepted = [] then none else some (UInt8.ofNat accepted.length)

/-- An end of the file comes when the numbered packets behind its block 0 carry as much as it
announces, and an intact packet is the next one or the last one again. -/
def Heard.InOrder (h : Heard) (totalSize : Nat) (since : List Heard) : Prop :=
  if h.EndsFile then totalSize ≤ ((reassemble since).flatMap (·.data)).length
  else ∀ block ∈ h.blocks, block.Intact →
    block.IsNext (reassemble since).length ∨ lastOf (reassemble since) = some block.number

instance (h : Heard) (totalSize : Nat) (since : List Heard) :
    Decidable (h.InOrder totalSize since) := by
  unfold Heard.InOrder
  infer_instance

def Batch.InOrder (b : Batch) (heard : List Heard) (h : Heard) : Prop :=
  b.currentFile.isSome → ∀ file ∈ lastFile heard, ∀ m ∈ announcement file.metadata,
    h.InOrder m.totalSize file.since

def Phase.isFinished : Phase → Bool
  | .finished _ => true
  | _ => false

/-- The receiver, and what it has heard. -/
structure Listener where
  receiver : Receiver
  transcript : Transcript

namespace Listener

section Step

variable (downloadDir : Path) (createFile : Path → Option String)

/-- A read; a receiver that has returned reads nothing. -/
def step (l : Listener) (input : Input) : Listener :=
  if l.receiver.phase.isFinished then l
  else ⟨(l.receiver.step downloadDir createFile input).1, l.transcript.read input.answer⟩

def start : Listener := ⟨ymodemReceive.1, ⟨[], none⟩⟩

/-- The receiver behind these reads, and what it has heard of them. -/
def listen (as : List Input) : Listener := as.foldl (step downloadDir createFile) start

end Step

/-- A stretch that the read ends is in order behind the block 0 of the file that is open. -/
def Orderly (l : Listener) (input : Input) : Prop :=
  l.receiver.phase.isFinished = false → ∀ h, l.transcript.next input.answer = .inl h →
    l.receiver.batch.InOrder l.transcript.heard h

end Listener

section Run

variable {downloadDir : Path} {createFile : Path → Option String} {l : Listener} {input : Input}

theorem Receiver.step_finished {r : Receiver} (h : r.phase.isFinished) :
    r.step downloadDir createFile input = (r, []) := by
  obtain ⟨batch, phase⟩ := r
  cases phase with
  | finished error => rfl
  | _ => cases h

theorem Listener.step_of_finished (h : l.receiver.phase.isFinished) :
    l.step downloadDir createFile input = l := if_pos h

theorem Listener.step_of_reading (h : l.receiver.phase.isFinished = false) :
    l.step downloadDir createFile input =
      ⟨(l.receiver.step downloadDir createFile input).1, l.transcript.read input.answer⟩ :=
  if_neg (by simp [h])

/-- Listening does not change what is received. -/
theorem Listener.foldl_receiver (as : List Input) :
    (as.foldl (step downloadDir createFile) l).receiver =
      (l.receiver.run downloadDir createFile as).1 := by
  induction as generalizing l with
  | nil => rfl
  | cons a as ih =>
    have hstep : (l.step downloadDir createFile a).receiver =
        (l.receiver.step downloadDir createFile a).1 := by
      cases hf : l.receiver.phase.isFinished with
      | true => rw [step_of_finished hf, Receiver.step_finished hf]
      | false => rw [step_of_reading hf]
    rw [List.foldl_cons, ih, hstep]
    rfl

/-- What is heard has been read. -/
theorem Listener.foldl_reads (as : List Input) :
    ∃ more,
      (as.foldl (step downloadDir createFile) l).transcript.reads = l.transcript.reads ++ more ∧
      more <+: as.map (·.answer) := by
  induction as generalizing l with
  | nil => exact ⟨[], (List.append_nil _).symm, List.nil_prefix⟩
  | cons a as ih =>
    rw [List.foldl_cons]
    cases hf : l.receiver.phase.isFinished with
    | true =>
      have hsame : as.foldl (step downloadDir createFile) l = l :=
        List.foldl_fixed' (fun _ => step_of_finished hf) as
      rw [step_of_finished hf, hsame]
      exact ⟨[], (List.append_nil _).symm, List.nil_prefix⟩
    | false =>
      rw [step_of_reading hf]
      obtain ⟨more, hreads, hmore⟩ := @ih
        ⟨(l.receiver.step downloadDir createFile a).1, l.transcript.read a.answer⟩
      refine ⟨a.answer :: more, ?_, List.cons_prefix_cons.mpr ⟨rfl, hmore⟩⟩
      rw [hreads, Transcript.reads_read, List.append_assoc, List.singleton_append]

end Run

/-! ## The invariant -/

/-- Everything that was reported as completed holds what it should. -/
def Batch.CompletedOk (heard : List Heard) (b : Batch) : Prop :=
  (∀ f ∈ b.completed, f.CompletedIn heard) ∧
    b.results.filter (·.status = .completed) =
      b.completed.map fun f => ⟨f.name, .completed, f.written.length, none⟩

/-- The open file holds what should have been kept so far. -/
def Batch.CurrentOk (heard : List Heard) (b : Batch) : Prop :=
  ∀ f ∈ b.currentFile, ∃ file, lastFile heard = some file ∧ f.Holds file ∧
    b.lastBlockNum = lastOf (reassemble file.since)

/-- Nothing is wrong yet with the number behind a header. -/
def Matches (got : List UInt8) : Prop := 2 ≤ got.length → got.getD 0 0 = ~~~(got.getD 1 0)

def Receiver.Inv (t : Transcript) (r : Receiver) : Prop :=
  r.batch.CompletedOk t.heard ∧ r.batch.CurrentOk t.heard ∧
  match r.phase with
  | .probing _ => t.underWay = none ∧ r.batch.currentFile = none ∧ lastFile t.heard = none
  | .firstBlock _ header got => t.underWay = some (header, got) ∧ Matches got ∧
      r.batch.currentFile = none ∧ lastFile t.heard = none
  | .waiting => t.underWay = none
  | .block header got => t.underWay = some (header, got) ∧ Matches got
  | .finished _ => True

section Batch

variable {b : Batch} {heard : List Heard} {h : Heard} {downloadDir : Path}
  {createFile : Path → Option String}

theorem OpenFile.CompletedIn.concat {f : OpenFile} (hf : f.CompletedIn heard) (h : Heard) :
    f.CompletedIn (heard ++ [h]) := by
  obtain ⟨front, last, rest, rfl, hrest⟩ := hf
  exact ⟨front, last, rest ++ [h], by simp, hrest⟩

theorem Batch.CompletedOk.concat (hb : b.CompletedOk heard) (h : Heard) :
    b.CompletedOk (heard ++ [h]) :=
  ⟨fun f hf => (hb.1 f hf).concat h, hb.2⟩

theorem Batch.complete_currentFile (b : Batch) : b.complete.currentFile = none := by
  unfold Batch.complete
  split
  · assumption
  · rfl

theorem Batch.CurrentOk.of_none (h : b.currentFile = none) : b.CurrentOk heard := by
  intro f hf
  rw [h] at hf
  cases hf

/-- The stretch is in order behind the block 0 of the open file. -/
theorem Batch.InOrder.of_holds {f : OpenFile} {file : HeardFile} (horder : b.InOrder heard h)
    (hf : f ∈ b.currentFile) (hfile : lastFile heard = some file) (hholds : f.Holds file) :
    h.InOrder f.totalSize file.since :=
  horder (Option.isSome_of_mem hf) file hfile ⟨f.name, f.totalSize⟩ hholds.announced

/-- An end of the file that is in order completes a whole file. -/
theorem Batch.CompletedOk.complete (hb : b.CompletedOk heard) (hcurrent : b.CurrentOk heard)
    (hends : h.EndsFile) (horder : b.InOrder heard h) : b.complete.CompletedOk (heard ++ [h]) := by
  unfold Batch.complete
  split
  · exact hb.concat h
  · rename_i f hf
    obtain ⟨hcompleted, hresults⟩ := hb.concat h
    obtain ⟨file, hfile, hholds, -⟩ := hcurrent f hf
    have hsize := horder.of_holds hf hfile hholds
    rw [Heard.InOrder, if_pos hends] at hsize
    refine ⟨fun g hg => ?_, ?_⟩
    · rcases List.mem_append.mp hg with hg | hg
      · exact hcompleted g hg
      · obtain rfl := List.mem_singleton.mp hg
        refine ⟨heard, h, [], rfl, hends, ⟨file, hfile, hholds⟩, fun hpos => ?_⟩
        rw [hholds.written, length_contentOf hpos hsize]
    · simp [hresults]

theorem Batch.CompletedOk.failFile (h : b.CompletedOk heard) (placeholder error : String) :
    (b.failFile placeholder error).CompletedOk heard := by
  refine ⟨h.1, ?_⟩
  simpa [Batch.failFile] using h.2

theorem Batch.CompletedOk.endOfFile (hb : b.CompletedOk heard) (hcurrent : b.CurrentOk heard)
    (hends : h.EndsFile) (horder : b.InOrder heard h) : b.endOfFile.CompletedOk (heard ++ [h]) := by
  unfold Batch.endOfFile
  split
  · exact hb.complete hcurrent hends horder
  · split_ifs
    · exact hb.concat h
    · exact (hb.concat h).failFile _ _

theorem Batch.endOfFile_currentFile (b : Batch) : b.endOfFile.currentFile = none := by
  unfold Batch.endOfFile
  split
  · exact b.complete_currentFile
  · split_ifs <;> assumption

/-- Behind its block 0 a file is empty. -/
theorem Batch.CurrentOk.opened {data : List UInt8} {m : Metadata}
    (hfile : lastFile heard = some ⟨data, []⟩) (hm : announcement data = some m) :
    ({ b with
      currentFile := some ⟨m.name, m.totalSize, []⟩, lastBlockNum := none } : Batch).CurrentOk heard := by
  intro f hf
  obtain rfl := Option.mem_some_iff.mp hf
  refine ⟨_, hfile, OpenFile.holds hm ?_, rfl⟩
  simp [reassemble, contentOf]

theorem Batch.openFile_cases (b : Batch) (m : Metadata) :
    (∃ e, b.openFile downloadDir createFile m =
      (.error (destination downloadDir m.name, e),
        { b with opened := b.opened ++ [destination downloadDir m.name] })) ∨
    b.openFile downloadDir createFile m =
      (.ok (),
        { b with
          opened := b.opened ++ [destination downloadDir m.name]
          currentFile := some ⟨m.name, m.totalSize, []⟩, lastBlockNum := none }) := by
  unfold Batch.openFile
  cases h : createFile (destination downloadDir m.name) with
  | none => exact .inr (by simp only [h])
  | some e => exact .inl ⟨e, by simp only [h]⟩

theorem Batch.openFile_ok {data : List UInt8} {m : Metadata} (h : b.CompletedOk heard)
    (hnone : b.currentFile = none) (hfile : lastFile heard = some ⟨data, []⟩)
    (hm : announcement data = some m) :
    (b.openFile downloadDir createFile m).2.CompletedOk heard ∧
      (b.openFile downloadDir createFile m).2.CurrentOk heard := by
  rcases @b.openFile_cases downloadDir createFile m with ⟨e, he⟩ | he
  · rw [he]
    exact ⟨h, .of_none hnone⟩
  · rw [he]
    exact ⟨h, .opened (b := b) hfile hm⟩

theorem Batch.inv_openOrFail {data : List UInt8} {m : Metadata} (h : b.CompletedOk heard)
    (hnone : b.currentFile = none) (hfile : lastFile heard = some ⟨data, []⟩)
    (hm : announcement data = some m) (out : List UInt8) :
    (b.openOrFail downloadDir createFile m out).1.Inv ⟨heard, none⟩ := by
  obtain ⟨hcompleted, hcurrent⟩ := @openFile_ok _ _ downloadDir createFile _ _ h hnone hfile hm
  unfold Batch.openOrFail
  rcases @b.openFile_cases downloadDir createFile m with ⟨e, he⟩ | he
  · rw [he] at hcompleted hcurrent ⊢
    exact ⟨hcompleted, hcurrent, trivial⟩
  · rw [he] at hcompleted hcurrent ⊢
    exact ⟨hcompleted, hcurrent, rfl⟩

theorem Batch.inv_firstBlock (h : b.CompletedOk heard) (hnone : b.currentFile = none)
    {block : ReceivedBlock} (hfile : block.number = 0 → lastFile heard = some ⟨block.data, []⟩) :
    (b.firstBlock downloadDir createFile block).1.Inv ⟨heard, none⟩ := by
  unfold Batch.firstBlock
  split_ifs with hnumber hempty
  · exact ⟨h, .of_none hnone, trivial⟩
  · exact ⟨h, .of_none hnone, trivial⟩
  · split
    · exact ⟨h, .of_none hnone, rfl⟩
    · rename_i pos hpos
      dsimp only
      split_ifs
      · exact ⟨h, .of_none hnone, rfl⟩
      · refine inv_openOrFail h hnone (hfile (not_not.mp hnumber)) ?_ _
        rw [announcement, hpos]

theorem Batch.inv_blockZero {data : List UInt8} (h : b.complete.CompletedOk heard)
    (hfile : lastFile heard = some ⟨data, []⟩) :
    (b.blockZero downloadDir createFile data).1.Inv ⟨heard, none⟩ := by
  have hnone := b.complete_currentFile
  unfold Batch.blockZero
  dsimp only
  split_ifs with hempty hpadding
  · exact ⟨h, .of_none hnone, trivial⟩
  · exact ⟨h.failFile _ _, .of_none hnone, rfl⟩
  · split
    · rename_i pos hpos
      split_ifs
      · exact ⟨h, .of_none hnone, rfl⟩
      · refine inv_openOrFail h hnone hfile ?_ _
        rw [announcement, hpos]
    · rename_i hpos
      split
      · exact ⟨h, .of_none hnone, rfl⟩
      · rename_i m hm
        obtain ⟨hcompleted, hcurrent⟩ := @openFile_ok _ _ downloadDir createFile _ m h hnone hfile
          (by rw [announcement, hpos, hm])
        exact ⟨hcompleted, hcurrent, rfl⟩

/-! ## Data blocks -/

theorem lastOf_accept {accepted : List ReceivedBlock} {block : ReceivedBlock}
    (h : block.IsNext accepted.length) :
    lastOf (accept accepted block) = some block.number := by
  rw [accept, if_pos h, lastOf, if_neg (by simp), h.2, List.length_append, List.length_singleton]

/-- A number that is the last one again is not the next one. -/
theorem not_isNext_of_last {accepted : List ReceivedBlock} {block : ReceivedBlock}
    (h : lastOf accepted = some block.number) : ¬block.IsNext accepted.length := by
  intro hnext
  unfold lastOf at h
  split_ifs at h
  exact ofNat_succ_ne _ (hnext.2.symm.trans (Option.some.inj h).symm)

/-- A data block that is in order is written exactly when `accept` takes it. -/
theorem Batch.CurrentOk.dataBlock {header : UInt8} {bytes : List UInt8}
    (hcurrent : b.CurrentOk heard) (hintact : (YModem.readBlock header bytes).Intact)
    (hdata : (Heard.packet header bytes).zero? false = none)
    (horder : b.InOrder heard (.packet header bytes)) :
    (b.dataBlock (YModem.readBlock header bytes)).CurrentOk (heard ++ [.packet header bytes]) := by
  have hends : ¬(Heard.packet header bytes).EndsFile := by
    rintro (h | h)
    · cases h
    · rw [hdata] at h
      cases h
  have hnext : ∀ f ∈ b.currentFile, ∀ file, lastFile heard = some file → f.Holds file →
      (YModem.readBlock header bytes).IsNext (reassemble file.since).length ∨
        lastOf (reassemble file.since) = some (YModem.readBlock header bytes).number := by
    intro f hf file hfile hholds
    have hin := horder.of_holds hf hfile hholds
    rw [Heard.InOrder, if_neg hends] at hin
    exact hin _ (List.mem_singleton.mpr rfl) hintact
  intro f hf
  unfold Batch.dataBlock at hf ⊢
  split_ifs at hf ⊢ with hlast
  · obtain ⟨file, hfile, hholds, hlastOf⟩ := hcurrent f hf
    have hnot := not_isNext_of_last (hlastOf.symm.trans hlast)
    have hsame : reassemble (file.since ++ [.packet header bytes]) = reassemble file.since := by
      rw [reassemble_concat]
      simp [Heard.blocks, accept, hnot]
    refine ⟨_, lastFile_since hfile hdata, OpenFile.holds hholds.announced ?_, ?_⟩
    · rw [hsame, hholds.written]
    · rw [hsame, hlastOf]
  · obtain ⟨g, hg, rfl⟩ := Option.map_eq_some_iff.mp hf
    obtain ⟨file, hfile, hholds, hlastOf⟩ := hcurrent g hg
    have hisnext := (hnext g hg file hfile hholds).resolve_right fun h =>
      hlast (hlastOf.trans h)
    refine ⟨_, lastFile_since hfile hdata, OpenFile.holds hholds.announced ?_, ?_⟩
    · rw [reassemble_concat]
      show g.written ++ g.payload _ = contentOf g.totalSize (accept _ _)
      rw [accept, if_pos hisnext, contentOf_concat, ← hholds.written]
      rfl
    · rw [reassemble_concat]
      exact (lastOf_accept hisnext).symm

/-- A stretch without an intact block is heard and changes nothing. -/
theorem Batch.CurrentOk.refused (hcurrent : b.CurrentOk heard)
    (hblocks : ∀ block ∈ h.blocks, ¬block.Intact) : b.CurrentOk (heard ++ [h]) := by
  intro f hf
  obtain ⟨file, hfile, hholds, hlast⟩ := hcurrent f hf
  refine ⟨_, lastFile_since hfile (Heard.zero?_of_refused hblocks false),
    OpenFile.holds hholds.announced ?_, ?_⟩
  · rw [reassemble_refused hblocks, hholds.written]
  · rw [reassemble_refused hblocks, hlast]

end Batch

/-! ## Steps -/

section Step

variable {b : Batch} {heard : List Heard} {downloadDir : Path} {createFile : Path → Option String}

/-- The number and its complement match until they are refuted. -/
theorem Matches.concat {byte : UInt8} {got : List UInt8} (h : Matches got)
    (hm : ¬Mismatch (got ++ [byte])) : Matches (got ++ [byte]) := by
  intro hlen
  by_cases heq : (got ++ [byte]).length = 2
  · by_contra hne
    exact hm ⟨heq, hne⟩
  · have h2 : 2 ≤ got.length := by
      simp at hlen heq
      omega
    rw [List.getD_append _ _ _ _ (by omega), List.getD_append _ _ _ _ (by omega)]
    exact h h2

/-- A block that has been read in full has a number that matches. -/
theorem Matches.of_full {header : UInt8} {bytes : List UInt8} (h : Matches bytes)
    (hl : ¬bytes.length < blockLength .crc16 header) :
    (YModem.readBlock header bytes).number = ~~~(YModem.readBlock header bytes).numberComplement :=
  h (by have := blockLength_pos .crc16 header; omega)

theorem inv_nextProbe (h : b.CompletedOk heard) (hnone : b.currentFile = none)
    (hfile : lastFile heard = none) (retry : Nat) : (b.nextProbe retry).1.Inv ⟨heard, none⟩ := by
  unfold Batch.nextProbe
  dsimp only
  split_ifs
  · exact ⟨h, .of_none hnone, rfl, hnone, hfile⟩
  · exact ⟨h, .of_none hnone, rfl⟩

theorem inv_probe (h : b.CompletedOk heard) (hnone : b.currentFile = none)
    (hfile : lastFile heard = none) (retry : Nat) (windowOver : Bool) :
    (b.probe retry windowOver).1.Inv ⟨heard, none⟩ := by
  unfold Batch.probe
  split_ifs
  · exact ⟨h, .of_none hnone, rfl, hnone, hfile⟩
  · exact ⟨h, .of_none hnone, trivial⟩
  · exact ⟨h, .of_none hnone, rfl, hnone, hfile⟩

theorem inv_readProbing (h : b.CompletedOk heard) (hnone : b.currentFile = none)
    (hfile : lastFile heard = none) (retry : Nat) (input : Input) :
    (b.readProbing retry input).1.Inv (Transcript.read ⟨heard, none⟩ input.answer) := by
  obtain ⟨answer, windowOver⟩ := input
  unfold Batch.readProbing
  cases answer with
  | none =>
    rw [Transcript.read_of_inl (Transcript.next_idle (by simp))]
    exact inv_probe (b := { b with lastCan := false }) (h.concat _) hnone (lastFile_none hfile rfl) retry _
  | some byte =>
    dsimp only
    split_ifs with hheader
    · rw [Transcript.read_of_inr (Transcript.next_header hheader)]
      exact ⟨h, .of_none hnone, rfl, fun h => by simp at h, hnone, hfile⟩
    · rw [Transcript.read_of_inl (Transcript.next_idle (by simpa using hheader))]
      exact ⟨h.concat _, .of_none hnone, trivial⟩
    · rw [Transcript.read_of_inl (Transcript.next_idle (by simpa using hheader))]
      exact inv_probe (b := { b with lastCan := (detectCancel byte b.lastCan).2 }) (h.concat _) hnone
        (lastFile_none hfile rfl) retry _

theorem inv_readFirstBlock {header : UInt8} {got : List UInt8} (h : b.CompletedOk heard)
    (hnone : b.currentFile = none) (hfile : lastFile heard = none) (hmatches : Matches got)
    (retry : Nat) (answer : Option UInt8) :
    (b.readFirstBlock downloadDir createFile retry header got answer).1.Inv
      (Transcript.read ⟨heard, some (header, got)⟩ answer) := by
  cases answer with
  | none => exact inv_nextProbe (h.concat _) hnone (lastFile_none hfile rfl) retry
  | some byte =>
    unfold Batch.readFirstBlock
    dsimp only
    split_ifs with hm hl hv
    · rw [Transcript.read_of_inl (Transcript.next_mismatch hm)]
      exact inv_nextProbe (h.concat _) hnone (lastFile_none hfile rfl) retry
    · rw [Transcript.read_of_inr (Transcript.next_short hm hl)]
      exact ⟨h, .of_none hnone, rfl, hmatches.concat hm, hnone, hfile⟩
    · rw [Transcript.read_of_inl (Transcript.next_packet hm hl)]
      refine inv_nextProbe (h.concat _) hnone (lastFile_none hfile ?_) retry
      refine Heard.zero?_of_refused (fun block hblock hintact => ?_) true
      obtain rfl := List.mem_singleton.mp hblock
      simp [hintact.2] at hv
    · rw [Transcript.read_of_inl (Transcript.next_packet hm hl)]
      have hintact : (YModem.readBlock header (got ++ [byte])).Intact :=
        ⟨(hmatches.concat hm).of_full hl, by simpa using hv⟩
      refine Batch.inv_firstBlock (b := { b with lastCan := false }) (h.concat _) hnone fun hnumber => ?_
      refine lastFile_zero ?_
      rw [hfile]
      exact Heard.zero?_packet hintact hnumber (.inl rfl)

theorem inv_readWaiting (h : b.CompletedOk heard) (hcurrent : b.CurrentOk heard)
    (answer : Option UInt8)
    (horder : ∀ s, Transcript.next ⟨heard, none⟩ answer = .inl s → b.InOrder heard s) :
    (b.readWaiting answer).1.Inv (Transcript.read ⟨heard, none⟩ answer) := by
  have hidle : ∀ answer, b.CurrentOk (heard ++ [.idle answer]) := fun answer =>
    hcurrent.refused fun block hblock => absurd hblock List.not_mem_nil
  cases answer with
  | none =>
    rw [Transcript.read_of_inl (Transcript.next_idle (by simp))]
    exact ⟨h.concat _, hidle none, trivial⟩
  | some byte =>
    unfold Batch.readWaiting
    dsimp only
    split_ifs with hheader heot
    · rw [Transcript.read_of_inr (Transcript.next_header hheader)]
      exact ⟨h, hcurrent, rfl, fun h => by simp at h⟩
    · have hnext : Transcript.next ⟨heard, none⟩ (some byte) = .inl (.idle (some byte)) :=
        Transcript.next_idle (by simpa using hheader)
      rw [Transcript.read_of_inl hnext]
      exact ⟨h.endOfFile hcurrent (.inl (by rw [heot])) (horder _ hnext),
        .of_none b.endOfFile_currentFile, rfl⟩
    · rw [Transcript.read_of_inl (Transcript.next_idle (by simpa using hheader))]
      exact ⟨h.concat _, hidle _, trivial⟩
    · rw [Transcript.read_of_inl (Transcript.next_idle (by simpa using hheader))]
      exact ⟨h.concat _, hidle _, rfl⟩

/-- A block of the outer loop that has been read in full. -/
theorem inv_block {header : UInt8} {bytes : List UInt8} (h : b.CompletedOk heard)
    (hcurrent : b.CurrentOk heard)
    (hnumber : (YModem.readBlock header bytes).number =
      ~~~(YModem.readBlock header bytes).numberComplement)
    (horder : b.InOrder heard (.packet header bytes)) :
    (b.block downloadDir createFile header (YModem.readBlock header bytes)).1.Inv
      ⟨heard ++ [.packet header bytes], none⟩ := by
  unfold Batch.block
  split_ifs with hv hz
  · refine ⟨h.concat _, hcurrent.refused fun block hblock hintact => ?_, rfl⟩
    obtain rfl := List.mem_singleton.mp hblock
    simp [hintact.2] at hv
  · have hintact : (YModem.readBlock header bytes).Intact := ⟨hnumber, by simpa using hv⟩
    have hzero : ∀ first, (Heard.packet header bytes).zero? first =
        some (YModem.readBlock header bytes).data :=
      fun first => Heard.zero?_packet hintact hz.1 (.inr hz.2)
    refine Batch.inv_blockZero (h.complete hcurrent (.inr ?_) horder) (lastFile_zero (hzero _))
    rw [hzero]
    rfl
  · have hintact : (YModem.readBlock header bytes).Intact := ⟨hnumber, by simpa using hv⟩
    have hdata : (Heard.packet header bytes).zero? false = none :=
      if_neg fun hzero => hz ⟨hzero.2.1, hzero.2.2.resolve_left Bool.false_ne_true⟩
    refine ⟨?_, hcurrent.dataBlock hintact hdata horder, rfl⟩
    have hconcat := h.concat (.packet header bytes)
    unfold Batch.dataBlock
    split_ifs <;> exact hconcat

theorem inv_readBlock {header : UInt8} {got : List UInt8} (h : b.CompletedOk heard)
    (hcurrent : b.CurrentOk heard) (hmatches : Matches got) (answer : Option UInt8)
    (horder : ∀ s, Transcript.next ⟨heard, some (header, got)⟩ answer = .inl s →
      b.InOrder heard s) :
    (b.readBlock downloadDir createFile header got answer).1.Inv
      (Transcript.read ⟨heard, some (header, got)⟩ answer) := by
  cases answer with
  | none => exact ⟨h.concat _, hcurrent.refused fun block hblock => absurd hblock List.not_mem_nil, trivial⟩
  | some byte =>
    unfold Batch.readBlock
    dsimp only
    split_ifs with hm hl
    · rw [Transcript.read_of_inl (Transcript.next_mismatch hm)]
      exact ⟨h.concat _, hcurrent.refused fun block hblock => absurd hblock List.not_mem_nil, rfl⟩
    · rw [Transcript.read_of_inr (Transcript.next_short hm hl)]
      exact ⟨h, hcurrent, rfl, hmatches.concat hm⟩
    · have hnext : Transcript.next ⟨heard, some (header, got)⟩ (some byte) =
          .inl (.packet header (got ++ [byte])) := Transcript.next_packet hm hl
      rw [Transcript.read_of_inl hnext]
      exact inv_block h hcurrent ((hmatches.concat hm).of_full hl) (horder _ hnext)

/-- A read whose stretch is in order keeps the invariant. -/
theorem Listener.inv_step {l : Listener} (h : l.receiver.Inv l.transcript) (input : Input)
    (horder : l.Orderly input) :
    (l.step downloadDir createFile input).receiver.Inv
      (l.step downloadDir createFile input).transcript := by
  obtain ⟨⟨batch, phase⟩, heard, underWay⟩ := l
  obtain ⟨hcompleted, hcurrent, hphase⟩ := h
  cases phase with
  | probing retry =>
    obtain ⟨rfl, hnone, hfile⟩ := hphase
    exact inv_readProbing hcompleted hnone hfile retry input
  | firstBlock retry header got =>
    obtain ⟨rfl, hmatches, hnone, hfile⟩ := hphase
    exact inv_readFirstBlock hcompleted hnone hfile hmatches retry input.answer
  | waiting =>
    obtain rfl : underWay = none := hphase
    exact inv_readWaiting hcompleted hcurrent input.answer (horder rfl)
  | block header got =>
    obtain ⟨rfl, hmatches⟩ := hphase
    exact inv_readBlock hcompleted hcurrent hmatches input.answer (horder rfl)
  | finished error =>
    rw [step_of_finished rfl]
    exact ⟨hcompleted, hcurrent, trivial⟩

theorem Listener.inv_start : start.receiver.Inv start.transcript :=
  ⟨⟨fun _ hf => absurd hf List.not_mem_nil, rfl⟩, .of_none rfl, rfl, rfl, rfl⟩

/-- Every read of the run is in order. -/
def OrderlyRun (downloadDir : Path) (createFile : Path → Option String) (as : List Input) : Prop :=
  EachStep (Listener.step downloadDir createFile) Listener.Orderly Listener.start as

theorem inv_listen {as : List Input} (h : OrderlyRun downloadDir createFile as) :
    (Listener.listen downloadDir createFile as).receiver.Inv
      (Listener.listen downloadDir createFile as).transcript :=
  @EachStep.invariant _ _ (Listener.step downloadDir createFile)
    (fun l => l.receiver.Inv l.transcript) _ _ _ (fun _ input hl horder => Listener.inv_step hl input horder) h Listener.inv_start

/-- **What is written is numbered, and what is reported as completed is whole**, in every run in which
what is heard is in order: the open file holds what came behind the last block 0, which is its own,
and so does a completed file at the stretch that ended it. -/
theorem orderly_files_are_numbered {as : List Input} (h : OrderlyRun downloadDir createFile as) :
    let r := (ymodemReceive.1.run downloadDir createFile as).1
    let t := (Listener.listen downloadDir createFile as).transcript
    t.reads <+: as.map (·.answer) ∧
    (∀ f ∈ r.batch.currentFile, ∃ file ∈ lastFile t.heard, f.Holds file) ∧
    (∀ f ∈ r.batch.completed, f.CompletedIn t.heard) ∧
    r.batch.results.filter (·.status = .completed) =
      r.batch.completed.map fun f => ⟨f.name, .completed, f.written.length, none⟩ := by
  intro r t
  have hr : r = (Listener.listen downloadDir createFile as).receiver :=
    (@Listener.foldl_receiver downloadDir createFile Listener.start as).symm
  obtain ⟨more, hreads, hmore⟩ := @Listener.foldl_reads downloadDir createFile Listener.start as
  obtain ⟨hcompleted, hcurrent, -⟩ := inv_listen h
  rw [hr]
  refine ⟨?_, fun f hf => ?_, hcompleted.1, hcompleted.2⟩
  · rw [show t.reads = more from hreads]
    exact hmore
  · obtain ⟨file, hfile, hholds, -⟩ := hcurrent f hf
    exact ⟨file, hfile, hholds⟩

end Step

/-! ## Packets that were sent -/

section Sent

variable {b : Batch} {heard : List Heard} {downloadDir : Path} {createFile : Path → Option String}
  {number : UInt8} {data : List UInt8} {l l' l'' : Listener}

/-- These reads are in order and lead there. -/
def Listener.Reaches (downloadDir : Path) (createFile : Path → Option String) (l : Listener)
    (as : List Input) (l' : Listener) : Prop :=
  EachStep (step downloadDir createFile) Orderly l as ∧
    as.foldl (step downloadDir createFile) l = l'

theorem Listener.Reaches.append {as bs : List Input} (h : l.Reaches downloadDir createFile as l')
    (h' : l'.Reaches downloadDir createFile bs l'') :
    l.Reaches downloadDir createFile (as ++ bs) l'' := by
  obtain ⟨has, rfl⟩ := h
  obtain ⟨hbs, rfl⟩ := h'
  exact ⟨has.append hbs, List.foldl_append⟩

theorem Listener.Reaches.one {input : Input} (horder : l.Orderly input)
    (hstep : l.step downloadDir createFile input = l') :
    l.Reaches downloadDir createFile [input] l' :=
  ⟨⟨horder, trivial⟩, hstep⟩

theorem Listener.Reaches.run {as : List Input} (h : l.Reaches downloadDir createFile as l') :
    (l.receiver.run downloadDir createFile as).1 = l'.receiver := by
  rw [← Listener.foldl_receiver, h.2]

/-- The stretch of a packet that was sent. -/
def sent (number : UInt8) (data : List UInt8) : Heard :=
  .packet (headerOf data) (sendPacketOnly number data true).tail

/-- The bytes of a packet that was sent, its last one apart. -/
theorem sendPacketOnly_eq (number : UInt8) (hdata : data.length = 128 ∨ data.length = 1024) :
    ∃ front last, sendPacketOnly number data true = headerOf data :: (front ++ [last]) ∧
      front.length + 1 = blockLength .crc16 (headerOf data) ∧ front.getD 0 0 = ~~~(front.getD 1 0) ∧
      ¬Mismatch (front ++ [last]) ∧
      readBlock (headerOf data) (front ++ [last]) = ⟨number, ~~~number, data, true⟩ := by
  have hsize : data.length = blockSize (headerOf data) := by
    rcases hdata with h | h <;>
    · rw [headerOf, h]
      rfl
  have hread := readBlock_sent number data (headerOf data) hsize _ rfl
  refine ⟨number :: ~~~number :: (data ++ [(crc16CcittZeroPad data >>> 8).toUInt8]),
    (crc16CcittZeroPad data &&& 0xFF).toUInt8, ?_, ?_, by simp, ?_, ?_⟩
  · simp [sendPacketOnly, headerOf]
  · simp [blockLength, trailerSize, hsize]
    omega
  · rintro ⟨h2, -⟩
    simp at h2
  · simpa using hread

theorem readBlock_tail (number : UInt8) (hdata : data.length = 128 ∨ data.length = 1024) :
    readBlock (headerOf data) (sendPacketOnly number data true).tail =
      ⟨number, ~~~number, data, true⟩ := by
  obtain ⟨front, last, hpacket, -, -, -, hread⟩ := sendPacketOnly_eq number hdata
  rw [hpacket, List.tail_cons, hread]

theorem blocks_sent (number : UInt8) (hdata : data.length = 128 ∨ data.length = 1024) :
    (sent number data).blocks = [⟨number, ~~~number, data, true⟩] :=
  congrArg (fun block => [block]) (readBlock_tail number hdata)

theorem zero?_sent (number : UInt8) (first : Bool)
    (hdata : data.length = 128 ∨ data.length = 1024) :
    (sent number data).zero? first =
      if number = 0 ∧ (first = true ∨ headerOf data ≠ stx) then some data else none := by
  have hintact : ReceivedBlock.Intact ⟨number, ~~~number, data, true⟩ := ⟨by simp, rfl⟩
  unfold sent Heard.zero?
  simp only [readBlock_tail number hdata]
  by_cases h : number = 0 ∧ (first = true ∨ headerOf data ≠ stx)
  · rw [if_pos h, if_pos ⟨hintact, h⟩]
  · rw [if_neg h, if_neg fun h' => h h'.2]

theorem isHeader_headerOf (data : List UInt8) : IsHeader (headerOf data) := by
  unfold headerOf
  split_ifs
  · exact .inr rfl
  · exact .inl rfl

/-- While its bytes come, a packet is under way. -/
theorem reaches_collect {header : UInt8} {phase : List UInt8 → Phase}
    (hphase : ∀ got byte, ¬Mismatch (got ++ [byte]) →
      (got ++ [byte]).length < blockLength .crc16 header →
        Listener.step downloadDir createFile ⟨⟨b, phase got⟩, ⟨heard, some (header, got)⟩⟩
          ⟨some byte, false⟩ =
        ⟨⟨b, phase (got ++ [byte])⟩, ⟨heard, some (header, got ++ [byte])⟩⟩)
    {bytes got : List UInt8} (hlen : (got ++ bytes).length < blockLength .crc16 header)
    (hnumber : (got ++ bytes).getD 0 0 = ~~~((got ++ bytes).getD 1 0)) :
    Listener.Reaches downloadDir createFile ⟨⟨b, phase got⟩, ⟨heard, some (header, got)⟩⟩
      (arriving bytes) ⟨⟨b, phase (got ++ bytes)⟩, ⟨heard, some (header, got ++ bytes)⟩⟩ := by
  induction bytes generalizing got with
  | nil =>
    rw [List.append_nil]
    exact ⟨trivial, rfl⟩
  | cons byte bytes ih =>
    have happend : got ++ byte :: bytes = got ++ [byte] ++ bytes := by simp
    rw [happend] at hlen hnumber ⊢
    have hmatch : ¬Mismatch (got ++ [byte]) := by
      rintro ⟨h2, hm⟩
      rw [List.getD_append (got ++ [byte]) bytes 0 0 (by omega),
        List.getD_append (got ++ [byte]) bytes 0 1 (by omega)] at hnumber
      exact hm hnumber
    have hshort : (got ++ [byte]).length < blockLength .crc16 header := by
      rw [List.length_append] at hlen
      omega
    refine (Listener.Reaches.one ?_ (hphase got byte hmatch hshort)).append (ih hlen hnumber)
    intro _ h hnext
    rw [Transcript.next_short hmatch hshort] at hnext
    cases hnext

/-- A packet that was sent is read in order if it is in order itself. -/
theorem reaches_sent (hdata : data.length = 128 ∨ data.length = 1024)
    (horder : b.InOrder heard (sent number data)) :
    Listener.Reaches downloadDir createFile ⟨⟨b, .waiting⟩, ⟨heard, none⟩⟩
      (arriving (sendPacketOnly number data true))
      ⟨(b.block downloadDir createFile (headerOf data) ⟨number, ~~~number, data, true⟩).1,
        ⟨heard ++ [sent number data], none⟩⟩ := by
  have hheader := isHeader_headerOf data
  unfold sent at horder ⊢
  obtain ⟨front, last, hpacket, hlen, hnumber, hmatch, hread⟩ := sendPacketOnly_eq number hdata
  rw [hpacket, List.tail_cons] at horder ⊢
  rw [← List.singleton_append, arriving_append, arriving_append]
  have hfull : ¬(front ++ [last]).length < blockLength .crc16 (headerOf data) := by
    simp
    omega
  have hfirst : Listener.Reaches downloadDir createFile ⟨⟨b, .waiting⟩, ⟨heard, none⟩⟩
      (arriving [headerOf data])
      ⟨⟨b, .block (headerOf data) []⟩, ⟨heard, some (headerOf data, [])⟩⟩ := by
    refine .one (fun _ h hnext => ?_) ?_
    · rw [Transcript.next_header hheader] at hnext
      cases hnext
    · rw [Listener.step_of_reading rfl, Transcript.read_of_inr (Transcript.next_header hheader)]
      simp only [Receiver.step, Batch.readWaiting, if_pos hheader]
  have hfront := @reaches_collect b heard downloadDir createFile (headerOf data)
    (.block (headerOf data)) (fun got byte hmatch hshort => by
      rw [Listener.step_of_reading rfl,
        Transcript.read_of_inr (Transcript.next_short hmatch hshort)]
      simp only [Receiver.step, Batch.readBlock, if_neg hmatch, if_pos hshort])
    front [] (by rw [List.nil_append]; omega) hnumber
  rw [List.nil_append] at hfront
  refine hfirst.append (hfront.append (.one (fun _ h hnext => ?_) ?_))
  · obtain rfl := Sum.inl.inj ((Transcript.next_packet hmatch hfull).symm.trans hnext)
    exact horder
  · rw [Listener.step_of_reading rfl]
    refine congrArg₂ Listener.mk ?_ (Transcript.read_of_inl (Transcript.next_packet hmatch hfull))
    simp only [Receiver.step, Batch.readBlock, if_neg hmatch, if_neg hfull, hread]

/-- The first packet is always in order. -/
theorem reaches_first (retry : Nat) (hnone : b.currentFile = none)
    (hdata : data.length = 128 ∨ data.length = 1024) :
    Listener.Reaches downloadDir createFile ⟨⟨b, .probing retry⟩, ⟨heard, none⟩⟩
      (arriving (sendPacketOnly number data true))
      ⟨({ b with lastCan := false }.firstBlock downloadDir createFile
        ⟨number, ~~~number, data, true⟩).1, ⟨heard ++ [sent number data], none⟩⟩ := by
  have hheader := isHeader_headerOf data
  unfold sent
  obtain ⟨front, last, hpacket, hlen, hnumber, hmatch, hread⟩ := sendPacketOnly_eq number hdata
  rw [hpacket, List.tail_cons, ← List.singleton_append, arriving_append, arriving_append]
  have hfull : ¬(front ++ [last]).length < blockLength .crc16 (headerOf data) := by
    simp
    omega
  have hfirst : Listener.Reaches downloadDir createFile ⟨⟨b, .probing retry⟩, ⟨heard, none⟩⟩
      (arriving [headerOf data])
      ⟨⟨b, .firstBlock retry (headerOf data) []⟩, ⟨heard, some (headerOf data, [])⟩⟩ := by
    refine .one (fun _ h hnext => ?_) ?_
    · rw [Transcript.next_header hheader] at hnext
      cases hnext
    · rw [Listener.step_of_reading rfl, Transcript.read_of_inr (Transcript.next_header hheader)]
      simp only [Receiver.step, Batch.readProbing, if_pos hheader]
  have hfront := @reaches_collect b heard downloadDir createFile (headerOf data)
    (.firstBlock retry (headerOf data)) (fun got byte hmatch hshort => by
      rw [Listener.step_of_reading rfl,
        Transcript.read_of_inr (Transcript.next_short hmatch hshort)]
      simp only [Receiver.step, Batch.readFirstBlock, if_neg hmatch, if_pos hshort])
    front [] (by rw [List.nil_append]; omega) hnumber
  rw [List.nil_append] at hfront
  refine hfirst.append (hfront.append (.one (fun _ h hnext hopen => ?_) ?_))
  · rw [show b.currentFile = none from hnone] at hopen
    cases hopen
  · rw [Listener.step_of_reading rfl]
    refine congrArg₂ Listener.mk ?_ (Transcript.read_of_inl (Transcript.next_packet hmatch hfull))
    simp only [Receiver.step, Batch.readFirstBlock]
    rw [if_neg hmatch, if_neg hfull, hread]
    rfl

end Sent

/-! ## Two short batches -/

/-- A byte that arrives in time. -/
def byteInput (b : UInt8) : Input := ⟨some b, false⟩

/-- A block 0 that announces 256 bytes for a file named `a`. -/
def smallMetadata : List UInt8 :=
  [0x61, 0, 0x32, 0x35, 0x36] ++ List.replicate 123 0

def anyPath (_ : Path) : Option String := none

/-- Block 0 and the packets of these numbers, filled with a byte, and an `EOT`. -/
def smallBatch (packets : List (UInt8 × UInt8)) : List Input :=
  (sendPacketOnly 0 smallMetadata true ++
    packets.flatMap (fun p => sendPacketOnly p.1 (List.replicate 128 p.2) true) ++
    [eot]).map byteInput

theorem smallBatch_eq (packets : List (UInt8 × UInt8)) :
    smallBatch packets = arriving (sendPacketOnly 0 smallMetadata true) ++
      (packets.flatMap (fun p => arriving (sendPacketOnly p.1 (List.replicate 128 p.2) true)) ++
        [byteInput eot]) := by
  rw [smallBatch, List.map_append, List.map_append, List.map_flatMap, List.append_assoc]
  rfl

/-- What has been heard behind the block 0 and these packets. -/
def heardSmall (packets : List (UInt8 × UInt8)) : List Heard :=
  sent 0 smallMetadata :: packets.map fun p => sent p.1 (List.replicate 128 p.2)

/-- The receiver behind the block 0. -/
def behindMetadata : Batch :=
  { ymodemReceive.1.batch with
    opened := [Batch.destination ⟨true, []⟩ ['a']], currentFile := some ⟨['a'], 256, []⟩ }

/-- The receiver behind a data packet of one byte, again and again. -/
def behindPacket (b : Batch) (p : UInt8 × UInt8) : Receiver :=
  (b.block ⟨true, []⟩ anyPath soh ⟨p.1, ~~~p.1, List.replicate 128 p.2, true⟩).1

section Small

variable {b : Batch} {p : UInt8 × UInt8} {packets : List (UInt8 × UInt8)}

theorem length_smallMetadata : smallMetadata.length = 128 := by simp [smallMetadata]

theorem headerOf_replicate (byte : UInt8) : headerOf (List.replicate 128 byte) = soh := by
  rw [headerOf, List.length_replicate]
  rfl

theorem small_metadata_read :
    Listener.start.Reaches ⟨true, []⟩ anyPath (arriving (sendPacketOnly 0 smallMetadata true))
      ⟨⟨behindMetadata, .waiting⟩, ⟨heardSmall [], none⟩⟩ := by
  have hzero : ({ ymodemReceive.1.batch with lastCan := false }.firstBlock ⟨true, []⟩ anyPath
      ⟨0, ~~~0, smallMetadata, true⟩).1 = ⟨behindMetadata, .waiting⟩ := by decide
  exact hzero ▸ reaches_first 0 rfl (.inl length_smallMetadata)

theorem heardSmall_concat (packets : List (UInt8 × UInt8)) (p : UInt8 × UInt8) :
    heardSmall (packets ++ [p]) = heardSmall packets ++ [sent p.1 (List.replicate 128 p.2)] := by
  rw [heardSmall, List.map_append, List.map_singleton, ← List.cons_append]
  rfl

/-- The block 0 and what came behind it. -/
theorem lastFile_heardSmall (h : ∀ p ∈ packets, p.1 ≠ 0) :
    lastFile (heardSmall packets) =
      some ⟨smallMetadata, packets.map fun p => sent p.1 (List.replicate 128 p.2)⟩ := by
  induction packets using List.reverseRecOn with
  | nil =>
    refine @lastFile_zero [] _ _ ?_
    rw [zero?_sent 0 _ (.inl length_smallMetadata)]
    rfl
  | append_singleton packets p ih =>
    have hlast := ih fun q hq => h q (List.mem_append_left _ hq)
    rw [heardSmall_concat, List.map_append, List.map_singleton]
    refine lastFile_since hlast ?_
    rw [zero?_sent _ _ (.inl List.length_replicate)]
    exact if_neg fun hzero => h p (by simp) hzero.1

theorem blocks_small :
    (packets.map fun p => sent p.1 (List.replicate 128 p.2)).flatMap Heard.blocks =
      packets.map fun p => ⟨p.1, ~~~p.1, List.replicate 128 p.2, true⟩ := by
  induction packets with
  | nil => rfl
  | cons p packets ih =>
    rw [List.map_cons, List.flatMap_cons, ih, blocks_sent _ (.inl List.length_replicate)]
    rfl

/-- The blocks of these packets that are kept. -/
def keptSmall (packets : List (UInt8 × UInt8)) : List ReceivedBlock :=
  (packets.map fun p =>
    (⟨p.1, ~~~p.1, List.replicate 128 p.2, true⟩ : ReceivedBlock)).foldl accept []

theorem reassemble_small :
    reassemble (packets.map fun p => sent p.1 (List.replicate 128 p.2)) = keptSmall packets := by
  rw [reassemble, blocks_small]
  rfl

theorem announcement_small : announcement smallMetadata = some ⟨['a'], 256⟩ := by decide

theorem small_packet_read (packets : List (UInt8 × UInt8)) {b' : Batch}
    (hblock : behindPacket b p = ⟨b', .waiting⟩)
    (h : ∀ q ∈ packets ++ [p], q.1 ≠ 0)
    (hnext :
      ReceivedBlock.IsNext ⟨p.1, ~~~p.1, List.replicate 128 p.2, true⟩ (keptSmall packets).length ∨
      lastOf (keptSmall packets) = some p.1) :
    Listener.Reaches ⟨true, []⟩ anyPath ⟨⟨b, .waiting⟩, ⟨heardSmall packets, none⟩⟩
      (arriving (sendPacketOnly p.1 (List.replicate 128 p.2) true))
      ⟨⟨b', .waiting⟩, ⟨heardSmall (packets ++ [p]), none⟩⟩ := by
  have hlast := lastFile_heardSmall fun q hq => h q (List.mem_append_left _ hq)
  have hdata : ¬(sent p.1 (List.replicate 128 p.2)).EndsFile := by
    rintro (heq | hzero)
    · cases heq
    · rw [zero?_sent _ _ (.inl List.length_replicate),
        if_neg fun hzero => h p (by simp) hzero.1] at hzero
      cases hzero
  have horder : b.InOrder (heardSmall packets) (sent p.1 (List.replicate 128 p.2)) := by
    intro _ file hfile m _
    obtain rfl := Option.some.inj (hlast.symm.trans hfile)
    rw [Heard.InOrder, if_neg hdata, blocks_sent _ (.inl List.length_replicate), reassemble_small]
    intro block hblock _
    obtain rfl := List.mem_singleton.mp hblock
    exact hnext
  have hsent := @reaches_sent b _ ⟨true, []⟩ anyPath p.1 (List.replicate 128 p.2)
    (.inl List.length_replicate) horder
  rw [headerOf_replicate, ← heardSmall_concat] at hsent
  exact hblock ▸ hsent

theorem small_end_read (b : Batch) (packets : List (UInt8 × UInt8)) (h : ∀ q ∈ packets, q.1 ≠ 0)
    (hsize : 256 ≤ ((keptSmall packets).flatMap (·.data)).length) :
    Listener.Reaches ⟨true, []⟩ anyPath ⟨⟨b, .waiting⟩, ⟨heardSmall packets, none⟩⟩ [byteInput eot]
      ⟨⟨{ b.endOfFile with lastCan := false }, .waiting⟩,
        ⟨heardSmall packets ++ [.idle (some eot)], none⟩⟩ := by
  refine .one (fun _ s hnext _ file hfile m hm => ?_) rfl
  obtain rfl := Sum.inl.inj hnext
  obtain rfl := Option.some.inj ((lastFile_heardSmall h).symm.trans hfile)
  obtain rfl := Option.some.inj (announcement_small.symm.trans hm)
  rw [Heard.InOrder, if_pos (.inl rfl), reassemble_small]
  exact hsize

end Small

set_option maxRecDepth 20000 in
theorem orderly_files_are_numbered_small :
    let inputs := smallBatch [(1, 7), (1, 7), (2, 8)]
    let r := (ymodemReceive.1.run ⟨true, []⟩ anyPath inputs).1
    r.batch.completed.map (·.written) = [List.replicate 128 7 ++ List.replicate 128 8] ∧
      ∀ f ∈ r.batch.completed,
        f.CompletedIn (Listener.listen ⟨true, []⟩ anyPath inputs).transcript.heard := by
  intro inputs r
  let b₁ := (behindPacket behindMetadata (1, 7)).batch
  let b₂ := (behindPacket b₁ (1, 7)).batch
  let b₃ := (behindPacket b₂ (2, 8)).batch
  have hphases : behindPacket behindMetadata (1, 7) = ⟨b₁, .waiting⟩ ∧
      behindPacket b₁ (1, 7) = ⟨b₂, .waiting⟩ ∧ behindPacket b₂ (2, 8) = ⟨b₃, .waiting⟩ := by
    decide
  have hwritten : (b₃.endOfFile.completed.map (·.written)) =
      [List.replicate 128 7 ++ List.replicate 128 8] := by decide
  have h₁ := small_packet_read [] hphases.1 (by simp) (by decide)
  have h₂ := small_packet_read [(1, 7)] hphases.2.1 (by simp) (by decide)
  have h₃ := small_packet_read [(1, 7), (1, 7)] hphases.2.2 (by simp) (by decide)
  have hend := small_end_read b₃ [(1, 7), (1, 7), (2, 8)] (by simp) (by decide)
  have hrun := small_metadata_read.append (h₁.append (h₂.append (h₃.append hend)))
  have hinputs : inputs = arriving (sendPacketOnly 0 smallMetadata true) ++
      (arriving (sendPacketOnly 1 (List.replicate 128 7) true) ++
        (arriving (sendPacketOnly 1 (List.replicate 128 7) true) ++
          (arriving (sendPacketOnly 2 (List.replicate 128 8) true) ++ [byteInput eot]))) := by
    simp only [inputs, smallBatch_eq, List.flatMap_cons, List.flatMap_nil, List.append_assoc,
      List.nil_append]
  rw [← hinputs] at hrun
  have hr : r = (ymodemReceive.1.run ⟨true, []⟩ anyPath inputs).1 := rfl
  have hlast : (ymodemReceive.1.run ⟨true, []⟩ anyPath inputs).1 = _ := hrun.run
  have hcompleted := (orderly_files_are_numbered hrun.1).2.2.1
  rw [← hr] at hcompleted
  refine ⟨?_, hcompleted⟩
  rw [hr, hlast]
  exact hwritten

set_option maxRecDepth 20000 in
/-- A lost packet: the file is reported as completed with half of its bytes. A packet numbered 3
that comes first is written. -/
theorem lost_packets_unnoticed :
    (ymodemReceive.1.run ⟨true, []⟩ anyPath (smallBatch [(1, 7)])).1.batch.results =
        [⟨['a'], .completed, 128, none⟩] ∧
      ((ymodemReceive.1.run ⟨true, []⟩ anyPath (smallBatch [(1, 7)])).1.batch.completed.map
        fun f => (f.totalSize, f.written)) = [(256, List.replicate 128 7)] ∧
      ((ymodemReceive.1.run ⟨true, []⟩ anyPath (smallBatch [(3, 9)])).1.batch.completed.map
        (·.written)) = [List.replicate 128 9] := by
  have hrun : ∀ p : UInt8 × UInt8, (ymodemReceive.1.run ⟨true, []⟩ anyPath (smallBatch [p])).1 =
      ((behindPacket behindMetadata p).run ⟨true, []⟩ anyPath [byteInput eot]).1 := fun p => by
    have hsent := @run_sent ⟨true, []⟩ anyPath behindMetadata p.1 (List.replicate 128 p.2)
      (.inl List.length_replicate)
    rw [headerOf_replicate] at hsent
    have hmetadata :
        (ymodemReceive.1.run ⟨true, []⟩ anyPath
          (arriving (sendPacketOnly 0 smallMetadata true))).1 = ⟨behindMetadata, .waiting⟩ :=
      small_metadata_read.run
    rw [smallBatch_eq, List.flatMap_singleton, run_append, hmetadata, run_append, hsent]
    rfl
  rw [hrun, hrun]
  decide

end TauTerm.Transfer.YModem
