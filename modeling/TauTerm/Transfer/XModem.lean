import Mathlib
import TauTerm.Lib.Transducer
import TauTerm.Transfer.Crc
import TauTerm.Transfer.Io

/-!
# The XModem receiver

`xmodem_receive` as a machine that takes one read at a time and answers with the bytes
it writes. The negotiation and the main loop are different loops of the source; `Heard` cuts
everything that was read into packets and what is between them, and `reassemble` says what a
receiver should keep of it: the packets numbered 1, 2, 3, ... modulo 256, whatever else arrives.
-/

namespace TauTerm.Transfer.XModem

open Lib

/-! ## Blocks -/

inductive XModemCheckMode where
  | checksum
  | crc16
  deriving DecidableEq

def XModemCheckMode.initByte : XModemCheckMode → UInt8
  | .checksum => nak
  | .crc16 => wantCrc

inductive XModemReceiveMode where
  | auto
  | crc16
  | checksum
  deriving DecidableEq

def initTimeoutSecs : Nat := 30
def maxRetries : Nat := 10

/-- The headers of a data block. -/
def IsHeader (b : UInt8) : Prop := b = soh ∨ b = stx

instance (b : UInt8) : Decidable (IsHeader b) := inferInstanceAs (Decidable (_ ∨ _))

def blockSize (header : UInt8) : Nat := if header = stx then 1024 else 128

def trailerSize : XModemCheckMode → Nat
  | .checksum => 1
  | .crc16 => 2

/-- How many bytes `read_data_block` reads behind a header. -/
def blockLength (mode : XModemCheckMode) (header : UInt8) : Nat :=
  2 + blockSize header + trailerSize mode

structure ReceivedBlock where
  number : UInt8
  numberComplement : UInt8
  data : List UInt8
  valid : Bool
  deriving DecidableEq

def verifyBlock (mode : XModemCheckMode) (data trailer : List UInt8) : Bool :=
  match mode with
  | .checksum => checksumVerify data (trailer.getD 0 0)
  | .crc16 => crc16CcittFeedthroughVerify data (trailer.getD 0 0) (trailer.getD 1 0)

/-- `read_data_block`, from the bytes behind the header. -/
def readDataBlock (mode : XModemCheckMode) (header : UInt8) (bytes : List UInt8) : ReceivedBlock :=
  let data := (bytes.drop 2).take (blockSize header)
  { number := bytes.getD 0 0
    numberComplement := bytes.getD 1 0
    data
    valid := verifyBlock mode data (bytes.drop (2 + blockSize header)) }

def nextBlockNum (current : UInt8) : UInt8 := current + 1

/-! ## The receiver -/

/-- The attempt under way of the loop that waits for the first block. -/
structure Negotiation where
  checkMode : XModemCheckMode
  /-- The modes that are tried after this one. -/
  later : List XModemCheckMode
  attemptsPerMode : Nat
  /-- The attempts left after this one. -/
  attempts : Nat
  frameStarted : Bool
  deriving DecidableEq

structure MainLoop where
  checkMode : XModemCheckMode
  receivedData : List UInt8
  expectedBlockNum : UInt8
  lastReceivedBlockNum : Option UInt8
  deriving DecidableEq

/-- What a transfer returns, and the file it wrote. -/
structure Received where
  result : Except String BatchFileResult
  file : Option (List UInt8)

/-- Where `xmodem_receive` waits for a byte. -/
inductive Receiver where
  | negotiating (n : Negotiation)
  | firstBlock (n : Negotiation) (header : UInt8) (got : List UInt8)
  | waiting (s : MainLoop) (timeoutCount : Nat)
  | block (s : MainLoop) (header : UInt8) (got : List UInt8)
  | finished (r : Received)

def Receiver.fail (message : String) : Receiver := .finished ⟨.error message, none⟩

def Negotiation.request (n : Negotiation) : List UInt8 :=
  [if n.frameStarted then nak else n.checkMode.initByte]

/-- The next round of the attempt loop, or of the loop over the modes. -/
def Negotiation.next (n : Negotiation) : Receiver × List UInt8 :=
  match n.attempts with
  | k + 1 =>
    let n := { n with attempts := k }
    (.negotiating n, n.request)
  | 0 =>
    if n.frameStarted then (.fail "XModem 首个数据块重试耗尽", cancelSequence)
    else
      match n.later with
      | [] => (.fail "无法与发送方建立 XModem 连接。请确认发送方已启动 XModem 发送（如 sx --xmodem、sx -X）。", [])
      | mode :: later =>
        let n := { n with
          checkMode := mode, later, attempts := n.attemptsPerMode - 1, frameStarted := false }
        (.negotiating n, n.request)

def checkModes : XModemReceiveMode → List XModemCheckMode
  | .auto => [.crc16, .checksum]
  | .crc16 => [.crc16]
  | .checksum => [.checksum]

/-- `INIT_TIMEOUT_SECS.div_ceil` of the number of modes. -/
def attemptsPerMode (modes : List XModemCheckMode) : Nat :=
  if 1 < modes.length then (initTimeoutSecs + modes.length - 1) / modes.length
  else initTimeoutSecs

def xmodemReceive (configured : XModemReceiveMode) : Receiver × List UInt8 :=
  let modes := checkModes configured
  let attempts := attemptsPerMode modes
  let n : Negotiation :=
    { checkMode := modes.headD .crc16, later := modes.tail, attemptsPerMode := attempts,
      attempts := attempts - 1, frameStarted := false }
  (.negotiating n, n.request)

/-- The first block, once it has been read. -/
def Negotiation.firstBlock (n : Negotiation) (b : ReceivedBlock) : Receiver × List UInt8 :=
  if b.number ≠ ~~~b.numberComplement ∨ b.number ≠ 1 then n.next
  else if b.valid then
    (.waiting
      { checkMode := n.checkMode, receivedData := b.data,
        expectedBlockNum := nextBlockNum b.number, lastReceivedBlockNum := some b.number } 0,
      [ack])
  else n.next

/-- A block of the main loop, once it has been read. -/
def MainLoop.block (s : MainLoop) (b : ReceivedBlock) : MainLoop × List UInt8 :=
  if b.number ≠ ~~~b.numberComplement then (s, [nak])
  else if !b.valid then (s, [nak])
  else if some b.number = s.lastReceivedBlockNum then (s, [ack])
  else if b.number ≠ s.expectedBlockNum then (s, [nak])
  else
    ({ s with
      receivedData := s.receivedData ++ b.data, lastReceivedBlockNum := some b.number,
      expectedBlockNum := nextBlockNum b.number },
      [ack])

section Receive

variable (fileName : List Char) (writeFile : List UInt8 → Option String)

/-- `EOT`. `writeFile` answers with the error of creating and writing the file. -/
def MainLoop.finish (s : MainLoop) : Received :=
  match writeFile s.receivedData with
  | none => ⟨.ok ⟨fileName, .completed, s.receivedData.length, none⟩, some s.receivedData⟩
  | some e => ⟨.ok ⟨fileName, .failed, s.receivedData.length, some ("写入文件失败: " ++ e)⟩, none⟩

def Receiver.read (r : Receiver) (answer : Option UInt8) : Receiver × List UInt8 :=
  match r, answer with
  | .negotiating n, none => n.next
  | .negotiating n, some b =>
    if IsHeader b then (.firstBlock { n with frameStarted := true } b [], [])
    else if b = can then (.fail "发送方取消了传输", [])
    else n.next
  | .firstBlock n header got, some b =>
    let got := got ++ [b]
    if got.length < blockLength n.checkMode header then (.firstBlock n header got, [])
    else n.firstBlock (readDataBlock n.checkMode header got)
  | .waiting s timeoutCount, none =>
    if maxRetries < timeoutCount + 1 then (.fail "接收超时：发送方无响应", [])
    else (.waiting s (timeoutCount + 1), [nak])
  | .waiting s timeoutCount, some b =>
    if IsHeader b then (.block s b [], [])
    else if b = eot then (.finished (s.finish fileName writeFile), [ack])
    else if b = can then (.fail "发送方取消了传输", [])
    else (.waiting s timeoutCount, [])
  | .block s header got, some b =>
    let got := got ++ [b]
    if got.length < blockLength s.checkMode header then (.block s header got, [])
    else
      let next := s.block (readDataBlock s.checkMode header got)
      (.waiting next.1 0, next.2)
  | .firstBlock _ _ _, none | .block _ _ _, none => (.fail "读取超时：数据流中断", [])
  | .finished r, _ => (.finished r, [])

end Receive

/-! ## What a receiver should keep -/

/-- A stretch of what is read: a packet, or an answer that is no header. -/
inductive Heard where
  | idle (answer : Option UInt8)
  | packet (header : UInt8) (bytes : List UInt8)

/-- The bytes of a packet, its header in front. -/
def packetReads (header : UInt8) (bytes : List UInt8) : List (Option UInt8) :=
  some header :: bytes.map some

def Heard.reads : Heard → List (Option UInt8)
  | .idle answer => [answer]
  | .packet header bytes => packetReads header bytes

def Heard.WellFormed (mode : XModemCheckMode) : Heard → Prop
  | .idle answer => ∀ b ∈ answer, ¬IsHeader b
  | .packet header bytes => IsHeader header ∧ bytes.length = blockLength mode header

def Heard.blocks (mode : XModemCheckMode) : Heard → List ReceivedBlock
  | .idle _ => []
  | .packet header bytes => [readDataBlock mode header bytes]

/-- The reads are these stretches. -/
structure Hears (mode : XModemCheckMode) (reads : List (Option UInt8)) (heard : List Heard) :
    Prop where
  reads_eq : reads = heard.flatMap Heard.reads
  wellFormed : ∀ h ∈ heard, h.WellFormed mode

/-- The number and its complement match, and the check holds. -/
def ReceivedBlock.Intact (b : ReceivedBlock) : Prop :=
  b.number = ~~~b.numberComplement ∧ b.valid = true

/-- The block that comes after `count` accepted ones. -/
def ReceivedBlock.IsNext (b : ReceivedBlock) (count : Nat) : Prop :=
  b.Intact ∧ b.number = UInt8.ofNat (count + 1)

instance (b : ReceivedBlock) : Decidable b.Intact := inferInstanceAs (Decidable (_ ∧ _))

instance (b : ReceivedBlock) (count : Nat) : Decidable (b.IsNext count) :=
  inferInstanceAs (Decidable (_ ∧ _))

def accept (accepted : List ReceivedBlock) (b : ReceivedBlock) : List ReceivedBlock :=
  if b.IsNext accepted.length then accepted ++ [b] else accepted

/-- The blocks numbered 1, 2, 3, ..., in the order in which they come. -/
def reassemble (mode : XModemCheckMode) (heard : List Heard) : List ReceivedBlock :=
  (heard.flatMap (Heard.blocks mode)).foldl accept []

def MainLoop.Holds (s : MainLoop) (accepted : List ReceivedBlock) : Prop :=
  s.receivedData = accepted.flatMap (·.data) ∧ accepted ≠ [] ∧
    s.lastReceivedBlockNum = some (UInt8.ofNat accepted.length) ∧
    s.expectedBlockNum = UInt8.ofNat (accepted.length + 1)

section Reassembly

variable {mode : XModemCheckMode} {reads : List (Option UInt8)} {heard : List Heard}

theorem reassemble_concat (h : Heard) :
    reassemble mode (heard ++ [h]) = (h.blocks mode).foldl accept (reassemble mode heard) := by
  simp [reassemble]

theorem foldl_accept_isNext (blocks accepted : List ReceivedBlock)
    (h : ∀ i (hi : i < accepted.length), accepted[i].IsNext i) (i : Nat)
    (hi : i < (blocks.foldl accept accepted).length) :
    (blocks.foldl accept accepted)[i].IsNext i := by
  induction blocks generalizing accepted with
  | nil => exact h i hi
  | cons b blocks ih =>
    refine ih (accept accepted b) (fun j hj => ?_) hi
    unfold accept at hj ⊢
    by_cases hb : b.IsNext accepted.length
    · simp only [if_pos hb, List.getElem_append]
      split
      · exact h j _
      · rw [if_pos hb, List.length_append, List.length_singleton] at hj
        have : j = accepted.length := by omega
        simpa [this] using hb
    · simp only [if_neg hb]
      exact h j _

/-- The accepted blocks are intact and carry the numbers 1, 2, 3, ... modulo 256. -/
theorem reassemble_isNext (i : Nat) (hi : i < (reassemble mode heard).length) :
    (reassemble mode heard)[i].IsNext i :=
  foldl_accept_isNext _ [] (fun _ hj => absurd hj (Nat.not_lt_zero _)) i hi

theorem foldl_accept_sublist (blocks accepted : List ReceivedBlock) :
    (blocks.foldl accept accepted).Sublist (accepted ++ blocks) := by
  induction blocks generalizing accepted with
  | nil => simp
  | cons b blocks ih =>
    refine (ih (accept accepted b)).trans ?_
    unfold accept
    by_cases hb : b.IsNext accepted.length
    · simp [if_pos hb]
    · rw [if_neg hb]
      exact (List.sublist_cons_self b blocks).append_left accepted

/-- Each accepted block is one of the packets, used once and in their order. -/
theorem reassemble_sublist :
    (reassemble mode heard).Sublist (heard.flatMap (Heard.blocks mode)) :=
  foldl_accept_sublist _ []

theorem Hears.nil (mode : XModemCheckMode) : Hears mode [] [] := ⟨rfl, by simp⟩

theorem Hears.concat (hh : Hears mode reads heard) {h : Heard} (hw : h.WellFormed mode) :
    Hears mode (reads ++ h.reads) (heard ++ [h]) where
  reads_eq := by rw [hh.reads_eq, List.flatMap_append, List.flatMap_singleton]
  wellFormed h' hm := by
    rcases List.mem_append.mp hm with hm | hm
    · exact hh.wellFormed h' hm
    · exact List.mem_singleton.mp hm ▸ hw

theorem reassemble_idle (h : ∀ h ∈ heard, ∃ answer, h = .idle answer) :
    reassemble mode heard = [] := by
  have : heard.flatMap (Heard.blocks mode) = [] := by
    refine List.flatMap_eq_nil_iff.mpr fun h' hm => ?_
    obtain ⟨answer, rfl⟩ := h h' hm
    rfl
  rw [reassemble, this]
  rfl

end Reassembly

/-! ## What one packet does -/

theorem MainLoop.block_of_not_intact {s : MainLoop} {b : ReceivedBlock} (h : ¬b.Intact) :
    s.block b = (s, [nak]) := by
  unfold MainLoop.block
  by_cases hc : b.number = ~~~b.numberComplement
  · have hv : b.valid = false := by simpa [ReceivedBlock.Intact, ← hc] using h
    rw [if_neg (not_not.mpr hc), if_pos (by simp [hv])]
  · rw [if_pos hc]

theorem MainLoop.block_of_intact {s : MainLoop} {b : ReceivedBlock} (h : b.Intact) :
    s.block b =
      if some b.number = s.lastReceivedBlockNum then (s, [ack])
      else if b.number ≠ s.expectedBlockNum then (s, [nak])
      else
        ({ s with
          receivedData := s.receivedData ++ b.data, lastReceivedBlockNum := some b.number,
          expectedBlockNum := nextBlockNum b.number },
          [ack]) := by
  unfold MainLoop.block
  rw [if_neg (not_not.mpr h.1), if_neg (by simp [h.2])]

theorem ofNat_succ_ne (n : Nat) : UInt8.ofNat (n + 1) ≠ UInt8.ofNat n := by
  intro h
  have := congrArg UInt8.toNat h
  simp only [UInt8.toNat_ofNat'] at this
  omega

section MainLoop

variable {s : MainLoop} {accepted : List ReceivedBlock} {b : ReceivedBlock}

/-- A retransmission of the last block is acknowledged and dropped. -/
theorem MainLoop.block_repeated (hb : b.Intact) (hlast : some b.number = s.lastReceivedBlockNum) :
    s.block b = (s, [ack]) := by
  rw [block_of_intact hb, if_pos hlast]

/-- Whatever is neither the last block nor the next one is refused. -/
theorem MainLoop.block_refused
    (hb : ¬b.Intact ∨ some b.number ≠ s.lastReceivedBlockNum ∧ b.number ≠ s.expectedBlockNum) :
    s.block b = (s, [nak]) := by
  by_cases hi : b.Intact
  · obtain ⟨hlast, hnext⟩ := hb.resolve_left (not_not.mpr hi)
    rw [block_of_intact hi, if_neg hlast, if_pos hnext]
  · exact block_of_not_intact hi

theorem MainLoop.Holds.block_next (hs : s.Holds accepted) (hb : b.IsNext accepted.length) :
    s.block b =
      ({ s with
        receivedData := s.receivedData ++ b.data, lastReceivedBlockNum := some b.number,
        expectedBlockNum := nextBlockNum b.number },
        [ack]) := by
  obtain ⟨-, -, hlast, hnext⟩ := hs
  have hne : some b.number ≠ s.lastReceivedBlockNum := by
    rw [hlast, hb.2]
    exact fun h => ofNat_succ_ne _ (Option.some.inj h)
  rw [block_of_intact hb.1, if_neg hne, if_neg (not_not.mpr (hb.2.trans hnext.symm))]

/-- The main loop keeps what it should. -/
theorem MainLoop.Holds.block (hs : s.Holds accepted) (b : ReceivedBlock) :
    (s.block b).1.Holds (accept accepted b) := by
  unfold accept
  by_cases hb : b.IsNext accepted.length
  · rw [if_pos hb, hs.block_next hb]
    obtain ⟨hdata, -, -, -⟩ := hs
    refine ⟨by simp [hdata], by simp, by simp [hb.2], ?_⟩
    show b.number + 1 = _
    rw [hb.2, List.length_append, List.length_singleton, UInt8.ofNat_add (accepted.length + 1) 1]
    rfl
  · rw [if_neg hb]
    by_cases hi : b.Intact
    · have hne : b.number ≠ s.expectedBlockNum := fun h => hb ⟨hi, h.trans hs.2.2.2⟩
      rw [block_of_intact hi, if_pos hne]
      split_ifs <;> exact hs
    · rw [block_of_not_intact hi]
      exact hs

theorem MainLoop.block_checkMode (s : MainLoop) (b : ReceivedBlock) :
    (s.block b).1.checkMode = s.checkMode := by
  unfold MainLoop.block
  split_ifs <;> rfl

end MainLoop

section Negotiation

variable {n : Negotiation} {b : ReceivedBlock}

theorem isNext_zero : b.IsNext 0 ↔ b.Intact ∧ b.number = 1 := Iff.rfl

theorem Negotiation.firstBlock_refused (hb : ¬b.IsNext 0) : n.firstBlock b = n.next := by
  unfold Negotiation.firstBlock
  split_ifs with h1 h2
  · rfl
  · rw [not_or, not_not, not_not] at h1
    exact absurd ⟨⟨h1.1, h2⟩, h1.2⟩ hb
  · rfl

theorem Negotiation.firstBlock_accepted (hb : b.IsNext 0) :
    ∃ s, n.firstBlock b = (.waiting s 0, [ack]) ∧ s.checkMode = n.checkMode ∧ s.Holds [b] := by
  obtain ⟨⟨hc, hv⟩, hn⟩ := isNext_zero.mp hb
  unfold Negotiation.firstBlock
  rw [if_neg (by rw [not_or, not_not, not_not]; exact ⟨hc, hn⟩), if_pos hv]
  refine ⟨_, rfl, rfl, by simp, by simp, by simp [hn], ?_⟩
  show nextBlockNum b.number = _
  rw [hn]
  rfl

/-- Once a frame has started, a further attempt asks with `NAK` in the same mode; after the last
attempt the transfer is cancelled. -/
theorem Negotiation.next_of_started (h : n.frameStarted = true) :
    (∃ k, n.next = (.negotiating { n with attempts := k }, [nak])) ∨
      ∃ message, n.next = (.fail message, cancelSequence) := by
  unfold Negotiation.next
  cases n.attempts with
  | zero => exact .inr ⟨_, if_pos h⟩
  | succ k => exact .inl ⟨k, by simp [Negotiation.request, h]⟩

theorem Negotiation.next_of_idle (h : n.frameStarted = false) :
    (∃ n', n.next = (.negotiating n', n'.request) ∧ n'.frameStarted = false) ∨
      ∃ message, n.next = (.fail message, []) := by
  unfold Negotiation.next
  cases n.attempts with
  | zero =>
    rw [h, if_neg Bool.false_ne_true]
    cases n.later with
    | nil => exact .inr ⟨_, rfl⟩
    | cons mode later => exact .inl ⟨_, rfl, rfl⟩
  | succ k => exact .inl ⟨_, rfl, h⟩

theorem Negotiation.next_cases (n : Negotiation) :
    (∃ n' out, n.next = (.negotiating n', out)) ∨ ∃ message out, n.next = (.fail message, out) := by
  cases hs : n.frameStarted with
  | true => exact (next_of_started hs).imp (fun ⟨_, h⟩ => ⟨_, _, h⟩) fun ⟨_, h⟩ => ⟨_, _, h⟩
  | false => exact (next_of_idle hs).imp (fun ⟨_, h, _⟩ => ⟨_, _, h⟩) fun ⟨_, h⟩ => ⟨_, _, h⟩

end Negotiation

/-! ## Runs -/

section Run

variable {fileName : List Char} {writeFile : List UInt8 → Option String}

/-- Everything that is read, and everything that is answered. -/
def Receiver.run (fileName : List Char) (writeFile : List UInt8 → Option String) (r : Receiver)
    (reads : List (Option UInt8)) : Receiver × List UInt8 :=
  transduce (Receiver.read fileName writeFile) r reads

theorem Receiver.run_append (r : Receiver) (as bs : List (Option UInt8)) :
    (r.run fileName writeFile (as ++ bs)).1 =
      ((r.run fileName writeFile as).1.run fileName writeFile bs).1 := by
  unfold Receiver.run
  rw [transduce_append]

theorem blockLength_pos (mode : XModemCheckMode) (header : UInt8) :
    1 < blockLength mode header := by
  unfold blockLength
  omega

theorem run_block_short {s : MainLoop} {header : UInt8} (bytes got : List UInt8)
    (h : got.length + bytes.length < blockLength s.checkMode header) :
    Receiver.run fileName writeFile (.block s header got) (bytes.map some) =
      (.block s header (got ++ bytes), []) := by
  induction bytes generalizing got with
  | nil => simp [Receiver.run]
  | cons b bytes ih =>
    have hstep : Receiver.read fileName writeFile (.block s header got) (some b) =
        (.block s header (got ++ [b]), []) := by
      simp only [Receiver.read]
      rw [if_pos (by simp at h ⊢; omega)]
    have hrest := ih (got ++ [b]) (by simp at h ⊢; omega)
    unfold Receiver.run at hrest ⊢
    rw [List.map_cons, transduce_cons hstep, hrest]
    simp

theorem run_block_last {s : MainLoop} {header : UInt8} {bytes got : List UInt8}
    (hne : bytes ≠ [])
    (h : got.length + bytes.length = blockLength s.checkMode header) :
    Receiver.run fileName writeFile (.block s header got) (bytes.map some) =
      let next := s.block (readDataBlock s.checkMode header (got ++ bytes))
      (.waiting next.1 0, next.2) := by
  obtain ⟨front, last, rfl⟩ : ∃ front last, bytes = front ++ [last] :=
    ⟨_, _, (List.dropLast_append_getLast hne).symm⟩
  have hfront := @run_block_short fileName writeFile s header front got (by simp at h; omega)
  unfold Receiver.run at hfront ⊢
  rw [List.map_append, transduce_append, hfront]
  simp only [List.map_cons, List.map_nil, transduce, Receiver.read, List.nil_append,
    List.append_nil]
  rw [if_neg (by simp at h ⊢; omega), List.append_assoc]

/-- A packet of the main loop, read from its header to its last byte. -/
theorem run_packet {s : MainLoop} {t : Nat} {header : UInt8} {bytes : List UInt8}
    (hheader : IsHeader header) (h : bytes.length = blockLength s.checkMode header) :
    Receiver.run fileName writeFile (.waiting s t) (packetReads header bytes) =
      let next := s.block (readDataBlock s.checkMode header bytes)
      (.waiting next.1 0, next.2) := by
  have hstep : Receiver.read fileName writeFile (.waiting s t) (some header) =
      (.block s header [], []) := by
    simp only [Receiver.read]
    rw [if_pos hheader]
  have hne : bytes ≠ [] := by
    have := blockLength_pos s.checkMode header
    rintro rfl
    simp at h
    omega
  have hrest := @run_block_last fileName writeFile _ _ _ [] hne (by simpa using h)
  unfold Receiver.run at hrest ⊢
  rw [packetReads, transduce_cons hstep, hrest]
  rfl

theorem run_first_short {n : Negotiation} {header : UInt8} (bytes got : List UInt8)
    (h : got.length + bytes.length < blockLength n.checkMode header) :
    Receiver.run fileName writeFile (.firstBlock n header got) (bytes.map some) =
      (.firstBlock n header (got ++ bytes), []) := by
  induction bytes generalizing got with
  | nil => simp [Receiver.run]
  | cons b bytes ih =>
    have hstep : Receiver.read fileName writeFile (.firstBlock n header got) (some b) =
        (.firstBlock n header (got ++ [b]), []) := by
      simp only [Receiver.read]
      rw [if_pos (by simp at h ⊢; omega)]
    have hrest := ih (got ++ [b]) (by simp at h ⊢; omega)
    unfold Receiver.run at hrest ⊢
    rw [List.map_cons, transduce_cons hstep, hrest]
    simp

theorem run_first_last {n : Negotiation} {header : UInt8} {bytes got : List UInt8}
    (hne : bytes ≠ [])
    (h : got.length + bytes.length = blockLength n.checkMode header) :
    Receiver.run fileName writeFile (.firstBlock n header got) (bytes.map some) =
      n.firstBlock (readDataBlock n.checkMode header (got ++ bytes)) := by
  obtain ⟨front, last, rfl⟩ : ∃ front last, bytes = front ++ [last] :=
    ⟨_, _, (List.dropLast_append_getLast hne).symm⟩
  have hfront := @run_first_short fileName writeFile n header front got (by simp at h; omega)
  unfold Receiver.run at hfront ⊢
  rw [List.map_append, transduce_append, hfront]
  simp only [List.map_cons, List.map_nil, transduce, Receiver.read, List.nil_append,
    List.append_nil]
  rw [if_neg (by simp at h ⊢; omega), List.append_assoc]

/-- A packet of the negotiation. -/
theorem run_first_packet {n : Negotiation} {header : UInt8} {bytes : List UInt8}
    (hheader : IsHeader header) (h : bytes.length = blockLength n.checkMode header) :
    Receiver.run fileName writeFile (.negotiating n) (packetReads header bytes) =
      { n with frameStarted := true }.firstBlock (readDataBlock n.checkMode header bytes) := by
  have hstep : Receiver.read fileName writeFile (.negotiating n) (some header) =
      (.firstBlock { n with frameStarted := true } header [], []) := by
    simp only [Receiver.read]
    rw [if_pos hheader]
  have hne : bytes ≠ [] := by
    have := blockLength_pos n.checkMode header
    rintro rfl
    simp at h
    omega
  have hrest := @run_first_last fileName writeFile { n with frameStarted := true } _ _ [] hne
      (by simpa using h)
  unfold Receiver.run at hrest ⊢
  rw [packetReads, transduce_cons hstep, hrest]
  rfl

/-! ## The invariant -/

/-- What has been read, in the terms of `reassemble`. -/
def Receiver.Inv (reads : List (Option UInt8)) : Receiver → Prop
  | .negotiating n => ∃ heard, Hears n.checkMode reads heard ∧
      reassemble n.checkMode heard = [] ∧
      (n.frameStarted = false → ∀ h ∈ heard, ∃ answer, h = .idle answer)
  | .firstBlock n header got => n.frameStarted = true ∧ IsHeader header ∧
      got.length < blockLength n.checkMode header ∧
      ∃ before heard, reads = before ++ packetReads header got ∧
        Hears n.checkMode before heard ∧ reassemble n.checkMode heard = []
  | .waiting s _ => ∃ heard, Hears s.checkMode reads heard ∧
      s.Holds (reassemble s.checkMode heard)
  | .block s header got => IsHeader header ∧ got.length < blockLength s.checkMode header ∧
      ∃ before heard, reads = before ++ packetReads header got ∧
        Hears s.checkMode before heard ∧ s.Holds (reassemble s.checkMode heard)
  | .finished _ => True

theorem Hears.idle_mode {mode mode' : XModemCheckMode} {reads : List (Option UInt8)}
    {heard : List Heard} (hh : Hears mode reads heard)
    (hidle : ∀ h ∈ heard, ∃ answer, h = .idle answer) : Hears mode' reads heard where
  reads_eq := hh.reads_eq
  wellFormed h hm := by
    obtain ⟨answer, rfl⟩ := hidle h hm
    exact hh.wellFormed _ hm

theorem Negotiation.inv_next {n : Negotiation} {reads : List (Option UInt8)}
    (h : (Receiver.negotiating n).Inv reads) : n.next.1.Inv reads := by
  obtain ⟨heard, hh, hr, hidle⟩ := h
  cases hs : n.frameStarted with
  | true =>
    rcases next_of_started hs with ⟨k, hn⟩ | ⟨message, hn⟩
    · rw [hn]
      exact ⟨heard, hh, hr, hidle⟩
    · rw [hn]
      trivial
  | false =>
    rcases next_of_idle hs with ⟨n', hn, hs'⟩ | ⟨message, hn⟩
    · rw [hn]
      exact ⟨heard, hh.idle_mode (hidle hs), reassemble_idle (hidle hs), fun _ => hidle hs⟩
    · rw [hn]
      trivial

theorem packetReads_concat (header : UInt8) (got : List UInt8) (b : UInt8) :
    packetReads header got ++ [some b] = packetReads header (got ++ [b]) := by
  simp [packetReads]

/-- One read keeps the invariant. -/
theorem Receiver.inv_read (reads : List (Option UInt8)) (r : Receiver) (answer : Option UInt8)
    (h : r.Inv reads) : (r.read fileName writeFile answer).1.Inv (reads ++ [answer]) := by
  match r, answer with
  | .negotiating n, none =>
    obtain ⟨heard, hh, hr, hidle⟩ := h
    refine Negotiation.inv_next ⟨_, hh.concat (h := .idle none) (by simp [Heard.WellFormed]), ?_, ?_⟩
    · rw [reassemble_concat]
      exact hr
    · intro hs h' hm
      rcases List.mem_append.mp hm with hm | hm
      · exact hidle hs h' hm
      · exact ⟨none, List.mem_singleton.mp hm⟩
  | .negotiating n, some b =>
    obtain ⟨heard, hh, hr, hidle⟩ := h
    simp only [Receiver.read]
    by_cases hb : IsHeader b
    · rw [if_pos hb]
      have hpos := blockLength_pos n.checkMode b
      exact ⟨rfl, hb, by simp; omega, reads, heard, rfl, hh, hr⟩
    · rw [if_neg hb]
      split_ifs with hc
      · trivial
      · refine Negotiation.inv_next
          ⟨_, hh.concat (h := .idle (some b)) (by simpa [Heard.WellFormed] using hb), ?_, ?_⟩
        · rw [reassemble_concat]
          exact hr
        · intro hs h' hm
          rcases List.mem_append.mp hm with hm | hm
          · exact hidle hs h' hm
          · exact ⟨some b, List.mem_singleton.mp hm⟩
  | .firstBlock n header got, some b =>
    obtain ⟨hs, hheader, hlen, before, heard, rfl, hh, hr⟩ := h
    simp only [Receiver.read]
    by_cases hl : (got ++ [b]).length < blockLength n.checkMode header
    · rw [if_pos hl]
      refine ⟨hs, hheader, hl, before, heard, ?_, hh, hr⟩
      rw [List.append_assoc, packetReads_concat]
    · rw [if_neg hl]
      have hfull : (got ++ [b]).length = blockLength n.checkMode header := by
        simp at hl ⊢
        omega
      have hh' := hh.concat (h := .packet header (got ++ [b])) ⟨hheader, hfull⟩
      rw [List.append_assoc, packetReads_concat]
      -- The first block is accepted exactly when `reassemble` takes it.
      by_cases hb : (readDataBlock n.checkMode header (got ++ [b])).IsNext 0
      · obtain ⟨s, he, hmode, hholds⟩ := Negotiation.firstBlock_accepted (n := n) hb
        rw [he]
        refine ⟨_, hmode ▸ hh', ?_⟩
        rw [hmode, reassemble_concat, hr]
        simpa [Heard.blocks, accept, hb] using hholds
      · rw [Negotiation.firstBlock_refused hb]
        refine Negotiation.inv_next ⟨_, hh', ?_, fun hf => absurd (hs.symm.trans hf) nofun⟩
        rw [reassemble_concat, hr]
        simp [Heard.blocks, accept, hb]
  | .waiting s t, none =>
    obtain ⟨heard, hh, hr⟩ := h
    simp only [Receiver.read]
    split_ifs
    · trivial
    · refine ⟨_, hh.concat (h := .idle none) (by simp [Heard.WellFormed]), ?_⟩
      rw [reassemble_concat]
      exact hr
  | .waiting s t, some b =>
    obtain ⟨heard, hh, hr⟩ := h
    simp only [Receiver.read]
    by_cases hb : IsHeader b
    · rw [if_pos hb]
      have hpos := blockLength_pos s.checkMode b
      exact ⟨hb, by simp; omega, reads, heard, rfl, hh, hr⟩
    · rw [if_neg hb]
      split_ifs
      · trivial
      · trivial
      · refine ⟨_, hh.concat (h := .idle (some b)) (by simpa [Heard.WellFormed] using hb), ?_⟩
        rw [reassemble_concat]
        exact hr
  | .block s header got, some b =>
    obtain ⟨hheader, hlen, before, heard, rfl, hh, hr⟩ := h
    simp only [Receiver.read]
    by_cases hl : (got ++ [b]).length < blockLength s.checkMode header
    · rw [if_pos hl]
      refine ⟨hheader, hl, before, heard, ?_, hh, hr⟩
      rw [List.append_assoc, packetReads_concat]
    · rw [if_neg hl]
      have hfull : (got ++ [b]).length = blockLength s.checkMode header := by
        simp at hl ⊢
        omega
      have hh' := hh.concat (h := .packet header (got ++ [b])) ⟨hheader, hfull⟩
      rw [List.append_assoc, packetReads_concat]
      refine ⟨_, (MainLoop.block_checkMode s _).symm ▸ hh', ?_⟩
      rw [MainLoop.block_checkMode, reassemble_concat]
      exact hr.block _
  | .firstBlock _ _ _, none => trivial
  | .block _ _ _, none => trivial
  | .finished _, _ => trivial

theorem inv_start (configured : XModemReceiveMode) : (xmodemReceive configured).1.Inv [] :=
  ⟨[], .nil _, rfl, fun _ _ hm => absurd hm List.not_mem_nil⟩

theorem inv_run (configured : XModemReceiveMode) (reads : List (Option UInt8)) :
    ((xmodemReceive configured).1.run fileName writeFile reads).1.Inv reads :=
  @transduce_history _ _ _ _ (fun reads r => Receiver.Inv reads r) _ (inv_start configured)
      Receiver.inv_read reads

/-- In the main loop the received data is that of the packets numbered 1, 2, 3, ... that have been
read; a packet is appended, acknowledged again or refused by its check and its number. A packet
that is no first block is refused by the next request, or it ends the negotiation. -/
theorem receiver_keeps_numbered_blocks (configured : XModemReceiveMode)
    (reads : List (Option UInt8)) :
    (∀ s t, ((xmodemReceive configured).1.run fileName writeFile reads).1 = .waiting s t →
      (∃ heard, Hears s.checkMode reads heard ∧
        s.receivedData = (reassemble s.checkMode heard).flatMap (·.data) ∧
        (∀ i (hi : i < (reassemble s.checkMode heard).length),
          (reassemble s.checkMode heard)[i].IsNext i) ∧
        (reassemble s.checkMode heard).Sublist (heard.flatMap (Heard.blocks s.checkMode)) ∧
        s.lastReceivedBlockNum = some (UInt8.ofNat (reassemble s.checkMode heard).length) ∧
        s.expectedBlockNum = UInt8.ofNat ((reassemble s.checkMode heard).length + 1)) ∧
      ∀ header bytes, IsHeader header → bytes.length = blockLength s.checkMode header →
        let b := readDataBlock s.checkMode header bytes
        let next := (Receiver.waiting s t).run fileName writeFile (packetReads header bytes)
        (b.Intact → some b.number = s.lastReceivedBlockNum → next = (.waiting s 0, [ack])) ∧
        (¬b.Intact ∨ some b.number ≠ s.lastReceivedBlockNum ∧ b.number ≠ s.expectedBlockNum →
          next = (.waiting s 0, [nak])) ∧
        (b.Intact → b.number = s.expectedBlockNum → ∃ s', next = (.waiting s' 0, [ack]) ∧
          s'.receivedData = s.receivedData ++ b.data)) ∧
    (∀ n, ((xmodemReceive configured).1.run fileName writeFile reads).1 = .negotiating n →
      ∀ header bytes, IsHeader header → bytes.length = blockLength n.checkMode header →
        ¬(readDataBlock n.checkMode header bytes).IsNext 0 →
        let next := (Receiver.negotiating n).run fileName writeFile (packetReads header bytes)
        (∃ n', next = (.negotiating n', [nak])) ∨
          ∃ message, next = (.fail message, cancelSequence)) := by
  have hinv := @inv_run fileName writeFile configured reads
  constructor
  · intro s t hr
    rw [hr] at hinv
    obtain ⟨heard, hh, hholds⟩ := hinv
    refine ⟨⟨heard, hh, hholds.1, reassemble_isNext, reassemble_sublist, hholds.2.2⟩, ?_⟩
    intro header bytes hheader hlen b next
    have hnext : next = (.waiting (s.block b).1 0, (s.block b).2) := run_packet hheader hlen
    refine ⟨fun hb hlast => ?_, fun hb => ?_, fun hb hexp => ?_⟩
    · rw [hnext, MainLoop.block_repeated hb hlast]
    · rw [hnext, MainLoop.block_refused hb]
    · have hb' : b.IsNext (reassemble s.checkMode heard).length := ⟨hb, hexp.trans hholds.2.2.2⟩
      rw [hnext, hholds.block_next hb']
      exact ⟨_, rfl, rfl⟩
  · intro n _ header bytes hheader hlen hb next
    have hnext : next = { n with frameStarted := true }.next :=
      (run_first_packet hheader hlen).trans (Negotiation.firstBlock_refused hb)
    rw [hnext]
    exact (Negotiation.next_of_started rfl).imp (fun ⟨_, hk⟩ => ⟨_, hk⟩) id

end Run

/-- A packet of equal bytes, with their sum behind them. -/
def filledPacket (number byte : UInt8) : List UInt8 :=
  [number, ~~~number] ++ (List.replicate 128 byte ++ [checksum (List.replicate 128 byte)])

theorem readDataBlock_filledPacket (number byte : UInt8) :
    readDataBlock .checksum soh (filledPacket number byte) =
      ⟨number, ~~~number, List.replicate 128 byte, true⟩ := by
  have hsize : blockSize soh = (List.replicate 128 byte).length := by simp [blockSize, soh, stx]
  have hdrop : (filledPacket number byte).drop 2 =
      List.replicate 128 byte ++ [checksum (List.replicate 128 byte)] := rfl
  rw [readDataBlock, ← List.drop_drop, hdrop, hsize, List.take_left, List.drop_left]
  simp [filledPacket, verifyBlock, checksumVerify]

theorem length_filledPacket (number byte : UInt8) :
    (filledPacket number byte).length = blockLength .checksum soh := by
  simp [filledPacket, blockLength, blockSize, trailerSize, soh, stx]

/-- Two packets, the second of which comes again, and a packet 4 in front of packet 3. -/
theorem receiver_keeps_numbered_blocks_two :
    let reads := packetReads soh (filledPacket 1 5) ++ packetReads soh (filledPacket 2 6)
    let data := List.replicate 128 (5 : UInt8) ++ List.replicate 128 6
    let s : MainLoop := ⟨.checksum, data, 3, some 2⟩
    ((xmodemReceive .checksum).1.run [] (fun _ => none) reads).1 = .waiting s 0 ∧
      (∃ heard, Hears .checksum reads heard ∧
        data = (reassemble .checksum heard).flatMap (·.data)) ∧
      (Receiver.waiting s 0).run [] (fun _ => none) (packetReads soh (filledPacket 2 6)) =
        (.waiting s 0, [ack]) ∧
      (Receiver.waiting s 0).run [] (fun _ => none) (packetReads soh (filledPacket 4 7)) =
        (.waiting s 0, [nak]) := by
  intro reads data s
  let s₁ : MainLoop := ⟨.checksum, List.replicate 128 5, 2, some 1⟩
  have hfirst : (xmodemReceive .checksum).1.run [] (fun _ => none)
      (packetReads soh (filledPacket 1 5)) = (.waiting s₁ 0, [ack]) := by
    refine (run_first_packet (.inl rfl) (length_filledPacket 1 5)).trans ?_
    have hread := readDataBlock_filledPacket 1 5
    show Negotiation.firstBlock _ (readDataBlock .checksum _ _) = _
    rw [hread]
    rfl
  have hsecond : (Receiver.waiting s₁ 0).run [] (fun _ => none)
      (packetReads soh (filledPacket 2 6)) = (.waiting s 0, [ack]) := by
    refine (run_packet (.inl rfl) (length_filledPacket 2 6)).trans ?_
    have hread := readDataBlock_filledPacket 2 6
    rw [show s₁.checkMode = .checksum from rfl, hread]
    rfl
  have hwaiting : ((xmodemReceive .checksum).1.run [] (fun _ => none) reads).1 = .waiting s 0 := by
    rw [Receiver.run_append, hfirst, hsecond]
  obtain ⟨⟨heard, hhears, hdata, -⟩, hstep⟩ :=
    (receiver_keeps_numbered_blocks .checksum reads).1 s 0 hwaiting
  obtain ⟨hagain, -⟩ := hstep soh (filledPacket 2 6) (.inl rfl) (length_filledPacket 2 6)
  obtain ⟨-, hahead, -⟩ := hstep soh (filledPacket 4 7) (.inl rfl) (length_filledPacket 4 7)
  have hread := readDataBlock_filledPacket 2 6
  have hread' := readDataBlock_filledPacket 4 7
  rw [show s.checkMode = .checksum from rfl, hread] at hagain
  rw [show s.checkMode = .checksum from rfl, hread'] at hahead
  exact ⟨hwaiting, ⟨heard, hhears, hdata⟩, hagain ⟨by decide, rfl⟩ rfl,
    hahead (.inr ⟨by decide, by decide⟩)⟩

end TauTerm.Transfer.XModem
