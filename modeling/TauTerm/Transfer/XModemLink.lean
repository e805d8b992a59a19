import Mathlib
import TauTerm.Lib.Run
import TauTerm.Transfer.XModem

/-!
# An XModem transfer over a line that damages packets

`xmodem_send`, and the line between it and `xmodem_receive`. The rounds are synchronous: the
receiver reads all that has arrived before the sender takes its answer. A data packet may
arrive as any other bytes of the same number; everything else arrives as it was sent.

The receiver looks for the next header inside a packet whose own header was damaged, and the
check covers neither the header nor the number, so damage can look like an `EOT`, like a
repetition of the last block or like a second packet. `Link.Harmless` names what must not
be there.
-/

namespace TauTerm.Transfer.XModem

open Lib

/-! ## The sender -/

structure FileInfo where
  name : List Char
  size : Nat
  /-- What `File::open` and the reads behind it give. -/
  content : Except String (List UInt8)

/-- The block under way. -/
structure Sending where
  checkMode : XModemCheckMode
  header : UInt8
  blockNum : UInt8
  chunk : List UInt8
  /-- What has not been read from the file yet. -/
  rest : List UInt8

/-- Where `xmodem_send` waits for a byte. -/
inductive Sender where
  | getnak (retry : Nat)
  | sendBlock (s : Sending) (retry : Nat)
  | sendEot (retry : Nat)
  | finished (result : Except String BatchFileResult)

/-- `send_buf`: the block, padded with `CPMEOF`. -/
def padBlock (size : Nat) (chunk : List UInt8) : List UInt8 :=
  chunk ++ List.replicate (size - chunk.length) 0x1A

def trailer (mode : XModemCheckMode) (data : List UInt8) : List UInt8 :=
  match mode with
  | .checksum => [checksum data]
  | .crc16 =>
    let crc := crc16CcittZeroPad data
    [(crc >>> 8).toUInt8, (crc &&& 0xFF).toUInt8]

def Sending.packet (size : Nat) (s : Sending) : List UInt8 :=
  let data := padBlock size s.chunk
  s.header :: s.blockNum :: ~~~s.blockNum :: (data ++ trailer s.checkMode data)

def headerByte (size : Nat) : Option UInt8 :=
  if size = 128 then some soh else if size = 1024 then some stx else none

/-- `{:02X}`. -/
def hex2 (b : UInt8) : String :=
  let digits := "0123456789ABCDEF".toList
  String.ofList [digits.getD (b.toNat / 16) '0', digits.getD (b.toNat % 16) '0']

section Send

variable (file : FileInfo) (size : Nat)

def failed (message : String) : Sender :=
  .finished (.ok ⟨file.name, .failed, file.size, some message⟩)

/-- The top of the loop over the file. -/
def nextBlock (mode : XModemCheckMode) (blockNum : UInt8) (rest : List UInt8) :
    Sender × List UInt8 :=
  if rest = [] then (.sendEot 0, [eot])
  else
    match headerByte size with
    | none => (failed file ("XModem 不支持 " ++ toString size ++ " 字节块"), cancelSequence)
    | some header =>
      let s : Sending :=
        { checkMode := mode, header, blockNum, chunk := rest.take size, rest := rest.drop size }
      (.sendBlock s 0, s.packet size)

def startFile (mode : XModemCheckMode) : Sender × List UInt8 :=
  match file.content with
  | .error e => (.finished (.ok ⟨file.name, .failed, 0, some ("无法打开文件: " ++ e)⟩), [])
  | .ok content => nextBlock file size mode 1 content

/-- Why `send_block` gives up, at its last attempt. -/
def blockError (blockNum : UInt8) : Option UInt8 → String
  | none | some nak => "块 " ++ toString blockNum.toNat ++ " 重试次数耗尽（" ++ toString maxRetries ++ " 次）"
  | some other =>
    "块 " ++ toString blockNum.toNat ++ " 收到意外响应 0x" ++ hex2 other ++ "，重试耗尽"

/-- Why `send_eot` gives up, at its last attempt. -/
def eotError : Option UInt8 → String
  | none => "EOT 确认超时"
  | some nak => "EOT 发送失败：超过最大重试次数"
  | some other => "EOT 收到意外响应 0x" ++ hex2 other

def Sender.read (s : Sender) (answer : Option UInt8) : Sender × List UInt8 :=
  match s with
  | .getnak retry =>
    if answer = some nak then startFile file size .checksum
    else if answer = some wantCrc then startFile file size .crc16
    else if answer = some can then (.finished (.error "接收方取消了传输"), [])
    else if retry + 1 < initTimeoutSecs then (.getnak (retry + 1), [])
    else
      (.finished (.error ("等待 XModem 启动信号超时（" ++ toString initTimeoutSecs ++
        " 秒）。请先在设备终端中执行 XModem 接收命令（如 rx、loadx）。")), [])
  | .sendBlock s retry =>
    if answer = some ack then nextBlock file size s.checkMode (s.blockNum + 1) s.rest
    else if answer = some can then (failed file "接收方取消了传输", cancelSequence)
    else if retry = maxRetries - 1 then (failed file (blockError s.blockNum answer), cancelSequence)
    else (.sendBlock s (retry + 1), s.packet size)
  | .sendEot retry =>
    if answer = some ack then (.finished (.ok ⟨file.name, .completed, file.size, none⟩), [])
    else if answer = some can then (failed file "接收方取消了传输", [])
    else if retry = maxRetries - 1 then (failed file (eotError answer), [])
    else (.sendEot (retry + 1), [eot])
  | .finished _ => (s, [])

end Send

/-! ## The line -/

/-- What the two sides run with. -/
structure Setting where
  file : FileInfo
  blockSize : Nat
  configured : XModemReceiveMode
  fileName : List Char
  writeFile : List UInt8 → Option String

structure Link where
  sender : Sender
  receiver : Receiver
  toReceiver : List UInt8
  toSender : List UInt8

inductive Action where
  /-- The receiver reads what has arrived. -/
  | receive
  /-- The receiver's time is up. -/
  | timeout
  /-- The sender takes its answer, or its time is up. What it writes arrives as `arrives`. -/
  | answer (arrives : List UInt8)
  deriving DecidableEq

/-- Only the bytes of a data packet may be altered. -/
def Sender.MayArrive (sender : Sender) (written arrives : List UInt8) : Prop :=
  match sender with
  | .sendBlock _ _ => arrives.length = written.length
  | _ => arrives = written

instance (sender : Sender) (written arrives : List UInt8) :
    Decidable (sender.MayArrive written arrives) := by
  unfold Sender.MayArrive
  split <;> infer_instance

variable (q : Setting)

def Setting.start : Link :=
  let r := xmodemReceive q.configured
  { sender := .getnak 0, receiver := r.1, toReceiver := [], toSender := r.2 }

def Link.step (e : Link) : Action → Option Link
  | .receive =>
    if e.toReceiver = [] then none
    else
      let next := e.receiver.run q.fileName q.writeFile (e.toReceiver.map some)
      some { e with receiver := next.1, toReceiver := [], toSender := e.toSender ++ next.2 }
  | .timeout =>
    if e.toReceiver = [] ∧ e.toSender = [] then
      let next := e.receiver.read q.fileName q.writeFile none
      some { e with receiver := next.1, toSender := next.2 }
    else none
  | .answer arrives =>
    if e.toReceiver = [] then
      let next := e.sender.read q.file q.blockSize e.toSender.head?
      if next.1.MayArrive next.2 arrives then
        some { e with sender := next.1, toReceiver := arrives, toSender := e.toSender.tail }
      else none
    else none

/-! ## Damage -/

/-- What a receiver finds in the bytes it reads: a frame, or a byte that is no header. -/
inductive Item where
  | byte (b : UInt8)
  | frame (header : UInt8) (bytes : List UInt8)
  deriving DecidableEq

/-- A header and the bytes read behind it so far. -/
abbrev Pending := Option (UInt8 × List UInt8)

/-- The items in the bytes, and the frame that is left unfinished. -/
def scan (mode : XModemCheckMode) : Pending → List UInt8 → List Item × Pending
  | pending, [] => ([], pending)
  | none, b :: bytes =>
    if IsHeader b then scan mode (some (b, [])) bytes
    else (.byte b :: (scan mode none bytes).1, (scan mode none bytes).2)
  | some (header, got), b :: bytes =>
    if (got ++ [b]).length < blockLength mode header then scan mode (some (header, got ++ [b])) bytes
    else (.frame header (got ++ [b]) :: (scan mode none bytes).1, (scan mode none bytes).2)

/-- The items up to the first `CAN`, at which the receiver stops. -/
def heardItems (mode : XModemCheckMode) (pending : Pending) (bytes : List UInt8) : List Item :=
  (scan mode pending bytes).1.takeWhile (· ≠ .byte can)

def Item.isFrame : Item → Bool
  | .frame _ _ => true
  | .byte _ => false

/-- The frame is the packet that was sent, as far as its header and its number go, read from its
own first byte. -/
def Sending.Announces (sent : Sending) (pending : Pending) (arrived : List UInt8) (header : UInt8)
    (bytes : List UInt8) : Prop :=
  pending = none ∧ arrived = header :: bytes ∧ header = sent.header ∧
    bytes.take 2 = [sent.blockNum, ~~~sent.blockNum]

/-- A frame that the receiver would take is the packet that was sent. -/
def Sending.Permits (sent : Sending) (mode : XModemCheckMode) (takes : ReceivedBlock → Prop)
    (pending : Pending) (arrived : List UInt8) : Item → Prop
  | .byte _ => True
  | .frame header bytes =>
    takes (readDataBlock mode header bytes) → sent.Announces pending arrived header bytes

/-- The blocks that the receiver acknowledges. -/
def MainLoop.Takes (s : MainLoop) (b : ReceivedBlock) : Prop :=
  b.Intact ∧ (some b.number = s.lastReceivedBlockNum ∨ b.number = s.expectedBlockNum)

def Sending.HarmlessMain (sent : Sending) (s : MainLoop) (pending : Pending)
    (arrived : List UInt8) : Prop :=
  let items := heardItems s.checkMode pending arrived
  .byte eot ∉ items ∧ items.countP Item.isFrame ≤ 1 ∧
    ∀ item ∈ items, sent.Permits s.checkMode s.Takes pending arrived item

def Sending.HarmlessFirst (sent : Sending) (n : Negotiation) (pending : Pending)
    (arrived : List UInt8) : Prop :=
  let items := heardItems n.checkMode pending arrived
  items.length ≤ 1 ∧
    ∀ item ∈ items, sent.Permits n.checkMode (·.IsNext 0) pending arrived item

/-- A data packet arrives such that it draws at most one answer and looks like nothing but what was
sent: there is no `EOT` in it, and no frame that the receiver would take for the next block or for
a repetition of the last one. -/
def Link.Harmless (e : Link) : Prop :=
  match e.sender, e.receiver with
  | .sendBlock sent _, .waiting s _ => sent.HarmlessMain s none e.toReceiver
  | .sendBlock sent _, .block s header got => sent.HarmlessMain s (some (header, got)) e.toReceiver
  | .sendBlock sent _, .negotiating n => sent.HarmlessFirst n none e.toReceiver
  | .sendBlock sent _, .firstBlock n header got =>
    sent.HarmlessFirst n (some (header, got)) e.toReceiver
  | _, _ => True

section Decidable

variable {sent : Sending} {mode : XModemCheckMode} {pending : Pending} {arrived : List UInt8}

instance (header : UInt8) (bytes : List UInt8) :
    Decidable (sent.Announces pending arrived header bytes) :=
  inferInstanceAs (Decidable (_ ∧ _ ∧ _ ∧ _))

instance (s : MainLoop) : DecidablePred s.Takes := fun _ => inferInstanceAs (Decidable (_ ∧ _))

instance (takes : ReceivedBlock → Prop) [DecidablePred takes] :
    DecidablePred (sent.Permits mode takes pending arrived)
  | .byte _ => inferInstanceAs (Decidable True)
  | .frame _ _ => inferInstanceAs (Decidable (_ → _))

instance (s : MainLoop) : Decidable (sent.HarmlessMain s pending arrived) :=
  inferInstanceAs (Decidable (_ ∧ _ ∧ _))

instance (n : Negotiation) : Decidable (sent.HarmlessFirst n pending arrived) :=
  inferInstanceAs (Decidable (_ ∧ _))

instance (e : Link) : Decidable e.Harmless := by
  unfold Link.Harmless
  split <;> infer_instance

end Decidable

/-- The check detects the damage to the data of a packet, or to the check itself. -/
def Sending.Detects (size : Nat) (sent : Sending) (arrived : List UInt8) : Prop :=
  arrived.drop 3 = (sent.packet size).drop 3 ∨
    verifyBlock sent.checkMode ((arrived.drop 3).take size) (arrived.drop (3 + size)) = false

def Link.Detected (e : Link) : Prop :=
  match e.sender with
  | .sendBlock sent _ => sent.Detects q.blockSize e.toReceiver
  | _ => True

instance (e : Link) : Decidable (e.Detected q) := by
  unfold Link.Detected Sending.Detects
  split <;> infer_instance

/-! ## Padding -/

/-- The file, filled up with `CPMEOF` to a whole number of blocks. -/
def padded (size : Nat) (content : List UInt8) : List UInt8 :=
  content ++ List.replicate ((size - content.length % size) % size) 0x1A

/-- The first `k` blocks of the file. -/
def front (size : Nat) (content : List UInt8) (k : Nat) : List UInt8 :=
  padded size (content.take (k * size))

section Padding

variable {size : Nat} {content : List UInt8} {k : Nat}

theorem padded_of_dvd (h : content.length % size = 0) : padded size content = content := by
  simp [padded, h]

theorem front_of_le (h : k * size ≤ content.length) :
    front size content k = content.take (k * size) := by
  refine padded_of_dvd ?_
  rw [List.length_take, min_eq_left h]
  exact Nat.mul_mod_left k size

theorem front_all (h : content.length ≤ k * size) : front size content k = padded size content := by
  rw [front, List.take_of_length_le h]

theorem front_succ (h : k * size < content.length) :
    front size content (k + 1) =
      front size content k ++ padBlock size ((content.drop (k * size)).take size) := by
  have hmul : (k + 1) * size = k * size + size := Nat.succ_mul k size
  rw [front_of_le h.le]
  by_cases hfull : (k + 1) * size ≤ content.length
  · rw [front_of_le hfull, hmul, List.take_add, padBlock]
    simp [show size - min size (content.length - k * size) = 0 by omega]
  · have hmod : content.length % size = content.length - k * size := by
      rw [← Nat.mod_eq_of_lt (show content.length - k * size < size by omega),
        Nat.mul_comm, Nat.sub_mul_mod (by rw [Nat.mul_comm]; exact h.le)]
    have htake : (content.drop (k * size)).take size = content.drop (k * size) :=
      List.take_of_length_le (by simp; omega)
    rw [front_all (by omega), padded, padBlock, htake, hmod, ← List.append_assoc,
      List.take_append_drop, List.length_drop,
      Nat.mod_eq_of_lt (show size - (content.length - k * size) < size by omega)]

theorem length_padBlock {chunk : List UInt8} (h : chunk.length ≤ size) :
    (padBlock size chunk).length = size := by
  simp [padBlock]
  omega

theorem length_trailer (mode : XModemCheckMode) (data : List UInt8) :
    (trailer mode data).length = trailerSize mode := by
  cases mode <;> rfl

theorem headerByte_eq_some {header : UInt8} (h : headerByte size = some header) :
    IsHeader header ∧ blockSize header = size := by
  unfold headerByte at h
  split_ifs at h with h1 h2
  · cases h
    exact ⟨.inl rfl, h1.symm⟩
  · cases h
    exact ⟨.inr rfl, h2.symm⟩

end Padding

/-! ## Scanning and reading -/

section Scan

variable {mode : XModemCheckMode} {b : UInt8} {bytes : List UInt8}

@[simp] theorem heardItems_nil (pending : Pending) : heardItems mode pending [] = [] := by
  cases pending <;> rfl

theorem heardItems_header (hb : IsHeader b) :
    heardItems mode none (b :: bytes) = heardItems mode (some (b, [])) bytes := by
  rw [heardItems, scan, if_pos hb]
  rfl

theorem heardItems_can : heardItems mode none (can :: bytes) = [] := by
  rw [heardItems, scan, if_neg (by decide)]
  simp

theorem heardItems_byte (hb : ¬IsHeader b) (hc : b ≠ can) :
    heardItems mode none (b :: bytes) = .byte b :: heardItems mode none bytes := by
  rw [heardItems, scan, if_neg hb]
  exact List.takeWhile_cons_of_pos (by simpa using hc)

variable {header : UInt8} {got : List UInt8}

theorem heardItems_short (h : (got ++ [b]).length < blockLength mode header) :
    heardItems mode (some (header, got)) (b :: bytes) =
      heardItems mode (some (header, got ++ [b])) bytes := by
  rw [heardItems, scan, if_pos h]
  rfl

theorem heardItems_full (h : ¬(got ++ [b]).length < blockLength mode header) :
    heardItems mode (some (header, got)) (b :: bytes) =
      .frame header (got ++ [b]) :: heardItems mode none bytes := by
  rw [heardItems, scan, if_neg h]
  exact List.takeWhile_cons_of_pos (by simp)

theorem heardItems_block (bytes got : List UInt8) (hne : bytes ≠ [])
    (h : got.length + bytes.length = blockLength mode header) :
    heardItems mode (some (header, got)) bytes = [.frame header (got ++ bytes)] := by
  induction bytes generalizing got with
  | nil => exact absurd rfl hne
  | cons b bytes ih =>
    rw [List.length_cons] at h
    by_cases hnil : bytes = []
    · subst hnil
      rw [heardItems_full (by simp at h ⊢; omega), heardItems_nil]
    · have hpos : 0 < bytes.length := List.length_pos_iff.mpr hnil
      rw [heardItems_short (by simp; omega), ih (got ++ [b]) hnil (by simp; omega),
        List.append_assoc]
      rfl

/-- A packet whose header has arrived is one frame. -/
theorem heardItems_packet (hheader : IsHeader header)
    (h : bytes.length = blockLength mode header) :
    heardItems mode none (header :: bytes) = [.frame header bytes] := by
  rw [heardItems_header hheader]
  refine heardItems_block bytes [] ?_ (by simpa using h)
  rintro rfl
  have := blockLength_pos mode header
  simp at h
  omega

end Scan

/-- The main loop, in the middle of a frame or in front of one. -/
def MainLoop.at (s : MainLoop) (timeoutCount : Nat) : Pending → Receiver
  | none => .waiting s timeoutCount
  | some (header, got) => .block s header got

def Negotiation.at (n : Negotiation) : Pending → Receiver
  | none => .negotiating n
  | some (header, got) => .firstBlock n header got

section Read

variable {fileName : List Char} {writeFile : List UInt8 → Option String}

theorem run_cons {r r' : Receiver} {answer : Option UInt8} {out : List UInt8}
    (h : r.read fileName writeFile answer = (r', out)) (reads : List (Option UInt8)) :
    r.run fileName writeFile (answer :: reads) =
      ((r'.run fileName writeFile reads).1, out ++ (r'.run fileName writeFile reads).2) :=
  transduce_cons h reads

theorem run_finished (r : Received) (reads : List (Option UInt8)) :
    (Receiver.finished r).run fileName writeFile reads = (.finished r, []) :=
  transduce_fixed (fun _ => rfl) reads

/-- A main loop that hears nothing to accept refuses what frames it hears. -/
theorem run_refused {s : MainLoop} (bytes : List UInt8) (t : Nat) (pending : Pending)
    (heot : .byte eot ∉ heardItems s.checkMode pending bytes)
    (hrefused : ∀ header got, .frame header got ∈ heardItems s.checkMode pending bytes →
      s.block (readDataBlock s.checkMode header got) = (s, [nak])) :
    ((∃ message, ((s.at t pending).run fileName writeFile (bytes.map some)).1 = .fail message) ∨
      ∃ t' pending', ((s.at t pending).run fileName writeFile (bytes.map some)).1 =
        s.at t' pending') ∧
    ((s.at t pending).run fileName writeFile (bytes.map some)).2 =
      List.replicate ((heardItems s.checkMode pending bytes).countP Item.isFrame) nak := by
  induction bytes generalizing t pending with
  | nil => exact ⟨.inr ⟨t, pending, rfl⟩, by simp [Receiver.run]⟩
  | cons b bytes ih =>
    cases pending with
    | none =>
      by_cases hb : IsHeader b
      · have hstep : (s.at t none).read fileName writeFile (some b) =
            (s.at t (some (b, [])), []) := by
          simp only [MainLoop.at, Receiver.read, if_pos hb]
        rw [heardItems_header hb] at heot hrefused ⊢
        rw [List.map_cons, run_cons hstep]
        exact ih t _ heot hrefused
      · by_cases hc : b = can
        · have hstep : (s.at t none).read fileName writeFile (some b) =
              (.fail "发送方取消了传输", []) := by
            subst hc
            rfl
          rw [List.map_cons, run_cons hstep, Receiver.fail, run_finished, hc, heardItems_can]
          exact ⟨.inl ⟨_, rfl⟩, rfl⟩
        · rw [heardItems_byte hb hc] at heot hrefused ⊢
          have he : b ≠ eot := fun h => heot (h ▸ List.mem_cons_self)
          have hstep : (s.at t none).read fileName writeFile (some b) = (s.at t none, []) := by
            simp only [MainLoop.at, Receiver.read, if_neg hb, if_neg hc, if_neg he]
          rw [List.map_cons, run_cons hstep, List.countP_cons_of_neg (by simp [Item.isFrame])]
          exact ih t none (fun h => heot (List.mem_cons_of_mem _ h))
            fun header got h => hrefused header got (List.mem_cons_of_mem _ h)
    | some frame =>
      obtain ⟨header, got⟩ := frame
      by_cases hl : (got ++ [b]).length < blockLength s.checkMode header
      · have hstep : (s.at t (some (header, got))).read fileName writeFile (some b) =
            (s.at t (some (header, got ++ [b])), []) := by
          simp only [MainLoop.at, Receiver.read, if_pos hl]
        rw [heardItems_short hl] at heot hrefused ⊢
        rw [List.map_cons, run_cons hstep]
        exact ih t _ heot hrefused
      · rw [heardItems_full hl] at heot hrefused ⊢
        have hstep : (s.at t (some (header, got))).read fileName writeFile (some b) =
            (s.at 0 none, [nak]) := by
          simp only [MainLoop.at, Receiver.read, if_neg hl, hrefused _ _ List.mem_cons_self]
        obtain ⟨hcases, hout⟩ := ih 0 none (fun h => heot (List.mem_cons_of_mem _ h))
          fun header got h => hrefused header got (List.mem_cons_of_mem _ h)
        rw [List.map_cons, run_cons hstep, List.countP_cons_of_pos rfl, List.replicate_succ]
        exact ⟨hcases, congrArg (nak :: ·) hout⟩

/-- A negotiation that has seen a frame, and hears no first block: every item draws a `NAK`, unless
the transfer fails. -/
theorem run_first_refused {n : Negotiation} (hs : n.frameStarted = true) (bytes : List UInt8)
    (pending : Pending)
    (hrefused : ∀ header got, .frame header got ∈ heardItems n.checkMode pending bytes →
      ¬(readDataBlock n.checkMode header got).IsNext 0) :
    (∃ message, ((n.at pending).run fileName writeFile (bytes.map some)).1 = .fail message) ∨
      ∃ k pending', (n.at pending).run fileName writeFile (bytes.map some) =
        ({ n with attempts := k }.at pending',
          List.replicate (heardItems n.checkMode pending bytes).length nak) := by
  induction bytes generalizing n pending with
  | nil => exact .inr ⟨n.attempts, pending, by simp [Receiver.run]⟩
  | cons b bytes ih =>
    -- An item that is refused uses up an attempt.
    have hitem : ∀ r : Receiver, r.read fileName writeFile (some b) = n.next →
        (∀ header got, .frame header got ∈ heardItems n.checkMode none bytes →
          ¬(readDataBlock n.checkMode header got).IsNext 0) →
        (∃ message, (r.run fileName writeFile ((b :: bytes).map some)).1 = .fail message) ∨
          ∃ k pending', r.run fileName writeFile ((b :: bytes).map some) =
            ({ n with attempts := k }.at pending',
              List.replicate ((heardItems n.checkMode none bytes).length + 1) nak) := by
      intro r hread hrest
      rcases Negotiation.next_of_started hs with ⟨k, hn⟩ | ⟨message, hn⟩
      · rw [List.map_cons, run_cons (hread.trans hn)]
        refine (ih (n := { n with attempts := k }) hs none hrest).imp id ?_
        rintro ⟨k', pending', hr⟩
        refine ⟨k', pending', ?_⟩
        have h1 := congrArg Prod.fst hr
        have h2 := congrArg Prod.snd hr
        exact Prod.ext h1 (congrArg (nak :: ·) h2)
      · rw [List.map_cons, run_cons (hread.trans hn), Receiver.fail, run_finished]
        exact .inl ⟨message, rfl⟩
    cases pending with
    | none =>
      by_cases hb : IsHeader b
      · have hstep : (n.at none).read fileName writeFile (some b) = (n.at (some (b, [])), []) := by
          simp only [Negotiation.at, Receiver.read, if_pos hb]
          rw [← hs]
        rw [heardItems_header hb] at hrefused ⊢
        rw [List.map_cons, run_cons hstep]
        exact ih hs _ hrefused
      · by_cases hc : b = can
        · have hstep : (n.at none).read fileName writeFile (some b) =
              (.fail "发送方取消了传输", []) := by
            subst hc
            rfl
          rw [List.map_cons, run_cons hstep, Receiver.fail, run_finished]
          exact .inl ⟨_, rfl⟩
        · rw [heardItems_byte hb hc] at hrefused ⊢
          refine hitem _ ?_ fun header got h => hrefused header got (List.mem_cons_of_mem _ h)
          simp only [Negotiation.at, Receiver.read, if_neg hb, if_neg hc]
    | some frame =>
      obtain ⟨header, got⟩ := frame
      by_cases hl : (got ++ [b]).length < blockLength n.checkMode header
      · have hstep : (n.at (some (header, got))).read fileName writeFile (some b) =
            (n.at (some (header, got ++ [b])), []) := by
          simp only [Negotiation.at, Receiver.read, if_pos hl]
        rw [heardItems_short hl] at hrefused ⊢
        rw [List.map_cons, run_cons hstep]
        exact ih hs _ hrefused
      · rw [heardItems_full hl] at hrefused ⊢
        refine hitem _ ?_ fun header got h => hrefused header got (List.mem_cons_of_mem _ h)
        simp only [Negotiation.at, Receiver.read, if_neg hl]
        exact Negotiation.firstBlock_refused (hrefused _ _ List.mem_cons_self)

end Read

end TauTerm.Transfer.XModem
