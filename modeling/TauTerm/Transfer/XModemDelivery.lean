import Mathlib
import TauTerm.Transfer.XModemLink

/-!
# What an XModem transfer delivers

As long as no damage looks like something else (`Link.Harmless`) and the check detects
the damage to the data, the receiver has accepted the blocks up to the one the sender is at:
it answers each packet at most once, and it accepts the block of the sender or nothing. A file that it
reports as completed is the sender's, padded to whole blocks.
-/

namespace TauTerm.Transfer.XModem

open Lib

/-! ## Where the two sides stand -/

/-- The sender is at block `k` of the file. -/
structure Sending.At (size : Nat) (content : List UInt8) (k : Nat) (s : Sending) : Prop where
  header : headerByte size = some s.header
  blockNum : s.blockNum = UInt8.ofNat (k + 1)
  chunk : s.chunk = (content.drop (k * size)).take size
  rest : s.rest = content.drop ((k + 1) * size)
  more : k * size < content.length

/-- The main loop has accepted `k` blocks. -/
structure MainLoop.At (size : Nat) (content : List UInt8) (mode : XModemCheckMode) (k : Nat)
    (s : MainLoop) : Prop where
  checkMode : s.checkMode = mode
  receivedData : s.receivedData = front size content k
  last : s.lastReceivedBlockNum = some (UInt8.ofNat k)
  expected : s.expectedBlockNum = UInt8.ofNat (k + 1)

/-- The negotiation has not finished its first attempt yet. -/
def Receiver.Fresh (mode : XModemCheckMode) (r : Receiver) : Prop :=
  ∃ n, r = .negotiating n ∧ n.checkMode = mode ∧ 0 < n.attempts

/-- The receiver has accepted `k` blocks and has not failed. -/
def Receiver.At (size : Nat) (content : List UInt8) (mode : XModemCheckMode) (k : Nat) :
    Receiver → Prop
  | .negotiating n | .firstBlock n _ _ => k = 0 ∧ n.checkMode = mode ∧ n.frameStarted = true
  | .waiting s _ | .block s _ _ => s.At size content mode k
  | .finished _ => False

/-- What the bytes of one packet do to the receiver: it fails, it refuses them, or it accepts the
block and says so. -/
def Progress (size : Nat) (content : List UInt8) (mode : XModemCheckMode) (k : Nat)
    (next : Receiver × List UInt8) : Prop :=
  (∃ message, next.1 = .fail message) ∨
  (next.1.At size content mode k ∧ ack ∉ next.2 ∧ next.2.length ≤ 1) ∨
  ∃ s, next = (.waiting s 0, [ack]) ∧ s.At size content mode (k + 1)

section Packet

variable {size : Nat} {content : List UInt8} {k : Nat} {sent : Sending} {arrived : List UInt8}

theorem Sending.At.length_chunk (h : sent.At size content k) : sent.chunk.length ≤ size := by
  rw [h.chunk, List.length_take]
  exact min_le_left _ _

theorem Sending.At.length_packet (h : sent.At size content k) :
    (sent.packet size).length = 1 + blockLength sent.checkMode sent.header := by
  obtain ⟨-, hsize⟩ := headerByte_eq_some h.header
  simp only [Sending.packet, List.length_cons, List.length_append, length_trailer,
    length_padBlock h.length_chunk, blockLength, hsize]
  omega

/-- An intact frame that announces the packet holds its data. -/
theorem Sending.At.announced (h : sent.At size content k) (hdetects : sent.Detects size arrived)
    {pending : Pending} {header : UInt8} {bytes : List UInt8}
    (hann : sent.Announces pending arrived header bytes)
    (hintact : (readDataBlock sent.checkMode header bytes).Intact) :
    (readDataBlock sent.checkMode header bytes).number = UInt8.ofNat (k + 1) ∧
      (readDataBlock sent.checkMode header bytes).data = padBlock size sent.chunk := by
  obtain ⟨-, harrived, rfl, hnumber⟩ := hann
  obtain ⟨-, hsize⟩ := headerByte_eq_some h.header
  constructor
  · have h0 : bytes.getD 0 0 = (bytes.take 2).getD 0 0 := by cases bytes <;> rfl
    rw [readDataBlock, h0, hnumber, ← h.blockNum]
    rfl
  · have hdrop : ∀ i, arrived.drop (3 + i) = bytes.drop (2 + i) := fun i => by
      rw [harrived, show 3 + i = (2 + i) + 1 by omega, List.drop_succ_cons]
    have hdata : ((arrived.drop 3).take size) = (bytes.drop 2).take size := by rw [← hdrop 0]
    rcases hdetects with heq | hverify
    · have hpacket : (sent.packet size).drop 3 =
          padBlock size sent.chunk ++ trailer sent.checkMode (padBlock size sent.chunk) := rfl
      rw [readDataBlock, hsize, ← hdata, heq, hpacket]
      exact List.take_left' (length_padBlock h.length_chunk)
    · rw [hdata, hdrop size] at hverify
      have hvalid := hintact.2
      simp only [readDataBlock, hsize] at hvalid
      rw [hvalid] at hverify
      cases hverify

end Packet

section Receive

variable {fileName : List Char} {writeFile : List UInt8 → Option String}
  {size : Nat} {content : List UInt8} {k : Nat} {sent : Sending} {arrived : List UInt8}

/-- A packet that announces itself has the length its header asks for. -/
theorem Sending.At.length_announced (h : sent.At size content k)
    (hlen : arrived.length = (sent.packet size).length) {pending : Pending} {header : UInt8}
    {bytes : List UInt8} (hann : sent.Announces pending arrived header bytes) :
    IsHeader header ∧ bytes.length = blockLength sent.checkMode header := by
  obtain ⟨-, rfl, rfl, -⟩ := hann
  refine ⟨(headerByte_eq_some h.header).1, ?_⟩
  rw [h.length_packet, List.length_cons] at hlen
  omega

/-- The first two bytes of an intact block are its number and its complement. -/
theorem ReceivedBlock.Intact.take_two {mode : XModemCheckMode} {header : UInt8} {bytes : List UInt8}
    (hintact : (readDataBlock mode header bytes).Intact)
    (hlen : bytes.length = blockLength mode header) :
    bytes.take 2 = [(readDataBlock mode header bytes).number,
      ~~~(readDataBlock mode header bytes).number] := by
  have hpos := blockLength_pos mode header
  match bytes, hlen with
  | [], hlen => simp at hlen; omega
  | [_], hlen => simp at hlen; omega
  | x :: y :: rest, _ =>
    have hc : ~~~(readDataBlock mode header (x :: y :: rest)).number = y := by
      rw [hintact.1, UInt8.not_not]
      rfl
    exact congrArg (x :: [·]) hc.symm

/-- A packet whose header has arrived is harmless to the main loop, unless its number was turned into
that of the last block. -/
theorem MainLoop.At.harmless {s : MainLoop} {bytes : List UInt8}
    (hs : s.At size content sent.checkMode k) (hsent : sent.At size content k)
    (hlen : bytes.length = blockLength sent.checkMode sent.header)
    (hlast : ¬((readDataBlock sent.checkMode sent.header bytes).Intact ∧
      (readDataBlock sent.checkMode sent.header bytes).number = UInt8.ofNat k)) :
    sent.HarmlessMain s none (sent.header :: bytes) := by
  have hitems := heardItems_packet (headerByte_eq_some hsent.header).1 hlen
  rw [← hs.checkMode] at hitems
  refine ⟨by rw [hitems]; simp, by rw [hitems]; simp [Item.isFrame], fun item hmem => ?_⟩
  rw [hitems] at hmem
  obtain rfl := List.mem_singleton.mp hmem
  rintro ⟨hintact, hnumber⟩
  rw [hs.checkMode] at hintact hnumber
  rw [hs.last, hs.expected] at hnumber
  rcases hnumber with hnumber | hnumber
  · exact absurd ⟨hintact, Option.some.inj hnumber⟩ hlast
  · refine ⟨rfl, rfl, rfl, ?_⟩
    rw [hintact.take_two hlen, hnumber, hsent.blockNum]

theorem MainLoop.At.at {s : MainLoop} {mode : XModemCheckMode} (hs : s.At size content mode k)
    (t : Nat) (pending : Pending) : (s.at t pending).At size content mode k := by
  cases pending <;> exact hs

theorem MainLoop.At.receive {s : MainLoop} (hs : s.At size content sent.checkMode k)
    (hsent : sent.At size content k) (hlen : arrived.length = (sent.packet size).length) (t : Nat)
    {pending : Pending} (hharm : sent.HarmlessMain s pending arrived)
    (hdetects : sent.Detects size arrived) :
    Progress size content sent.checkMode k
      ((s.at t pending).run fileName writeFile (arrived.map some)) := by
  obtain ⟨heot, hcount, hpermits⟩ := hharm
  rw [hs.checkMode] at heot hcount hpermits
  by_cases htaken : ∃ header bytes,
      .frame header bytes ∈ heardItems sent.checkMode pending arrived ∧
        s.Takes (readDataBlock sent.checkMode header bytes)
  · obtain ⟨header, bytes, hmem, htakes⟩ := htaken
    have hann := hpermits _ hmem htakes
    obtain ⟨hnumber, hdata⟩ := hsent.announced hdetects hann htakes.1
    obtain ⟨hheader, hbytes⟩ := hsent.length_announced hlen hann
    obtain ⟨rfl, rfl, -, -⟩ := hann
    have hrun := @run_packet fileName writeFile s t _ _ hheader (hs.checkMode ▸ hbytes)
    have hne : some (readDataBlock sent.checkMode header bytes).number ≠
        s.lastReceivedBlockNum := by
      rw [hnumber, hs.last]
      exact fun h => ofNat_succ_ne k (Option.some.inj h)
    rw [hs.checkMode, MainLoop.block_of_intact htakes.1, if_neg hne,
      if_neg (not_not.mpr (hnumber.trans hs.expected.symm))] at hrun
    refine .inr (.inr ⟨_, hrun, hs.checkMode, ?_, congrArg some hnumber, ?_⟩)
    · rw [front_succ hsent.more, ← hsent.chunk, ← hdata, ← hs.receivedData]
    · show nextBlockNum _ = _
      rw [hnumber, UInt8.ofNat_add (k + 1) 1]
      rfl
  · have hrun := @run_refused fileName writeFile _ arrived t pending (hs.checkMode.symm ▸ heot)
      (fun header got hmem => by
        rw [hs.checkMode] at hmem ⊢
        refine MainLoop.block_refused ?_
        by_contra hcon
        rw [not_or, not_not, not_and_or, not_not, not_not] at hcon
        exact htaken ⟨header, got, hmem, hcon⟩)
    obtain ⟨hcases, hout⟩ := hrun
    rcases hcases with hfail | ⟨t', pending', hr⟩
    · exact .inl hfail
    · refine .inr (.inl ⟨hr ▸ hs.at t' pending', ?_, ?_⟩)
      · rw [hout]
        exact fun h => absurd (List.eq_of_mem_replicate h) (by decide)
      · rw [hout, List.length_replicate, hs.checkMode]
        exact hcount

theorem Negotiation.at_started {n : Negotiation} {mode : XModemCheckMode} (hmode : n.checkMode = mode)
    (hs : n.frameStarted = true) (pending : Pending) : (n.at pending).At size content mode 0 := by
  cases pending <;> exact ⟨rfl, hmode, hs⟩

theorem Negotiation.receive_started {n : Negotiation} (hmode : n.checkMode = sent.checkMode)
    (hs : n.frameStarted = true) (hsent : sent.At size content 0)
    (hlen : arrived.length = (sent.packet size).length)
    {pending : Pending} (hharm : sent.HarmlessFirst n pending arrived)
    (hdetects : sent.Detects size arrived) :
    Progress size content sent.checkMode 0
      ((n.at pending).run fileName writeFile (arrived.map some)) := by
  obtain ⟨hcount, hpermits⟩ := hharm
  rw [hmode] at hcount hpermits
  by_cases htaken : ∃ header bytes,
      .frame header bytes ∈ heardItems sent.checkMode pending arrived ∧
        (readDataBlock sent.checkMode header bytes).IsNext 0
  · obtain ⟨header, bytes, hmem, htakes⟩ := htaken
    have hann := hpermits _ hmem htakes
    obtain ⟨-, hdata⟩ := hsent.announced hdetects hann htakes.1
    obtain ⟨hheader, hbytes⟩ := hsent.length_announced hlen hann
    obtain ⟨rfl, rfl, -, -⟩ := hann
    rw [← hmode] at htakes hdata hbytes
    obtain ⟨s, hfirst, hcheck, hholds⟩ :=
      Negotiation.firstBlock_accepted (n := { n with frameStarted := true }) htakes
    have hrun := @run_first_packet fileName writeFile n _ _ hheader hbytes
    rw [hfirst] at hrun
    refine .inr (.inr ⟨s, hrun, hcheck.trans hmode, ?_, hholds.2.2.1, hholds.2.2.2⟩)
    rw [front_succ hsent.more, ← hsent.chunk, ← hdata, hholds.1]
    simp [front, padded]
  · have hrefused : ∀ header got, .frame header got ∈ heardItems n.checkMode pending arrived →
        ¬(readDataBlock n.checkMode header got).IsNext 0 := by
      intro header got hmem hnext
      rw [hmode] at hmem hnext
      exact htaken ⟨header, got, hmem, hnext⟩
    rcases @run_first_refused fileName writeFile _ hs arrived pending
        hrefused with hfail | ⟨j, pending', hr⟩
    · exact .inl hfail
    · rw [hr]
      refine .inr (.inl ⟨Negotiation.at_started (n := { n with attempts := j }) hmode hs pending', ?_, ?_⟩)
      · exact fun h => absurd (List.eq_of_mem_replicate h) (by decide)
      · rw [List.length_replicate, hmode]
        exact hcount

/-- Behind a header it does not matter whether a frame had started before. -/
theorem run_first_header (n : Negotiation) {b : UInt8} (hb : IsHeader b) (bytes : List UInt8) :
    (Receiver.negotiating n).run fileName writeFile ((b :: bytes).map some) =
      (Receiver.negotiating { n with frameStarted := true }).run fileName writeFile
        ((b :: bytes).map some) := by
  have hstep : ∀ m : Negotiation, (Receiver.negotiating m).read fileName writeFile (some b) =
      (.firstBlock { m with frameStarted := true } b [], []) := fun m => by
    simp only [Receiver.read, if_pos hb]
  rw [List.map_cons, run_cons (hstep n), run_cons (hstep _)]

theorem run_first_can (n : Negotiation) (bytes : List UInt8) :
    ∃ message, ((Receiver.negotiating n).run fileName writeFile ((can :: bytes).map some)).1 =
      .fail message := by
  have hstep : (Receiver.negotiating n).read fileName writeFile (some can) =
      (.fail "发送方取消了传输", []) := rfl
  rw [List.map_cons, run_cons hstep, Receiver.fail, run_finished]
  exact ⟨_, rfl⟩

theorem Negotiation.request_ne_ack (n : Negotiation) : ack ∉ n.request := by
  unfold Negotiation.request
  cases n.frameStarted <;> cases n.checkMode <;> decide

/-- The first packet of all: a negotiation that draws no second answer from it has seen a frame. -/
theorem Receiver.Fresh.receive {r : Receiver} (hr : r.Fresh sent.checkMode)
    (hsent : sent.At size content 0) (hlen : arrived.length = (sent.packet size).length)
    (hharm : ∀ n, r = .negotiating n → sent.HarmlessFirst n none arrived)
    (hdetects : sent.Detects size arrived) :
    Progress size content sent.checkMode 0 (r.run fileName writeFile (arrived.map some)) := by
  obtain ⟨n, rfl, hmode, hattempts⟩ := hr
  have hharm := hharm n rfl
  have hpos := blockLength_pos sent.checkMode sent.header
  rw [hsent.length_packet] at hlen
  match arrived, hlen with
  | [], hlen => simp at hlen; omega
  | [_], hlen => simp at hlen; omega
  | b :: b' :: bytes, hlen =>
    by_cases hb : IsHeader b
    · rw [run_first_header n hb]
      exact @Negotiation.receive_started _ _ _ _ _ _ { n with frameStarted := true } hmode rfl hsent
          (hsent.length_packet ▸ hlen) none hharm hdetects
    by_cases hc : b = can
    · subst hc
      exact .inl (run_first_can n _)
    -- The first byte is noise and has drawn a request, so the second one has to be a header.
    obtain ⟨j, hj⟩ : ∃ j, n.attempts = j + 1 := ⟨n.attempts - 1, by omega⟩
    have hstep : (Receiver.negotiating n).read fileName writeFile (some b) =
        (.negotiating { n with attempts := j }, n.request) := by
      simp only [Receiver.read, if_neg hb, if_neg hc]
      unfold Negotiation.next
      rw [hj]
      rfl
    obtain ⟨hcount, -⟩ := hharm
    rw [heardItems_byte hb hc, List.length_cons] at hcount
    have hnil : heardItems n.checkMode none (b' :: bytes) = [] :=
      List.length_eq_zero_iff.mp (by omega)
    rw [List.map_cons, run_cons hstep]
    by_cases hb' : IsHeader b'
    · rw [run_first_header _ hb']
      rcases @run_first_refused fileName writeFile { n with attempts := j, frameStarted := true }
          rfl (b' :: bytes) none
          (fun header got hmem => by rw [hnil] at hmem; cases hmem) with hfail | ⟨i, pending', hr⟩
      · exact .inl hfail
      · simp only [hnil, List.length_nil, List.replicate_zero] at hr
        refine .inr (.inl ⟨?_, ?_, ?_⟩)
        · have := congrArg Prod.fst hr
          exact this ▸ Negotiation.at_started (n := { n with attempts := i, frameStarted := true })
            hmode rfl pending'
        · have := congrArg Prod.snd hr
          exact (congrArg (n.request ++ ·) this).symm ▸ by
            rw [List.append_nil]; exact n.request_ne_ack
        · have := congrArg Prod.snd hr
          exact (congrArg (n.request ++ ·) this).symm ▸ by
            rw [List.append_nil]; exact le_rfl
    · by_cases hc' : b' = can
      · subst hc'
        exact .inl (run_first_can _ _)
      · rw [heardItems_byte hb' hc'] at hnil
        cases hnil

end Receive

/-! ## The invariant of the line -/

section Line

variable {q : Setting} {content : List UInt8}

/-- The states of a transfer of `content`. -/
inductive Link.Inv (q : Setting) (content : List UInt8) : Link → Prop
  | starting : Inv q content q.start
  | transit {sent : Sending} {retry k : Nat} {receiver : Receiver} {arrived : List UInt8}
      (hsent : sent.At q.blockSize content k)
      (hlen : arrived.length = (sent.packet q.blockSize).length)
      (hreceiver : receiver.At q.blockSize content sent.checkMode k ∨
        k = 0 ∧ receiver.Fresh sent.checkMode) :
      Inv q content ⟨.sendBlock sent retry, receiver, arrived, []⟩
  | refused {sent : Sending} {retry k : Nat} {receiver : Receiver} {answers : List UInt8}
      (hsent : sent.At q.blockSize content k)
      (hreceiver : receiver.At q.blockSize content sent.checkMode k)
      (hack : ack ∉ answers) (hlen : answers.length ≤ 1) :
      Inv q content ⟨.sendBlock sent retry, receiver, [], answers⟩
  | accepted {sent : Sending} {retry k t : Nat} {s : MainLoop}
      (hsent : sent.At q.blockSize content k)
      (hs : s.At q.blockSize content sent.checkMode (k + 1)) :
      Inv q content ⟨.sendBlock sent retry, .waiting s t, [], [ack]⟩
  | ending {retry t : Nat} {s : MainLoop}
      (hdata : s.receivedData = padded q.blockSize content) :
      Inv q content ⟨.sendEot retry, .waiting s t, [eot], []⟩
  /-- An empty file: the receiver never hears a frame. -/
  | empty {retry : Nat} {n : Negotiation} {arrived answers : List UInt8}
      (harrived : ∀ b ∈ arrived, b = eot) :
      Inv q content ⟨.sendEot retry, .negotiating n, arrived, answers⟩
  /-- The sender has given up and never sends an `EOT`. -/
  | stopped {result : Except String BatchFileResult} {receiver : Receiver}
      {arrived answers : List UInt8} (harrived : eot ∉ arrived)
      (hreceiver : ∀ r, receiver = .finished r → ∃ message, r.result = .error message) :
      Inv q content ⟨.finished result, receiver, arrived, answers⟩
  | failed {sender : Sender} {message : String} {arrived answers : List UInt8} :
      Inv q content ⟨sender, .fail message, arrived, answers⟩
  | done {sender : Sender} {s : MainLoop} {arrived answers : List UInt8}
      (hdata : s.receivedData = padded q.blockSize content) :
      Inv q content ⟨sender, .finished (s.finish q.fileName q.writeFile), arrived, answers⟩

/-- Without an `EOT` no file is finished. -/
theorem read_unfinished {fileName : List Char} {writeFile : List UInt8 → Option String}
    {r : Receiver} {answer : Option UInt8} (ha : answer ≠ some eot)
    (hr : ∀ x, r = .finished x → ∃ message, x.result = .error message) :
    ∀ x, (r.read fileName writeFile answer).1 = .finished x → ∃ message, x.result = .error message := by
  have hnext : ∀ (n : Negotiation) x, n.next.1 = .finished x →
      ∃ message, x.result = .error message := by
    intro n x h
    rcases n.next_cases with ⟨n', out, hn⟩ | ⟨message, out, hn⟩
    · rw [hn] at h
      cases h
    · rw [hn] at h
      cases h
      exact ⟨_, rfl⟩
  intro x h
  match r, answer with
  | .negotiating n, none => exact hnext n x h
  | .negotiating n, some b =>
    simp only [Receiver.read] at h
    split_ifs at h
    · cases h
      exact ⟨_, rfl⟩
    · exact hnext n x h
  | .firstBlock n header got, some b =>
    simp only [Receiver.read] at h
    split_ifs at h
    unfold Negotiation.firstBlock at h
    split_ifs at h
    · exact hnext n x h
    · exact hnext n x h
  | .waiting s t, none =>
    simp only [Receiver.read] at h
    split_ifs at h
    cases h
    exact ⟨_, rfl⟩
  | .waiting s t, some b =>
    have hb : b ≠ eot := fun h => ha (congrArg some h)
    simp only [Receiver.read, if_neg hb] at h
    split_ifs at h
    cases h
    exact ⟨_, rfl⟩
  | .block s header got, some b =>
    simp only [Receiver.read] at h
    split_ifs at h
  | .firstBlock _ _ _, none | .block _ _ _, none =>
    cases h
    exact ⟨_, rfl⟩
  | .finished r, _ => exact hr x h

theorem run_unfinished {fileName : List Char} {writeFile : List UInt8 → Option String}
    {r : Receiver} {arrived : List UInt8} (ha : eot ∉ arrived)
    (hr : ∀ x, r = .finished x → ∃ message, x.result = .error message) :
    ∀ x, (r.run fileName writeFile (arrived.map some)).1 = .finished x →
      ∃ message, x.result = .error message := by
  induction arrived generalizing r with
  | nil => exact hr
  | cons b arrived ih =>
    rw [List.mem_cons, not_or] at ha
    exact ih ha.2 (read_unfinished (fun h => ha.1 (Option.some.inj h).symm) hr)

/-- A negotiation that hears only `EOT`s goes on or fails. -/
theorem run_empty {n : Negotiation} {arrived : List UInt8} (ha : ∀ b ∈ arrived, b = eot) :
    (∃ n', ((Receiver.negotiating n).run q.fileName q.writeFile (arrived.map some)).1 =
        .negotiating n') ∨
      ∃ message, ((Receiver.negotiating n).run q.fileName q.writeFile (arrived.map some)).1 =
        .fail message := by
  induction arrived generalizing n with
  | nil => exact .inl ⟨n, rfl⟩
  | cons b arrived ih =>
    obtain rfl := ha b List.mem_cons_self
    have hread : (Receiver.negotiating n).read q.fileName q.writeFile (some eot) = n.next := rfl
    rcases n.next_cases with ⟨n', out, hn⟩ | ⟨message, out, hn⟩
    · rw [List.map_cons, run_cons (hread.trans hn)]
      exact ih fun b hb => ha b (List.mem_cons_of_mem _ hb)
    · rw [List.map_cons, run_cons (hread.trans hn), Receiver.fail, run_finished]
      exact .inr ⟨message, rfl⟩

theorem Receiver.At.unfinished {size k : Nat} {mode : XModemCheckMode} {r : Receiver}
    (hr : r.At size content mode k) :
    ∀ x, r = .finished x → ∃ message, x.result = .error message := by
  rintro x rfl
  exact hr.elim

theorem eot_not_mem_cancelSequence : eot ∉ cancelSequence := by decide

/-- What the sender does once the receiver has accepted `k` blocks. -/
theorem inv_nextBlock {mode : XModemCheckMode} {k : Nat} {receiver : Receiver}
    {arrives : List UInt8}
    (hreceiver : receiver.At q.blockSize content mode k ∨ k = 0 ∧ receiver.Fresh mode)
    (hend : content.length ≤ k * q.blockSize → Link.Inv q content ⟨.sendEot 0, receiver, [eot], []⟩)
    (harrives : (nextBlock q.file q.blockSize mode (UInt8.ofNat (k + 1))
        (content.drop (k * q.blockSize))).1.MayArrive
      (nextBlock q.file q.blockSize mode (UInt8.ofNat (k + 1))
        (content.drop (k * q.blockSize))).2 arrives) :
    Link.Inv q content ⟨(nextBlock q.file q.blockSize mode (UInt8.ofNat (k + 1))
      (content.drop (k * q.blockSize))).1, receiver, arrives, []⟩ := by
  unfold nextBlock at harrives ⊢
  by_cases hrest : content.drop (k * q.blockSize) = []
  · rw [if_pos hrest] at harrives ⊢
    obtain rfl : arrives = [eot] := harrives
    exact hend (List.drop_eq_nil_iff.mp hrest)
  · rw [if_neg hrest] at harrives ⊢
    cases hheader : headerByte q.blockSize with
    | none =>
      rw [hheader] at harrives
      obtain rfl : arrives = cancelSequence := harrives
      refine .stopped eot_not_mem_cancelSequence ?_
      rcases hreceiver with hat | ⟨-, n, rfl, -⟩
      · exact hat.unfinished
      · exact fun x h => nomatch h
    | some header =>
      rw [hheader] at harrives
      refine .transit ⟨hheader, rfl, rfl, ?_, ?_⟩ harrives hreceiver
      · rw [List.drop_drop, Nat.succ_mul]
      · by_contra hle
        exact hrest (List.drop_eq_nil_iff.mpr (by omega))

theorem inv_receive {e e' : Link} (h : e.Inv q content)
    (hstep : e.step q .receive = some e') (hharm : e.Harmless) (hdetected : e.Detected q) :
    e'.Inv q content := by
  simp only [Link.step] at hstep
  split_ifs at hstep with hempty
  cases hstep
  cases h with
  | starting => exact absurd rfl hempty
  | @transit sent retry k receiver arrived hsent hlen hreceiver =>
    have hprogress : Progress q.blockSize content sent.checkMode k
        (receiver.run q.fileName q.writeFile (arrived.map some)) := by
      rcases hreceiver with hat | ⟨rfl, hfresh⟩
      · match receiver, hat with
        | .negotiating n, ⟨hk, hmode, hs⟩ =>
          subst hk
          exact @Negotiation.receive_started _ _ _ _ _ _ _ hmode hs hsent hlen none hharm hdetected
        | .firstBlock n header got, ⟨hk, hmode, hs⟩ =>
          subst hk
          exact @Negotiation.receive_started _ _ _ _ _ _ _ hmode hs hsent hlen (some (header, got))
              hharm hdetected
        | .waiting s t, hs => exact @hs.receive _ _ _ _ _ _ _ _ hsent hlen t none hharm hdetected
        | .block s header got, hs =>
          exact @hs.receive _ _ _ _ _ _ _ _ hsent hlen 0 (some (header, got)) hharm hdetected
      · exact hfresh.receive hsent hlen (fun n hn => by subst hn; exact hharm) hdetected
    rcases hprogress with ⟨message, hfail⟩ | ⟨hat, hack, hcount⟩ | ⟨s, hs, hat⟩
    · rw [hfail]
      exact .failed
    · exact .refused hsent hat hack hcount
    · rw [hs]
      exact .accepted hsent hat
  | refused => exact absurd rfl hempty
  | accepted => exact absurd rfl hempty
  | ending hdata => exact .done hdata
  | @empty retry n arrived answers harrived =>
    rcases run_empty (q := q) (n := n) harrived with ⟨n', hn⟩ | ⟨message, hn⟩
    · rw [hn]
      exact .empty (fun b hb => absurd hb List.not_mem_nil)
    · rw [hn]
      exact .failed
  | stopped harrived hreceiver =>
    exact .stopped List.not_mem_nil (run_unfinished harrived hreceiver)
  | failed =>
    rw [Receiver.fail, run_finished]
    exact .failed
  | done hdata =>
    rw [run_finished]
    exact .done hdata

theorem inv_timeout {e e' : Link} (h : e.Inv q content) (hstep : e.step q .timeout = some e') :
    e'.Inv q content := by
  simp only [Link.step] at hstep
  split_ifs at hstep with hempty
  cases hstep
  cases h with
  | starting => exact absurd hempty.2 (List.cons_ne_nil _ _)
  | @transit sent retry k receiver arrived hsent hlen hreceiver =>
    obtain rfl : arrived = [] := hempty.1
    rw [hsent.length_packet, List.length_nil] at hlen
    omega
  | @refused sent retry k receiver answers hsent hreceiver hack hlen =>
    cases receiver with
    | negotiating n =>
      obtain ⟨hk, hmode, hs⟩ := hreceiver
      have hread : (Receiver.negotiating n).read q.fileName q.writeFile none = n.next := rfl
      rw [hread]
      rcases Negotiation.next_of_started hs with ⟨j, hn⟩ | ⟨message, hn⟩
      · rw [hn]
        exact .refused hsent ⟨hk, hmode, hs⟩ (by decide : ack ∉ [nak]) le_rfl
      · rw [hn]
        exact .failed
    | firstBlock n header got => exact .failed
    | waiting s t =>
      simp only [Receiver.read]
      split_ifs
      · exact .failed
      · exact .refused hsent hreceiver (by decide : ack ∉ [nak]) le_rfl
    | block s header got => exact .failed
    | finished result => exact hreceiver.elim
  | accepted => exact absurd hempty.2 (List.cons_ne_nil _ _)
  | ending => exact absurd hempty.1 (List.cons_ne_nil _ _)
  | @empty retry n arrived answers harrived =>
    have hread : (Receiver.negotiating n).read q.fileName q.writeFile none = n.next := rfl
    rw [hread]
    rcases n.next_cases with ⟨n', out, hn⟩ | ⟨message, out, hn⟩
    · rw [hn]
      exact .empty harrived
    · rw [hn]
      exact .failed
  | stopped harrived hreceiver => exact .stopped harrived (read_unfinished (by intro h; cases h) hreceiver)
  | failed => exact .failed
  | done hdata => exact .done hdata

theorem inv_answer {e e' : Link} {arrives : List UInt8} (hfile : q.file.content = .ok content)
    (h : e.Inv q content) (hstep : e.step q (.answer arrives) = some e') : e'.Inv q content := by
  simp only [Link.step] at hstep
  split_ifs at hstep with hempty harrives
  cases hstep
  cases h with
  | starting =>
    have hmode : ∃ n, xmodemReceive q.configured = (.negotiating n, [n.checkMode.initByte]) ∧
        0 < n.attempts := by
      cases q.configured <;> exact ⟨_, rfl, by decide⟩
    obtain ⟨n, hn, hattempts⟩ := hmode
    have hread : (Sender.getnak 0).read q.file q.blockSize (some n.checkMode.initByte) =
        nextBlock q.file q.blockSize n.checkMode (UInt8.ofNat (0 + 1))
          (content.drop (0 * q.blockSize)) := by
      rw [Nat.zero_mul, List.drop_zero]
      simp only [Sender.read, startFile, hfile]
      cases n.checkMode <;> rfl
    simp only [Setting.start, hn, List.head?_cons, List.tail_cons, hread] at harrives ⊢
    exact inv_nextBlock (.inr ⟨rfl, n, rfl, rfl, hattempts⟩)
      (fun _ => .empty fun b hb => List.mem_singleton.mp hb) harrives
  | @transit sent retry k receiver arrived hsent hlen hreceiver =>
    obtain rfl : arrived = [] := hempty
    rw [hsent.length_packet, List.length_nil] at hlen
    omega
  | @refused sent retry k receiver answers hsent hreceiver hack hlen =>
    have hhead : answers.head? ≠ some ack := fun h => hack (List.mem_of_mem_head? h)
    have htail : answers.tail = [] := by
      refine List.length_eq_zero_iff.mp ?_
      rw [List.length_tail]
      omega
    have hgiveUp : ∀ message, Link.Inv q content
        ⟨failed q.file message, receiver, cancelSequence, answers.tail⟩ := fun message =>
      .stopped eot_not_mem_cancelSequence hreceiver.unfinished
    simp only [Sender.read, if_neg hhead] at harrives ⊢
    by_cases hcan : answers.head? = some can
    · rw [if_pos hcan] at harrives ⊢
      obtain rfl : arrives = cancelSequence := harrives
      exact hgiveUp _
    · rw [if_neg hcan] at harrives ⊢
      by_cases hlast : retry = maxRetries - 1
      · rw [if_pos hlast] at harrives ⊢
        obtain rfl : arrives = cancelSequence := harrives
        exact hgiveUp _
      · rw [if_neg hlast] at harrives ⊢
        rw [htail]
        exact .transit hsent harrives (.inl hreceiver)
  | @accepted sent retry k t s hsent hs =>
    have hread : (Sender.sendBlock sent retry).read q.file q.blockSize (some ack) =
        nextBlock q.file q.blockSize sent.checkMode (UInt8.ofNat (k + 1 + 1))
          (content.drop ((k + 1) * q.blockSize)) := by
      rw [← hsent.rest, UInt8.ofNat_add (k + 1) 1, ← hsent.blockNum]
      rfl
    simp only [List.head?_cons, List.tail_cons, hread] at harrives ⊢
    refine inv_nextBlock (.inl hs) (fun hle => .ending ?_) harrives
    rw [hs.receivedData, front_all hle]
  | ending => exact absurd hempty (List.cons_ne_nil _ _)
  | @empty retry n arrived answers harrived =>
    have hstop : ∀ result, Link.Inv q content
        ⟨.finished result, .negotiating n, [], answers.tail⟩ := fun result =>
      .stopped List.not_mem_nil fun x h => nomatch h
    simp only [Sender.read] at harrives ⊢
    split_ifs at harrives ⊢
    · obtain rfl : arrives = [] := harrives
      exact hstop _
    · obtain rfl : arrives = [] := harrives
      exact hstop _
    · obtain rfl : arrives = [] := harrives
      exact hstop _
    · obtain rfl : arrives = [eot] := harrives
      exact .empty fun b hb => List.mem_singleton.mp hb
  | stopped harrived hreceiver =>
    obtain rfl : arrives = [] := harrives
    exact .stopped List.not_mem_nil hreceiver
  | failed => exact .failed
  | done hdata => exact .done hdata

/-- A step in which a packet is read only if its damage is harmless, and its check detects the
damage to its data. -/
def StepsHarmlessly (q : Setting) (e : Link) (action : Action) (e' : Link) : Prop :=
  e.step q action = some e' ∧ (action = .receive → e.Harmless ∧ e.Detected q)

theorem inv_step {e e' : Link} {action : Action} (hfile : q.file.content = .ok content)
    (h : e.Inv q content) (hstep : StepsHarmlessly q e action e') : e'.Inv q content := by
  obtain ⟨hstep, hgood⟩ := hstep
  cases action with
  | receive => exact inv_receive h hstep (hgood rfl).1 (hgood rfl).2
  | timeout => exact inv_timeout h hstep
  | answer arrives => exact inv_answer hfile h hstep

theorem Link.Inv.completed {e : Link} (h : e.Inv q content) {r : Received}
    (hr : e.receiver = .finished r) {result : BatchFileResult} (hresult : r.result = .ok result)
    (hstatus : result.status = .completed) : r.file = some (padded q.blockSize content) := by
  cases h with
  | starting => cases hr
  | transit hsent hlen hreceiver =>
    rcases hreceiver with hat | ⟨-, n, hn, -⟩
    · obtain ⟨message, he⟩ := hat.unfinished r hr
      rw [hresult] at he
      cases he
    · cases hn.symm.trans hr
  | refused hsent hreceiver =>
    obtain ⟨message, he⟩ := hreceiver.unfinished r hr
    rw [hresult] at he
    cases he
  | accepted => cases hr
  | ending => cases hr
  | empty => cases hr
  | stopped harrived hreceiver =>
    obtain ⟨message, he⟩ := hreceiver r hr
    rw [hresult] at he
    cases he
  | failed =>
    cases hr
    cases hresult
  | done hdata =>
    cases hr
    unfold MainLoop.finish at hresult ⊢
    split at hresult
    · exact congrArg some hdata
    · cases hresult
      cases hstatus

theorem Link.Inv.receives_front {e : Link} (h : e.Inv q content) {s : MainLoop} {t retry : Nat}
    {sent : Sending} (hr : e.receiver = .waiting s t) (hs : e.sender = .sendBlock sent retry) :
    ∃ k, s.receivedData = front q.blockSize content k := by
  cases h with
  | starting => cases hr
  | transit hsent hlen hreceiver =>
    rcases hreceiver with hat | ⟨-, n, hn, -⟩
    · obtain rfl : _ = Receiver.waiting s t := hr
      exact ⟨_, MainLoop.At.receivedData hat⟩
    · cases hn.symm.trans hr
  | refused hsent hreceiver =>
    obtain rfl : _ = Receiver.waiting s t := hr
    exact ⟨_, MainLoop.At.receivedData hreceiver⟩
  | accepted hsent hat =>
    cases hr
    exact ⟨_, hat.receivedData⟩
  | ending => cases hs
  | empty => cases hr
  | stopped => cases hs
  | failed => cases hr
  | done => cases hr

/-- **A file that the receiver reports as completed is the sender's**, in every run in which all damage
is harmless; and while the sender is at a block, what has been received is the front of the file,
with no block missing and none repeated. -/
theorem completed_file_is_the_senders {actions : List Action} {e : Link}
    (hfile : q.file.content = .ok content)
    (h : Run (StepsHarmlessly q) q.start actions e) :
    (∀ r result, e.receiver = .finished r → r.result = .ok result → result.status = .completed →
      r.file = some (padded q.blockSize content)) ∧
    (∀ s t sent retry, e.receiver = .waiting s t → e.sender = .sendBlock sent retry →
      ∃ k, s.receivedData = front q.blockSize content k) := by
  have hinv : e.Inv q content := h.invariant (fun _ _ _ hs hstep => inv_step hfile hs hstep) .starting
  exact ⟨fun r result hr hresult hstatus => hinv.completed hr hresult hstatus,
    fun s t sent retry hr hs => hinv.receives_front hr hs⟩

end Line

/-! ## Two transfers of 260 bytes -/

/-- A file of 260 bytes, sent in three blocks with the arithmetic checksum. -/
def smallFile : Setting :=
  { file := { name := [], size := 260, content := .ok (List.replicate 260 0) }
    blockSize := 128, configured := .checksum, fileName := [], writeFile := fun _ => none }

/-- The first and the second packet, behind the header with which they arrive. -/
def fullPacket (header number : UInt8) : List UInt8 :=
  [header, number, ~~~number] ++ List.replicate 128 0 ++ [0]

def lastPacket (header : UInt8) : List UInt8 :=
  [header, 3, 252, 0, 0, 0, 0] ++ List.replicate 124 0x1A ++ [152]

/-- The file the receiver reports as completed. -/
def Link.completedFile (e : Link) : Option (List UInt8) :=
  match e.receiver with
  | .finished ⟨.ok ⟨_, .completed, _, _⟩, file⟩ => file
  | _ => none

theorem Link.of_completedFile {e : Link} {file : List UInt8} (h : e.completedFile = some file) :
    ∃ r result, e.receiver = .finished r ∧ r.result = .ok result ∧ result.status = .completed ∧
      r.file = some file := by
  unfold Link.completedFile at h
  split at h
  · exact ⟨_, _, ‹_›, rfl, rfl, h⟩
  · cases h

/-- A damaged byte of data, a lost header, and the file arrives. -/
def damagedTransfer : List Action :=
  [.answer ((fullPacket soh 1).set 7 3), .receive, .answer (fullPacket soh 1), .receive,
    .answer (fullPacket soh 2), .receive, .answer (lastPacket 0x81), .receive,
    .answer (lastPacket soh), .receive, .answer [eot], .receive]

set_option maxRecDepth 20000 in
theorem completed_file_is_the_senders_damaged :
    ∃ (e : Link) (r : Received), e.receiver = .finished r ∧
      r.file = some (padded 128 (List.replicate 260 0)) := by
  have hrun : (execute (stepWhere (Link.step smallFile) fun e action _ =>
      action = .receive → e.Harmless ∧ e.Detected smallFile) smallFile.start damagedTransfer).map
        Link.completedFile = some (some (List.replicate 260 0 ++ List.replicate 124 0x1A)) := by
    decide
  obtain ⟨e, he, hfile⟩ := Option.map_eq_some_iff.mp hrun
  obtain ⟨r, result, hr, hresult, hstatus, -⟩ := Link.of_completedFile hfile
  exact ⟨e, r, hr, (completed_file_is_the_senders (q := smallFile) rfl
    (run_of_executeWhere he)).1 r result hr hresult hstatus⟩

/-- The header of the second packet arrives as an `EOT`. -/
def truncatedTransfer : List Action :=
  [.answer (fullPacket soh 1), .receive, .answer (fullPacket eot 2), .receive]

set_option maxRecDepth 20000 in
theorem header_as_eot_truncates :
    ∃ (e : Link) (r : Received) (result : BatchFileResult),
      Run (fun e action e' => e.step smallFile action = some e' ∧
        (action = .receive → e.Detected smallFile)) smallFile.start truncatedTransfer e ∧
      e.receiver = .finished r ∧ r.result = .ok result ∧ result.status = .completed ∧
      r.file = some (List.replicate 128 0) ∧
      List.replicate 128 0 ≠ padded 128 (List.replicate 260 0) := by
  have hrun : (execute (stepWhere (Link.step smallFile) fun e action _ =>
      action = .receive → e.Detected smallFile) smallFile.start truncatedTransfer).map
        Link.completedFile = some (some (List.replicate 128 0)) := by
    decide
  obtain ⟨e, he, hfile⟩ := Option.map_eq_some_iff.mp hrun
  obtain ⟨r, result, hr, hresult, hstatus, hdata⟩ := Link.of_completedFile hfile
  exact ⟨e, r, result, run_of_executeWhere he, hr, hresult, hstatus, hdata, by decide⟩

end TauTerm.Transfer.XModem
