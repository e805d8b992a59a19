import Mathlib
import TauTerm.Tftp.Session

/-!
# The two sides of a transfer

What `send_file` and `receive_file` keep true of themselves while the block numbers
do not wrap, and what each `recv` does then. `Sender.Running` says that the window
holds the blocks behind the base, `Receiver.Ok` that the window and the file hold
the blocks accepted so far.
-/

namespace TauTerm.Tftp

open Lib

variable {R W : Type} {read : WindowRead R} {write : WindowWrite W}

/-! ## Numbers that do not wrap -/

theorem blockSeqTx_eq {base index : Nat} (rollover : TftpRollover) (h : base + index + 1 < 65536) :
    blockSeqTx rollover base index = some (base + index + 1) := by
  have hmod : wrappingAdd base (index + 1) = base + index + 1 := Nat.mod_eq_of_lt h
  simp only [blockSeqTx, hmod]
  rw [if_neg (by omega)]

theorem ackDiff_eq {ack base : Nat} (rollover : TftpRollover) (hle : base ≤ ack) (hack : ack < 65536) :
    ackDiff rollover ack base = ack - base := by
  have hsub : wrappingSub ack base = ack - base := by
    unfold wrappingSub
    omega
  simp only [ackDiff, hsub]
  rw [if_neg (by omega)]

theorem expectedBlock_eq {blockNumber : Nat} (rollover : TftpRollover) (received : Nat)
    (h : blockNumber + 1 < 65536) :
    expectedBlock rollover blockNumber received = some (blockNumber + 1) := by
  have hmod : wrappingAdd blockNumber 1 = blockNumber + 1 := Nat.mod_eq_of_lt h
  simp only [expectedBlock, hmod]
  rw [if_neg (by omega)]

theorem TftpDynamicParams.repeats_pos (params : TftpDynamicParams) : 0 < params.repeats := by
  unfold TftpDynamicParams.repeats
  omega

theorem TftpDynamicParams.windowSize_pos (params : TftpDynamicParams) : 0 < params.windowSize := by
  unfold TftpDynamicParams.windowSize
  omega

/-- A block of the file under its number. -/
def Packet.IsBlock (blocks : List (List UInt8)) (packet : Packet) : Prop :=
  ∃ i block, packet = .data (i + 1) block ∧ blocks[i]? = some block

/-! ## The sender -/

/-- The window holds the blocks behind the base. -/
structure Sender.Windowed (law : read.Lawful) (blocks : List (List UInt8)) (w : Nat) (s : Sender R) :
    Prop where
  size : law.size s.window = w
  elements : read.elements s.window = (blocks.drop s.blockSeqWin).take w
  rest : law.rest s.window = blocks.drop (s.blockSeqWin + w)
  more : s.more = !(law.rest s.window).isEmpty
  unfinished : s.blockSeqWin < blocks.length

/-- A sender in its loop: the window holds the blocks behind the base. -/
structure Sender.Running (law : read.Lawful) (blocks : List (List UInt8)) (w : Nat) (s : Sender R) :
    Prop where
  size : law.size s.window = w
  elements : read.elements s.window = (blocks.drop s.blockSeqWin).take w
  rest : law.rest s.window = blocks.drop (s.blockSeqWin + w)
  more : s.more = !(law.rest s.window).isEmpty
  unfinished : s.blockSeqWin < blocks.length
  idx : s.wrIdx ≤ (read.elements s.window).length
  /-- It blocks only with its whole window sent and nothing heard. -/
  mode : s.wrIdx < (read.elements s.window).length ∨ (∃ ack, s.phase = .collecting (some ack)) →
    s.nonblocking = true

variable {law : read.Lawful} {blocks : List (List UInt8)} {w : Nat} {s : Sender R}
  {params : TftpDynamicParams}

theorem Sender.Running.windowed (h : s.Running law blocks w) : s.Windowed law blocks w :=
  ⟨h.size, h.elements, h.rest, h.more, h.unfinished⟩

theorem Sender.Windowed.length (h : s.Windowed law blocks w) :
    (read.elements s.window).length = min w (blocks.length - s.blockSeqWin) := by
  rw [h.elements, List.length_take, List.length_drop]

theorem Sender.Running.length (h : s.Running law blocks w) :
    (read.elements s.window).length = min w (blocks.length - s.blockSeqWin) := h.windowed.length

theorem Sender.Windowed.frame (h : s.Windowed law blocks w) {frame : List UInt8}
    (hframe : (read.elements s.window)[s.wrIdx]? = some frame) :
    blocks[s.blockSeqWin + s.wrIdx]? = some frame := by
  rw [h.elements, List.getElem?_take] at hframe
  split_ifs at hframe
  rwa [List.getElem?_drop] at hframe

/-- The sending phase with a block left. -/
theorem Sender.Running.send (h : s.Running law blocks w) (hn : blocks.length < 65536)
    (hidx : s.wrIdx < (read.elements s.window).length) :
    ∃ s' frame, s.sendStep read params false =
        (s', List.replicate params.repeats (.data (s.blockSeqWin + s.wrIdx + 1) frame)) ∧
      blocks[s.blockSeqWin + s.wrIdx]? = some frame ∧ s'.Running law blocks w ∧
      s'.blockSeqWin = s.blockSeqWin ∧ s'.wrIdx = s.wrIdx + 1 ∧ s'.phase = .collecting none := by
  have hlen := h.length
  obtain ⟨frame, hframe⟩ : ∃ frame, (read.elements s.window)[s.wrIdx]? = some frame :=
    ⟨_, List.getElem?_eq_getElem hidx⟩
  have hseq : blockSeqTx params.rollover s.blockSeqWin s.wrIdx = some (s.blockSeqWin + s.wrIdx + 1) :=
    blockSeqTx_eq _ (by omega)
  have hnonblocking : s.nonblocking = true := h.mode (.inl hidx)
  let sent : Sender R := { s with
    hasher := s.hasher ++ frame
    bytesSent := s.bytesSent + frame.length
    wrIdx := s.wrIdx + 1
    phase := .collecting none }
  by_cases hlt : s.wrIdx + 1 < (read.elements s.window).length
  · refine ⟨sent, frame, ?_, h.windowed.frame hframe, ⟨h.size, h.elements, h.rest, h.more, h.unfinished, hidx,
      fun _ => hnonblocking⟩, rfl, rfl, rfl⟩
    simp [Sender.sendStep, hframe, hseq, hlt, sent]
  · -- the window is exhausted: the next blocks are read ahead, and the socket blocks
    obtain ⟨window, hprefill, helements, hrest, hsize⟩ := law.prefill s.window
    refine ⟨{ sent with window, nonblocking := false }, frame, ?_, h.windowed.frame hframe,
      ⟨hsize.trans h.size, helements.trans h.elements, hrest.trans h.rest, ?_, h.unfinished, ?_, ?_⟩,
      rfl, rfl, rfl⟩
    · simp [Sender.sendStep, hframe, hseq, hlt, hprefill, sent]
    · show s.more = !(law.rest window).isEmpty
      rw [hrest]; exact h.more
    · show s.wrIdx + 1 ≤ (read.elements window).length
      rw [helements]; exact hidx
    · rintro (hsent | ⟨ack, hack⟩)
      · have hsent' : s.wrIdx + 1 < (read.elements window).length := hsent
        rw [helements] at hsent'
        exact absurd hsent' hlt
      · cases hack

/-- The sending phase with the whole window sent. -/
theorem Sender.Running.pause (h : s.Running law blocks w)
    (hidx : s.wrIdx = (read.elements s.window).length) :
    s.sendStep read params false = ({ s with phase := .collecting none }, []) ∧
      Sender.Running law blocks w { s with phase := .collecting none } := by
  refine ⟨?_, ⟨h.size, h.elements, h.rest, h.more, h.unfinished, h.idx, ?_⟩⟩
  · have hnone : (read.elements s.window)[s.wrIdx]? = none :=
      List.getElem?_eq_none (by omega)
    simp [Sender.sendStep, hnone]
  · rintro (hlt | ⟨ack, hack⟩)
    · exact h.mode (.inl hlt)
    · cases hack

/-- An acknowledgement is taken from the socket. -/
theorem Sender.Running.take (h : s.Running law blocks w) {lastAck : Option Nat}
    (hphase : s.phase = .collecting lastAck) (ack : Nat) :
    ∃ s', s.collectStep read params false false lastAck (.packet (.ack ack)) = s' ∧
      s'.Running law blocks w ∧ s'.blockSeqWin = s.blockSeqWin ∧ s'.wrIdx = s.wrIdx ∧
      s'.phase = .collecting (some ack) := by
  refine ⟨_, rfl, ⟨h.size, h.elements, h.rest, h.more, h.unfinished, h.idx, fun _ => ?_⟩, rfl, rfl, rfl⟩
  cases lastAck with
  | none => rfl
  | some last => exact h.mode (.inr ⟨last, hphase⟩)

/-- The socket is empty, and the last acknowledgement is old. -/
theorem Sender.Running.stale (h : s.Running law blocks w)
    (hphase : s.phase = .collecting (some s.blockSeqWin)) (hn : blocks.length < 65536) :
    s.collectStep read params false false (some s.blockSeqWin) .wouldBlock =
        { s with phase := .sending } ∧
      Sender.Running law blocks w { s with phase := .sending } := by
  refine ⟨?_, ⟨h.size, h.elements, h.rest, h.more, h.unfinished, h.idx, fun _ =>
    h.mode (.inr ⟨_, hphase⟩)⟩⟩
  have hunfinished := h.unfinished
  have hdiff : ackDiff params.rollover s.blockSeqWin s.blockSeqWin = 0 := by
    rw [ackDiff_eq _ le_rfl (by omega), Nat.sub_self]
  simp [Sender.collectStep, Sender.acknowledge, hdiff]

/-- The socket is empty, and nothing was acknowledged. -/
theorem Sender.Running.idle (h : s.Running law blocks w) :
    (s.wrIdx < (read.elements s.window).length →
      s.collectStep read params false false none .wouldBlock = { s with phase := .sending } ∧
        Sender.Running law blocks w { s with phase := .sending }) ∧
    (¬ s.wrIdx < (read.elements s.window).length →
      s.collectStep read params false false none .wouldBlock = s) := by
  refine ⟨fun hlt => ⟨by simp [Sender.collectStep, hlt], h.size, h.elements, h.rest, h.more,
    h.unfinished, h.idx, fun _ => h.mode (.inl hlt)⟩, fun hlt => ?_⟩
  simp [Sender.collectStep, Sender.checkTimeout, hlt]

/-- An acknowledgement that moves the window: on, or to its end. -/
theorem Sender.Windowed.acknowledge (h : s.Windowed law blocks w) {ack : Nat}
    (hw : params.windowSize = w) (hn : blocks.length < 65536) (hlt : s.blockSeqWin < ack)
    (hle : ack ≤ s.blockSeqWin + (read.elements s.window).length) :
    ∃ s', s.acknowledge read params ack = some s' ∧ s'.blockSeqWin = ack ∧
      s'.nonblocking = s.nonblocking ∧
      ((s'.Windowed law blocks w ∧ s'.wrIdx = 0 ∧ s'.phase = .sending) ∨
        (ack = blocks.length ∧ ∃ result, s'.phase = .finished (.ok result))) := by
  have hlen := h.length
  have hunfinished := h.unfinished
  have hdiff : ackDiff params.rollover ack s.blockSeqWin = ack - s.blockSeqWin :=
    ackDiff_eq _ hlt.le (by omega)
  obtain ⟨window, hremove, helements, hrest, hsize⟩ :=
    law.remove (ack - s.blockSeqWin) s.window (by omega)
  have hleft : read.elements window = (blocks.drop ack).take (w - (ack - s.blockSeqWin)) := by
    rw [helements, h.elements, List.drop_take, List.drop_drop]
    congr 2
    omega
  have hrest' : law.rest window = blocks.drop (s.blockSeqWin + w) := hrest.trans h.rest
  by_cases hmore : s.blockSeqWin + w < blocks.length
  · -- more blocks are to come, and they fill the window up
    have hne : law.rest window ≠ [] := by
      rw [hrest']
      exact List.ne_nil_of_length_pos (by rw [List.length_drop]; omega)
    obtain ⟨filled, hfill, helements', hrest'', hsize'⟩ := law.fill window hne
    have hsMore : s.more = true := by
      rw [h.more, h.rest, ← hrest']
      simpa using hne
    have hspace : law.size window - (read.elements window).length = ack - s.blockSeqWin := by
      rw [hsize, h.size, hleft, List.length_take, List.length_drop]
      omega
    refine ⟨{ s with
        blockSeqWin := ack, window := filled, more := !(law.rest filled).isEmpty, wrIdx := 0
        phase := .sending }, ?_, rfl, rfl, .inl ⟨⟨?_, ?_, ?_, rfl, ?_⟩, rfl, rfl⟩⟩
    · simp only [Sender.acknowledge, hdiff, hremove, hfill, hsMore, hw]
      rw [if_neg (by omega), if_pos (by omega)]
      simp
    · exact hsize'.trans (hsize.trans h.size)
    · show read.elements filled = (blocks.drop ack).take w
      rw [helements', hspace, hleft, hrest', show s.blockSeqWin + w = ack + (w - (ack - s.blockSeqWin))
        by omega, ← List.drop_drop, ← List.take_add]
      congr 1
      omega
    · show law.rest filled = blocks.drop (ack + w)
      rw [hrest'', hspace, hrest', List.drop_drop]
      congr 1
      omega
    · show ack < blocks.length
      omega
  · -- the window holds all that is left
    have hnil : law.rest window = [] := by
      rw [hrest']
      exact List.drop_eq_nil_of_le (by omega)
    have hsMore : s.more = false := by
      rw [h.more, h.rest, ← hrest', hnil]
      rfl
    have hleft' : read.elements window = blocks.drop ack := by
      rw [hleft]
      exact List.take_of_length_le (by rw [List.length_drop]; omega)
    by_cases hend : ack = blocks.length
    · have hempty : read.elements window = [] := by
        rw [hleft', hend, List.drop_length]
      refine ⟨{ s with blockSeqWin := ack, window }.finish (.ok ⟨s.bytesSent, some s.hasher⟩), ?_, rfl,
        rfl, .inr ⟨hend, _, rfl⟩⟩
      simp only [Sender.acknowledge, hdiff, hremove, hsMore, Bool.false_eq_true, if_false, hw]
      rw [if_neg (by omega), if_pos (by omega)]
      simp [hempty]
    · have hne : read.elements window ≠ [] := by
        rw [hleft']
        exact List.ne_nil_of_length_pos (by rw [List.length_drop]; omega)
      refine ⟨{ s with blockSeqWin := ack, window, wrIdx := 0, phase := .sending }, ?_, rfl, rfl,
        .inl ⟨⟨hsize.trans h.size, ?_, ?_, ?_, ?_⟩, rfl, rfl⟩⟩
      · simp only [Sender.acknowledge, hdiff, hremove, hsMore, Bool.false_eq_true, if_false, hw]
        rw [if_neg (by omega), if_pos (by omega)]
        simp [hne]
      · show read.elements window = (blocks.drop ack).take w
        rw [hleft', List.take_of_length_le (by rw [List.length_drop]; omega)]
      · show law.rest window = blocks.drop (ack + w)
        rw [hnil, List.drop_eq_nil_of_le (by omega)]
      · show s.more = !(law.rest window).isEmpty
        rw [hsMore, hnil]
        rfl
      · show ack < blocks.length
        omega

/-- The socket is empty, and the last acknowledgement moves the window: on, or to its end. -/
theorem Sender.Running.slide (h : s.Running law blocks w) {ack : Nat}
    (hphase : s.phase = .collecting (some ack)) (hw : params.windowSize = w)
    (hn : blocks.length < 65536) (hlt : s.blockSeqWin < ack)
    (hle : ack ≤ s.blockSeqWin + (read.elements s.window).length) :
    ∃ s', s.collectStep read params false false (some ack) .wouldBlock = s' ∧
      s'.blockSeqWin = ack ∧
      ((s'.Running law blocks w ∧ s'.wrIdx = 0 ∧ s'.phase = .sending) ∨
        (ack = blocks.length ∧ ∃ result, s'.phase = .finished (.ok result))) := by
  have hnonblocking : s.nonblocking = true := h.mode (.inr ⟨ack, hphase⟩)
  obtain ⟨s', hs', hbase, hmode, hend⟩ := h.windowed.acknowledge hw hn hlt hle
  refine ⟨s', by simp [Sender.collectStep, hs'], hbase, hend.imp_left ?_⟩
  rintro ⟨hwindowed, hidx, hphase'⟩
  exact ⟨⟨hwindowed.size, hwindowed.elements, hwindowed.rest, hwindowed.more, hwindowed.unfinished,
    hidx ▸ Nat.zero_le _, fun _ => hmode.trans hnonblocking⟩, hidx, hphase'⟩

/-- The start of `send_file`, with something to send. -/
theorem sendFile_running (law : read.Lawful) {blockSize : Nat} {content : List UInt8}
    (hsize : 0 < blockSize) (hcontent : content ≠ []) :
    (sendFile read params blockSize content).Running law (cut blockSize content) params.windowSize ∧
      (sendFile read params blockSize content).blockSeqWin = 0 ∧
      (sendFile read params blockSize content).wrIdx = 0 ∧
      (sendFile read params blockSize content).phase = .sending := by
  have hrest := law.new_rest params.windowSize blockSize content hsize
  obtain ⟨window, hfill, helements, hrest', hsize'⟩ :=
    law.fill (read.new params.windowSize blockSize content) (by rw [hrest]; exact cut_ne_nil _ _)
  rw [law.new_elements, law.new_size, List.length_nil, Nat.sub_zero, hrest] at *
  have hsend : sendFile read params blockSize content =
      { window, more := !(law.rest window).isEmpty, blockSeqWin := 0, wrIdx := 0, bytesSent := 0
        retryCnt := 0, hasher := [], nonblocking := true, phase := .sending } := by
    simp [sendFile, hcontent, hfill]
  rw [hsend]
  refine ⟨⟨hsize', ?_, ?_, rfl, ?_, Nat.zero_le _, fun _ => rfl⟩, rfl, rfl, rfl⟩
  · rw [List.drop_zero]; exact helements
  · rw [Nat.zero_add]; exact hrest'
  · exact List.length_pos_of_ne_nil (cut_ne_nil _ _)

/-! ## The receiver -/

/-- A receiver that accepted the blocks up to its number, of which the file holds
all but those in the window. `start` blocks were there before. -/
structure Receiver.Accepted (law : write.Lawful) (blocks : List (List UInt8)) (w start : Nat)
    (r : Receiver W) : Prop where
  size : law.size r.window = w
  start_le : start ≤ r.blockNumber
  number_le : r.blockNumber ≤ blocks.length
  held_le : (law.blocks r.window).length ≤ r.blockNumber
  held : law.blocks r.window =
    (blocks.take r.blockNumber).drop (r.blockNumber - (law.blocks r.window).length)
  file : write.file r.window =
    (blocks.take (r.blockNumber - (law.blocks r.window).length)).flatten
  last : r.last = decide (start < r.blockNumber ∧ r.blockNumber = blocks.length)
  receiving : r.phase = .receiving → r.last = false ∧ (law.blocks r.window).length < w
  finished : ∀ result, r.phase = .finished (.ok result) → r.last = true ∧ law.blocks r.window = []

/-- A receiver that has seen neither an error nor a timeout. -/
structure Receiver.Ok (law : write.Lawful) (blocks : List (List UInt8)) (w start : Nat)
    (r : Receiver W) : Prop where
  size : law.size r.window = w
  start_le : start ≤ r.blockNumber
  number_le : r.blockNumber ≤ blocks.length
  held_le : (law.blocks r.window).length ≤ r.blockNumber
  held : law.blocks r.window =
    (blocks.take r.blockNumber).drop (r.blockNumber - (law.blocks r.window).length)
  file : write.file r.window =
    (blocks.take (r.blockNumber - (law.blocks r.window).length)).flatten
  last : r.last = decide (start < r.blockNumber ∧ r.blockNumber = blocks.length)
  receiving : r.phase = .receiving → r.last = false ∧ (law.blocks r.window).length < w
  finished : ∀ outcome, r.phase = .finished outcome →
    (∃ result, outcome = .ok result) ∧ r.last = true ∧ law.blocks r.window = []
  mode : r.listenAll = r.nonblocking

variable {wlaw : write.Lawful} {r : Receiver W} {start blockSize : Nat}

theorem Receiver.Ok.accepted (h : r.Ok wlaw blocks w start) : r.Accepted wlaw blocks w start :=
  ⟨h.size, h.start_le, h.number_le, h.held_le, h.held, h.file, h.last, h.receiving,
    fun _ hp => (h.finished _ hp).2⟩

theorem Receiver.Accepted.ok (h : r.Accepted wlaw blocks w start)
    (hok : ∀ outcome, r.phase = .finished outcome → ∃ result, outcome = .ok result)
    (hmode : r.listenAll = r.nonblocking) : r.Ok wlaw blocks w start := by
  refine ⟨h.size, h.start_le, h.number_le, h.held_le, h.held, h.file, h.last, h.receiving,
    fun outcome hp => ?_, hmode⟩
  obtain ⟨result, rfl⟩ := hok outcome hp
  exact ⟨⟨result, rfl⟩, h.finished result hp⟩

/-- The next block. -/
theorem Receiver.Accepted.accept (h : r.Accepted wlaw blocks w start) (hphase : r.phase = .receiving)
    (hn : blocks.length < 65536)
    (hshort : ∀ i block, blocks[i]? = some block → (block.length < blockSize ↔ i + 1 = blocks.length))
    {data : List UInt8} (hdata : blocks[r.blockNumber]? = some data) :
    ∃ r', r.receiveStep write params blockSize false (.packet (.data (r.blockNumber + 1) data)) =
        (r', []) ∧ r'.Accepted wlaw blocks w start ∧ r'.blockNumber = r.blockNumber + 1 ∧
      (wlaw.blocks r'.window).length = (wlaw.blocks r.window).length + 1 ∧
      (r'.phase = if (wlaw.blocks r.window).length + 1 = w ∨ r.blockNumber + 1 = blocks.length then .acking
        else .receiving) ∧ r'.listenAll = r'.nonblocking := by
  obtain ⟨hlast, hheld⟩ := h.receiving hphase
  have hlt : r.blockNumber < blocks.length := (List.getElem?_eq_some_iff.mp hdata).1
  obtain ⟨window, hadd, hblocks, hfile, hsize⟩ := wlaw.add data r.window (by rw [h.size]; exact hheld)
  have hshort' : data.length < blockSize ↔ r.blockNumber + 1 = blocks.length := hshort _ _ hdata
  have hlen : (wlaw.blocks window).length = (wlaw.blocks r.window).length + 1 := by
    rw [hblocks, List.length_append, List.length_singleton]
  have hfull : write.isFull window = decide ((wlaw.blocks r.window).length + 1 = w) := by
    rw [wlaw.isFull, hlen, hsize, h.size]
  have hle := h.held_le
  have hnum : r.blockNumber + 1 - (wlaw.blocks window).length =
      r.blockNumber - (wlaw.blocks r.window).length := by omega
  let r' : Receiver W := { r with
    window, last := data.length < blockSize, blockNumber := r.blockNumber + 1
    hasher := r.hasher.map (· ++ data), bytesReceived := r.bytesReceived + data.length
    nonblocking := true, listenAll := true
    phase := if (wlaw.blocks r.window).length + 1 = w ∨ r.blockNumber + 1 = blocks.length then .acking
      else .receiving }
  have hstart' := h.start_le
  refine ⟨r', ?_, ⟨hsize.trans h.size, ?_, hlt, ?_, ?_, ?_, ?_, fun hp => ?_, fun _ hp => ?_⟩,
    rfl, hlen, rfl, rfl⟩
  · simp [Receiver.receiveStep, Receiver.dataStep, expectedBlock_eq params.rollover _
      (show r.blockNumber + 1 < 65536 by omega), hadd, hfull, hshort', r']
  · show start ≤ r.blockNumber + 1
    omega
  · show (wlaw.blocks window).length ≤ r.blockNumber + 1
    omega
  · show wlaw.blocks window = (blocks.take (r.blockNumber + 1)).drop
      (r.blockNumber + 1 - (wlaw.blocks window).length)
    rw [hnum, hblocks, List.take_add_one, hdata, Option.toList_some,
      List.drop_append_of_le_length (by rw [List.length_take]; omega), ← h.held]
  · show write.file window = (blocks.take (r.blockNumber + 1 - (wlaw.blocks window).length)).flatten
    rw [hnum, hfile, h.file]
  · show decide (data.length < blockSize) = decide (start < r.blockNumber + 1 ∧ _)
    rw [decide_eq_decide, hshort']
    exact ⟨fun heq => ⟨by omega, heq⟩, fun hand => hand.2⟩
  · have hnot : ¬ ((wlaw.blocks r.window).length + 1 = w ∨ r.blockNumber + 1 = blocks.length) := by
      intro hack
      have hp' : r'.phase = .acking := if_pos hack
      rw [hp'] at hp
      cases hp
    rw [not_or] at hnot
    refine ⟨?_, ?_⟩
    · show decide (data.length < blockSize) = false
      rw [decide_eq_false_iff_not, hshort']
      exact hnot.2
    · show (wlaw.blocks window).length < w
      omega
  · have hp' : r'.phase = .acking ∨ r'.phase = .receiving := by
      show ite _ _ _ = _ ∨ ite _ _ _ = _
      split_ifs
      · exact .inl rfl
      · exact .inr rfl
    rcases hp' with hp' | hp' <;> rw [hp'] at hp <;> cases hp

theorem Receiver.Ok.accept (h : r.Ok wlaw blocks w start) (hphase : r.phase = .receiving)
    (hn : blocks.length < 65536)
    (hshort : ∀ i block, blocks[i]? = some block → (block.length < blockSize ↔ i + 1 = blocks.length))
    {data : List UInt8} (hdata : blocks[r.blockNumber]? = some data) :
    ∃ r', r.receiveStep write params blockSize false (.packet (.data (r.blockNumber + 1) data)) =
        (r', []) ∧ r'.Ok wlaw blocks w start ∧ r'.blockNumber = r.blockNumber + 1 ∧
      (wlaw.blocks r'.window).length = (wlaw.blocks r.window).length + 1 ∧
      r'.phase = if (wlaw.blocks r.window).length + 1 = w ∨ r.blockNumber + 1 = blocks.length then .acking
        else .receiving := by
  obtain ⟨r', hstep, haccepted, hnumber, hlen, hphase', hmode⟩ :=
    @h.accepted.accept _ _ _ _ params _ _ _ _ hphase hn hshort _ hdata
  refine ⟨r', hstep, haccepted.ok (fun outcome hp => ?_) hmode, hnumber, hlen, hphase'⟩
  rw [hphase'] at hp
  split_ifs at hp

/-- Any other block. -/
theorem Receiver.Ok.drop (h : r.Ok wlaw blocks w start)
    (hn : r.blockNumber + 1 < 65536) {block : Nat} (hblock : block ≠ r.blockNumber + 1)
    (data : List UInt8) :
    r.receiveStep write params blockSize false (.packet (.data block data)) =
        ({ r with nonblocking := true, listenAll := true, phase := .acking }, []) ∧
      Receiver.Ok wlaw blocks w start
        { r with nonblocking := true, listenAll := true, phase := .acking } := by
  refine ⟨?_, h.size, h.start_le, h.number_le, h.held_le, h.held, h.file, h.last, nofun, nofun, rfl⟩
  simp [Receiver.receiveStep, Receiver.dataStep, expectedBlock_eq params.rollover block hn, hblock]

/-- The socket is empty: the receiver goes back to blocking. -/
theorem Receiver.Ok.idle (h : r.Ok wlaw blocks w start)
    (hmode : r.nonblocking = true) :
    r.receiveStep write params blockSize false .wouldBlock =
        ({ r with nonblocking := false, listenAll := false }, []) ∧
      Receiver.Ok wlaw blocks w start { r with nonblocking := false, listenAll := false } := by
  refine ⟨?_, h.size, h.start_le, h.number_le, h.held_le, h.held, h.file, h.last, h.receiving,
    h.finished, rfl⟩
  simp [Receiver.receiveStep, h.mode, hmode]

/-- The acknowledgement, with everything accepted in the file. -/
theorem Receiver.Accepted.acknowledge (h : r.Accepted wlaw blocks w start) (hw : 0 < w) :
    ∃ r', r.ackStep write params = (r', List.replicate params.repeats (.ack r.blockNumber)) ∧
      r'.Accepted wlaw blocks w start ∧ r'.blockNumber = r.blockNumber ∧
      wlaw.blocks r'.window = [] ∧ r'.listenAll = r.listenAll ∧ r'.nonblocking = r.nonblocking ∧
      r'.phase ≠ .acking ∧ ∀ outcome, r'.phase = .finished outcome → ∃ result, outcome = .ok result := by
  obtain ⟨window, hempty, hblocks, hfile, hsize⟩ := wlaw.empty r.window
  let r' : Receiver W := { r with
    window
    phase := if r.last then .finished (.ok ⟨r.bytesReceived, r.hasher⟩) else .receiving }
  have hle := h.held_le
  refine ⟨r', by simp [Receiver.ackStep, hempty, r'], ⟨hsize.trans h.size, h.start_le, h.number_le, ?_,
    ?_, ?_, h.last, fun hp => ?_, fun result hp => ?_⟩, rfl, hblocks, rfl, rfl, ?_, fun outcome hp => ?_⟩
  · show (wlaw.blocks window).length ≤ r.blockNumber
    rw [hblocks]
    exact Nat.zero_le _
  · show wlaw.blocks window = (blocks.take r.blockNumber).drop
      (r.blockNumber - (wlaw.blocks window).length)
    rw [hblocks, List.length_nil, Nat.sub_zero]
    exact (List.drop_eq_nil_of_le (by rw [List.length_take]; omega)).symm
  · show write.file window = (blocks.take (r.blockNumber - (wlaw.blocks window).length)).flatten
    have hfront : blocks.take (r.blockNumber - (wlaw.blocks r.window).length) =
        (blocks.take r.blockNumber).take (r.blockNumber - (wlaw.blocks r.window).length) := by
      rw [List.take_take]
      congr 1
      omega
    have hheld : (wlaw.blocks r.window).flatten =
        ((blocks.take r.blockNumber).drop (r.blockNumber - (wlaw.blocks r.window).length)).flatten :=
      congrArg List.flatten h.held
    rw [hblocks, List.length_nil, Nat.sub_zero, hfile, h.file, hheld, hfront, ← List.flatten_append,
      List.take_append_drop]
  · have hlast : r.last = false := by
      cases hlast : r.last with
      | false => rfl
      | true => simp [r', hlast] at hp
    refine ⟨hlast, ?_⟩
    show (wlaw.blocks window).length < w
    rw [hblocks]
    exact hw
  · have hlast : r.last = true := by
      cases hlast : r.last with
      | true => rfl
      | false => simp [r', hlast] at hp
    exact ⟨hlast, hblocks⟩
  · show ite _ _ _ ≠ ReceivePhase.acking
    split_ifs <;> nofun
  · refine ⟨⟨r.bytesReceived, r.hasher⟩, ?_⟩
    cases hlast : r.last with
    | false => simp [r', hlast] at hp
    | true =>
      simp only [r', hlast, if_true, ReceivePhase.finished.injEq] at hp
      exact hp.symm

theorem Receiver.Ok.acknowledge (h : r.Ok wlaw blocks w start) (hw : 0 < w) :
    ∃ r', r.ackStep write params = (r', List.replicate params.repeats (.ack r.blockNumber)) ∧
      r'.Ok wlaw blocks w start ∧ r'.blockNumber = r.blockNumber ∧ wlaw.blocks r'.window = [] ∧
      r'.phase ≠ .acking := by
  obtain ⟨r', hstep, haccepted, hnumber, hnil, hlisten, hnonblocking, hphase, hok⟩ :=
    @h.accepted.acknowledge _ _ _ _ params _ _ _ hw
  exact ⟨r', hstep, haccepted.ok hok (by rw [hlisten, hnonblocking]; exact h.mode), hnumber, hnil, hphase⟩

/-- The start of `receive_file`, with nothing or the first block in the file. -/
theorem receiveFile_ok (wlaw : write.Lawful) {blocks : List (List UInt8)} {existing : List UInt8}
    (hw : 0 < params.windowSize) (hstart : start ≤ 1) (hblocks : start < blocks.length ∨ start = 1)
    (hexisting : start = 1 → blocks[0]? = some existing) :
    (receiveFile write params existing (start + 1)).Ok wlaw blocks params.windowSize start ∧
      (receiveFile write params existing (start + 1)).blockNumber = start ∧
      wlaw.blocks (receiveFile write params existing (start + 1)).window = [] := by
  have hnumber : wrappingSub (start + 1) 1 = start := by
    unfold wrappingSub
    omega
  have hnil := wlaw.new_blocks params.windowSize (if start + 1 ≤ 1 then [] else existing)
  have hfirst : start = 1 → 0 < blocks.length := fun h1 =>
    (List.getElem?_eq_some_iff.mp (hexisting h1)).1
  refine ⟨⟨wlaw.new_size _ _, hnumber.ge, ?_, ?_, ?_, ?_, ?_, fun _ => ⟨rfl, ?_⟩, nofun, rfl⟩, hnumber,
    hnil⟩
  · show wrappingSub (start + 1) 1 ≤ blocks.length
    rw [hnumber]
    omega
  · show (wlaw.blocks (write.new _ _)).length ≤ _
    rw [hnil]
    exact Nat.zero_le _
  · show wlaw.blocks (write.new _ _) = (blocks.take (wrappingSub (start + 1) 1)).drop
      (wrappingSub (start + 1) 1 - (wlaw.blocks (write.new _ _)).length)
    rw [hnil, List.length_nil, Nat.sub_zero]
    exact (List.drop_eq_nil_of_le (by rw [List.length_take]; omega)).symm
  · show write.file (write.new _ _) = (blocks.take (wrappingSub (start + 1) 1 -
      (wlaw.blocks (write.new _ _)).length)).flatten
    rw [hnil, List.length_nil, Nat.sub_zero, hnumber, wlaw.new_file]
    rcases Nat.le_one_iff_eq_zero_or_eq_one.mp hstart with rfl | rfl
    · simp
    · obtain ⟨hpos, hget⟩ := List.getElem?_eq_some_iff.mp (hexisting rfl)
      rw [List.take_one, List.head?_eq_getElem?, hexisting rfl]
      simp
  · have hnot : ¬ (start < wrappingSub (start + 1) 1 ∧
        wrappingSub (start + 1) 1 = blocks.length) := by
      rw [hnumber]
      omega
    exact (decide_eq_false hnot).symm
  · show (wlaw.blocks (write.new _ _)).length < params.windowSize
    rw [hnil]
    exact hw

end TauTerm.Tftp
