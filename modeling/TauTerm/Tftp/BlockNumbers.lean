import Mathlib
import TauTerm.Tftp.SendRuns

/-!
# Block numbers across the wrap

`send_file` counts from the base of its window and `receive_file` one by one. Under every
policy that allows the wrap both put the same number on a block (`blockNum`), and the
distance of an acknowledgement is that of the blocks. Under `Enforce1` there are only 65535
numbers, so an acknowledgement 65535 blocks ahead of the base has the number of the base.
-/

namespace TauTerm.Tftp

open Lib

/-- The number of the `k`-th block; `Enforce1` goes on with 1 behind 65535. -/
def blockNum (rollover : TftpRollover) (k : Nat) : Nat :=
  if rollover = .enforce1 then if k = 0 then 0 else (k - 1) % 65535 + 1 else k % 65536

theorem blockNum_lt (rollover : TftpRollover) (k : Nat) : blockNum rollover k < 65536 := by
  unfold blockNum
  split_ifs <;> omega

theorem blockNum_of_lt (rollover : TftpRollover) {k : Nat} (h : k < 65536) :
    blockNum rollover k = k := by
  unfold blockNum
  split_ifs <;> omega

variable {rollover : TftpRollover}

/-- The sender counts from its base. -/
theorem blockSeqTx_blockNum (hrollover : rollover ≠ .none) (pos : Nat) {index : Nat}
    (hindex : index < 65535) :
    blockSeqTx rollover (blockNum rollover pos) index = some (blockNum rollover (pos + index + 1)) := by
  cases rollover with
  | none => exact absurd rfl hrollover
  | enforce0 =>
    simp only [blockSeqTx, blockNum, wrappingAdd, reduceCtorEq, if_false]
    split_ifs <;> exact congrArg some (by omega)
  | dontCare =>
    simp only [blockSeqTx, blockNum, wrappingAdd, reduceCtorEq, if_false]
    split_ifs <;> exact congrArg some (by omega)
  | enforce1 =>
    simp only [blockSeqTx, blockNum, wrappingAdd, if_true]
    rw [if_neg (show pos + index + 1 ≠ 0 by omega)]
    by_cases hpos : pos = 0
    · rw [if_pos hpos, if_neg (by omega)]
      exact congrArg some (by omega)
    · rw [if_neg hpos]
      split_ifs <;> exact congrArg some (by omega)

/-- The receiver counts one by one. -/
theorem expectedBlock_blockNum (hrollover : rollover ≠ .none) (k : Nat) {received : Nat} :
    expectedBlock rollover (blockNum rollover k) received = some received ↔
      received = blockNum rollover (k + 1) := by
  have hlt := blockNum_lt rollover k
  have hsome : ∀ n : Nat, some n = some received ↔ received = n := fun n => by
    rw [Option.some.injEq]
    exact eq_comm
  by_cases hwrap : blockNum rollover k = 65535
  · have hzero : wrappingAdd (blockNum rollover k) 1 = 0 := by rw [hwrap]; rfl
    simp only [expectedBlock, hzero, if_true]
    cases rollover with
    | none => exact absurd rfl hrollover
    | enforce0 =>
      have hnext : blockNum .enforce0 (k + 1) = 0 := by
        simp only [blockNum, reduceCtorEq, if_false] at hwrap ⊢
        omega
      rw [hnext]
      exact hsome 0
    | dontCare =>
      have hnext : blockNum .dontCare (k + 1) = 0 := by
        simp only [blockNum, reduceCtorEq, if_false] at hwrap ⊢
        omega
      rw [hnext]
      exact hsome 0
    | enforce1 =>
      have hnext : blockNum .enforce1 (k + 1) = 1 := by
        simp only [blockNum, if_true] at hwrap ⊢
        rw [if_neg (Nat.succ_ne_zero k)]
        split_ifs at hwrap
        omega
      rw [hnext]
      dsimp only
      split_ifs with hreceived
      · rw [hreceived]
        decide
      · exact hsome 1
  · have hnext : wrappingAdd (blockNum rollover k) 1 = blockNum rollover (k + 1) := by
      rw [wrappingAdd, Nat.mod_eq_of_lt (by omega)]
      unfold blockNum at hwrap ⊢
      by_cases henforce : rollover = .enforce1
      · rw [if_pos henforce] at hwrap ⊢
        rw [if_pos henforce, if_neg (Nat.succ_ne_zero k)]
        by_cases hk : k = 0
        · rw [if_pos hk, hk]
        · rw [if_neg hk] at hwrap ⊢
          omega
      · rw [if_neg henforce] at hwrap ⊢
        rw [if_neg henforce]
        omega
    have hne : blockNum rollover (k + 1) ≠ 0 := by
      rw [← hnext, wrappingAdd, Nat.mod_eq_of_lt (by omega)]
      exact Nat.succ_ne_zero _
    simp only [expectedBlock, hnext, if_neg hne]
    exact hsome _

/-- The distance is that of the blocks, but for the one number that is its own successor. -/
theorem ackDiff_blockNum (hrollover : rollover ≠ .none) {pos j : Nat} (hlt : pos < j)
    (hle : j ≤ pos + 65535) :
    ackDiff rollover (blockNum rollover j) (blockNum rollover pos) =
      if rollover = .enforce1 ∧ 0 < pos ∧ j = pos + 65535 then 0 else j - pos := by
  cases rollover with
  | none => exact absurd rfl hrollover
  | enforce0 =>
    simp only [ackDiff, blockNum, wrappingSub, reduceCtorEq, if_false, and_false, false_and]
    omega
  | dontCare =>
    simp only [ackDiff, blockNum, wrappingSub, reduceCtorEq, if_false, and_false, false_and]
    omega
  | enforce1 =>
    simp only [ackDiff, blockNum, wrappingSub, if_true, and_true, true_and]
    rw [if_neg (show j ≠ 0 by omega)]
    by_cases hpos : pos = 0
    · simp only [hpos, if_true, lt_irrefl, false_and, if_false, Nat.not_lt_zero]
      omega
    · rw [if_neg hpos]
      split_ifs <;> omega

theorem ackDiff_self (base : Nat) (h : base < 65536) : ackDiff rollover base base = 0 := by
  rw [ackDiff_eq _ le_rfl h, Nat.sub_self]

/-! ## The receiver -/

/-- What happens next: one `recv`, or the acknowledgement. -/
inductive ReceiveEvent where
  | recv (abort : Bool) (received : Received)
  | acknowledge
  deriving DecidableEq

section Receiver

variable {W : Type} (write : WindowWrite W) (params : TftpDynamicParams) (blockSize : Nat)

def Receiver.step (r : Receiver W) : ReceiveEvent → Option (Receiver W)
  | .recv abort received =>
    match r.phase with
    | .receiving => some (r.receiveStep write params blockSize abort received).1
    | _ => none
  | .acknowledge =>
    match r.phase with
    | .acking => some (r.ackStep write params).1
    | _ => none

/-- The event brings the block that the receiver expects. -/
def Receiver.accepts (r : Receiver W) : ReceiveEvent → Bool
  | .recv false (.packet (.data blockNum _)) =>
    expectedBlock params.rollover r.blockNumber blockNum = some blockNum
  | _ => false

/-- Steps of a receiver, with the number of blocks that it has accepted. -/
def AcceptSteps (r : Receiver W × Nat) (event : ReceiveEvent) (r' : Receiver W × Nat) : Prop :=
  r.1.step write params blockSize event = some r'.1 ∧
    r'.2 = if r.1.accepts params event then r.2 + 1 else r.2

variable {write params blockSize}

/-- The number of the receiver is that of the block it took last. -/
def TakenNumbered (params : TftpDynamicParams) (r : Receiver W × Nat) : Prop :=
  r.1.blockNumber = blockNum params.rollover r.2

theorem TakenNumbered.step {r r' : Receiver W × Nat} {event : ReceiveEvent}
    (h : TakenNumbered params r) (hrollover : params.rollover ≠ .none)
    (hs : AcceptSteps write params blockSize r event r') : TakenNumbered params r' := by
  unfold TakenNumbered at h ⊢
  obtain ⟨r, k⟩ := r
  obtain ⟨r', k'⟩ := r'
  obtain ⟨hstep, rfl⟩ := hs
  have hkeep : r.accepts params event = false → r'.blockNumber = r.blockNumber →
      r'.blockNumber =
        blockNum params.rollover (if r.accepts params event then k + 1 else k) := fun hno hsame => by
    rw [if_neg (by rw [hno]; exact Bool.false_ne_true), hsame]
    exact h
  simp only at hstep h ⊢
  cases event with
  | acknowledge =>
    simp only [Receiver.step] at hstep
    split at hstep
    · cases hstep
      refine hkeep rfl ?_
      unfold Receiver.ackStep
      split <;> rfl
    · cases hstep
  | recv abort received =>
    simp only [Receiver.step] at hstep
    split at hstep
    · cases hstep
      unfold Receiver.receiveStep at hkeep ⊢
      cases abort with
      | true => exact hkeep rfl rfl
      | false =>
        rw [if_neg Bool.false_ne_true] at hkeep ⊢
        cases received with
        | packet packet =>
          cases packet with
          | data received data =>
            simp only at hkeep ⊢
            unfold Receiver.dataStep at hkeep ⊢
            by_cases haccepts : expectedBlock params.rollover r.blockNumber received = some received
            · have hnext := haccepts
              rw [h, expectedBlock_blockNum hrollover] at hnext
              have hyes : r.accepts params (.recv false (.packet (.data received data))) = true :=
                decide_eq_true haccepts
              rw [haccepts, hyes]
              simp only [if_true]
              rw [← hnext]
              split <;> rfl
            · have hno : r.accepts params (.recv false (.packet (.data received data))) = false :=
                decide_eq_false haccepts
              refine hkeep hno ?_
              split
              · rfl
              · rename_i expected hexpected
                rw [if_neg]
                rintro rfl
                exact haccepts hexpected
          | ack ack => exact hkeep rfl rfl
          | oack options => exact hkeep rfl rfl
          | error code msg => exact hkeep rfl rfl
        | connectionReset => exact hkeep rfl rfl
        | otherError => exact hkeep rfl rfl
        | wouldBlock =>
          refine hkeep rfl ?_
          simp only
          split_ifs <;> rfl
    · cases hstep

end Receiver

/-! ## The sender -/

section Sender

variable {R : Type} {read : WindowRead R} {params : TftpDynamicParams} {law : read.Lawful}
  {blocks : List (List UInt8)} {w pos : Nat} {s s' : Sender R}

/-- An acknowledgement that is looked at is one for a block of the window. -/
def ValidAck (read : WindowRead R) (params : TftpDynamicParams) (s : Sender R) (pos : Nat)
    (event : SendEvent) : Prop :=
  ∀ ack expired, event = .recv false expired .wouldBlock → s.phase = .collecting (some ack) →
    ∃ j, pos ≤ j ∧ j ≤ pos + (read.elements s.window).length ∧ ack = blockNum params.rollover j

/-- Steps of a sender that hears valid acknowledgements, with the number of blocks that it took
off its window. -/
def AckedSteps (read : WindowRead R) (params : TftpDynamicParams) (s : Sender R × Nat)
    (event : SendEvent) (s' : Sender R × Nat) : Prop :=
  SendSteps read params s.1 event s'.1 ∧ ValidAck read params s.1 s.2 event ∧
    s'.2 = s.2 + (s.1.rewind params event).getD 0

/-- The base of the window has the number of the block in front of it. -/
def Numbered (law : read.Lawful) (params : TftpDynamicParams) (blocks : List (List UInt8))
    (s : Sender R × Nat) : Prop :=
  s.1.Open → s.1.Held law blocks params.windowSize s.2 ∧
    s.1.blockSeqWin = blockNum params.rollover s.2

theorem TftpDynamicParams.windowSize_lt (params : TftpDynamicParams) : params.windowSize < 65536 := by
  have := params.windowsize.toNat_lt
  unfold TftpDynamicParams.windowSize
  omega

theorem open_of_step {event : SendEvent} (hs : SendSteps read params s event s') : s.Open := by
  intro outcome hphase
  unfold SendSteps Sender.step at hs
  cases event <;> simp [hphase] at hs

theorem Numbered.step {s s' : Sender R × Nat} {event : SendEvent}
    (h : Numbered law params blocks s) (hbounded : read.Bounded)
    (hrollover : params.rollover ≠ .none) (hs : AckedSteps read params s event s') :
    Numbered law params blocks s' := by
  obtain ⟨s, pos⟩ := s
  obtain ⟨s', pos'⟩ := s'
  obtain ⟨hstep, hvalid, hpos⟩ := hs
  simp only at hstep hvalid hpos
  subst hpos
  obtain ⟨hheld, hbase⟩ := h (open_of_step hstep)
  intro hopen
  simp only at hheld hbase ⊢
  cases hheld.cases hbounded hstep with
  | failed error hphase => exact absurd hphase (hopen _)
  | through amount _ _ _ hphase => exact absurd hphase (hopen _)
  | sent frame _ _ _ _ hsame hheld' _ => exact ⟨hheld', hsame.trans hbase⟩
  | quiet hrewind _ _ _ hsame hheld' _ =>
    rw [hrewind]
    exact ⟨hheld', hsame.trans hbase⟩
  | again amount hrewind hle _ _ _ hmoved hheld' _ =>
    rw [hrewind]
    refine ⟨hheld', ?_⟩
    obtain ⟨rfl, hsame⟩ | ⟨ack, expired, rfl, hphase, hpos, hdiff, hack⟩ := hmoved
    · exact hsame.trans hbase
    · -- the number acknowledged is that of the block behind which the window goes on
      have hlen := hheld.window.length
      have hwindow := params.windowSize_lt
      obtain ⟨j, hle, hj, rfl⟩ := hvalid ack expired rfl hphase
      rw [hbase] at hdiff
      rcases Nat.eq_or_lt_of_le hle with rfl | hlt
      · rw [ackDiff_self _ (blockNum_lt _ _)] at hdiff
        omega
      · rw [ackDiff_blockNum hrollover hlt (by omega)] at hdiff
        split_ifs at hdiff
        · omega
        · rw [hack]
          simp only [Option.getD_some]
          congr 1
          omega

end Sender

/-! ## Both sides -/

section Both

variable {R W : Type} {read : WindowRead R} {write : WindowWrite W} {params : TftpDynamicParams}
  {blockSize : Nat} {content existing : List UInt8}

theorem sendFile_numbered (law : read.Lawful) (hsize : 0 < blockSize) :
    Numbered law params (cut blockSize content) (sendFile read params blockSize content, 0) := by
  intro hopen
  by_cases hcontent : content = []
  · refine absurd ?_ (hopen (.ok ⟨0, some []⟩))
    simp [sendFile, hcontent, Sender.finish]
  · obtain ⟨hrun, hbase, -, -⟩ := @sendFile_running _ _ params law _ _ hsize hcontent
    have helements := hrun.elements
    have hrest := hrun.rest
    rw [hbase] at helements hrest
    have hzero : blockNum params.rollover 0 = 0 := blockNum_of_lt _ (by decide)
    exact ⟨⟨⟨hrun.size, helements, hrest, hrun.more, List.length_pos_of_ne_nil (cut_ne_nil _ _)⟩,
      hrun.idx⟩, hbase.trans hzero.symm⟩

/-- A receiver counts the blocks that it has accepted, and those that were there before. -/
theorem receiveFile_blockNumber (hrollover : params.rollover ≠ .none) {start : Nat}
    (hstart : 1 ≤ start) (hlt : start < 65536) {events : List ReceiveEvent} {r : Receiver W} {k : Nat}
    (hrun : Run (AcceptSteps write params blockSize)
      (receiveFile write params existing start, start - 1) events (r, k)) :
    r.blockNumber = blockNum params.rollover k := by
  have hfirst : TakenNumbered params (receiveFile write params existing start, start - 1) := by
    rw [TakenNumbered, blockNum_of_lt _ (by omega)]
    show wrappingSub start 1 = start - 1
    unfold wrappingSub
    omega
  have hnumbered : TakenNumbered params (r, k) :=
    hrun.invariant (fun _ _ _ h hs => TakenNumbered.step h hrollover hs) hfirst
  exact hnumbered

/-- **Block numbers across the wrap.** Whatever the two sides went through: the number on the
next block is the only one that a receiver takes that has accepted all blocks in front of it,
and an acknowledgement of a block in the window is at the distance of the block, but for one
that is 65535 blocks ahead under `Enforce1`. -/
theorem blockNumbers_agree (law : read.Lawful) (hbounded : read.Bounded)
    (hrollover : params.rollover ≠ .none) (hsize : 0 < blockSize) {events : List SendEvent}
    {s : Sender R} {pos : Nat}
    (hsend : Run (AckedSteps read params) (sendFile read params blockSize content, 0) events (s, pos))
    (hopen : s.Open) {receiver : TftpDynamicParams} (hpolicy : receiver.rollover = params.rollover)
    {size start : Nat} (hstart : 1 ≤ start) (hlt : start < 65536)
    {taken : List ReceiveEvent} {r : Receiver W} {k : Nat}
    (hreceive : Run (AcceptSteps write receiver size)
      (receiveFile write receiver existing start, start - 1) taken (r, k)) :
    (∀ frame, (read.elements s.window)[s.wrIdx]? = some frame →
      ∃ n, (s.sendStep read params false).2 = List.replicate params.repeats (.data n frame) ∧
        (cut blockSize content)[pos + s.wrIdx]? = some frame ∧
        (k = pos + s.wrIdx →
          ∀ x, expectedBlock receiver.rollover r.blockNumber x = some x ↔ x = n)) ∧
    (pos < k → k ≤ pos + (read.elements s.window).length →
      (ackDiff params.rollover r.blockNumber s.blockSeqWin = k - pos ↔
        ¬ (params.rollover = .enforce1 ∧ 0 < pos ∧ k = pos + 65535))) := by
  obtain ⟨hheld, hbase⟩ := hsend.invariant (fun _ _ _ h hs => h.step hbounded hrollover hs)
    (sendFile_numbered law hsize) hopen
  simp only at hheld hbase
  have hnumber := receiveFile_blockNumber (by rw [hpolicy]; exact hrollover) hstart hlt hreceive
  rw [hpolicy] at hnumber ⊢
  have hlen := hheld.window.length
  have hwindow := params.windowSize_lt
  refine ⟨fun frame hframe => ⟨blockNum params.rollover (pos + s.wrIdx + 1), ?_,
    hheld.frame hframe, fun hk x => ?_⟩, fun hpos hle => ?_⟩
  · have hidx : s.wrIdx < (read.elements s.window).length := (List.getElem?_eq_some_iff.mp hframe).1
    have hseq := blockSeqTx_blockNum hrollover pos (show s.wrIdx < 65535 by omega)
    rw [← hbase] at hseq
    unfold Sender.sendStep
    rw [if_neg Bool.false_ne_true, hframe]
    simp only [hseq]
    split_ifs
    · rfl
    · split <;> rfl
  · rw [hnumber, hk]
    exact expectedBlock_blockNum hrollover _
  · rw [hnumber, hbase, ackDiff_blockNum hrollover hpos (by omega)]
    split_ifs with hslip
    · exact iff_of_false (by omega) (not_not.mpr hslip)
    · exact iff_of_true rfl hslip

end Both

/-- The first block of two is through. -/
theorem blockNumbers_agree_second :
    ∃ (s : Sender ListRead) (r : Receiver ListWrite),
      (s.sendStep listRead {} false).2 = [.data 2 [3]] ∧
        ∀ x, expectedBlock .enforce0 r.blockNumber x = some x ↔ x = 2 := by
  let s₀ : Sender ListRead := ⟨⟨1, [[1, 2]], [[3]]⟩, true, 0, 0, 0, 0, [], true, .sending⟩
  let s₁ : Sender ListRead :=
    ⟨⟨1, [[1, 2]], [[3]]⟩, true, 0, 1, 2, 0, [1, 2], false, .collecting none⟩
  let s₂ : Sender ListRead :=
    ⟨⟨1, [[1, 2]], [[3]]⟩, true, 0, 1, 2, 0, [1, 2], true, .collecting (some 1)⟩
  let s₃ : Sender ListRead := ⟨⟨1, [[3]], []⟩, false, 1, 0, 2, 0, [1, 2], true, .sending⟩
  let r₀ := receiveFile listWrite {} [] 1
  let r₁ := (r₀.receiveStep listWrite {} 2 false (.packet (.data 1 [1, 2]))).1
  have hcut : cut 2 [(1 : UInt8), 2, 3] = [[1, 2], [3]] := by decide
  have hstart : sendFile listRead {} 2 [1, 2, 3] = s₀ := by
    simp [sendFile, listRead, hcut, TftpDynamicParams.windowSize, s₀]
  have hsend : Run (AckedSteps listRead {}) (sendFile listRead {} 2 [1, 2, 3], 0)
      [.send false, .recv false false (.packet (.ack 1)), .recv false false .wouldBlock] (s₃, 1) := by
    rw [hstart]
    have hdiff : ackDiff .enforce0 1 0 = 1 := by decide
    have hwindow : ({} : TftpDynamicParams).windowSize = 1 := by decide
    have h₁ : AckedSteps listRead {} (s₀, 0) (.send false) (s₁, 0) := ⟨rfl, (by intro _ _ h; cases h), rfl⟩
    have h₂ : AckedSteps listRead {} (s₁, 0) (.recv false false (.packet (.ack 1))) (s₂, 0) :=
      ⟨rfl, (by intro _ _ h; cases h), rfl⟩
    have h₃ : AckedSteps listRead {} (s₂, 0) (.recv false false .wouldBlock) (s₃, 1) :=
      ⟨by simp [SendSteps, Sender.step, Sender.collectStep, Sender.acknowledge, hdiff, hwindow, s₂, s₃, listRead],
        fun ack _ _ hphase => ⟨1, by decide, by decide, by cases hphase; rfl⟩,
        by simp [Sender.rewind, hdiff, hwindow, s₂]⟩
    exact .cons h₁ (.cons h₂ (.cons h₃ (.nil _)))
  have hreceive : Run (AcceptSteps listWrite {} 2) (r₀, 0)
      [.recv false (.packet (.data 1 [1, 2]))] (r₁, 1) := .cons ⟨rfl, rfl⟩ (.nil _)
  have hopen : s₃.Open := fun outcome hphase => by cases hphase
  obtain ⟨n, hpackets, -, hexpected⟩ := (blockNumbers_agree listRead_lawful listRead_bounded
    (by decide) (by decide) hsend hopen rfl le_rfl (by decide) hreceive).1 [3] rfl
  have hn : [Packet.data n [3]] = [.data 2 [3]] := hpackets.symm
  cases hn
  exact ⟨s₃, r₁, hpackets, hexpected rfl⟩

/-- The 65536 bytes of this file make 65537 blocks of one byte. -/
def longFile : List UInt8 := List.replicate 65536 0

def fullWindow : TftpDynamicParams := { windowsize := 65535, rollover := .enforce1 }

/-- A sender with more than one block in its window gets the first one through. -/
theorem exists_firstAcked {R : Type} {read : WindowRead R} {params : TftpDynamicParams}
    {law : read.Lawful} {blocks : List (List UInt8)} {s : Sender R}
    (hrollover : params.rollover ≠ .none) (h : s.Held law blocks params.windowSize 0)
    (hbase : s.blockSeqWin = 0) (hidx : s.wrIdx = 0) (hphase : s.phase = .sending)
    (hwindow : 1 < (read.elements s.window).length) (hblocks : 1 < blocks.length) :
    ∃ events s', Run (AckedSteps read params) (s, 0) events (s', 1) ∧ s'.Open := by
  obtain ⟨frame, hframe⟩ : ∃ frame, (read.elements s.window)[0]? = some frame :=
    ⟨_, List.getElem?_eq_getElem (by omega)⟩
  have hseq : blockSeqTx params.rollover 0 0 = some 1 := by
    have := blockSeqTx_blockNum hrollover 0 (show 0 < 65535 by decide)
    rwa [blockNum_of_lt _ (by decide), blockNum_of_lt _ (by decide)] at this
  have hdiff : ackDiff params.rollover 1 0 = 1 := by
    rw [ackDiff_eq _ (by decide) (by decide)]
  have hsize : 1 ≤ params.windowSize := params.windowSize_pos
  let s₁ : Sender R := { s with
    hasher := s.hasher ++ frame, bytesSent := s.bytesSent + frame.length, wrIdx := s.wrIdx + 1
    phase := .collecting none }
  let s₂ : Sender R := { s₁ with nonblocking := true, phase := .collecting (some 1) }
  have h₁ : AckedSteps read params (s, 0) (.send false) (s₁, 0) := by
    refine ⟨?_, (by intro _ _ h; cases h), rfl⟩
    simp [SendSteps, Sender.step, hphase, Sender.sendStep, hidx, hbase, hframe, hseq, hwindow, s₁]
  have h₂ : AckedSteps read params (s₁, 0) (.recv false false (.packet (.ack 1))) (s₂, 0) :=
    ⟨rfl, (by intro _ _ h; cases h), rfl⟩
  have hvalid : ValidAck read params s₂ 0 (.recv false false .wouldBlock) := by
    intro ack _ _ hack
    cases hack
    exact ⟨1, Nat.zero_le _, by rw [Nat.zero_add]; exact hwindow.le,
      (blockNum_of_lt _ (by decide)).symm⟩
  have hrewind : s₂.rewind params (.recv false false .wouldBlock) = some 1 := by
    simp [Sender.rewind, s₂, s₁, hbase, hdiff, hsize]
  obtain ⟨window, hremove, ⟨hend, -, -⟩ | ⟨hmore, more, filled, hfill, -⟩ | ⟨hmore, hne, -⟩⟩ :=
    h.window.remove hwindow.le
  · omega
  · let s₃ : Sender R := { s₂ with
      blockSeqWin := 1, more, window := filled, wrIdx := 0, phase := .sending }
    have h₃ : AckedSteps read params (s₂, 0) (.recv false false .wouldBlock) (s₃, 1) := by
      refine ⟨?_, hvalid, by rw [hrewind]; rfl⟩
      simp [SendSteps, Sender.step, Sender.collectStep, Sender.acknowledge, s₁, s₂, s₃, hbase, hdiff,
        hsize, hremove, hmore, hfill]
    exact ⟨_, s₃, .cons h₁ (.cons h₂ (.cons h₃ (.nil _))), (by intro _ h; cases h)⟩
  · let s₃ : Sender R := { s₂ with blockSeqWin := 1, window, wrIdx := 0, phase := .sending }
    have h₃ : AckedSteps read params (s₂, 0) (.recv false false .wouldBlock) (s₃, 1) := by
      refine ⟨?_, hvalid, by rw [hrewind]; rfl⟩
      simp [SendSteps, Sender.step, Sender.collectStep, Sender.acknowledge, s₁, s₂, s₃, hbase, hdiff,
        hsize, hremove, hmore, hne]
    exact ⟨_, s₃, .cons h₁ (.cons h₂ (.cons h₃ (.nil _))), (by intro _ h; cases h)⟩

/-- Behind the first block, the acknowledgement of the whole window is at distance 0. -/
theorem ackDiff_fullWindow :
    ∃ events s, Run (AckedSteps listRead fullWindow) (sendFile listRead fullWindow 1 longFile, 0)
        events (s, 1) ∧ s.Open ∧ 1 + 65535 ≤ 1 + (listRead.elements s.window).length ∧
      ackDiff .enforce1 (blockNum .enforce1 (1 + 65535)) s.blockSeqWin ≠ 1 + 65535 - 1 := by
  have hlen : longFile.length = 65536 := List.length_replicate
  have hcontent : longFile ≠ [] := List.ne_nil_of_length_pos (by omega)
  have hblocks : (cut 1 longFile).length = 65537 := by rw [length_cut, hlen]
  have hwindow : fullWindow.windowSize = 65535 := by decide
  obtain ⟨hrun, hbase, hidx, hphase⟩ :=
    @sendFile_running _ _ fullWindow listRead_lawful _ _ Nat.one_pos hcontent
  obtain ⟨hheld, -⟩ := @sendFile_numbered _ _ fullWindow _ longFile listRead_lawful Nat.one_pos
      fun outcome => by rw [hphase]; nofun
  have hfirst := hrun.length
  rw [hbase, hblocks, hwindow] at hfirst
  have hmore : 1 < (listRead.elements (sendFile listRead fullWindow 1 longFile).window).length := by
    omega
  obtain ⟨events, s, hsteps, hopen⟩ := exists_firstAcked (by decide) hheld hbase hidx hphase hmore
    (by omega)
  obtain ⟨hheld', hbase'⟩ := hsteps.invariant
    (fun _ _ _ h hs => Numbered.step h listRead_bounded (by decide) hs)
    (sendFile_numbered listRead_lawful Nat.one_pos) hopen
  have hlen' : (listRead.elements s.window).length = min 65535 (65537 - 1) := by
    rw [← hblocks, ← hwindow]
    exact hheld'.window.length
  refine ⟨events, s, hsteps, hopen, by omega, ?_⟩
  rw [show s.blockSeqWin = 1 from hbase']
  decide

end TauTerm.Tftp
