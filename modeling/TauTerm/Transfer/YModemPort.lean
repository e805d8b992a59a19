import Mathlib
import TauTerm.Transfer.XModemPort
import TauTerm.Transfer.YModem

/-!
# The YModem receiver on its port

`ymodem_receive` with every call that it makes, and that it stops on a dead port wherever it is.
What becomes of a block, and of the end of a file, is that of the machine.
-/

namespace TauTerm.Transfer.OnPort

open Lib Lib.Proc XModem YModem

/-! ## The program -/

/-- The window of a probe: a header or `none` when it is over, and `last_can`. -/
def probeWindow (lastCan : Bool) : Io (Option UInt8 × Bool) :=
  loop (fun lastCan => do
    stopIfCancelled
    if ← expired then pure (.inr (none, lastCan))
    else do
      match ← readByteWithTimeout with
      | some b =>
        if IsHeader b then pure (.inr (some b, lastCan))
        else if (detectCancel b lastCan).1 then throw (.ymodem .cancelledBySender)
        else pure (.inl (detectCancel b lastCan).2)
      | none => pure (.inl false)) lastCan

/-- `n` bytes, or `none` as soon as one does not come. -/
def readUpTo : Nat → Io (Option (List UInt8))
  | 0 => pure (some [])
  | n + 1 => do
    match ← readByteWithTimeout with
    | none => pure none
    | some b => do
      let bytes ← readUpTo n
      pure (bytes.map (b :: ·))

/-- The first block behind its header, or `none` where it is refused. -/
def readFirstBlock (header : UInt8) : Io (Option ReceivedBlock) := do
  match ← readUpTo 2 with
  | none => pure none
  | some numbers =>
    if Mismatch numbers then pure none
    else do
      match ← readUpTo (blockLength .crc16 header - 2) with
      | none => pure none
      | some rest =>
        let block := readBlock header (numbers ++ rest)
        if block.valid then pure (some block) else pure none

/-- The probes, `n` of them left. -/
def probes : Nat → Bool → Io (Option ReceivedBlock)
  | 0, _ => pure none
  | n + 1, lastCan => do
    stopIfCancelled
    put [wantCrc]
    let window ← probeWindow lastCan
    match window.1 with
    | none => if n = 0 then throw (.ymodem .startTimeout) else probes n window.2
    | some header => do
      match ← readFirstBlock header with
      | some block => do
        put [ack]
        pure (some block)
      | none => do
        put [nak]
        probes n false

/-- Write what a step of the machine answers with, and go on or return as it does. -/
def respond (next : YModem.Receiver × List UInt8) : Io (Batch ⊕ List BatchFileResult) := do
  putEach next.2
  match next.1.phase with
  | .finished none => pure (.inr next.1.batch.results)
  | .finished (some e) => throw (.ymodem e)
  | _ => pure (.inl next.1.batch)

/-- `'read_header`: an `EOT` is dealt with (`inl`), or there is a header. -/
def readBlockHeader (b : Batch) : Io (Batch ⊕ UInt8 × Batch) :=
  loop (fun b => do
    match ← readByteWithTimeout with
    | none => throw (.ymodem .blockTimeout)
    | some byte =>
      if IsHeader byte then pure (.inr (.inr (byte, b)))
      else if byte = eot then do
        flushPortBuffer
        put [ack]
        put [wantCrc]
        pure (.inr (.inl { b.endOfFile with lastCan := false }))
      else if (detectCancel byte b.lastCan).1 then throw (.ymodem .cancelledBySender)
      else pure (.inl { b with lastCan := (detectCancel byte b.lastCan).2 })) b

def readOr (timeout : YModemError) : Io UInt8 := do
  match ← readByteWithTimeout with
  | some b => pure b
  | none => throw (.ymodem timeout)

/-- The block is written to the current file. -/
def WritesBlock (b : Batch) (header : UInt8) (block : ReceivedBlock) : Prop :=
  block.valid ∧ ¬(block.number = 0 ∧ header ≠ stx) ∧ b.lastBlockNum ≠ some block.number ∧
    b.currentFile.isSome

instance (b : Batch) (header : UInt8) (block : ReceivedBlock) :
    Decidable (WritesBlock b header block) :=
  inferInstanceAs (Decidable (_ ∧ _ ∧ _ ∧ _))

/-- `file.write_all` of what is written of the block. -/
def storeBlock (b : Batch) (header : UInt8) (block : ReceivedBlock) : Io Unit :=
  if WritesBlock b header block then
    must (writeFile ((b.currentFile.map (·.payload block.data)).getD []))
  else pure ()

section Receive

variable (downloadDir : Path) (createFile : Path → Option String)

/-- A round of the outer loop. -/
def blockRound (b : Batch) : Io (Batch ⊕ List BatchFileResult) := do
  stopIfCancelled
  match ← readBlockHeader b with
  | .inl b => pure (.inl b)
  | .inr (header, b) => do
    let number ← readOr .numberTimeout
    let complement ← readOr .complementTimeout
    if number ≠ ~~~complement then do
      put [nak]
      pure (.inl b)
    else do
      let data ← readMany (readOr .dataTimeout) (blockSize header)
      let crc ← readMany (readOr .crcTimeout) 2
      let block := YModem.readBlock header (number :: complement :: data ++ crc)
      storeBlock b header block
      respond (b.block downloadDir createFile header block)

def ymodemReceive : Io (List BatchFileResult) := do
  createDirAll
  flushPortBuffer
  let b := YModem.ymodemReceive.1.batch
  match ← probes initCRetries b.lastCan with
  | none => loop (blockRound downloadDir createFile) b
  | some block => do
    match ← respond (b.firstBlock downloadDir createFile block) with
    | .inl b => loop (blockRound downloadDir createFile) b
    | .inr results => pure results

end Receive

/-! ## On a dead port -/

theorem probeWindow_halts (lastCan : Bool) : Halts OnDead (probeWindow lastCan) := by
  refine halts_loop (fun lastCan => ?_) (fun lastCan => ?_) lastCan
  · refine stopIfCancelled_halts.bind fun _ => (halts_ask _).bind fun late => ?_
    cases late with
    | true => exact halts_pure _
    | false =>
      refine readByte_halts.bind fun answer => ?_
      cases answer with
      | none => exact halts_pure _
      | some b =>
        dsimp only
        split_ifs <;> simp
  · refine Settles.afterCheck ?_
    refine (settles_ask (D := OnDead) PortCall.expired).bind fun late _ => ?_
    cases late with
    | true => exact settles_pure ⟨_, rfl⟩
    | false => exact readByte_fails.bind _

theorem readUpTo_halts (n : Nat) : Halts OnDead (readUpTo n) := by
  induction n with
  | zero => exact halts_pure _
  | succ n ih =>
    refine readByte_halts.bind fun answer => ?_
    cases answer with
    | none => exact halts_pure _
    | some b => exact ih.bind fun _ => halts_pure _

theorem readFirstBlock_halts (header : UInt8) : Halts OnDead (readFirstBlock header) := by
  refine (readUpTo_halts 2).bind fun numbers => ?_
  cases numbers with
  | none => exact halts_pure _
  | some numbers =>
    dsimp only
    split_ifs
    · exact halts_pure _
    · refine (readUpTo_halts _).bind fun rest => ?_
      cases rest with
      | none => exact halts_pure _
      | some rest =>
        dsimp only
        split_ifs <;> exact halts_pure _

theorem probes_halts (n : Nat) (lastCan : Bool) : Halts OnDead (probes n lastCan) := by
  induction n generalizing lastCan with
  | zero => exact halts_pure _
  | succ n ih =>
    refine stopIfCancelled_halts.bind fun _ => (put_halts _).bind fun _ =>
      (probeWindow_halts lastCan).bind fun window => ?_
    cases window.1 with
    | none =>
      dsimp only
      split_ifs
      · exact halts_throw _
      · exact ih _
    | some header =>
      refine (readFirstBlock_halts header).bind fun block => ?_
      cases block with
      | none => exact (put_halts _).bind fun _ => ih _
      | some block => exact (put_halts _).bind fun _ => halts_pure _

theorem respond_halts (next : YModem.Receiver × List UInt8) : Halts OnDead (respond next) :=
  (putEach_halts _).bind fun _ => by split <;> simp

theorem readBlockHeader_fails (b : Batch) : Fails OnDead (readBlockHeader b) :=
  Fails.loop (readByte_fails.bind _)

theorem readBlockHeader_halts (b : Batch) : Halts OnDead (readBlockHeader b) := by
  refine halts_loop_of_fails (fun b => ?_) (fun _ => readByte_fails.bind _) b
  refine readByte_halts.bind fun answer => ?_
  cases answer with
  | none => exact halts_throw _
  | some byte =>
    dsimp only
    split_ifs
    · exact halts_pure _
    · exact flushPortBuffer_halts.bind fun _ => (put_halts _).bind fun _ =>
        (put_halts _).bind fun _ => halts_pure _
    · exact halts_throw _
    · exact halts_pure _

theorem readOr_halts (timeout : YModemError) : Halts OnDead (readOr timeout) :=
  readByte_halts.bind fun b => by cases b <;> simp

theorem storeBlock_halts (b : Batch) (header : UInt8) (block : ReceivedBlock) :
    Halts OnDead (storeBlock b header block) := by
  unfold storeBlock
  split_ifs
  · exact must_halts (halts_ask _)
  · exact halts_pure _

section Receive

variable {downloadDir : Path} {createFile : Path → Option String}

theorem blockRound_fails (b : Batch) : Fails OnDead (blockRound downloadDir createFile b) :=
  Settles.afterCheck ((readBlockHeader_fails b).bind _)

theorem blockRound_halts (b : Batch) : Halts OnDead (blockRound downloadDir createFile b) := by
  refine stopIfCancelled_halts.bind fun _ => (readBlockHeader_halts b).bind fun r => ?_
  match r with
  | .inl b => exact halts_pure _
  | .inr (header, b) =>
    refine (readOr_halts _).bind fun number => (readOr_halts _).bind fun complement => ?_
    split_ifs
    · exact (put_halts _).bind fun _ => halts_pure _
    · refine (readMany_halts (readOr_halts _) _).bind fun data =>
        (readMany_halts (readOr_halts _) _).bind fun crc => ?_
      exact (storeBlock_halts _ _ _).bind fun _ => respond_halts _

/-- Wherever the YModem receiver is, it stops on a dead port. -/
theorem ymodemReceive_halts : Halts OnDead (ymodemReceive downloadDir createFile) := by
  have hloop : ∀ b, Halts OnDead (loop (blockRound downloadDir createFile) b) :=
    halts_loop_of_fails blockRound_halts blockRound_fails
  refine createDirAll_halts.bind fun _ => flushPortBuffer_halts.bind fun _ =>
    (probes_halts _ _).bind fun first => ?_
  cases first with
  | none => exact hloop _
  | some block =>
    refine (respond_halts _).bind fun r => ?_
    cases r with
    | inl b => exact hloop b
    | inr results => exact halts_pure _

end Receive

end TauTerm.Transfer.OnPort
