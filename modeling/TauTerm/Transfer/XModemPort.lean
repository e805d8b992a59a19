import Mathlib
import TauTerm.Transfer.PortIo
import TauTerm.Transfer.XModem

/-!
# The XModem receiver on its port

`xmodem_receive` with every call that it makes, and that it stops on a dead port wherever it is.
What a block is and what becomes of it is that of the machine.
-/

namespace TauTerm.Transfer.OnPort

open Lib Lib.Proc XModem

/-! ## The program -/

def readOrFail : Io UInt8 := do
  match ← readByteWithTimeout with
  | some b => pure b
  | none => throw (.text "读取超时：数据流中断")

/-- `n` bytes, each read by `one`. -/
def readMany (one : Io UInt8) : Nat → Io (List UInt8)
  | 0 => pure []
  | n + 1 => do
    let b ← one
    let bytes ← readMany one n
    pure (b :: bytes)

/-- `read_data_block` -/
def readBlockOf (mode : XModemCheckMode) (header : UInt8) : Io ReceivedBlock := do
  let bytes ← readMany readOrFail (blockLength mode header)
  pure (readDataBlock mode header bytes)

/-- The state of the main loop behind the first block. -/
def MainLoop.first (mode : XModemCheckMode) (block : ReceivedBlock) : MainLoop where
  checkMode := mode
  receivedData := block.data
  expectedBlockNum := nextBlockNum block.number
  lastReceivedBlockNum := some block.number

/-- The attempts in one mode; `inl` is `frame_started` when they are used up. -/
def attempts (mode : XModemCheckMode) : Nat → Bool → Io (Bool ⊕ MainLoop)
  | 0, frameStarted => pure (.inl frameStarted)
  | n + 1, frameStarted => do
    stopIfCancelled
    put [if frameStarted then nak else mode.initByte]
    match ← readByteWithTimeout with
    | none => attempts mode n frameStarted
    | some b =>
      if IsHeader b then do
        let block ← readBlockOf mode b
        if block.number ≠ ~~~block.numberComplement ∨ block.number ≠ 1 then attempts mode n true
        else if block.valid then do
          put [ack]
          pure (.inr (MainLoop.first mode block))
        else attempts mode n true
      else if b = can then throw (.text "发送方取消了传输")
      else attempts mode n frameStarted

/-- The loop over the modes. -/
def negotiate (attemptsPerMode : Nat) : List XModemCheckMode → Io MainLoop
  | [] => throw (.text "无法与发送方建立 XModem 连接。请确认发送方已启动 XModem 发送（如 sx --xmodem、sx -X）。")
  | mode :: later => do
    match ← attempts mode attemptsPerMode false with
    | .inr s => pure s
    | .inl true => do
      sendCancel
      throw (.text "XModem 首个数据块重试耗尽")
    | .inl false => negotiate attemptsPerMode later

/-- `'read_header` -/
def readHeader : Io UInt8 :=
  loop (fun timeoutCount => do
    match ← readByteWithTimeout with
    | some b =>
      if IsHeader b ∨ b = eot then pure (.inr b)
      else if b = can then throw (.text "发送方取消了传输")
      else pure (.inl timeoutCount)
    | none =>
      if maxRetries < timeoutCount + 1 then throw (.text "接收超时：发送方无响应")
      else do
        put [nak]
        pure (.inl (timeoutCount + 1))) 0

/-- The result of a step, or the message that ends the transfer. -/
def settle {α : Type} : Except String α → Io α
  | .ok a => pure a
  | .error message => throw (.text message)

/-- A round of the main loop. -/
def receiveRound (fileName : List Char) (s : MainLoop) : Io (MainLoop ⊕ List BatchFileResult) := do
  stopIfCancelled
  let header ← readHeader
  if header = eot then do
    put [ack]
    let saved ← saveFile s.receivedData
    let writeError := match saved with
      | .ok () => none
      | .error e => some e
    let result ← settle (s.finish fileName fun _ => writeError).result
    pure (.inr [result])
  else do
    let block ← readBlockOf s.checkMode header
    put (s.block block).2
    pure (.inl (s.block block).1)

def xmodemReceive (configured : XModemReceiveMode) (fileName : List Char) :
    Io (List BatchFileResult) := do
  createDirAll
  let s ← negotiate (attemptsPerMode (checkModes configured)) (checkModes configured)
  loop (receiveRound fileName) s

/-! ## On a dead port -/

@[simp] theorem readOrFail_halts : Halts OnDead readOrFail :=
  readByte_halts.bind fun b => by cases b <;> simp

theorem readMany_halts {one : Io UInt8} (h : Halts OnDead one) (n : Nat) :
    Halts OnDead (readMany one n) := by
  induction n with
  | zero => exact halts_pure _
  | succ n ih => exact h.bind fun _ => ih.bind fun _ => halts_pure _

@[simp] theorem readBlockOf_halts (mode : XModemCheckMode) (header : UInt8) :
    Halts OnDead (readBlockOf mode header) :=
  (readMany_halts readOrFail_halts _).bind fun _ => halts_pure _

theorem attempts_halts (mode : XModemCheckMode) (n : Nat) (frameStarted : Bool) :
    Halts OnDead (attempts mode n frameStarted) := by
  induction n generalizing frameStarted with
  | zero => exact halts_pure _
  | succ n ih =>
    refine stopIfCancelled_halts.bind fun _ => (put_halts _).bind fun _ => readByte_halts.bind ?_
    intro answer
    cases answer with
    | none => exact ih _
    | some b =>
      dsimp only
      split_ifs
      · refine (readBlockOf_halts mode b).bind fun block => ?_
        split_ifs
        · exact ih _
        · exact (put_halts _).bind fun _ => halts_pure _
        · exact ih _
      · exact halts_throw _
      · exact ih _

theorem negotiate_halts (attemptsPerMode : Nat) (modes : List XModemCheckMode) :
    Halts OnDead (negotiate attemptsPerMode modes) := by
  induction modes with
  | nil => exact halts_throw _
  | cons mode later ih =>
    refine (attempts_halts mode _ _).bind fun r => ?_
    match r with
    | .inr s => exact halts_pure _
    | .inl true => exact sendCancel_halts.bind fun _ => halts_throw _
    | .inl false => exact ih

theorem readHeader_fails : Fails OnDead readHeader := Fails.loop (readByte_fails.bind _)

theorem readHeader_halts : Halts OnDead readHeader := by
  refine halts_loop_of_fails (fun timeoutCount => ?_) (fun _ => readByte_fails.bind _) 0
  refine readByte_halts.bind fun answer => ?_
  cases answer with
  | none =>
    dsimp only
    split_ifs
    · exact halts_throw _
    · exact (put_halts _).bind fun _ => halts_pure _
  | some b =>
    dsimp only
    split_ifs <;> simp

theorem settle_halts {α : Type} (r : Except String α) : Halts OnDead (settle r) := by
  cases r <;> simp [settle]

theorem receiveRound_halts (fileName : List Char) (s : MainLoop) :
    Halts OnDead (receiveRound fileName s) := by
  refine stopIfCancelled_halts.bind fun _ => readHeader_halts.bind fun header => ?_
  split_ifs
  · refine (put_halts _).bind fun _ => (halts_ask _).bind fun saved => ?_
    exact (settle_halts _).bind fun _ => halts_pure _
  · exact (readBlockOf_halts _ _).bind fun _ => (put_halts _).bind fun _ => halts_pure _

/-- Wherever the XModem receiver is, it stops on a dead port. -/
theorem xmodemReceive_halts (configured : XModemReceiveMode) (fileName : List Char) :
    Halts OnDead (xmodemReceive configured fileName) :=
  createDirAll_halts.bind fun _ => (negotiate_halts _ _).bind fun s =>
    halts_loop_of_fails (receiveRound_halts fileName)
      (fun _ => Settles.afterCheck (readHeader_fails.bind _)) s

end TauTerm.Transfer.OnPort
