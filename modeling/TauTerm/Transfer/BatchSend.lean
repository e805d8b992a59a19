import Mathlib
import TauTerm.Lib.Prog
import TauTerm.Transfer.YModemDelivery
import TauTerm.Transfer.YModemMetadata
import TauTerm.Transfer.ZModemPort

/-!
# The senders of a batch

`ymodem_send` and `zmodem_send`, file by file. A block, an `EOT`, a frame or a wait is one call
here, answered with how it ended; reads of the files and the events reported are calls as well.
The totals of a batch, which only the progress callback gets, are left out.
-/

namespace TauTerm.Transfer.Batch

open Lib Lib.Proc YModem ZModem

inductive FileTransferEvent where
  | fileStart (fileName : List Char) (fileIndex totalFiles fileSize : Nat)
  | fileComplete (fileName : List Char) (fileIndex totalFiles bytesTransferred : Nat)
      (success : Bool) (error : Option String)
  deriving DecidableEq

inductive WaitResult where
  | wantCrc
  | wantChecksum
  | wantG
  | cancel
  deriving DecidableEq

/-- What `read_exact` answers. -/
inductive ReadExact where
  | full
  | unexpectedEof
  | error (message : String)
  deriving DecidableEq

/-- The calls of a sender; the index is that of the file in the batch. -/
inductive BatchCall where
  | cancel
  | report (event : FileTransferEvent)
  | sendCancel
  | drainRxBuffer
  | openFile (index : Nat)
  /-- The first wait of YModem, for the mode of the receiver: whether it streams. -/
  | awaitMode
  | waitForNakOrC
  | sendBlock0 (index filesLeft : Nat) (streaming : Bool)
  | readFile (index room : Nat)
  | sendBlock (index : Nat) (blockNum : UInt8) (data : List UInt8) (streaming : Bool)
  | sendEot (index : Nat)
  | sendEmptyBlock0
  /-- The first wait of ZModem, for `ZRINIT`: whether CRC-32 is used. -/
  | awaitZrinit
  | sendZfile (index : Nat)
  | readExact (index room : Nat)
  | sendZdata (index readSize : Nat) (frameend : UInt8)
  | sendHeader (frameType : UInt8) (position : Nat)
  | receiveFrame
  | sendOO
  deriving DecidableEq

def BatchCall.Answer : BatchCall → Type
  | .cancel => Bool
  | .report _ | .sendCancel | .drainRxBuffer => Unit
  | .awaitMode | .awaitZrinit => Except String Bool
  | .waitForNakOrC => Except String WaitResult
  | .readFile _ _ => Except String (List UInt8)
  | .readExact _ _ => ReadExact
  | .receiveFrame => Except String ZFrame
  | _ => Except String Unit

def batchIo : Interface := ⟨BatchCall, BatchCall.Answer⟩

abbrev Send (α : Type) : Type 1 := Proc batchIo String α

def perform (c : BatchCall) : Send c.Answer := ask (I := batchIo) c

/-- A result that is passed on with `?`. -/
def orFail {α : Type} : Except String α → Send α
  | .ok a => pure a
  | .error e => throw e

def report (event : FileTransferEvent) : Send Unit := perform (.report event)

/-- The check at the head of the loops. -/
def stopIfCancelled : Send Unit := do
  let cancelled ← perform .cancel
  match cancelled with
  | true => do
    let _ ← perform .sendCancel
    throw "传输已取消"
  | false => pure ()

section Files

variable (totalFiles index : Nat) (info : FileInfo)

/-- Report the end of a file and give its result. -/
def complete (sent : Nat) (success : Bool) (error : Option String) (result : BatchFileResult) :
    Send BatchFileResult := do
  report (.fileComplete info.name index totalFiles sent success error)
  pure result

/-- A failure: the bytes sent, the size in the result and the message. -/
def fail (sent size : Nat) (message : String) : Send BatchFileResult :=
  complete totalFiles index info sent false (some message) ⟨info.name, .failed, size, some message⟩

def succeed (sent : Nat) : Send BatchFileResult :=
  complete totalFiles index info sent true none ⟨info.name, .completed, info.size, none⟩

/-! ## YModem -/

/-- The wait between two files. -/
def syncFiles (streaming : Bool) : Send Bool :=
  if 0 < index then do
    let answer ← perform .waitForNakOrC
    let ready ← orFail answer
    match ready with
    | .wantG => pure true
    | .wantCrc | .wantChecksum => pure streaming
    | .cancel => throw "接收方取消了传输"
  else pure streaming

/-- The wait for the request of data blocks. -/
def awaitDataRequest (streaming : Bool) : Send Bool := do
  let answer ← perform .waitForNakOrC
  let ready ← orFail answer
  match ready with
  | .wantG => pure true
  | .wantCrc | .wantChecksum => pure streaming
  | .cancel => do
    let _ ← perform .sendCancel
    throw "接收方取消了传输"

/-- What follows a failure among the data blocks: `total_sent` is set to 0 and the loop left. -/
def giveUp (sent : Nat) (message : String) : Send (Nat × List BatchFileResult) := do
  let result ← fail totalFiles index info sent info.size message
  let _ ← perform .sendCancel
  let _ ← perform .drainRxBuffer
  pure (0, [result])

/-- A data block: the number of the next one and `total_sent`, or `total_sent` as it is behind the
loop, and the results given in it. -/
def blockRound (userBlockSize : Nat) (streaming : Bool) (s : UInt8 × Nat) :
    Send ((UInt8 × Nat) ⊕ (Nat × List BatchFileResult)) := do
  stopIfCancelled
  let blockSize := nextBlockSize userBlockSize (info.size - s.2)
  let answer ← perform (.readFile index blockSize)
  match answer with
  | .ok [] => pure (.inr (s.2, []))
  | .error e => do
    let ended ← giveUp totalFiles index info s.2 ("读取文件错误: " ++ e)
    pure (.inr ended)
  | .ok bytes => do
    let sent ← perform (.sendBlock index s.1 (fillBlock blockSize bytes) streaming)
    match sent with
    | .error e => do
      let ended ← giveUp totalFiles index info s.2 e
      pure (.inr ended)
    | .ok _ => pure (.inl (s.1 + 1, s.2 + bytes.length))

def afterEot (sent : Nat) : Except String Unit → Send BatchFileResult
  | .ok _ => succeed totalFiles index info sent
  | .error e => fail totalFiles index info sent info.size e

/-- `EOT`, unless `total_sent` is 0 for a file that is not empty. -/
def finishFile (sent : Nat) (results : List BatchFileResult) : Send (List BatchFileResult) :=
  if sent = 0 ∧ 0 < info.size then pure results
  else do
    let eot ← perform (.sendEot index)
    let result ← afterEot totalFiles index info sent eot
    pure (results ++ [result])

/-- A file from block 0 on. -/
def sendOpened (userBlockSize remaining : Nat) (streaming : Bool) :
    Send (Bool × List BatchFileResult) := do
  let sent ← perform (.sendBlock0 index remaining streaming)
  match sent with
  | .error e => do
    let result ← fail totalFiles index info 0 info.size e
    pure (streaming, [result])
  | .ok _ => do
    let streaming ← awaitDataRequest streaming
    let ended ← loop (blockRound totalFiles index info userBlockSize streaming) (1, 0)
    let results ← finishFile totalFiles index info ended.1 ended.2
    pure (streaming, results)

/-- One file of `ymodem_send`: whether the receiver streams from now on, and the results. -/
def sendFile (userBlockSize remaining : Nat) (streaming : Bool) :
    Send (Bool × List BatchFileResult) := do
  stopIfCancelled
  let streaming ← syncFiles index streaming
  report (.fileStart info.name index remaining info.size)
  let opened ← perform (.openFile index)
  match opened with
  | .error e => do
    let result ← fail totalFiles index info 0 0 ("无法打开文件: " ++ e)
    pure (streaming, [result])
  | .ok _ => sendOpened totalFiles index info userBlockSize remaining streaming

end Files

/-- The files from `index` on; each one takes one off the remaining files. -/
def sendFiles (userBlockSize totalFiles : Nat) :
    List FileInfo → Nat → Nat → Bool → Send (List BatchFileResult)
  | [], _, _, _ => pure []
  | info :: files, index, remaining, streaming => do
    let sent ← sendFile totalFiles index info userBlockSize remaining streaming
    let later ← sendFiles userBlockSize totalFiles files (index + 1) (remaining - 1) sent.1
    pure (sent.2 ++ later)

def ymodemSend (blockSize : Nat) (files : List FileInfo) : Send (List BatchFileResult) := do
  let answer ← perform .awaitMode
  let streaming ← orFail answer
  let results ← sendFiles (max 128 (min blockSize 1024)) files.length files 0 files.length streaming
  let _ ← perform .sendEmptyBlock0
  pure results

/-! ## ZModem -/

@[match_pattern] def znak : UInt8 := 6

/-- How a file of `zmodem_send` ends: with a result, or with the batch as a whole (`ZFIN`). -/
inductive FileEnd where
  | next (result : BatchFileResult)
  | early (result : BatchFileResult)
  deriving DecidableEq

/-- What is made of the answer to `ZFILE`. -/
inductive FileAnswer where
  | go
  | skip
  | stop
  | silent (error : String)
  deriving DecidableEq

def fileAnswer : Except String ZFrame → FileAnswer
  | .ok (.header frameType _) =>
    if frameType = OnPort.zskip then .skip
    else if frameType = zcan then .stop
    else .go
  | .ok .cancel => .stop
  | .ok (.data ..) => .go
  | .error e => .silent e

/-- What is made of the answer to the last data frame. -/
inductive DataAnswer where
  | sent
  | again (halve : Bool)
  | stop
  deriving DecidableEq

def dataAnswer : Except String ZFrame → DataAnswer
  | .ok (.header frameType _) =>
    if frameType = OnPort.zack then .sent
    else if frameType = znak then .again true
    else if frameType = zcan then .stop
    else .again false
  | .ok .cancel => .stop
  | _ => .again false

/-- What is made of the answer to `ZEOF`. -/
inductive EofAnswer where
  | next
  | finish
  | stop
  deriving DecidableEq

def eofAnswer : Except String ZFrame → EofAnswer
  | .ok (.header frameType _) =>
    if frameType = OnPort.zfin then .finish
    else if frameType = zcan then .stop
    else .next
  | .ok .cancel => .stop
  | _ => .next

/-- Whether the answer to `ZFIN` ends the exchange. -/
def finAnswer : Except String ZFrame → Except String Bool
  | .ok (.header frameType _) =>
    if frameType = OnPort.zfin then .ok true
    else if frameType = zcan then .error "接收方取消了传输"
    else .ok false
  | .ok .cancel => .error "接收方取消了传输"
  | _ => .ok false

def defaultBlockSize : Nat := 1024
def maxRetries : Nat := 10

structure Sending where
  totalSent : Nat
  blockSize : Nat
  consecutiveOk : Nat
  deriving DecidableEq

/-- The next block size after a block that went through. -/
def Sending.advance (s : Sending) (maxBlockSize readSize : Nat) : Sending :=
  if 2 ≤ s.consecutiveOk + 1 ∧ s.blockSize < maxBlockSize then
    ⟨s.totalSent + readSize, min (s.blockSize * 2) maxBlockSize, 0⟩
  else ⟨s.totalSent + readSize, s.blockSize, s.consecutiveOk + 1⟩

section Files

variable (totalFiles index : Nat) (info : FileInfo)

/-- The attempts of a data frame, `n` of them left: whether it went through. -/
def sendZdata (readSize : Nat) (frameend : UInt8) : Nat → Sending → Send (Bool × Sending)
  | 0, s => pure (false, s)
  | n + 1, s => do
    stopIfCancelled
    let written ← perform (.sendZdata index readSize frameend)
    let _ ← orFail written
    if frameend = zcrcw then do
      let frame ← perform .receiveFrame
      match dataAnswer frame with
      | .sent => pure (true, s)
      | .stop => throw "接收方取消了传输"
      | .again true => sendZdata readSize frameend n ⟨s.totalSent, max (s.blockSize / 2) 512, 0⟩
      | .again false => sendZdata readSize frameend n s
    else pure (true, s)

/-- What follows the read of a block. -/
def sendRead (maxBlockSize readSize : Nat) (s : Sending) :
    Send (Sending ⊕ (Nat ⊕ BatchFileResult)) := do
  let frameend := if info.size ≤ s.totalSent + readSize then zcrcw else zcrcg
  let sent ← sendZdata index readSize frameend maxRetries s
  if sent.1 then pure (.inl (sent.2.advance maxBlockSize readSize))
  else do
    let result ← fail totalFiles index info s.totalSent info.size
      s!"数据块传输失败（{s.totalSent} 字节处）"
    pure (.inr (.inr result))

/-- A round of the data loop; behind it is `total_sent`, or the result of a failure. -/
def dataRound (maxBlockSize : Nat) (s : Sending) : Send (Sending ⊕ (Nat ⊕ BatchFileResult)) :=
  if info.size ≤ s.totalSent then pure (.inr (.inl s.totalSent))
  else do
    stopIfCancelled
    let readSize := min s.blockSize (info.size - s.totalSent)
    let answer ← perform (.readExact index readSize)
    match answer with
    | .error e => do
      let result ← fail totalFiles index info s.totalSent info.size ("读取文件错误: " ++ e)
      let _ ← perform .sendCancel
      pure (.inr (.inr result))
    | .full | .unexpectedEof => sendRead totalFiles index info maxBlockSize readSize s

/-- `ZEOF` and what the receiver says to it. -/
def endFile (totalSent : Nat) : Send FileEnd := do
  let written ← perform (.sendHeader OnPort.zeof totalSent)
  let _ ← orFail written
  let frame ← perform .receiveFrame
  match eofAnswer frame with
  | .stop => throw "接收方取消了传输"
  | .finish => do
    let result ← succeed totalFiles index info totalSent
    pure (.early result)
  | .next => do
    let result ← succeed totalFiles index info totalSent
    pure (.next result)

def sendData (maxBlockSize : Nat) : Send FileEnd := do
  let ended ← loop (dataRound totalFiles index info maxBlockSize) ⟨0, defaultBlockSize, 0⟩
  match ended with
  | .inr result => pure (.next result)
  | .inl totalSent => endFile totalFiles index info totalSent

/-- One file of `zmodem_send`. -/
def zsendFile (maxBlockSize : Nat) : Send FileEnd := do
  stopIfCancelled
  report (.fileStart info.name index totalFiles info.size)
  let opened ← perform (.openFile index)
  match opened with
  | .error e => do
    let result ← fail totalFiles index info 0 0 ("无法打开文件: " ++ e)
    pure (.next result)
  | .ok _ => do
    let written ← perform (.sendZfile index)
    let _ ← orFail written
    let frame ← perform .receiveFrame
    match fileAnswer frame with
    | .stop => throw "接收方取消了传输"
    | .skip => do
      let result ← complete totalFiles index info 0 true none ⟨info.name, .skipped, 0, none⟩
      pure (.next result)
    | .silent e => do
      let result ← fail totalFiles index info 0 info.size ("接收方无响应: " ++ e)
      pure (.next result)
    | .go => sendData totalFiles index info maxBlockSize

end Files

/-- The files behind a batch that the receiver ended. -/
def skipped (files : List FileInfo) : List BatchFileResult :=
  files.map fun info => ⟨info.name, .skipped, 0, some "批次提前终止"⟩

/-- The files from `index` on; `true` when the receiver has ended the batch. -/
def zsendFiles (maxBlockSize totalFiles : Nat) :
    List FileInfo → Nat → Send (Bool × List BatchFileResult)
  | [], _ => pure (false, [])
  | info :: files, index => do
    let ended ← zsendFile totalFiles index info maxBlockSize
    match ended with
    | .early result => pure (true, result :: skipped files)
    | .next result => do
      let later ← zsendFiles maxBlockSize totalFiles files (index + 1)
      pure (later.1, result :: later.2)

/-- The exchange of `ZFIN`, with `n` attempts left. -/
def exchangeZfin : Nat → Send Unit
  | 0 => pure ()
  | n + 1 => do
    stopIfCancelled
    let written ← perform (.sendHeader OnPort.zfin 0)
    let _ ← orFail written
    let frame ← perform .receiveFrame
    let finished ← orFail (finAnswer frame)
    if finished then pure () else exchangeZfin n

/-- The end of a batch that the receiver ended: one exchange, whatever comes of it. -/
def finishEarly : Send Unit := do
  let written ← perform (.sendHeader OnPort.zfin 0)
  let _ ← orFail written
  let _ ← perform .receiveFrame
  pure ()

def finishBatch (early : Bool) : Send Unit :=
  if early then finishEarly else exchangeZfin maxRetries

def zmodemSend (maxBlockSize : Nat) (files : List FileInfo) : Send (List BatchFileResult) :=
  if files = [] then throw "没有要发送的文件"
  else do
    let answer ← perform .awaitZrinit
    let _ ← orFail answer
    let sent ← zsendFiles maxBlockSize files.length files 0
    finishBatch sent.1
    let written ← perform .sendOO
    let _ ← orFail written
    pure sent.2

end TauTerm.Transfer.Batch
