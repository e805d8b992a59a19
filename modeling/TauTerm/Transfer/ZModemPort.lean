import Mathlib
import TauTerm.Transfer.PortIo
import TauTerm.Transfer.ZModem

/-!
# The ZModem receiver on its port

`zmodem_receive` with every call that it makes, the reader of frames included. In a session it
stops on a dead port wherever it is; in the wait for `ZRQINIT`, where the error of a frame is
logged and the wait goes on, it never does.
-/

namespace TauTerm.Transfer.OnPort

open Lib Lib.Proc ZModem
open YModem (OpenFile parseU64)

@[match_pattern] def zsinit : UInt8 := 2
@[match_pattern] def zack : UInt8 := 3
@[match_pattern] def zskip : UInt8 := 5
@[match_pattern] def zabort : UInt8 := 7
@[match_pattern] def zfin : UInt8 := 8
@[match_pattern] def zrpos : UInt8 := 9
@[match_pattern] def zeof : UInt8 := 11
@[match_pattern] def zferr : UInt8 := 12

/-! ## Frames -/

def readByteRequired (context : String) : Io UInt8 := do
  match ← readByteWithTimeout with
  | some b => pure b
  | none => throw (.text s!"{context}: 超时")

/-- The first `ZPAD`; `true` for two `CAN` in a row. -/
def awaitPad : Io Bool :=
  loop (fun _ => do
    match ← readByteWithTimeout with
    | none => throw (.text "接收帧超时")
    | some b =>
      if b = zpad then pure (.inr false)
      else if b = can then do
        let b2 ← readByteWithTimeout
        pure (if b2 = some can then .inr true else .inl ())
      else pure (.inl ())) ()

/-- The second `ZPAD`; `true` for a cancel instead. -/
def secondPad : Io Bool := do
  match ← readByteWithTimeout with
  | none => throw (.text "帧头格式错误：第二个字节超时")
  | some b =>
    if b = zpad then pure false
    else if b = can then do
      let b2 ← readByteWithTimeout
      if b2 = some can then pure true
      else throw (.text "帧头格式错误：第二个字节不是 ZPAD")
    else throw (.text "帧头格式错误：第二个字节不是 ZPAD")

/-- Read and drop a byte for each context. -/
def skipBytes : List String → Io Unit
  | [] => pure ()
  | context :: contexts => do
    let _ ← readByteRequired context
    skipBytes contexts

/-- The checksum of a header is not compared. -/
def headerCrcContexts (useCrc32 : Bool) : List String :=
  if useCrc32 then ["hdr crc[0]", "hdr crc[1]", "hdr crc[2]", "hdr crc[3]"]
  else ["hdr crc[0]", "hdr crc[1]"]

def receivePayload (useCrc32 : Bool) (frameType : UInt8) : Io ZFrame :=
  loop (fun rawData => do
    let b ← readByteRequired "数据字节"
    if b = zdle then do
      let next ← readByteRequired "ZDLE 转义"
      pure (
        if isFrameEnd next then .inr (closeFrame useCrc32 frameType rawData next)
        else if next = zcan then .inr .cancel
        else .inl (rawData ++ [next ^^^ 0x40]))
    else pure (.inl (rawData ++ [b]))) []

def receiveBinaryFrame (bin : UInt8) : Io ZFrame := do
  let useCrc32 := bin = zbin32
  let frameType ← readByteRequired "帧类型"
  let b0 ← readByteRequired "帧头字节 0"
  let b1 ← readByteRequired "帧头字节 1"
  let b2 ← readByteRequired "帧头字节 2"
  let b3 ← readByteRequired "帧头字节 3"
  skipBytes (headerCrcContexts useCrc32)
  if frameType = zdata ∨ frameType = zfile then receivePayload useCrc32 frameType
  else pure (.header frameType ⟨b0, b1, b2, b3⟩)

/-- The hexadecimal digits among at most `n` bytes, up to a line feed. -/
def readHexDigits : Nat → Io (List UInt8)
  | 0 => pure []
  | n + 1 => do
    let b ← readByteRequired "hex frame byte"
    if b = lf then pure []
    else if b = cr then readHexDigits n
    else if isHexDigit b then do
      let digits ← readHexDigits n
      pure (b :: digits)
    else readHexDigits n

def receiveHexFrame : Io ZFrame := do
  match ← readHexDigits 20 with
  | t1 :: t0 :: a1 :: a0 :: b1 :: b0 :: c1 :: c0 :: d1 :: d0 :: _ =>
    pure (.header (fromHex t1 t0) ⟨fromHex a1 a0, fromHex b1 b0, fromHex c1 c0, fromHex d1 d0⟩)
  | _ => throw (.text "ZHEX 帧数据不完整")

def receiveBinaryKind : Io ZFrame := do
  match ← readByteWithTimeout with
  | none => throw (.text "二进制帧子类型超时")
  | some bin =>
    if bin = zbin ∨ bin = zbin32 then receiveBinaryFrame bin
    else if bin = zcan then pure .cancel
    else throw (.text s!"未知二进制帧子类型: 0x{hexText bin}")

def receiveKind : Io ZFrame := do
  match ← readByteWithTimeout with
  | none => throw (.text "帧类型字节超时")
  | some kind =>
    if kind = zdle then receiveBinaryKind
    else if kind = zhex then receiveHexFrame
    else throw (.text s!"未知帧类型: 0x{hexText kind}")

def receiveFrame : Io ZFrame := do
  if ← awaitPad then pure .cancel
  else do
    if ← secondPad then pure .cancel else receiveKind

def sendBinaryHeaderOn (frameType : UInt8) (hdr : HeaderBytes) (useCrc32 : Bool) : Io Unit := do
  writeAll [zpad, zpad, zdle, binType useCrc32]
  writeAll [frameType]
  writeAll hdr.toList
  writeAll (headerCrc useCrc32 frameType hdr)
  flush

/-! ## The wait for `ZRQINIT` -/

/-- What the wait makes of a frame, or of its error. -/
def afterFrame : Except TransferError ZFrame → Io (Unit ⊕ Unit)
  | .ok (.header frameType _) =>
    if frameType = zrqinit ∨ frameType = zsinit then pure (.inr ())
    else if frameType = zcan then throw (.text "发送方取消了传输")
    else pure (.inl ())
  | .ok .cancel => throw (.text "发送方取消了传输")
  | .ok (.data ..) => pure (.inl ())
  | .error _ => pure (.inl ())

def awaitRound (_ : Unit) : Io (Unit ⊕ Unit) := do
  stopIfCancelled
  let frame ← attempt receiveFrame
  afterFrame frame

def awaitZrqinit : Io Unit := loop awaitRound ()

/-! ## The session -/

def parseZfileName (data : List UInt8) : List Char :=
  fromUtf8Lossy (data.takeWhile (· != 0))

def parseZfileSize (data : List UInt8) : Nat :=
  (parseU64 (((data.dropWhile (· != 0)).drop 1).takeWhile fun b => b != 0x20 && b != 0)).getD 0

structure Session where
  currentFile : Option OpenFile
  results : List BatchFileResult
  deriving DecidableEq

namespace Session

/-- The current file, if there is one, is left with a result. -/
def close (s : Session) (result : OpenFile → BatchFileResult) : Session where
  currentFile := none
  results := s.results ++ s.currentFile.toList.map result

def complete (s : Session) : Session :=
  s.close fun f => ⟨f.name, .completed, f.written.length, none⟩

end Session

/-- What is written of a data frame. -/
def zdataPayload (f : OpenFile) (data : List UInt8) : List UInt8 :=
  if 0 < f.totalSize then data.take (f.totalSize - f.written.length) else data

/-- The position of a file as flags, the low byte first. -/
def positionFlags (n : Nat) : HeaderBytes :=
  ⟨UInt8.ofNat n, UInt8.ofNat (n / 2 ^ 8), UInt8.ofNat (n / 2 ^ 16), UInt8.ofNat (n / 2 ^ 24)⟩

def rinitFlags (useCrc32 : Bool) : HeaderBytes :=
  ⟨0, 0, 0, (if useCrc32 then canfc32 else 0) ||| canfdx⟩

section Session

variable (downloadDir : Path) (useCrc32 : Bool)

def onZfile (s : Session) (data : List UInt8) : Io Session := do
  let s := s.complete
  let name := parseZfileName data
  match ← createFile (downloadDir.join (Path.new name)) with
  | .ok () => do
    sendBinaryHeaderOn zrpos .zero useCrc32
    pure { s with currentFile := some ⟨name, parseZfileSize data, []⟩ }
  | .error _ => do
    sendBinaryHeaderOn zskip .zero useCrc32
    pure s

def onZdata (s : Session) (data : List UInt8) (frameend : UInt8) : Io Session :=
  match s.currentFile with
  | none => pure s
  | some f => do
    let payload := zdataPayload f data
    match ← writeFile payload with
    | .error e => do
      sendBinaryHeaderOn zferr .zero useCrc32
      pure (s.close fun f => ⟨f.name, .failed, f.written.length, some ("写入文件错误: " ++ e)⟩)
    | .ok () => do
      let f := { f with written := f.written ++ payload }
      if frameend = zcrcw ∨ frameend = zcrcq then do
        sendBinaryHeaderOn zack (positionFlags f.written.length) useCrc32
        pure { s with currentFile := some f }
      else pure { s with currentFile := some f }

/-- Wait for `OO`, with `n` reads left. -/
def awaitOO : Nat → Bool → Io Unit
  | 0, _ => pure ()
  | n + 1, gotO => do
    match ← readByteWithTimeout with
    | some 0x4F => if gotO then pure () else awaitOO n true
    | _ => if gotO then pure () else awaitOO n gotO

/-- A header in the session; `inr` ends it. -/
def onHeader (s : Session) (frameType : UInt8) : Io (Session ⊕ List BatchFileResult) :=
  if frameType = zeof then do
    sendBinaryHeaderOn zrinit (rinitFlags useCrc32) useCrc32
    pure (.inl s.complete)
  else if frameType = zfin then do
    sendBinaryHeaderOn zfin .zero useCrc32
    awaitOO 100 false
    pure (.inr s.complete.results)
  else if frameType = zabort ∨ frameType = zcan then
    pure (.inr (s.close fun f => ⟨f.name, .failed, 0, some "发送方中止了传输"⟩).results)
  else if frameType = zskip then
    pure (.inl (s.close fun f => ⟨f.name, .skipped, f.written.length, none⟩))
  else if frameType = zferr then
    pure (.inl (s.close fun f => ⟨f.name, .failed, f.written.length, some "发送方文件错误"⟩))
  else pure (.inl s)

def sessionRound (s : Session) : Io (Session ⊕ List BatchFileResult) := do
  stopIfCancelled
  match ← receiveFrame with
  | .data frameType data frameend _ =>
    if frameType = zfile then do
      let s ← onZfile downloadDir useCrc32 s data
      pure (.inl s)
    else do
      let s ← onZdata useCrc32 s data frameend
      pure (.inl s)
  | .header frameType _ => onHeader useCrc32 s frameType
  | .cancel =>
    pure (.inr (s.close fun f => ⟨f.name, .failed, f.written.length, some "传输已取消"⟩).results)

/-- The session behind the wait. -/
def session : Io (List BatchFileResult) := do
  put (sendHexHeader zrinit (rinitFlags useCrc32))
  loop (sessionRound downloadDir useCrc32) ⟨none, []⟩

def zmodemReceive : Io (List BatchFileResult) := do
  createDirAll
  awaitZrqinit
  session downloadDir useCrc32

end Session

/-! ## On a dead port -/

/-- A byte that is awaited is not read any more, whatever is made of its absence. -/
theorem collapses_readByte {α : Type} {P : α → Prop} {f : Option UInt8 → Io α}
    (hf : ∀ b, Collapses OnDead P (f b)) (hnone : Settles OnDead P (f none)) :
    Collapses OnDead P (readByteWithTimeout >>= f) :=
  readByte_collapses.bind hf fun b hb => by
    subst hb
    exact hnone

abbrev NeverReturns {α : Type} (x : Io α) : Prop := Collapses OnDead (fun _ => False) x

section Frames

variable {α : Type}

/-- Before its end a program that only reads on cannot return any more. -/
theorem NeverReturns.bind {β : Type} {x : Io α} {f : α → Io β} (hx : NeverReturns x)
    (hf : ∀ a, NeverReturns (f a)) : NeverReturns (x >>= f) :=
  Collapses.bind hx hf fun _ h => h.elim

theorem readByteRequired_never (context : String) : NeverReturns (readByteRequired context) :=
  collapses_readByte (fun b => by
    cases b with
    | none => exact collapses_throw _
    | some b => exact collapses_pure _) (settles_throw _)

theorem readByteRequired_fails (context : String) : Fails OnDead (readByteRequired context) :=
  readByte_fails.bind _

theorem awaitPad_fails : Fails OnDead awaitPad := Fails.loop (readByte_fails.bind _)

theorem awaitPad_never : NeverReturns awaitPad := by
  refine collapses_loop (fun _ => ?_) (fun _ => awaitPad_fails) ()
  refine collapses_readByte (fun b => ?_) (settles_throw _)
  cases b with
  | none => exact collapses_throw _
  | some b =>
    dsimp only
    split_ifs
    · exact collapses_pure _
    · exact collapses_readByte (fun _ => collapses_pure _) (settles_pure nofun)
    · exact collapses_pure _

theorem secondPad_never : NeverReturns secondPad := by
  refine collapses_readByte (fun b => ?_) (settles_throw _)
  cases b with
  | none => exact collapses_throw _
  | some b =>
    dsimp only
    split_ifs
    · exact collapses_pure _
    · refine collapses_readByte (fun b2 => ?_) (settles_throw _)
      split_ifs
      · exact collapses_pure _
      · exact collapses_throw _
    · exact collapses_throw _

theorem skipBytes_never (contexts : List String) : NeverReturns (skipBytes contexts) := by
  induction contexts with
  | nil => exact collapses_pure _
  | cons context contexts ih => exact (readByteRequired_never _).bind fun _ => ih

theorem receivePayload_never (useCrc32 : Bool) (frameType : UInt8) :
    NeverReturns (receivePayload useCrc32 frameType) := by
  refine collapses_loop (fun rawData => ?_) (fun _ => ?_) []
  · refine Collapses.imp (P := fun _ => False) ?_ fun _ h => h.elim
    refine (readByteRequired_never _).bind fun b => ?_
    split_ifs
    · exact (readByteRequired_never _).bind fun _ => collapses_pure _
    · exact collapses_pure _
  · exact Fails.loop ((readByteRequired_fails _).bind _)

theorem receiveBinaryFrame_never (bin : UInt8) : NeverReturns (receiveBinaryFrame bin) := by
  refine (readByteRequired_never _).bind fun frameType =>
    (readByteRequired_never _).bind fun _ => (readByteRequired_never _).bind fun _ =>
    (readByteRequired_never _).bind fun _ => (readByteRequired_never _).bind fun _ =>
    (skipBytes_never _).bind fun _ => ?_
  split_ifs
  · exact receivePayload_never _ _
  · exact collapses_pure _

theorem readHexDigits_never (n : Nat) : NeverReturns (readHexDigits n) := by
  induction n with
  | zero => exact collapses_pure _
  | succ n ih =>
    refine (readByteRequired_never _).bind fun b => ?_
    split_ifs
    · exact collapses_pure _
    · exact ih
    · exact ih.bind fun _ => collapses_pure _
    · exact ih

theorem receiveHexFrame_never : NeverReturns receiveHexFrame :=
  (readHexDigits_never 20).bind fun digits => by
    split
    · exact collapses_pure _
    · exact collapses_throw _

theorem receiveKind_never : NeverReturns receiveKind := by
  refine collapses_readByte (fun kind => ?_) (settles_throw _)
  cases kind with
  | none => exact collapses_throw _
  | some kind =>
    dsimp only
    split_ifs
    · refine collapses_readByte (fun bin => ?_) (settles_throw _)
      cases bin with
      | none => exact collapses_throw _
      | some bin =>
        dsimp only
        split_ifs
        · exact receiveBinaryFrame_never _
        · exact collapses_pure _
        · exact collapses_throw _
    · exact receiveHexFrame_never
    · exact collapses_throw _

/-- A frame that is not complete when the port dies is an error. -/
theorem receiveFrame_never : NeverReturns receiveFrame := by
  refine awaitPad_never.bind fun cancelled => ?_
  cases cancelled with
  | true => exact collapses_pure _
  | false =>
    refine secondPad_never.bind fun cancelled => ?_
    cases cancelled with
    | true => exact collapses_pure _
    | false => exact receiveKind_never

theorem receiveFrame_fails : Fails OnDead receiveFrame := awaitPad_fails.bind _

end Frames

theorem sendBinaryHeaderOn_halts (frameType : UInt8) (hdr : HeaderBytes) (useCrc32 : Bool) :
    Halts OnDead (sendBinaryHeaderOn frameType hdr useCrc32) :=
  (writeAll_halts _).bind fun _ => (writeAll_halts _).bind fun _ => (writeAll_halts _).bind fun _ =>
    (writeAll_halts _).bind fun _ => flush_halts

section Session

variable {downloadDir : Path} {useCrc32 : Bool}

theorem onZfile_halts (s : Session) (data : List UInt8) :
    Halts OnDead (onZfile downloadDir useCrc32 s data) := by
  refine (halts_ask _).bind fun created => ?_
  split <;> exact (sendBinaryHeaderOn_halts _ _ _).bind fun _ => halts_pure _

theorem onZdata_halts (s : Session) (data : List UInt8) (frameend : UInt8) :
    Halts OnDead (onZdata useCrc32 s data frameend) := by
  unfold onZdata
  split
  · exact halts_pure _
  · refine (halts_ask _).bind fun written => ?_
    cases written with
    | error e => exact (sendBinaryHeaderOn_halts _ _ _).bind fun _ => halts_pure _
    | ok _ =>
      dsimp only
      split_ifs
      · exact (sendBinaryHeaderOn_halts _ _ _).bind fun _ => halts_pure _
      · exact halts_pure _

theorem awaitOO_halts (n : Nat) (gotO : Bool) : Halts OnDead (awaitOO n gotO) := by
  induction n generalizing gotO with
  | zero => exact halts_pure _
  | succ n ih =>
    refine readByte_halts.bind fun b => ?_
    split <;> split_ifs <;> first | exact halts_pure _ | exact ih _

theorem onHeader_halts (s : Session) (frameType : UInt8) :
    Halts OnDead (onHeader useCrc32 s frameType) := by
  unfold onHeader
  split_ifs
  · exact (sendBinaryHeaderOn_halts _ _ _).bind fun _ => halts_pure _
  · exact (sendBinaryHeaderOn_halts _ _ _).bind fun _ => (awaitOO_halts _ _).bind fun _ =>
      halts_pure _
  all_goals exact halts_pure _

theorem sessionRound_halts (s : Session) :
    Halts OnDead (sessionRound downloadDir useCrc32 s) := by
  refine stopIfCancelled_halts.bind fun _ => receiveFrame_never.halts.bind fun frame => ?_
  cases frame with
  | header frameType _ => exact onHeader_halts s frameType
  | data frameType data frameend _ =>
    dsimp only
    split_ifs
    · exact (onZfile_halts s data).bind fun _ => halts_pure _
    · exact (onZdata_halts s data frameend).bind fun _ => halts_pure _
  | cancel => exact halts_pure _

/-- Wherever the session is, it stops on a dead port. -/
theorem session_halts : Halts OnDead (session downloadDir useCrc32) :=
  (put_halts _).bind fun _ => halts_loop_of_fails sessionRound_halts
    (fun _ => Settles.afterCheck (receiveFrame_fails.bind _)) _

end Session

end TauTerm.Transfer.OnPort
