import Mathlib
import TauTerm.Lib.Bytes
import TauTerm.Transfer.Crc
import TauTerm.Transfer.Io

/-!
# Frames of ZModem

The frames that `zmodem.rs` writes and the reader of them. What the port delivers is
a `Wire`: a byte, or `none` where a read ran out of time; behind its end every read
does. An error carries the text that the source reports.
-/

namespace TauTerm.Transfer.ZModem

open TauTerm.Transfer

/-! ## Constants -/

@[match_pattern] def zpad : UInt8 := 0x2A
@[match_pattern] def zdle : UInt8 := 0x18
@[match_pattern] def zbin : UInt8 := 0x41
@[match_pattern] def zhex : UInt8 := 0x42
@[match_pattern] def zbin32 : UInt8 := 0x43

@[match_pattern] def zrqinit : UInt8 := 0
@[match_pattern] def zrinit : UInt8 := 1
@[match_pattern] def zfile : UInt8 := 4
@[match_pattern] def zdata : UInt8 := 10
@[match_pattern] def zcan : UInt8 := 16

@[match_pattern] def zcrce : UInt8 := 0x68
@[match_pattern] def zcrcg : UInt8 := 0x69
@[match_pattern] def zcrcq : UInt8 := 0x6A
@[match_pattern] def zcrcw : UInt8 := 0x6B

def isFrameEnd (byte : UInt8) : Bool :=
  byte = zcrce || byte = zcrcg || byte = zcrcq || byte = zcrcw

def canfc32 : UInt8 := 0x20
def canfdx : UInt8 := 0x01

def xon : UInt8 := 0x11
def xoff : UInt8 := 0x13
def cr : UInt8 := 0x0D
def lf : UInt8 := 0x0A

def needsEscaping (byte : UInt8) : Bool :=
  byte = zdle || byte = xon || byte = xoff || byte = cr || byte = 0x7f || byte = 0xff

/-- The four bytes of a header, in the order of the array. -/
@[ext]
structure HeaderBytes where
  b0 : UInt8
  b1 : UInt8
  b2 : UInt8
  b3 : UInt8
  deriving DecidableEq

namespace HeaderBytes

/-- `hdr[ZF0]`, at position 3. -/
def zf0 (hdr : HeaderBytes) : UInt8 := hdr.b3
def zf1 (hdr : HeaderBytes) : UInt8 := hdr.b2
def zf2 (hdr : HeaderBytes) : UInt8 := hdr.b1
def zf3 (hdr : HeaderBytes) : UInt8 := hdr.b0

def toList (hdr : HeaderBytes) : List UInt8 := [hdr.b0, hdr.b1, hdr.b2, hdr.b3]

def zero : HeaderBytes := ⟨0, 0, 0, 0⟩

end HeaderBytes

/-- A frame. Of a data frame the source only logs whether the checksum is right; `crcValid` is
`none` where there were too few bytes to compare. -/
inductive ZFrame where
  | header (frameType : UInt8) (flags : HeaderBytes)
  | data (frameType : UInt8) (data : List UInt8) (frameend : UInt8) (crcValid : Option Bool)
  | cancel
  deriving DecidableEq

/-! ## Writing -/

/-- `{:02X}` -/
def hexDigit (nibble : UInt8) : UInt8 := if nibble < 10 then 0x30 + nibble else 0x37 + nibble

def hexByte (byte : UInt8) : List UInt8 := [hexDigit (byte >>> 4), hexDigit (byte &&& 0xF)]

def hexText (byte : UInt8) : String :=
  String.ofList ((hexByte byte).map fun digit => Char.ofNat digit.toNat)

def crc16Le (crc : UInt16) : List UInt8 := [crc.toUInt8, (crc >>> 8).toUInt8]

def crc32Le (crc : UInt32) : List UInt8 :=
  [crc.toUInt8, (crc >>> 8).toUInt8, (crc >>> 16).toUInt8, (crc >>> 24).toUInt8]

def sendHexHeader (frameType : UInt8) (hdr : HeaderBytes) : List UInt8 :=
  let crc := crc16Ccitt (frameType :: hdr.toList)
  [zpad, zpad, zhex] ++ hexByte frameType ++ hexByte hdr.zf0 ++ hexByte hdr.zf1 ++
    hexByte hdr.zf2 ++ hexByte hdr.zf3 ++ hexByte (crc >>> 8).toUInt8 ++ hexByte crc.toUInt8 ++
    [cr, lf, xon]

def binType (useCrc32 : Bool) : UInt8 := if useCrc32 then zbin32 else zbin

/-- The checksum of a header, which is not escaped. -/
def headerCrc (useCrc32 : Bool) (frameType : UInt8) (hdr : HeaderBytes) : List UInt8 :=
  if useCrc32 then crc32Le (crc32Zmodem (frameType :: hdr.toList))
  else crc16Le (crc16Ccitt (frameType :: hdr.toList))

def sendBinaryHeader (frameType : UInt8) (hdr : HeaderBytes) (useCrc32 : Bool) : List UInt8 :=
  [zpad, zpad, zdle, binType useCrc32] ++ frameType :: hdr.toList ++
    headerCrc useCrc32 frameType hdr

def escape (byte : UInt8) : List UInt8 :=
  if needsEscaping byte then [zdle, byte ^^^ 0x40] else [byte]

/-- The checksum of a payload: four bytes from the low one up, or two from the high one down. -/
def dataCrc (useCrc32 : Bool) (data : List UInt8) : List UInt8 :=
  if useCrc32 then crc32Le (crc32Zmodem data)
  else [(crc16Ccitt data >>> 8).toUInt8, (crc16Ccitt data).toUInt8]

def sendDataFrameWithHeader (frameType : UInt8) (data : List UInt8) (frameend : UInt8)
    (useCrc32 : Bool) : List UInt8 :=
  sendBinaryHeader frameType .zero useCrc32 ++ data.flatMap escape ++
    (dataCrc useCrc32 data).flatMap escape ++ [zdle, frameend]

/-- `send_data_frame` writes the same bytes as `send_data_frame_with_header`. -/
def sendDataFrame (buf : List UInt8) (frameend : UInt8) (useCrc32 : Bool) : List UInt8 :=
  sendDataFrameWithHeader zdata buf frameend useCrc32

/-! ## Reading -/

abbrev Wire := List (Option UInt8)

/-- A reader of the port that can fail. -/
abbrev Reader (α : Type) := Wire → Except String α × Wire

def readByte : Wire → Option UInt8 × Wire
  | [] => (none, [])
  | byte :: wire => (byte, wire)

/-- `read_byte_required` -/
def readByteRequired (context : String) : Reader UInt8 := fun wire =>
  match readByte wire with
  | (some byte, rest) => (.ok byte, rest)
  | (none, rest) => (.error s!"{context}: 超时", rest)

def andThen {α β : Type} (reader : Reader α) (next : α → Reader β) : Reader β := fun wire =>
  match reader wire with
  | (.ok a, rest) => next a rest
  | (.error e, rest) => (.error e, rest)

def fromLe16 : List UInt8 → UInt16
  | [lo, hi] => Lib.ofBeBytes hi lo
  | _ => 0

def fromLe32 : List UInt8 → UInt32
  | [a, b, c, d] =>
    UInt32.ofNat (a.toNat + b.toNat * 2 ^ 8 + c.toNat * 2 ^ 16 + d.toNat * 2 ^ 24)
  | _ => 0

/-- The comparison of the checksum, whose bytes are taken from the low one up in both modes. -/
def crcMatches (useCrc32 : Bool) (data crcBytes : List UInt8) : Bool :=
  if useCrc32 then crc32Zmodem data == fromLe32 crcBytes
  else crc16Ccitt data == fromLe16 crcBytes

/-- What a frame end makes of the bytes before it. -/
def closeFrame (useCrc32 : Bool) (frameType : UInt8) (rawData : List UInt8) (frameend : UInt8) :
    ZFrame :=
  let crcLen := if useCrc32 then 4 else 2
  if rawData.length < crcLen then .data frameType [] frameend none
  else
    let dataPart := rawData.take (rawData.length - crcLen)
    .data frameType dataPart frameend
      (some (crcMatches useCrc32 dataPart (rawData.drop (rawData.length - crcLen))))

def receivePayload (useCrc32 : Bool) (frameType : UInt8) : List UInt8 → Reader ZFrame
  | _, [] => (.error "数据字节: 超时", [])
  | _, none :: wire => (.error "数据字节: 超时", wire)
  | rawData, some byte :: wire =>
    if byte = zdle then
      match wire with
      | [] => (.error "ZDLE 转义: 超时", [])
      | none :: wire => (.error "ZDLE 转义: 超时", wire)
      | some next :: wire =>
        if isFrameEnd next then (.ok (closeFrame useCrc32 frameType rawData next), wire)
        else if next = zcan then (.ok .cancel, wire)
        else receivePayload useCrc32 frameType (rawData ++ [next ^^^ 0x40]) wire
    else receivePayload useCrc32 frameType (rawData ++ [byte]) wire

/-- The checksum of the header is read and dropped. -/
def skipHeaderCrc (useCrc32 : Bool) : Reader Unit :=
  andThen (readByteRequired "hdr crc[0]") fun _ =>
  andThen (readByteRequired "hdr crc[1]") fun _ =>
  if useCrc32 then
    andThen (readByteRequired "hdr crc[2]") fun _ =>
    andThen (readByteRequired "hdr crc[3]") fun _ wire => (.ok (), wire)
  else fun wire => (.ok (), wire)

def receiveBinaryFrame (bin : UInt8) : Reader ZFrame :=
  let useCrc32 := bin = zbin32
  andThen (readByteRequired "帧类型") fun frameType =>
  andThen (readByteRequired "帧头字节 0") fun b0 =>
  andThen (readByteRequired "帧头字节 1") fun b1 =>
  andThen (readByteRequired "帧头字节 2") fun b2 =>
  andThen (readByteRequired "帧头字节 3") fun b3 =>
  andThen (skipHeaderCrc useCrc32) fun _ =>
  if frameType = zdata ∨ frameType = zfile then receivePayload useCrc32 frameType []
  else fun wire => (.ok (.header frameType ⟨b0, b1, b2, b3⟩), wire)

def isHexDigit (byte : UInt8) : Bool :=
  (0x30 ≤ byte && byte ≤ 0x39) || (0x41 ≤ byte && byte ≤ 0x46) || (0x61 ≤ byte && byte ≤ 0x66)

/-- The hexadecimal digits among at most `n` bytes, up to a line feed. -/
def readHexDigits : Nat → Reader (List UInt8)
  | 0 => fun wire => (.ok [], wire)
  | n + 1 => andThen (readByteRequired "hex frame byte") fun byte =>
    if byte = lf then fun wire => (.ok [], wire)
    else if byte = cr then readHexDigits n
    else if isHexDigit byte then
      andThen (readHexDigits n) fun digits wire => (.ok (byte :: digits), wire)
    else readHexDigits n

def hexValue (digit : UInt8) : UInt8 :=
  if digit ≤ 0x39 then digit - 0x30 else if digit ≤ 0x46 then digit - 0x37 else digit - 0x57

/-- `from_str_radix` of two digits. -/
def fromHex (high low : UInt8) : UInt8 := hexValue high * 16 + hexValue low

def receiveHexFrame : Reader ZFrame :=
  andThen (readHexDigits 20) fun digits wire =>
    match digits with
    | t1 :: t0 :: a1 :: a0 :: b1 :: b0 :: c1 :: c0 :: d1 :: d0 :: _ =>
      (.ok (.header (fromHex t1 t0) ⟨fromHex a1 a0, fromHex b1 b0, fromHex c1 c0, fromHex d1 d0⟩),
        wire)
    | _ => (.error "ZHEX 帧数据不完整", wire)

/-- Wait for the first `ZPAD`; `true` for two `CAN` in a row. A byte behind a single `CAN` is
dropped, whatever it is. -/
def awaitPad : Reader Bool
  | [] => (.error "接收帧超时", [])
  | none :: wire => (.error "接收帧超时", wire)
  | some byte :: wire =>
    if byte = zpad then (.ok false, wire)
    else if byte = can then
      match wire with
      | [] => (.error "接收帧超时", [])
      | next :: wire => if next = some can then (.ok true, wire) else awaitPad wire
    else awaitPad wire

/-- The second `ZPAD`; `true` for a cancel instead. -/
def secondPad : Reader Bool := fun wire =>
  match readByte wire with
  | (none, rest) => (.error "帧头格式错误：第二个字节超时", rest)
  | (some byte, rest) =>
    if byte = zpad then (.ok false, rest)
    else if byte = can then
      if (readByte rest).1 = some can then (.ok true, (readByte rest).2)
      else (.error "帧头格式错误：第二个字节不是 ZPAD", (readByte rest).2)
    else (.error "帧头格式错误：第二个字节不是 ZPAD", rest)

def receiveBinaryKind : Reader ZFrame := fun wire =>
  match readByte wire with
  | (none, rest) => (.error "二进制帧子类型超时", rest)
  | (some bin, rest) =>
    if bin = zbin ∨ bin = zbin32 then receiveBinaryFrame bin rest
    else if bin = zcan then (.ok .cancel, rest)
    else (.error s!"未知二进制帧子类型: 0x{hexText bin}", rest)

def receiveKind : Reader ZFrame := fun wire =>
  match readByte wire with
  | (none, rest) => (.error "帧类型字节超时", rest)
  | (some kind, rest) =>
    if kind = zdle then receiveBinaryKind rest
    else if kind = zhex then receiveHexFrame rest
    else (.error s!"未知帧类型: 0x{hexText kind}", rest)

def receiveFrame : Reader ZFrame :=
  andThen awaitPad fun cancelled =>
  if cancelled then fun wire => (.ok .cancel, wire)
  else andThen secondPad fun cancelled =>
    if cancelled then fun wire => (.ok .cancel, wire) else receiveKind

end TauTerm.Transfer.ZModem
