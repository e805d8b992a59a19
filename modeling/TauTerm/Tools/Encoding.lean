import Mathlib
import TauTerm.Lib.Numerals
import TauTerm.Lib.WebBase64
import TauTerm.Lib.WebText
import TauTerm.Tools.ByteInput

/-!
# The encoding tool

The conversions of `executeEncodingOp`. A conversion gives a result or an error; one that throws gives
nothing. What the engine makes of floating point numbers is a parameter.
-/

namespace TauTerm.Tools

open Lib Lib.Js

def bytesToHex (bytes : List UInt8) : JsString := spacedHex bytes

/-! ## Text -/

def strictUtf8Decode (bytes : List UInt8) : ToolResult JsString :=
  match decodeUtf8 bytes with
  | some decoded => .ok decoded
  | none => toolErr "invalidUtf8"

def base64Encode (input : JsString) : ToolResult JsString := .ok (btoa (encodeUtf8 input))

def isBase64 (u : UInt16) : Bool := (sextet u).isSome

/-- `/^(?:[A-Za-z0-9+\/]{4})*(?:[A-Za-z0-9+\/]{2}==|[A-Za-z0-9+\/]{3}=)?$/` -/
def isCanonical : JsString → Bool
  | [] => true
  | a :: b :: c :: d :: rest =>
    isBase64 a && isBase64 b &&
      (isBase64 c && isBase64 d && isCanonical rest ||
        rest = [] && d = unit '=' && (c = unit '=' || isBase64 c))
  | _ => false

def base64Decode (input : JsString) (ignoreWhitespace : Bool) : ToolResult JsString :=
  if trim input = [] then toolErr "emptyInput"
  else if !ignoreWhitespace && input.any isSpace then toolErr "base64Whitespace"
  else
    let source := if ignoreWhitespace then input.filter fun u => !isSpace u else input
    if !isCanonical source then toolErr "invalidBase64"
    else
      match atob source with
      | some bytes => strictUtf8Decode bytes
      | none => toolErr "invalidBase64"

/-- The exception of the encoder is not caught. -/
def urlEncode (input : JsString) : Option (ToolResult JsString) := (encodeURIComponent input).map .ok

def urlDecode (input : JsString) : ToolResult JsString :=
  match decodeURIComponent input with
  | some decoded => .ok decoded
  | none => toolErr "invalidUrlEncoding"

def stringToHex (input : JsString) : ToolResult JsString := .ok (bytesToHex (encodeUtf8 input))

def hexToString (input : JsString) : ToolResult JsString :=
  match parseByteInput input with
  | .error error => .error error
  | .ok parsed => strictUtf8Decode parsed.bytes

def asciiName (byte : UInt8) : JsString :=
  if 0x20 ≤ byte ∧ byte ≤ 0x7E then [byte.toUInt16]
  else if byte = 0x00 then text "\\0"
  else if byte = 0x08 then text "\\b"
  else if byte = 0x09 then text "\\t"
  else if byte = 0x0A then text "\\n"
  else if byte = 0x0D then text "\\r"
  else if byte = 0x1B then text "\\e"
  else text "\\x" ++ byteHex byte

def hexToAscii (input : JsString) : ToolResult JsString :=
  match parseByteInput input with
  | .error error => .error error
  | .ok parsed => .ok (parsed.bytes.flatMap asciiName)

/-! ## Integers -/

/-- The letter of a prefix, the base, and the digits of that base. -/
structure Radix where
  base : Nat
  isMark : UInt16 → Bool
  isDigit : UInt16 → Bool

def hexRadix : Radix := ⟨16, isX, isHex⟩

def binRadix : Radix := ⟨2, fun u => u = unit 'b' || u = unit 'B', fun u => u = unit '0' || u = unit '1'⟩

/-- The digits of a token behind its prefix, if it has one. -/
def Radix.digits (radix : Radix) : JsString → JsString
  | u :: v :: rest => if u = unit '0' && radix.isMark v then rest else u :: v :: rest
  | token => token

def cleanDigits (radix : Radix) : List JsString → Option JsString
  | [] => some []
  | token :: rest =>
    let digits := radix.digits token
    if digits = [] ∨ ¬digits.all radix.isDigit then none else (cleanDigits radix rest).map (digits ++ ·)

/-- `[\s,]` -/
def isDigitGap (u : UInt16) : Bool := isSpace u || u = unit ','

/-- `null` for no digits at all. -/
def normalizePrefixedDigits (radix : Radix) (input : JsString) : Option JsString :=
  let source := trim input
  if source = [] then none
  else (cleanDigits radix (tokens isDigitGap source)).filter (· ≠ [])

/-- `replace(/_/g, "")` -/
def withoutUnderscores (s : JsString) : JsString := s.filter (· ≠ unit '_')

/-- Whether there is a minus sign, and what is behind the sign. -/
def splitSign (source : JsString) : Bool × JsString :=
  match source with
  | u :: rest => if u = unit '+' ∨ u = unit '-' then (u = unit '-', trim rest) else (false, source)
  | [] => (false, [])

def signed (negative : Bool) (magnitude : Nat) : Int := if negative then -magnitude else magnitude

/-- The value, and its digits. -/
def parseSignedRadix (radix : Radix) (input : JsString) : Option (Int × JsString) :=
  let source := trim input
  if source = [] then none
  else
    let (negative, source) := splitSign source
    (normalizePrefixedDigits radix (withoutUnderscores source)).map fun digits =>
      (signed negative (digitsValue radix.base digits), digits)

def isDecimal (u : UInt16) : Bool := 0x30 ≤ u.toNat && u.toNat ≤ 0x39

/-- `[+-]?` at the front. -/
def decimalSign : JsString → Bool × JsString
  | u :: rest => if u = unit '+' ∨ u = unit '-' then (u = unit '-', rest) else (false, u :: rest)
  | [] => (false, [])

/-- `/^[+-]?\d+$/` and `BigInt`. -/
def parseDecimalBigInt (input : JsString) : Option Int :=
  match decimalSign (withoutUnderscores (trim input)) with
  | (negative, digits) =>
    if digits ≠ [] ∧ digits.all isDecimal then some (signed negative (digitsValue 10 digits)) else none

/-- `padStart(n, "0")` -/
def padStart (n : Nat) (s : JsString) : JsString := List.replicate (n - s.length) (upperHex 0) ++ s

/-- The sign of a number in front of a magnitude. -/
def withSign (value : Int) (magnitude : JsString) : JsString :=
  (if value < 0 then [unit '-'] else []) ++ magnitude

/-- `value.toString(10)` -/
def decimalText (value : Int) : JsString := withSign value (numeral 10 value.natAbs)

def hexToDec (input : JsString) : ToolResult JsString :=
  match parseSignedRadix hexRadix input with
  | some (value, _) => .ok (decimalText value)
  | none => toolErr "invalidHexInteger"

/-- A width that is not given is 0. -/
def decToHex (input : JsString) (width : Nat) : ToolResult JsString :=
  match parseDecimalBigInt input with
  | some value => .ok (withSign value (padStart ((width + 3) / 4) (numeral 16 value.natAbs)))
  | none => toolErr "invalidDecimal"

def binToDec (input : JsString) : ToolResult JsString :=
  match parseSignedRadix binRadix input with
  | some (value, _) => .ok (decimalText value)
  | none => toolErr "invalidBinary"

def decToBin (input : JsString) (width : Nat) : ToolResult JsString :=
  match parseDecimalBigInt input with
  | some value => .ok (withSign value (padStart width (numeral 2 value.natAbs)))
  | none => toolErr "invalidDecimal"

def hexToBin (input : JsString) : ToolResult JsString :=
  match parseSignedRadix hexRadix input with
  | some (value, digits) => .ok (withSign value (padStart (digits.length * 4) (numeral 2 value.natAbs)))
  | none => toolErr "invalidHexInteger"

def binToHex (input : JsString) : ToolResult JsString :=
  match parseSignedRadix binRadix input with
  | some (value, digits) =>
    .ok (withSign value (padStart ((digits.length + 3) / 4) (numeral 16 value.natAbs)))
  | none => toolErr "invalidBinary"

/-! ## Bytes -/

/-- The loops of `swapEndian`, by the index of the output. -/
def swapGroups (byteSize : Nat) (bytes : List UInt8) : List UInt8 :=
  (List.range bytes.length).map fun i => bytes.getD (i / byteSize * byteSize + byteSize - 1 - i % byteSize) 0

def swapEndian (input : JsString) (byteSize : Nat) : ToolResult JsString :=
  match parseByteInput input with
  | .error error => .error error
  | .ok parsed =>
    if parsed.bytes.length % byteSize ≠ 0 then .error ⟨"incompleteEndianGroup", some (numeral 10 byteSize)⟩
    else .ok (bytesToHex (swapGroups byteSize parsed.bytes))

/-- `replace(/^0+(?=\d)/, "")` on digits. -/
def stripZeros : JsString → JsString
  | u :: v :: rest => if u = upperHex 0 then stripZeros (v :: rest) else u :: v :: rest
  | s => s

def packedDigits : List UInt8 → Option JsString
  | [] => some []
  | byte :: rest =>
    let high := byte.toNat / 16
    let low := byte.toNat % 16
    if 9 < high ∨ 9 < low then none else (packedDigits rest).map ([upperHex high, upperHex low] ++ ·)

def packedBcdToDecimal (input : JsString) : ToolResult JsString :=
  match parseByteInput input with
  | .error error => .error error
  | .ok parsed =>
    match packedDigits parsed.bytes with
    | none => toolErr "invalidBcd"
    | some output => .ok (stripZeros output)

/-- `(high << 4) | low` of every two digits. -/
def packDigits : JsString → List UInt8
  | high :: low :: rest =>
    UInt8.ofNat ((hexDigit high).getD 0 * 16 + (hexDigit low).getD 0) :: packDigits rest
  | _ => []

def decimalToPackedBcd (input : JsString) : ToolResult JsString :=
  let source := trim input
  if ¬(source ≠ [] ∧ source.all isDecimal) then toolErr "invalidBcdDecimal"
  else
    let source := if source.length % 2 ≠ 0 then upperHex 0 :: source else source
    .ok (bytesToHex (packDigits source))

/-! ## Floating point -/

/-- The bytes of `Number(source)` in so many bits, and `String` of the number that bytes are. -/
structure FloatCodec where
  bytes : Nat → JsString → List UInt8
  text : List UInt8 → JsString

def dropSign : JsString → JsString
  | u :: rest => if u = unit '+' ∨ u = unit '-' then rest else u :: rest
  | [] => []

/-- `(?:[eE][+-]?\d+)?$` -/
def isExponent : JsString → Bool
  | [] => true
  | u :: rest =>
    (u = unit 'e' || u = unit 'E') && dropSign rest ≠ [] && (dropSign rest).all isDecimal

/-- `/^[+-]?(?:\d+(?:\.\d*)?|\.\d+)(?:[eE][+-]?\d+)?$/` -/
def isFloatText (source : JsString) : Bool :=
  let whole := (dropSign source).takeWhile isDecimal
  match (dropSign source).dropWhile isDecimal with
  | [] => whole ≠ []
  | u :: rest =>
    if u = unit '.' then
      (whole ≠ [] || rest.takeWhile isDecimal ≠ []) && isExponent (rest.dropWhile isDecimal)
    else whole ≠ [] && isExponent (u :: rest)

/-- What `Number` is called on. -/
def parseFloatInput (input : JsString) : Option JsString :=
  let source := trim input
  if source ∈ [text "NaN", text "Infinity", text "+Infinity", text "-Infinity"] ∨ isFloatText source then
    some source
  else none

def floatToHex (floats : FloatCodec) (input : JsString) (width : Nat) : ToolResult JsString :=
  match parseFloatInput input with
  | none => toolErr "invalidFloat"
  | some source => .ok (bytesToHex (floats.bytes width source))

def hexToFloat (floats : FloatCodec) (input : JsString) (width : Nat) : ToolResult JsString :=
  match parseByteInput input with
  | .error error => .error error
  | .ok parsed =>
    if parsed.bytes.length ≠ width / 8 then .error ⟨"invalidFloatWidth", some (numeral 10 width)⟩
    else .ok (floats.text parsed.bytes)

/-! ## The operations -/

inductive EncodingOp where
  | hexToString | hexToAscii | stringToHex
  | hexToDec | decToHex | hexToBin | binToHex | decToBin | binToDec
  | base64Encode | base64Decode | urlEncode | urlDecode
  | float32ToHex | hexToFloat32 | float64ToHex | hexToFloat64
  | swapEndian16 | swapEndian32 | swapEndian64
  | packedBcdToDec | decToPackedBcd
  deriving DecidableEq

def executeEncodingOp (floats : FloatCodec) (input : JsString) (op : EncodingOp)
    (base64IgnoreWhitespace : Bool) : Option (ToolResult JsString) :=
  match op with
  | .hexToString => some (hexToString input)
  | .hexToAscii => some (hexToAscii input)
  | .stringToHex => some (stringToHex input)
  | .hexToDec => some (hexToDec input)
  | .decToHex => some (decToHex input 0)
  | .hexToBin => some (hexToBin input)
  | .binToHex => some (binToHex input)
  | .decToBin => some (decToBin input 0)
  | .binToDec => some (binToDec input)
  | .base64Encode => some (base64Encode input)
  | .base64Decode => some (base64Decode input base64IgnoreWhitespace)
  | .urlEncode => urlEncode input
  | .urlDecode => some (urlDecode input)
  | .float32ToHex => some (floatToHex floats input 32)
  | .hexToFloat32 => some (hexToFloat floats input 32)
  | .float64ToHex => some (floatToHex floats input 64)
  | .hexToFloat64 => some (hexToFloat floats input 64)
  | .swapEndian16 => some (swapEndian input 2)
  | .swapEndian32 => some (swapEndian input 4)
  | .swapEndian64 => some (swapEndian input 8)
  | .packedBcdToDec => some (packedBcdToDecimal input)
  | .decToPackedBcd => some (decimalToPackedBcd input)

end TauTerm.Tools
