import Mathlib
import TauTerm.Lib.JsString
import TauTerm.Lib.Tokens

/-!
# Byte input

`parseByteInput` reads bytes as one run of hexadecimal digits, as tokens between separators, as escapes, or
as the body of a C array.
-/

namespace TauTerm.Tools

open Lib Lib.Js

structure ToolError where
  code : String
  detail : Option JsString
  deriving DecidableEq

abbrev ToolResult (α : Type) := Except ToolError α

def toolErr {α : Type} (code : String) : ToolResult α := .error ⟨code, none⟩

inductive ByteInputFormat where
  | continuousHex | tokenizedHex | escapedHex | cArray
  deriving DecidableEq

structure ParsedByteInput where
  bytes : List UInt8
  normalizedHex : JsString
  format : ByteInputFormat
  deriving DecidableEq

/-- `byte.toString(16).toUpperCase().padStart(2, "0")` -/
def byteHex (byte : UInt8) : JsString := [upperHex (byte.toNat / 16), upperHex (byte.toNat % 16)]

def spacedHex (bytes : List UInt8) : JsString := [unit ' '].intercalate (bytes.map byteHex)

def toNormalizedHex (bytes : List UInt8) : JsString := spacedHex bytes

/-- `Number.parseInt` of every two digits. -/
def parsePairs : JsString → List UInt8
  | high :: low :: rest =>
    UInt8.ofNat ((hexDigit high).getD 0 * 16 + (hexDigit low).getD 0) :: parsePairs rest
  | _ => []

def parseCleanHex (cleaned : JsString) (format : ByteInputFormat) : ToolResult ParsedByteInput :=
  if cleaned = [] then toolErr "emptyInput"
  else if ¬cleaned.all isHex then toolErr "invalidHex"
  else if cleaned.length % 2 ≠ 0 then toolErr "oddHexLength"
  else
    let bytes := parsePairs cleaned
    .ok ⟨bytes, toNormalizedHex bytes, format⟩

def isX (u : UInt16) : Bool := u = unit 'x' || u = unit 'X'

/-- `includes("\\x") || includes("\\X")` -/
def includesEscape : JsString → Bool
  | u :: v :: rest => u = unit '\\' && isX v || includesEscape (v :: rest)
  | _ => false

/-- `\\[xX][0-9a-fA-F]{2}` -/
def isEscape (u x high low : UInt16) : Bool := u = unit '\\' && isX x && isHex high && isHex low

/-- What may stand behind an escape, up to the end: `\s*(?:\\[xX][0-9a-fA-F]{2}\s*)*$`. -/
def escapesFollow : JsString → Bool
  | u :: x :: high :: low :: rest =>
    if isSpace u then escapesFollow (x :: high :: low :: rest)
    else isEscape u x high low && escapesFollow rest
  | rest => rest.all isSpace

def isEscapedHex : JsString → Bool
  | u :: x :: high :: low :: rest => isEscape u x high low && escapesFollow rest
  | _ => false

/-- The digits of `matchAll(/\\[xX]([0-9a-fA-F]{2})/g)`. -/
def escapedDigits : JsString → JsString
  | u :: x :: high :: low :: rest =>
    if isEscape u x high low then high :: low :: escapedDigits rest
    else escapedDigits (x :: high :: low :: rest)
  | _ => []

/-- `[\s,;:\-]` -/
def isSeparator (u : UInt16) : Bool := isSpace u || (text ",;:-").contains u

/-- What is behind `0x` at the front. -/
def withoutPrefix : JsString → Option JsString
  | u :: x :: rest => if u = unit '0' && isX x then some rest else none
  | _ => none

/-- The digits of `/^(?:0[xX])?([0-9a-fA-F]+)$/`. -/
def tokenDigits (token : JsString) : Option JsString :=
  let digits := (withoutPrefix token).getD token
  if digits ≠ [] ∧ digits.all isHex then some digits else none

/-- The loop over the tokens. -/
def cleanTokens : List JsString → ToolResult JsString
  | [] => .ok []
  | token :: rest =>
    match tokenDigits token with
    | none => .error ⟨"invalidHexToken", some token⟩
    | some digits =>
      if digits.length % 2 ≠ 0 then .error ⟨"oddHexLength", some token⟩
      else
        match cleanTokens rest with
        | .error error => .error error
        | .ok cleaned => .ok (digits ++ cleaned)

def parseBody (body : JsString) (format : ByteInputFormat) : ToolResult ParsedByteInput :=
  if ¬body.any isSeparator ∧ withoutPrefix body = none then parseCleanHex body .continuousHex
  else
    let tokens := tokens isSeparator body
    if tokens = [] then toolErr "emptyInput"
    else
      match cleanTokens tokens with
      | .error error => .error error
      | .ok cleaned => parseCleanHex cleaned format

def parseByteInput (input : JsString) : ToolResult ParsedByteInput :=
  let trimmed := trim input
  if trimmed = [] then toolErr "emptyInput"
  else if includesEscape trimmed then
    if isEscapedHex trimmed then parseCleanHex (escapedDigits trimmed) .escapedHex
    else toolErr "invalidEscapedHex"
  else
    match indexOf (unit '\x7b') trimmed, lastIndexOf (unit '\x7d') trimmed with
    | none, none => parseBody trimmed .tokenizedHex
    | some openBrace, some closeBrace =>
      if closeBrace ≤ openBrace then toolErr "invalidHex"
      else
        let trailing := trim (trimmed.drop (closeBrace + 1))
        if trailing ≠ [] ∧ trailing ≠ text ";" then toolErr "invalidHex"
        else parseBody (trim ((trimmed.take closeBrace).drop (openBrace + 1))) .cArray
    | _, _ => toolErr "invalidHex"

end TauTerm.Tools
