import Mathlib
import TauTerm.Lib.LineEndings
import TauTerm.Lib.TextCodec

/-!
# The codec of remote documents

`documentCodec.ts` decodes the bytes of a file in the front end, and `serialize_text` of
`transfer/sftp_document.rs` encodes the text in the back end. A string of the front end is its
UTF-16 units, one of the back end its characters. The legacy encodings are parameters. Documents
are complete here: a truncated preview is not edited.
-/

namespace TauTerm.Sftp

open Lib Lib.Js

inductive LegacyEncoding where
  | gb18030 | big5 | shiftJis | eucJp | eucKr | windows1252
  deriving DecidableEq

inductive RemoteDocumentEncoding where
  | utf8 | utf16le | utf16be
  | legacy (encoding : LegacyEncoding)
  deriving DecidableEq

def RemoteDocumentEncoding.name : RemoteDocumentEncoding → String
  | .utf8 => "utf-8"
  | .utf16le => "utf-16le"
  | .utf16be => "utf-16be"
  | .legacy .gb18030 => "gb18030"
  | .legacy .big5 => "big5"
  | .legacy .shiftJis => "shift_jis"
  | .legacy .eucJp => "euc-jp"
  | .legacy .eucKr => "euc-kr"
  | .legacy .windows1252 => "windows-1252"

abbrev RemoteLineEnding := LineEnding

def lineEndingName : RemoteLineEnding → String
  | .lf => "lf"
  | .crlf => "crlf"
  | .cr => "cr"

structure RemoteDocumentFormat where
  encoding : RemoteDocumentEncoding
  lineEnding : RemoteLineEnding
  bom : Bool
  deriving DecidableEq

/-- The format as the back end gets it. -/
structure WireFormat where
  encoding : String
  lineEnding : String
  bom : Bool
  deriving DecidableEq

def RemoteDocumentFormat.wire (format : RemoteDocumentFormat) : WireFormat :=
  ⟨format.encoding.name, lineEndingName format.lineEnding, format.bom⟩

structure DecodedRemoteDocument where
  text : JsString
  format : RemoteDocumentFormat
  binaryLikely : Bool
  encodingConfirmed : Bool
  deriving DecidableEq

/-- The legacy encodings of the platform's decoder and of `encoding_rs`; `none` is an error. -/
structure LegacyCodecs where
  decode : LegacyEncoding → List UInt8 → Option JsString
  encode : LegacyEncoding → List Char → Option (List UInt8)

/-! ## The front end -/

structure BomDetection where
  encoding : Option RemoteDocumentEncoding
  bom : Bool
  offset : ℕ

def detectBom (bytes : List UInt8) : BomDetection :=
  if bytes.take 3 = [0xef, 0xbb, 0xbf] then ⟨some .utf8, true, 3⟩
  else if bytes.take 2 = [0xff, 0xfe] then ⟨some .utf16le, true, 2⟩
  else if bytes.take 2 = [0xfe, 0xff] then ⟨some .utf16be, true, 2⟩
  else ⟨none, false, 0⟩

section FrontEnd

variable (legacy : LegacyCodecs)

/-- `new TextDecoder(encoding, { fatal: true }).decode(source)` -/
def fatalDecode (encoding : RemoteDocumentEncoding) (source : List UInt8) : Option JsString :=
  match encoding with
  | .utf8 => TextCodec.utf8.textDecoder source
  | .utf16le => TextCodec.utf16le.textDecoder source
  | .utf16be => TextCodec.utf16be.textDecoder source
  | .legacy encoding => legacy.decode encoding source

structure DetectedEncoding where
  encoding : RemoteDocumentEncoding
  bom : Bool
  confirmed : Bool

def detectRemoteDocumentEncoding (bytes : List UInt8) : DetectedEncoding :=
  match (detectBom bytes).encoding with
  | some encoding => ⟨encoding, true, true⟩
  | none => ⟨.utf8, false, (fatalDecode legacy .utf8 bytes).isSome⟩

/-- Every zero byte of the sample counts as three controls; more than 8 of 100 bytes are too many. -/
def looksLikeBinary (bytes : List UInt8) : Bool :=
  if bytes = [] then false
  else if (detectBom bytes).encoding = some .utf16le ∨ (detectBom bytes).encoding = some .utf16be then
    false
  else
    let sample := bytes.take 4096
    let controls := sample.foldl (fun controls byte =>
      if byte = 0 then controls + 3
      else if byte < 0x09 ∨ (byte > 0x0d ∧ byte < 0x20) then controls + 1
      else controls) 0
    8 * sample.length < 100 * controls

def decodeRemoteDocument (bytes : List UInt8) (encoding : RemoteDocumentEncoding) :
    Except String JsString :=
  let bom := detectBom bytes
  let source := if bom.encoding = some encoding then bytes.drop bom.offset else bytes
  match fatalDecode legacy encoding source with
  | some text => .ok text
  | none =>
    let upper := encoding.name.toUpper
    .error s!"无法按 {upper} 严格解码远程文档，请选择正确的源编码"

def detectLineEnding (text : JsString) : RemoteLineEnding :=
  let endings := lineEndings (unit '\r') (unit '\n') text
  let crlf := endings.count .crlf
  let lf := endings.count .lf
  let cr := endings.count .cr
  if crlf ≥ lf ∧ crlf ≥ cr ∧ crlf > 0 then .crlf
  else if cr > lf ∧ cr > 0 then .cr
  else .lf

def normalizeDocumentText (text : JsString) : JsString :=
  replaceOne (unit '\r') [unit '\n'] (replacePair (unit '\r') (unit '\n') (unit '\n') text)

def decodedDocument (bytes : List UInt8) (encoding : RemoteDocumentEncoding) (bom : Bool) :
    Except String DecodedRemoteDocument := do
  let decoded ← decodeRemoteDocument legacy bytes encoding
  return {
    text := normalizeDocumentText decoded
    format := ⟨encoding, detectLineEnding decoded, bom⟩
    binaryLikely := false
    encodingConfirmed := true }

def decodeRemoteDocumentAs (bytes : List UInt8) (encoding : RemoteDocumentEncoding) :
    Except String DecodedRemoteDocument :=
  let bom := detectBom bytes
  decodedDocument legacy bytes encoding (bom.encoding = some encoding ∧ bom.bom)

def decodeInitialRemoteDocument (bytes : List UInt8) : DecodedRemoteDocument :=
  let detected := detectRemoteDocumentEncoding legacy bytes
  let binaryLikely := looksLikeBinary bytes
  let unconfirmed : DecodedRemoteDocument :=
    { text := [], format := ⟨detected.encoding, .lf, detected.bom⟩, binaryLikely
      encodingConfirmed := false }
  if ¬ detected.confirmed then unconfirmed
  else
    match decodedDocument legacy bytes detected.encoding detected.bom with
    | .ok document => { document with binaryLikely }
    | .error _ => unconfirmed

end FrontEnd

/-! ## The back end -/

def DOCUMENT_EDIT_LIMIT : ℕ := 4 * 1048576

def normalizeLineEndings (text : List Char) : List Char :=
  replaceOne '\r' ['\n'] (replacePair '\r' '\n' '\n' text)

def legacyNamed : String → Option LegacyEncoding
  | "gb18030" => some .gb18030
  | "big5" => some .big5
  | "shift_jis" => some .shiftJis
  | "euc-jp" => some .eucJp
  | "euc-kr" => some .eucKr
  | "windows-1252" => some .windows1252
  | _ => none

def encodeText (legacy : LegacyCodecs) (encoding : String) (bom : Bool) (text : List Char) :
    Except String (List UInt8) :=
  match encoding with
  | "utf-8" => .ok (utf8 text)
  | "utf-16le" => .ok ((utf16 text).flatMap fun u => [lowByte u, highByte u])
  | "utf-16be" => .ok ((utf16 text).flatMap fun u => [highByte u, lowByte u])
  | other =>
    match legacyNamed other with
    | some name =>
      if bom then .error s!"编码 {other} 不支持 BOM"
      else
        match legacy.encode name text with
        | some encoded => .ok encoded
        | none => .error s!"当前文本包含无法用 {other} 表示的字符；已拒绝保存以避免静默替换"
    | none => .error s!"不支持的字符编码: {other}"

def bomBytes : String → List UInt8
  | "utf-8" => [0xef, 0xbb, 0xbf]
  | "utf-16le" => [0xff, 0xfe]
  | "utf-16be" => [0xfe, 0xff]
  | _ => []

def writeLineEndings (normalized : List Char) : String → Except String (List Char)
  | "lf" => .ok normalized
  | "crlf" => .ok (replaceOne '\n' ['\r', '\n'] normalized)
  | "cr" => .ok (replaceOne '\n' ['\r'] normalized)
  | other => .error s!"不支持的换行格式: {other}"

def serializeText (legacy : LegacyCodecs) (text : List Char) (format : WireFormat) :
    Except String (List UInt8) := do
  let normalized ← writeLineEndings (normalizeLineEndings text) format.lineEnding
  let output ← encodeText legacy format.encoding format.bom normalized
  let output := if format.bom then bomBytes format.encoding ++ output else output
  let length := output.length
  if length > DOCUMENT_EDIT_LIMIT then
    .error s!"保存后的文档超过可编辑上限（{length} bytes > {DOCUMENT_EDIT_LIMIT} bytes）"
  else .ok output

end TauTerm.Sftp
