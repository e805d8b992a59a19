import Mathlib
import TauTerm.Lib.Visit
import TauTerm.Lib.Words

/-!
# TRDP datasets

`plugins/trdp/xml.rs`: a payload decoded by the schema that an XML file gives. Two
recursions run through the schema with the set of datasets being visited:
`fixed_dataset_width` and `decode_dataset_inner`. A JSON number with a fraction is its
exact value.
-/

namespace TauTerm.Trdp

open Lib (visit ofBeList)

/-! ## JSON -/

inductive Number where
  | int (n : Int)
  | float (x : ℚ)
  deriving DecidableEq

/-- `serde_json::Value`; a text is its characters. -/
inductive Value where
  | null
  | bool (b : Bool)
  | number (n : Number)
  | string (text : List Char)
  | array (items : List Value)
  | object (members : List (String × Value))

/-- `serde_json::Map`. -/
abbrev Members := List (String × Value)

def Members.get (members : Members) (name : String) : Option Value :=
  (members.find? fun member => member.1 = name).map Prod.snd

def Members.insert (members : Members) (name : String) (value : Value) : Members :=
  if (members.get name).isSome then
    members.map fun member => if member.1 = name then (name, value) else member
  else members ++ [(name, value)]

/-! ## The schema -/

structure TrdpXmlElement where
  name : String
  dataType : String
  typeId : Nat
  arraySize : Nat
  unit : Option String
  scale : Option ℚ
  offset : Option Int

/-- The parser's `dynamic: array_size == 0`. -/
def TrdpXmlElement.dynamic (element : TrdpXmlElement) : Bool := element.arraySize == 0

structure TrdpXmlDataset where
  id : Nat
  elements : List TrdpXmlElement

structure TrdpXmlImport where
  datasets : List TrdpXmlDataset

def TrdpXmlImport.find (imported : TrdpXmlImport) (datasetId : Nat) : Option TrdpXmlDataset :=
  imported.datasets.find? fun dataset => dataset.id = datasetId

/-- As deep as a recursion through the schema can go. -/
def TrdpXmlImport.levels (imported : TrdpXmlImport) : Nat := imported.datasets.length + 1

/-! ## Widths -/

/-- One past the largest `usize`. -/
def USIZE_SIZE : Nat := 2 ^ 64

def checkedMul (m n : Nat) : Option Nat := if m * n < USIZE_SIZE then some (m * n) else none

def checkedAdd (m n : Nat) : Option Nat := if m + n < USIZE_SIZE then some (m + n) else none

def primitiveWidth : Nat → Option Nat
  | 1 | 2 | 4 | 8 => some 1
  | 3 | 5 | 9 => some 2
  | 6 | 10 | 12 | 14 => some 4
  | 15 => some 6
  | 7 | 11 | 13 | 16 => some 8
  | _ => none

/-- The width of one item of a type, where nested datasets have the widths `nested`. -/
def itemWidth (nested : Nat → Option Nat) (typeId : Nat) : Option Nat :=
  match primitiveWidth typeId with
  | some width => some width
  | none => if typeId ≥ 1000 then nested typeId else none

/-- The loop that sums up the elements, or gives up at a dynamic one. -/
def fixedWidth (nested : Nat → Option Nat) : List TrdpXmlElement → Nat → Option Nat
  | [], total => some total
  | element :: elements, total =>
    if element.dynamic then none
    else do
      let width ← itemWidth nested element.typeId
      let product ← checkedMul width element.arraySize
      let total ← checkedAdd total product
      fixedWidth nested elements total

/-- `fixed_dataset_width` with a fresh set. -/
def fixedDatasetWidth (imported : TrdpXmlImport) (datasetId : Nat) : Option Nat :=
  visit imported.find (fun _ => none) (fun _ => none)
    (fun nested dataset => fixedWidth nested dataset.elements 0) imported.levels datasetId []

/-! ## Decoding -/

/-- What ends a decoding: an `Err`, a division by zero, or a sum of `usize` that overflows. -/
inductive Abort where
  | error (text : String)
  | divisionByZero
  | overflow
  deriving DecidableEq

/-- `from_be_bytes` of a signed word. -/
def ofBeSigned (bytes : List UInt8) : Int :=
  if 2 * ofBeList bytes < 256 ^ bytes.length then ofBeList bytes
  else (ofBeList bytes : Int) - 256 ^ bytes.length

def Value.int (n : Int) : Value := .number (.int n)

/-- `json!` of a floating-point number with so many bits of exponent and fraction. JSON has no
infinity and no NaN. -/
def realValue (exponentBits fractionBits bits : Nat) : Value :=
  let fraction := bits % 2 ^ fractionBits
  let exponent := bits / 2 ^ fractionBits % 2 ^ exponentBits
  let negative := bits / 2 ^ (fractionBits + exponentBits) = 1
  let bias : Int := 2 ^ (exponentBits - 1) - 1
  if exponent = 2 ^ exponentBits - 1 then .null
  else
    let significand : ℚ := if exponent = 0 then fraction else fraction + 2 ^ fractionBits
    let magnitude := significand * 2 ^ ((max exponent 1 : Int) - bias - fractionBits)
    .number (.float (if negative then -magnitude else magnitude))

/-- `decode_primitive`, of a slice as long as the type is wide. -/
def decodePrimitive (typeId : Nat) (bytes : List UInt8) : Value :=
  match typeId with
  | 1 => .int (bytes.headD 0).toNat
  | 2 => .string ((bytes.head?.map fun byte => Char.ofNat byte.toNat).toList)
  | 3 | 9 => .int (ofBeList (bytes.take 2))
  | 4 => .int (ofBeSigned [bytes.headD 0])
  | 5 => .int (ofBeSigned (bytes.take 2))
  | 6 => .int (ofBeSigned (bytes.take 4))
  | 7 => .int (ofBeSigned bytes)
  | 8 => .int (bytes.headD 0).toNat
  | 10 | 14 => .int (ofBeList (bytes.take 4))
  | 11 => .int (ofBeList bytes)
  | 12 => realValue 8 23 (ofBeList (bytes.take 4))
  | 13 => realValue 11 52 (ofBeList bytes)
  | 16 =>
    .object [("seconds", .int (ofBeList (bytes.take 4))),
      ("microseconds", .int (ofBeList ((bytes.drop 4).take 4)))]
  | 15 =>
    .object [("seconds", .int (ofBeList (bytes.take 4))),
      ("ticks", .int (ofBeList ((bytes.drop 4).take 2)))]
  | _ => .null

/-- The decoding of a nested dataset: its fields, and the bytes it consumed. -/
abbrev DecodeNested := Nat → List UInt8 → Except Abort (Members × Nat)

def decodeItem (nested : DecodeNested) (typeId width : Nat) (slice : List UInt8) :
    Except Abort Value :=
  if typeId ≥ 1000 then do
    let (fields, consumed) ← nested typeId slice
    if consumed ≠ width then .error (.error s!"嵌套 Dataset {typeId} 长度不一致")
    else .ok (.object fields)
  else .ok (decodePrimitive typeId slice)

/-- The loop over the items of an element, from an offset on. -/
def decodeItems (item : List UInt8 → Except Abort Value) (tooShort : Nat → Abort)
    (payload : List UInt8) (width : Nat) : Nat → Nat → Except Abort (List Value × Nat)
  | 0, offset => .ok ([], offset)
  | count + 1, offset =>
    if USIZE_SIZE ≤ offset + width then .error .overflow
    else if offset + width > payload.length then .error (tooShort offset)
    else do
      let value ← item ((payload.drop offset).take width)
      let (values, offset) ← decodeItems item tooShort payload width count (offset + width)
      .ok (value :: values, offset)

/-- How many items an element has. A dynamic one takes what the elements behind it leave. -/
def itemCount (datasetId : Nat) (element : TrdpXmlElement) (reserved : Option Nat)
    (width length offset : Nat) : Except Abort Nat :=
  if element.dynamic then
    match reserved with
    | none =>
      .error (.error
        s!"Dataset {datasetId} 字段 {element.name} 为动态数组，但其后仍有动态/未知长度字段")
    | some reserved =>
      if USIZE_SIZE ≤ offset + reserved then .error .overflow
      else if length < offset + reserved then .error (.error s!"Dataset {datasetId} payload 长度不足")
      else
        let available := length - offset - reserved
        -- `is_multiple_of(0)` holds of zero alone
        if ¬ width ∣ available then
          .error (.error s!"Dataset {datasetId} 字段 {element.name} 的动态数组长度 {available} 不是元素宽度 {width} 的整数倍")
        else if width = 0 then .error .divisionByZero
        else .ok (available / width)
  else .ok element.arraySize

/-- `as_f64` -/
def Value.asF64 : Value → Option ℚ
  | .number (.int n) => some n
  | .number (.float x) => some x
  | _ => none

/-- The value that is shown: a number of an element with a scale or an offset is converted. -/
def displayValue (element : TrdpXmlElement) (raw : Value) : Value :=
  match raw.asF64 with
  | some number =>
    if element.scale.isSome ∨ element.offset.isSome then
      .number (.float (number * element.scale.getD 1 + element.offset.getD 0))
    else raw
  | none => raw

/-- The `json!` object of a decoded field. -/
def fieldObject (element : TrdpXmlElement) (raw : Value) : Value :=
  .object [("type", .string element.dataType.toList), ("type_id", .int element.typeId),
    ("unit", (element.unit.map fun unit => Value.string unit.toList).getD .null),
    ("raw", raw), ("value", displayValue element raw)]

/-- `raw`: one item stands for itself, unless the element is dynamic. -/
def rawValue (element : TrdpXmlElement) (values : List Value) : Value :=
  match values with
  | [value] => if element.dynamic then .array values else value
  | _ => .array values

section

variable (width : Nat → Option Nat) (nested : DecodeNested) (datasetId : Nat)
  (payload : List UInt8)

/-- One element, in front of `trailing`. -/
def decodeElement (element : TrdpXmlElement) (trailing : List TrdpXmlElement) (offset : Nat) :
    Except Abort (Value × Nat) := do
  let itemWidth ←
    match itemWidth width element.typeId with
    | some itemWidth => .ok itemWidth
    | none =>
      if element.typeId ≥ 1000 then
        .error (.error s!"嵌套 Dataset {element.typeId} 包含动态长度，无法从父 Dataset 自动切片")
      else
        .error (.error
          s!"Dataset {datasetId} 字段 {element.name} 使用未知类型 {element.typeId}")
  let count ← itemCount datasetId element (fixedWidth width trailing 0) itemWidth payload.length
    offset
  let (values, offset) ← decodeItems (decodeItem nested element.typeId itemWidth)
    (fun offset => .error s!"Dataset {datasetId} payload 长度不足：字段 {element.name} 需要 {itemWidth} bytes，当前 offset {offset} / {payload.length}")
    payload itemWidth count offset
  .ok (rawValue element values, offset)

def decodeElements : List TrdpXmlElement → Nat → Members → Except Abort (Members × Nat)
  | [], offset, fields => .ok (fields, offset)
  | element :: elements, offset, fields => do
    let (raw, offset) ← decodeElement width nested datasetId payload element elements offset
    decodeElements elements offset (fields.insert element.name (fieldObject element raw))

end

/-- `decode_dataset_inner` with a fresh set. -/
def decodeDataset (imported : TrdpXmlImport) (datasetId : Nat) :
    List UInt8 → Except Abort (Members × Nat) :=
  visit imported.find (fun id _ => .error (.error s!"Dataset 嵌套循环: {id}"))
    (fun id _ => .error (.error s!"Dataset {id} 不存在"))
    (fun nested dataset payload =>
      decodeElements (fixedDatasetWidth imported) nested dataset.id payload dataset.elements 0 [])
    imported.levels datasetId []

end TauTerm.Trdp
