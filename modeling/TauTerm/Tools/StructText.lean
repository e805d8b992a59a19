import Mathlib
import TauTerm.Lib.Doubles
import TauTerm.Lib.JsObject
import TauTerm.Lib.Lexemes
import TauTerm.Lib.Numerals
import TauTerm.Tools.ByteNotations
import TauTerm.Tools.Encoding

/-!
# Structures in C, as text and as layout

`parseStructDefinition` takes the body of the first `struct` of a text, or the whole text, cuts it at the
semicolons, reads a type, a name and a count from each piece, and lays the members out one behind the other.
-/

namespace TauTerm.Tools

open Lib Lib.Js

/-! ## Numbers -/

/-- A natural number, or `NaN`; `undefined` is `NaN` under every operation here. -/
abbrev Number := Option Nat

namespace Number

def add (x y : Number) : Number := do return nearest ((← x) + (← y))

def mul (x y : Number) : Number := do return nearest ((← x) * (← y))

/-- `x - y`, for `y` not above `x`. -/
def sub (x y : Number) : Number := do return (← x) - (← y)

def mod (x y : Number) : Number := do
  let n ← x
  let m ← y
  if m = 0 then none else some (n % m)

def min (x y : Number) : Number := do return Nat.min (← x) (← y)

def max (x y : Number) : Number := do return Nat.max (← x) (← y)

end Number

/-- `Number.MAX_SAFE_INTEGER` -/
def MAX_SAFE_INTEGER : Nat := 2 ^ 53 - 1

/-! ## Types -/

inductive StructAbi where
  | ilp32 | lp64 | llp64
  deriving DecidableEq

abbrev StructPack := { pack : Nat // pack ∈ [0, 1, 2, 4, 8] }

structure TypeInfo where
  size : Nat
  align : Nat
  deriving DecidableEq

/-- The entries `name: { size, align }` of the table, in its order. -/
def typeEntries (abi : StructAbi) : List (String × TypeInfo) :=
  let pointer := if abi = .ilp32 then 4 else 8
  let long := if abi = .lp64 then 8 else 4
  [("char", ⟨1, 1⟩), ("signed char", ⟨1, 1⟩), ("unsigned char", ⟨1, 1⟩), ("int8_t", ⟨1, 1⟩), ("uint8_t", ⟨1, 1⟩),
    ("short", ⟨2, 2⟩), ("signed short", ⟨2, 2⟩), ("unsigned short", ⟨2, 2⟩), ("int16_t", ⟨2, 2⟩),
    ("uint16_t", ⟨2, 2⟩), ("int", ⟨4, 4⟩), ("signed int", ⟨4, 4⟩), ("unsigned int", ⟨4, 4⟩), ("int32_t", ⟨4, 4⟩),
    ("uint32_t", ⟨4, 4⟩), ("float", ⟨4, 4⟩), ("long", ⟨long, long⟩), ("signed long", ⟨long, long⟩),
    ("unsigned long", ⟨long, long⟩), ("long long", ⟨8, 8⟩), ("signed long long", ⟨8, 8⟩),
    ("unsigned long long", ⟨8, 8⟩), ("int64_t", ⟨8, 8⟩), ("uint64_t", ⟨8, 8⟩), ("double", ⟨8, 8⟩),
    ("pointer", ⟨pointer, pointer⟩)]

/-- The names are the same under every interface. -/
theorem typeEntries_names (abi : StructAbi) :
    (typeEntries abi).map Prod.fst = (typeEntries .ilp32).map Prod.fst := by
  cases abi <;> rfl

def abiTypeSizes (abi : StructAbi) : JsObject TypeInfo where
  own := typeEntries abi
  nodup := by
    rw [typeEntries_names]
    decide
  hasPrototype := true

/-- `o[name]`, by a name that is a string of code units. -/
def readProperty {V : Type} (o : JsObject V) (name : JsString) : JsRead V :=
  match o.own.find? (text ·.1 = name) with
  | some entry => .value entry.2
  | none => if o.hasPrototype && (prototypeNames.map text).contains name then .inherited else .undefined

/-- `raw.replace(/\s+/g, " ")`: of the spaces in a row, the last one gives the space. -/
def collapseSpaces : JsString → JsString
  | [] => []
  | u :: s =>
    if isSpace u then if s.head?.any isSpace then collapseSpaces s else unit ' ' :: collapseSpaces s
    else u :: collapseSpaces s

/-- The name under which the type is looked up; the text that is displayed is the collapsed one. -/
def normalizeTypeName (raw : JsString) : JsString × JsString :=
  let compact := trim (collapseSpaces raw)
  if compact.getLast? = some (unit '*') then (text "pointer", compact) else (compact, compact)

def effectiveAlign (natural : Number) (pack : StructPack) : Number :=
  if pack.val = 0 then natural else natural.min (some pack.val)

/-! ## Declarations -/

/-- What `.` does not match. -/
def isLineEnd (u : UInt16) : Bool := [0x0A, 0x0D, 0x2028, 0x2029].contains u

/-- `\s+(\*+\s*)?(\w+)` at the head of a text: whether there are stars, the name, and what follows. No part
of it can give a character to the next, so it matches in one way. -/
def matchName (s : JsString) : Option (Bool × JsString × JsString) :=
  let stars := s.dropWhile isSpace
  let unstarred := stars.dropWhile (· = unit '*')
  let hasStars := stars.head? = some (unit '*')
  let named := if hasStars then unstarred.dropWhile isSpace else stars
  if s.head?.any isSpace && named.head?.any isWord then
    some (hasStars, named.takeWhile isWord, named.dropWhile isWord)
  else none

/-- `\s+(\*+\s*)?(\w+)\s*\[(\d+)\]\s*$` -/
def matchArrayEnd (s : JsString) : Option (Bool × JsString × JsString) := do
  let (stars, name, rest) ← matchName s
  match rest.dropWhile isSpace with
  | u :: rest =>
    let digits := rest.takeWhile isDecimal
    match rest.dropWhile isDecimal with
    | v :: rest =>
      if u = unit '[' ∧ digits ≠ [] ∧ v = unit ']' ∧ rest.all isSpace then some (stars, name, digits) else none
    | [] => none
  | [] => none

/-- `\s+(\*+\s*)?(\w+)\s*$` -/
def matchSimpleEnd (s : JsString) : Option (Bool × JsString) := do
  let (stars, name, rest) ← matchName s
  if rest.all isSpace then some (stars, name) else none

/-- `^(.+?)` before something: the shortest text that is followed by it. -/
def matchLazily {α : Type} (follows : JsString → Option α) : JsString → Option (JsString × α)
  | [] => none
  | u :: s =>
    if isLineEnd u then none
    else match follows s with
      | some found => some ([u], found)
      | none => (matchLazily follows s).map fun found => (u :: found.1, found.2)

/-- `rawType`, `memberName` and `count` of a declaration. -/
def readDeclarator (declaration : JsString) : Option (JsString × JsString × Nat) :=
  let rawType (before : JsString) (stars : Bool) := trim before ++ if stars then text " *" else []
  match matchLazily matchArrayEnd declaration, matchLazily matchSimpleEnd declaration with
  | some (before, stars, name, digits), _ =>
    let count := digitsValue 10 digits
    if MAX_SAFE_INTEGER < count ∨ count = 0 then none else some (rawType before stars, name, count)
  | none, some (before, stars, name) => some (rawType before stars, name, 1)
  | none, none => none

theorem not_isSpace_of_isWord {u : UInt16} (hu : isWord u = true) : isSpace u = false := by
  have hlow : ∀ n : Fin 0x7B, isWord (UInt16.ofNat n) = true → isSpace (UInt16.ofNat n) = false := by decide
  have hlt : u.toNat < 0x7B := by
    simp only [isWord, Bool.or_eq_true, Bool.and_eq_true, decide_eq_true_eq] at hu
    omega
  have heq : UInt16.ofNat u.toNat = u := UInt16.ofNat_toNat
  have h := hlow ⟨u.toNat, hlt⟩
  rw [heq] at h
  exact h hu

/-- Words, spaces and the other characters of C. -/
def cLexicon : Lexicon UInt16 where
  isWord := isWord
  isSpace := isSpace
  disjoint _ := not_isSpace_of_isWord

/-- `/\b(union|struct)\b/.test(declaration)`: one of the words that the text is made of. -/
def hasKeyword (declaration : JsString) : Bool :=
  (cLexicon.lex declaration).any fun word => word = text "union" || word = text "struct"

/-- `{([^}]*)}` -/
def matchBraces : JsString → Option JsString
  | u :: s => if u = unit '\x7b' && s.contains (unit '\x7d') then some (s.takeWhile (· ≠ unit '\x7d')) else none
  | [] => none

/-- `struct\s*(?:\w+)?\s*\{([^}]*)\}` at the head of a text. -/
def matchStruct (s : JsString) : Option JsString :=
  if (text "struct").isPrefixOf s then
    matchBraces ((((s.drop 6).dropWhile isSpace).dropWhile isWord).dropWhile isSpace)
  else none

/-- The first match in a text. -/
def braceMatch : JsString → Option JsString
  | [] => none
  | u :: s => (matchStruct (u :: s)).or (braceMatch s)

/-- The pieces of the body that are not empty. -/
def declarations (code : JsString) : List JsString :=
  let body := (braceMatch (trim code)).elim (trim code) trim
  ((body.splitOn (unit ';')).map trim).filter (· ≠ [])

/-! ## Layout -/

structure MemberInfo where
  name : JsString
  type : JsString
  offset : Number
  size : Number
  paddingBefore : Number
  deriving DecidableEq

structure StructInfo where
  members : List MemberInfo
  totalSize : Number
  alignment : Number
  tailPadding : Number
  abi : StructAbi
  pack : StructPack
  deriving DecidableEq

/-- `size` and `align` of what the table has, which are `undefined` when that comes from the prototype. -/
def sizeAndAlign : JsRead TypeInfo → Option (Number × Number)
  | .value info => some (some info.size, some info.align)
  | .inherited => some (none, none)
  | .undefined => none

/-- What a turn of the loop reads from a declaration. -/
structure ReadMember where
  memberName : JsString
  display : JsString
  size : Number
  align : Number
  count : Nat
  deriving DecidableEq

def readMember (abi : StructAbi) (declaration : JsString) : Option ReadMember := do
  if declaration.contains (unit ':') || hasKeyword declaration then none
  else
    let (rawType, memberName, count) ← readDeclarator declaration
    let (lookup, display) := normalizeTypeName rawType
    let (size, align) ← sizeAndAlign (readProperty (abiTypeSizes abi) lookup)
    some ⟨memberName, display, size, align, count⟩

/-- What the loop knows between two declarations. -/
structure Progress where
  members : List MemberInfo
  currentOffset : Number
  maxAlignment : Number

/-- `(alignment - (offset % alignment)) % alignment` -/
def paddingTo (alignment offset : Number) : Number :=
  (alignment.sub (offset.mod alignment)).mod alignment

def typeText (member : ReadMember) : JsString :=
  member.display ++ if member.count > 1 then text "[" ++ numeral 10 member.count ++ text "]" else []

/-- The rest of the turn. -/
def placeMember (pack : StructPack) (progress : Progress) (member : ReadMember) : Progress :=
  let alignment := effectiveAlign member.align pack
  let paddingBefore := paddingTo alignment progress.currentOffset
  let offset := progress.currentOffset.add paddingBefore
  let size := member.size.mul (some member.count)
  { members := progress.members ++ [⟨member.memberName, typeText member, offset, size, paddingBefore⟩]
    currentOffset := offset.add size
    maxAlignment := progress.maxAlignment.max alignment }

/-- What is returned behind the loop. -/
def finish (abi : StructAbi) (pack : StructPack) (progress : Progress) : StructInfo :=
  let structAlignment := effectiveAlign progress.maxAlignment pack
  let tailPadding := paddingTo structAlignment progress.currentOffset
  { members := progress.members
    totalSize := progress.currentOffset.add tailPadding
    alignment := structAlignment
    tailPadding := tailPadding
    abi := abi
    pack := pack }

def parseStructDefinition (code : JsString) (abi : StructAbi) (pack : StructPack) : Option StructInfo :=
  if !(trim code).contains (unit ';') && (braceMatch (trim code)).isNone then none
  else if declarations code = [] then none
  else
    ((declarations code).foldlM
      (fun progress declaration => (readMember abi declaration).map (placeMember pack progress))
      ⟨[], some 0, some 1⟩).map (finish abi pack)

end TauTerm.Tools
