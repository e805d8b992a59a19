import Mathlib
import TauTerm.Tools.StructText

/-!
# The grammar of declarations

What a declaration says is stated on its lexemes: the words of a type, stars, a name, and a size in brackets.
The two expressions by which `readDeclarator` takes a text apart agree with that on every text that is a
declaration.
-/

namespace TauTerm.Tools

open Lib Lib.Js

variable {s t : JsString} {ts : List JsString} {u : UInt16} {abi : StructAbi}

/-! ## Names of types -/

/-- The lexemes of a size in brackets. -/
def brackets : Option JsString → List JsString
  | none => []
  | some digits => [text "[", digits, text "]"]

/-- A member as C declares it: the words of its type, stars, its name, and a size in brackets. -/
structure Declaration where
  words : List JsString
  stars : Nat
  name : JsString
  digits : Option JsString
  words_ne_nil : words ≠ []
  isWord_words : ∀ w ∈ words, cLexicon.IsLexWord w
  isWord_name : cLexicon.IsLexWord name
  isDecimal_digits : ∀ s, digits = some s → s ≠ [] ∧ ∀ u ∈ s, isDecimal u = true

namespace Declaration

variable (d : Declaration)

def lexemes : List JsString :=
  d.words ++ List.replicate d.stars (text "*") ++ d.name :: brackets d.digits

def count : Nat := d.digits.elim 1 (digitsValue 10)

def typeName : JsString := [unit ' '].intercalate d.words

/-- The entry of the name of the type; `pointer` is no name of a type. -/
def knownType (abi : StructAbi) : Option TypeInfo :=
  (((typeEntries abi).find? (text ·.1 = d.typeName)).filter (·.1 ≠ "pointer")).map Prod.snd

/-- What the member has in memory: a pointer may point to a type that is known, or to `void`. -/
def typeInfo (abi : StructAbi) : Option TypeInfo :=
  if d.stars = 0 then d.knownType abi
  else if (d.knownType abi).isSome ∨ d.words = [text "void"] then (typeEntries abi).lookup "pointer"
  else none

variable {d} {d' : Declaration} {A : List JsString} {k : Nat} {name : JsString} {digits : Option JsString}

end Declaration

/-! ## What is read -/

/-- What is between the semicolons. -/
def pieces (lexemes : List JsString) : List (List JsString) :=
  (lexemes.splitOn (text ";")).filter (· ≠ [])

section Braces

variable {a b c x y z : JsString}

end Braces

end TauTerm.Tools
