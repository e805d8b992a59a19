import Mathlib

/-!
# Quoted strings of Lua 5.4

The reader of a double-quoted string, behind its opening quote, one byte after the other. A decimal
escape takes up to three digits, so the byte behind it decides whether it goes on.
-/

namespace Lib.LuaString

def quote : UInt8 := 34

def backslash : UInt8 := 92

inductive Mode where
  | text
  | escape
  | hex
  | hexLow (high : Nat)
  | decimal (digits value : Nat)
  | skip
  | lineEnd (first : UInt8)
  | brace
  | codePoint (value : Option Nat)
  deriving DecidableEq

def isDigit (b : UInt8) : Bool := 48 ≤ b && b ≤ 57

def hexDigit (b : UInt8) : Option Nat :=
  if 48 ≤ b ∧ b ≤ 57 then some (b.toNat - 48)
  else if 97 ≤ b ∧ b ≤ 102 then some (b.toNat - 87)
  else if 65 ≤ b ∧ b ≤ 70 then some (b.toNat - 55)
  else none

/-- The escapes of one letter: `\\a \\b \\f \\n \\r \\t \\v \\\\ \\" \\'`. -/
def simpleEscape (b : UInt8) : Option UInt8 :=
  [(97, 7), (98, 8), (102, 12), (110, 10), (114, 13), (116, 9), (118, 11), (92, 92), (34, 34),
    (39, 39)].lookup b

/-- The continuation bytes of `x`, `n` of them. -/
def continuation : Nat → Nat → List UInt8
  | 0, _ => []
  | n + 1, x => continuation n (x / 64) ++ [.ofNat (128 + x % 64)]

/-- UTF-8 up to 2^31. -/
def utf8Escape (x : Nat) : List UInt8 :=
  if x < 0x80 then [.ofNat x]
  else if x < 0x800 then .ofNat (0xC0 + x / 64) :: continuation 1 x
  else if x < 0x10000 then .ofNat (0xE0 + x / 64 ^ 2) :: continuation 2 x
  else if x < 0x200000 then .ofNat (0xF0 + x / 64 ^ 3) :: continuation 3 x
  else if x < 0x4000000 then .ofNat (0xF8 + x / 64 ^ 4) :: continuation 4 x
  else .ofNat (0xFC + x / 64 ^ 5) :: continuation 5 x

/-- What a byte does: what it adds to the string, and how the next one is read, if the string does
not end. -/
def textStep (b : UInt8) : Option (List UInt8 × Option Mode) :=
  if b = quote then some ([], none)
  else if b = 10 ∨ b = 13 then none
  else if b = backslash then some ([], some .escape)
  else some ([b], some .text)

def escapeStep (b : UInt8) : Option (List UInt8 × Option Mode) :=
  match simpleEscape b with
  | some c => some ([c], some .text)
  | none =>
    if b = 120 then some ([], some .hex)
    else if b = 122 then some ([], some .skip)
    else if b = 117 then some ([], some .brace)
    else if b = 10 ∨ b = 13 then some ([10], some (.lineEnd b))
    else if isDigit b then some ([], some (.decimal 1 (b.toNat - 48)))
    else none

def codePointStep (value : Option Nat) (b : UInt8) : Option (List UInt8 × Option Mode) :=
  match hexDigit b with
  | some d =>
    if value.getD 0 * 16 + d < 2 ^ 31 then some ([], some (.codePoint (value.getD 0 * 16 + d)))
    else none
  | none => if b = 125 then value.map fun x => (utf8Escape x, some .text) else none

def step : Mode → UInt8 → Option (List UInt8 × Option Mode)
  | .text, b => textStep b
  | .escape, b => escapeStep b
  | .hex, b => (hexDigit b).map fun high => ([], some (.hexLow high))
  | .hexLow high, b => (hexDigit b).map fun low => ([.ofNat (high * 16 + low)], some .text)
  | .decimal digits value, b =>
    if digits < 3 ∧ isDigit b then some ([], some (.decimal (digits + 1) (value * 10 + (b.toNat - 48))))
    else if value < 256 then (textStep b).map fun r => (.ofNat value :: r.1, r.2)
    else none
  | .skip, b => if b = 32 ∨ (9 ≤ b ∧ b ≤ 13) then some ([], some .skip) else textStep b
  | .lineEnd first, b => if (b = 10 ∨ b = 13) ∧ b ≠ first then some ([], some .text) else textStep b
  | .brace, b => if b = 123 then some ([], some (.codePoint none)) else none
  | .codePoint value, b => codePointStep value b

/-- Bytes in front of what is read. -/
def prepend (out : List UInt8) (r : Option (List UInt8 × List UInt8)) :
    Option (List UInt8 × List UInt8) :=
  r.map fun r => (out ++ r.1, r.2)

/-- The bytes of the string, and the input behind its closing quote. -/
def read : Mode → List UInt8 → Option (List UInt8 × List UInt8)
  | _, [] => none
  | mode, b :: input =>
    match step mode b with
    | none => none
    | some (out, none) => some (out, input)
    | some (out, some mode') => prepend out (read mode' input)

/-- A byte that stands for itself. -/
def Plain (b : UInt8) : Prop := b ≠ quote ∧ b ≠ 10 ∧ b ≠ 13 ∧ b ≠ backslash

variable {mode : Mode} {b c : UInt8} {input : List UInt8}

theorem textStep_plain (h : Plain b) : textStep b = some ([b], some .text) := by
  obtain ⟨hquote, hlf, hcr, hbackslash⟩ := h
  unfold textStep
  rw [if_neg hquote, if_neg (not_or.mpr ⟨hlf, hcr⟩), if_neg hbackslash]

theorem read_cons {out : List UInt8} {mode' : Mode} (h : step mode b = some (out, some mode')) :
    read mode (b :: input) = prepend out (read mode' input) := by
  rw [read, h]

theorem read_end {out : List UInt8} (h : step mode b = some (out, none)) :
    read mode (b :: input) = some (out, input) := by
  rw [read, h]

@[simp] theorem prepend_some (out s rest : List UInt8) :
    prepend out (some (s, rest)) = some (out ++ s, rest) := rfl

theorem prepend_prepend (out out' : List UInt8) (r : Option (List UInt8 × List UInt8)) :
    prepend out (prepend out' r) = prepend (out ++ out') r := by
  cases r with
  | none => rfl
  | some r => exact congrArg some (Prod.ext (List.append_assoc _ _ _).symm rfl)

theorem prepend_nil (r : Option (List UInt8 × List UInt8)) : prepend [] r = r := by
  cases r <;> rfl

theorem read_plain {bytes : List UInt8} (h : ∀ b ∈ bytes, Plain b) :
    read .text (bytes ++ input) = prepend bytes (read .text input) := by
  induction bytes with
  | nil => exact (prepend_nil _).symm
  | cons b bytes ih =>
    have hstep : step .text b = some ([b], some .text) := textStep_plain (h b List.mem_cons_self)
    rw [List.cons_append, read_cons hstep, ih fun b' hb' => h b' (List.mem_cons_of_mem b hb')]
    exact prepend_prepend [b] bytes _

theorem read_escape (h : simpleEscape b = some c) :
    read .text (backslash :: b :: input) = prepend [c] (read .text input) := by
  have hstep : step .escape b = some ([c], some .text) := by
    show escapeStep b = _
    unfold escapeStep
    rw [h]
  have hfirst : read .text (backslash :: b :: input) = _ := read_cons rfl
  rw [hfirst, prepend_nil, read_cons hstep]

theorem read_hex {high low : Nat} (hb : hexDigit b = some high) (hc : hexDigit c = some low) :
    read .text (backslash :: 120 :: b :: c :: input) =
      prepend [.ofNat (high * 16 + low)] (read .text input) := by
  have hhigh : step .hex b = some ([], some (.hexLow high)) := by
    show (hexDigit b).map _ = _
    rw [hb]
    rfl
  have hlow : step (.hexLow high) c = some ([.ofNat (high * 16 + low)], some .text) := by
    show (hexDigit c).map _ = _
    rw [hc]
    rfl
  have hfirst : read .text (backslash :: 120 :: b :: c :: input) = _ := read_cons rfl
  have hsecond : read .escape (120 :: b :: c :: input) = _ := read_cons rfl
  rw [hfirst, prepend_nil, hsecond, prepend_nil, read_cons hhigh, prepend_nil, read_cons hlow]

/-- A decimal escape ends in front of what is no digit, or behind its third digit. -/
theorem read_decimal_done {digits value : Nat} (hdone : ¬ (digits < 3 ∧ isDigit b = true))
    (hvalue : value < 256) : read (.decimal digits value) (b :: input) =
      prepend [.ofNat value] (read .text (b :: input)) := by
  have hstep : step (.decimal digits value) b =
      (textStep b).map fun r => (.ofNat value :: r.1, r.2) := by
    show (if _ then _ else if _ then _ else _) = _
    rw [if_neg hdone, if_pos hvalue]
  have htext : step .text b = textStep b := rfl
  unfold read
  rw [hstep, htext]
  cases textStep b with
  | none => rfl
  | some r =>
    obtain ⟨out, mode⟩ := r
    cases mode with
    | none => rfl
    | some mode => exact (prepend_prepend [.ofNat value] out _).symm

theorem read_quote : read .text (quote :: input) = some ([], input) := read_end rfl

end Lib.LuaString
