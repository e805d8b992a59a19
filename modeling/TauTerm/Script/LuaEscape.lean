import Mathlib
import TauTerm.Lib.Bytes
import TauTerm.Lib.LuaString
import TauTerm.Lib.RustText

/-!
# Lua string literals

The escapes of `kernel/script_engine/codegen.rs`: texts and hexadecimal data become bodies of
double-quoted literals in the script that is generated. U+0000 is written as the decimal escape
`\0`, and a decimal digit behind it is taken into the escape.
-/

namespace TauTerm.Script

open Lib (utf8 utf8_append utf8_cons)
open Lib.LuaString Lib.Rust

/-- `str::replace` of one character. -/
def replaceChar (c : Char) (by' : List Char) (s : List Char) : List Char :=
  s.flatMap fun x => if x = c then by' else [x]

def escapeLuaString (s : List Char) : List Char :=
  replaceChar '\x00' ['\\', '0'] <|
  replaceChar '\t' ['\\', 't'] <|
  replaceChar '\r' ['\\', 'r'] <|
  replaceChar '\n' ['\\', 'n'] <|
  replaceChar '"' ['\\', '"'] <|
  replaceChar '\\' ['\\', '\\'] s

/-! ## Hexadecimal data -/

def chunks : List Char → List (List Char)
  | a :: b :: cs => [a, b] :: chunks cs
  | [a] => [[a]]
  | [] => []

def parseByte (s : List Char) : Except String UInt8 :=
  match fromStrRadix s with
  | some byte => .ok byte
  | none => .error s!"无效的 HEX 字符: \"{String.ofList s}\""

def oddLength (length : Nat) : String :=
  s!"HEX 数据长度为奇数 ({length} 个字符)，每个字节需要 2 个 hex 字符"

def hexToBytes (hex : List Char) : Except String (List UInt8) :=
  let clean := hex.filter fun c => !isWhitespace c
  if clean.isEmpty then .ok []
  else if clean.length % 2 ≠ 0 then .error (oddLength clean.length)
  else (chunks clean).mapM parseByte

/-- A digit of `{:02x}`. -/
def lowerHex (n : Nat) : Char := if n < 10 then Char.ofNat (48 + n) else Char.ofNat (87 + n)

/-- `\x{:02x}` -/
def hexEscape (b : UInt8) : List Char := ['\\', 'x', lowerHex (b.toNat / 16), lowerHex (b.toNat % 16)]

def bytesToLuaEscapes (bytes : List UInt8) : List Char := bytes.flatMap hexEscape

/-- Here the length of the text is the number of its bytes. -/
def hexToLuaEscapes (hex : List Char) : Except String (List Char) :=
  let clean := hex.filter fun c => !isWhitespace c
  if clean.isEmpty then .ok []
  else if (utf8 clean).length % 2 ≠ 0 then .error (oddLength (utf8 clean).length)
  else do
    let bytes ← (chunks clean).mapM parseByte
    .ok (bytes.flatMap hexEscape)

/-! ## Literals -/

/-- The body of a literal is read up to the quote behind it, and denotes `bytes`. -/
def Denotes (body : List Char) (bytes : List UInt8) : Prop :=
  ∀ rest, read .text (utf8 body ++ quote :: rest) = some (bytes, rest)

theorem denotes_inj {body : List Char} {bytes bytes' : List UInt8} (h : Denotes body bytes)
    (h' : Denotes body bytes') : bytes = bytes' := by
  have heq := (h []).symm.trans (h' [])
  exact congrArg Prod.fst (Option.some.inj heq)

theorem read_hexEscape (b : UInt8) (input : List UInt8) :
    read .text (utf8 (hexEscape b) ++ input) = prepend [b] (read .text input) := by
  have hlower : ∀ n < 16, ∃ d, String.utf8EncodeChar (lowerHex n) = [d] ∧ hexDigit d = some n := by
    decide
  have hb := b.toNat_lt
  obtain ⟨high, hhigh, hhigh'⟩ := hlower (b.toNat / 16) (by omega)
  obtain ⟨low, hlow, hlow'⟩ := hlower (b.toNat % 16) (by omega)
  have hbytes : utf8 (hexEscape b) = [backslash, 120, high, low] := by
    unfold hexEscape
    simp only [utf8_cons, hhigh, hlow]
    rfl
  have hvalue : UInt8.ofNat (b.toNat / 16 * 16 + b.toNat % 16) = b := by
    rw [Nat.div_add_mod', UInt8.ofNat_toNat]
  rw [hbytes]
  refine (read_hex hhigh' hlow').trans ?_
  rw [hvalue]
  rfl

theorem denotes_bytesToLuaEscapes (bytes : List UInt8) : Denotes (bytesToLuaEscapes bytes) bytes := by
  intro rest
  induction bytes with
  | nil => exact read_quote
  | cons b bytes ih =>
    unfold bytesToLuaEscapes at ih ⊢
    rw [List.flatMap_cons, utf8_append, List.append_assoc, read_hexEscape, ih]
    rfl

/-! ## Which hexadecimal data is accepted -/

theorem parseByte_ascii {cs : List Char} {byte : UInt8} (h : parseByte cs = .ok byte) :
    (utf8 cs).length = cs.length := by
  unfold parseByte at h
  cases hbyte : fromStrRadix cs with
  | none => rw [hbyte] at h; cases h
  | some b => exact length_utf8_of_ascii fun c hc => utf8Size_of_fromStrRadix (by rw [hbyte]; rfl) hc

theorem chunks_ascii {cs : List Char} {bytes : List UInt8}
    (h : (chunks cs).mapM parseByte = .ok bytes) : (utf8 cs).length = cs.length := by
  induction cs using chunks.induct generalizing bytes with
  | case1 a b cs ih =>
    rw [chunks, List.mapM_cons] at h
    obtain ⟨byte, hbyte, h⟩ := Lib.bind_eq_ok.mp h
    obtain ⟨bytes', hbytes, -⟩ := Lib.bind_eq_ok.mp h
    have hpair := parseByte_ascii hbyte
    have hrest := ih hbytes
    have hsplit : utf8 (a :: b :: cs) = utf8 [a, b] ++ utf8 cs := utf8_append [a, b] cs
    rw [hsplit, List.length_append, hpair, hrest]
    simp only [List.length_cons, List.length_nil]
    omega
  | case2 a =>
    rw [chunks, List.mapM_cons] at h
    obtain ⟨byte, hbyte, -⟩ := Lib.bind_eq_ok.mp h
    exact parseByte_ascii hbyte
  | case3 => rfl

/-- What is accepted as bytes is accepted as a literal. -/
theorem hexToLuaEscapes_of_hexToBytes {hex : List Char} {bytes : List UInt8}
    (h : hexToBytes hex = .ok bytes) : hexToLuaEscapes hex = .ok (bytesToLuaEscapes bytes) := by
  unfold hexToBytes at h
  unfold hexToLuaEscapes
  generalize hex.filter (fun c => !isWhitespace c) = clean at h ⊢
  dsimp only at h ⊢
  split_ifs at h with hempty hodd
  · rw [if_pos hempty]
    cases h
    rfl
  · rw [if_neg hempty, chunks_ascii h, if_neg hodd, h]
    rfl

/-! ## Texts -/

/-- What a character is written as. -/
def escapeChar (c : Char) : List Char :=
  if c = '\\' then ['\\', '\\']
  else if c = '"' then ['\\', '"']
  else if c = '\n' then ['\\', 'n']
  else if c = '\r' then ['\\', 'r']
  else if c = '\t' then ['\\', 't']
  else if c = '\x00' then ['\\', '0']
  else [c]

theorem replaceChar_append (c : Char) (by' s t : List Char) :
    replaceChar c by' (s ++ t) = replaceChar c by' s ++ replaceChar c by' t :=
  List.flatMap_append

/-- No replacement writes a character that a later one replaces. -/
theorem escapeLuaString_eq (s : List Char) : escapeLuaString s = s.flatMap escapeChar := by
  have hone : ∀ c, escapeLuaString [c] = escapeChar c := by
    intro c
    unfold escapeChar
    split_ifs with h1 h2 h3 h4 h5 h6
    · subst h1; decide
    · subst h2; decide
    · subst h3; decide
    · subst h4; decide
    · subst h5; decide
    · subst h6; decide
    · simp only [escapeLuaString, replaceChar, List.flatMap_cons, List.flatMap_nil, List.append_nil,
        if_neg h1, if_neg h2, if_neg h3, if_neg h4, if_neg h5, if_neg h6]
  have happend : ∀ s t, escapeLuaString (s ++ t) = escapeLuaString s ++ escapeLuaString t := by
    intro s t
    simp only [escapeLuaString, replaceChar_append]
  induction s with
  | nil => rfl
  | cons c s ih =>
    rw [List.flatMap_cons, ← hone, ← ih, ← happend]
    rfl

theorem utf8EncodeChar_cases (c : Char) :
    (c.toNat < 128 ∧ String.utf8EncodeChar c = [.ofNat c.toNat]) ∨
      (128 ≤ c.toNat ∧ ∀ b ∈ String.utf8EncodeChar c, 128 ≤ b.toNat) := by
  have hc : c.val.toNat < 0x110000 := by
    have : c.val.toNat < 0xD800 ∨ (0xDFFF < c.val.toNat ∧ c.val.toNat < 0x110000) := c.valid
    omega
  have hbyte : ∀ n < 256, 128 ≤ n → 128 ≤ (UInt8.ofNat n).toNat := by
    intro n hn hle
    rw [Lib.toNat_ofNat_of_lt hn]
    exact hle
  show (c.val.toNat < 128 ∧ _) ∨ (128 ≤ c.val.toNat ∧ _)
  unfold String.utf8EncodeChar Char.toNat
  dsimp only
  generalize c.val.toNat = v at hc
  split_ifs with h1 h2 h3
  · exact .inl ⟨by omega, rfl⟩
  all_goals
    refine .inr ⟨by omega, fun b hb => ?_⟩
    simp only [List.mem_cons, List.not_mem_nil, or_false] at hb
  · rcases hb with rfl | rfl
    · exact hbyte _ (by omega) (by omega)
    · exact hbyte _ (by omega) (by omega)
  · rcases hb with rfl | rfl | rfl
    · exact hbyte _ (by omega) (by omega)
    · exact hbyte _ (by omega) (by omega)
    · exact hbyte _ (by omega) (by omega)
  · rcases hb with rfl | rfl | rfl | rfl
    · exact hbyte _ (by omega) (by omega)
    · exact hbyte _ (by omega) (by omega)
    · exact hbyte _ (by omega) (by omega)
    · exact hbyte _ (by omega) (by omega)

theorem toNat_ne {c d : Char} (h : c ≠ d) : c.toNat ≠ d.toNat := by
  intro heq
  apply h
  exact Char.ext (UInt32.toNat_inj.mp heq)

/-- What is read of a character that is not escaped. -/
theorem plain_utf8 {c : Char} (h1 : c ≠ '\\') (h2 : c ≠ '"') (h3 : c ≠ '\n') (h4 : c ≠ '\r') :
    ∀ b ∈ String.utf8EncodeChar c, Plain b := by
  intro b hb
  have hplain : b.toNat ≠ 34 → b.toNat ≠ 10 → b.toNat ≠ 13 → b.toNat ≠ 92 → Plain b := by
    intro hquote hlf hcr hbackslash
    refine ⟨?_, ?_, ?_, ?_⟩
    · rintro rfl; exact hquote rfl
    · rintro rfl; exact hlf rfl
    · rintro rfl; exact hcr rfl
    · rintro rfl; exact hbackslash rfl
  rcases utf8EncodeChar_cases c with ⟨hascii, hc⟩ | ⟨-, hc⟩
  · rw [hc, List.mem_singleton] at hb
    have hvalue : b.toNat = c.toNat := by rw [hb, Lib.toNat_ofNat_of_lt (by omega)]
    rw [hvalue] at hplain
    exact hplain (toNat_ne h2) (toNat_ne h3) (toNat_ne h4) (toNat_ne h1)
  · have := hc b hb
    apply hplain <;> omega

/-- A decimal escape goes on with a digit. -/
def goesOn (pending : Option (Nat × Nat)) (c : Char) : Option (Nat × Nat) :=
  match pending with
  | some (digits, value) =>
    if digits < 3 ∧ c.isDigit then some (digits + 1, value * 10 + (c.toNat - 48)) else none
  | none => none

def flushed : Option (Nat × Nat) → List UInt8
  | none => []
  | some (_, value) => [.ofNat value]

/-- The bytes that the literal of a text denotes, with a decimal escape that has been begun. -/
def denoted (pending : Option (Nat × Nat)) : List Char → List UInt8
  | [] => flushed pending
  | c :: s =>
    match goesOn pending c with
    | some pending' => denoted (some pending') s
    | none =>
      flushed pending ++
        if c = '\x00' then denoted (some (1, 0)) s else String.utf8EncodeChar c ++ denoted none s

def modeOf : Option (Nat × Nat) → Mode
  | none => .text
  | some (digits, value) => .decimal digits value

/-- A decimal escape whose first digit is zero. -/
def Small : Option (Nat × Nat) → Prop
  | none => True
  | some (digits, value) => digits = 1 ∧ value = 0 ∨ digits = 2 ∧ value < 10 ∨ digits = 3 ∧ value < 100

theorem read_flushed {pending : Option (Nat × Nat)} (hsmall : Small pending) {b : UInt8}
    {input : List UInt8} (hdone : ∀ digits value, pending = some (digits, value) →
      ¬ (digits < 3 ∧ isDigit b = true)) :
    read (modeOf pending) (b :: input) = prepend (flushed pending) (read .text (b :: input)) := by
  cases pending with
  | none => exact (prepend_nil _).symm
  | some p =>
    obtain ⟨digits, value⟩ := p
    refine read_decimal_done (hdone digits value rfl) ?_
    unfold Small at hsmall
    omega

theorem toNat_of_isDigit {c : Char} (h : c.isDigit = true) : 48 ≤ c.toNat ∧ c.toNat ≤ 57 := by
  unfold Char.isDigit at h
  simp only [Bool.and_eq_true, decide_eq_true_eq] at h
  exact h

theorem small_goesOn {pending pending' : Option (Nat × Nat)} {c : Char} (hsmall : Small pending)
    (h : goesOn pending c = pending') : Small pending' := by
  cases pending with
  | none =>
    obtain rfl : none = pending' := h
    trivial
  | some p =>
    obtain ⟨digits, value⟩ := p
    subst h
    unfold goesOn
    dsimp only
    split_ifs with hdigit
    · have hc := toNat_of_isDigit hdigit.2
      unfold Small at hsmall ⊢
      omega
    · trivial

theorem isDigit_ofNat {c : Char} (h : c.toNat < 128) : isDigit (.ofNat c.toNat) = c.isDigit := by
  have hvalue : (UInt8.ofNat c.toNat).toNat = c.toNat := Lib.toNat_ofNat_of_lt (by omega)
  have hlow : (48 : UInt8) ≤ .ofNat c.toNat ↔ 48 ≤ c.toNat := by
    rw [UInt8.le_iff_toNat_le, hvalue]
    rfl
  have hhigh : UInt8.ofNat c.toNat ≤ 57 ↔ c.toNat ≤ 57 := by
    rw [UInt8.le_iff_toNat_le, hvalue]
    rfl
  apply Bool.eq_iff_iff.mpr
  unfold isDigit Char.isDigit
  rw [Bool.and_eq_true, Bool.and_eq_true, decide_eq_true_eq, decide_eq_true_eq, decide_eq_true_eq,
    decide_eq_true_eq, hlow, hhigh]
  rfl

/-- The first byte of what a character is written as is a digit only if the character is. -/
theorem escapeChar_head (c : Char) : ∃ b bytes, utf8 (escapeChar c) = b :: bytes ∧
    (isDigit b = true → c.isDigit = true) := by
  have hself : ∃ b bytes, utf8 [c] = b :: bytes ∧ (isDigit b = true → c.isDigit = true) := by
    rw [utf8_cons]
    rcases utf8EncodeChar_cases c with ⟨hascii, hc⟩ | ⟨-, hc⟩
    · exact ⟨_, _, by rw [hc]; rfl, fun h => (isDigit_ofNat hascii).symm.trans h⟩
    · obtain ⟨b, bytes, hbytes⟩ := List.exists_cons_of_ne_nil (@String.utf8EncodeChar_ne_nil c)
      have := hc b (by rw [hbytes]; exact List.mem_cons_self)
      refine ⟨b, bytes, by rw [hbytes]; exact List.append_nil _, fun h => ?_⟩
      unfold isDigit at h
      rw [Bool.and_eq_true, decide_eq_true_eq, decide_eq_true_eq, UInt8.le_iff_toNat_le,
        UInt8.le_iff_toNat_le] at h
      have : b.toNat ≤ 57 := h.2
      omega
  unfold escapeChar
  split_ifs
  · exact ⟨92, _, rfl, nofun⟩
  · exact ⟨92, _, rfl, nofun⟩
  · exact ⟨92, _, rfl, nofun⟩
  · exact ⟨92, _, rfl, nofun⟩
  · exact ⟨92, _, rfl, nofun⟩
  · exact ⟨92, _, rfl, nofun⟩
  · exact hself

/-- What a character is read as. -/
theorem read_escapeChar (c : Char) (input : List UInt8) :
    read .text (utf8 (escapeChar c) ++ input) =
      if c = '\x00' then read (.decimal 1 0) input
      else prepend (String.utf8EncodeChar c) (read .text input) := by
  have hspecial : ∀ (b e : UInt8) {d : Char}, c = d → d ≠ '\x00' → simpleEscape b = some e →
      utf8 (escapeChar d) = [backslash, b] → String.utf8EncodeChar d = [e] →
        read .text (utf8 (escapeChar c) ++ input) =
          if c = '\x00' then read (.decimal 1 0) input
          else prepend (String.utf8EncodeChar c) (read .text input) := by
    rintro b e d rfl hzero hescape hutf8 hself
    rw [if_neg hzero, hutf8, hself]
    exact read_escape hescape
  by_cases h1 : c = '\\'
  · exact hspecial 92 92 h1 (by decide) rfl (by decide) (by decide)
  by_cases h2 : c = '"'
  · exact hspecial 34 34 h2 (by decide) rfl (by decide) (by decide)
  by_cases h3 : c = '\n'
  · exact hspecial 110 10 h3 (by decide) rfl (by decide) (by decide)
  by_cases h4 : c = '\r'
  · exact hspecial 114 13 h4 (by decide) rfl (by decide) (by decide)
  by_cases h5 : c = '\t'
  · exact hspecial 116 9 h5 (by decide) rfl (by decide) (by decide)
  by_cases h6 : c = '\x00'
  · subst h6
    rw [if_pos rfl]
    have hfirst : read .text (backslash :: 48 :: input) = _ := read_cons rfl
    have hsecond : read .escape (48 :: input) = _ := read_cons rfl
    refine hfirst.trans ?_
    rw [prepend_nil, hsecond, prepend_nil]
    rfl
  · have hself : escapeChar c = [c] := by
      unfold escapeChar
      rw [if_neg h1, if_neg h2, if_neg h3, if_neg h4, if_neg h5, if_neg h6]
    rw [hself, if_neg h6, utf8_cons]
    refine (congrArg (read .text) ?_).trans (read_plain (plain_utf8 h1 h2 h3 h4))
    simp [utf8]

theorem utf8_digit {c : Char} (h : c.isDigit = true) :
    c.toNat < 128 ∧ utf8 (escapeChar c) = [.ofNat c.toNat] := by
  have hrange := toNat_of_isDigit h
  have hne : ∀ d : Char, d.toNat < 48 ∨ 57 < d.toNat → c ≠ d := by
    rintro d hd rfl
    omega
  have hself : escapeChar c = [c] := by
    unfold escapeChar
    rw [if_neg (hne _ (by decide)), if_neg (hne _ (by decide)), if_neg (hne _ (by decide)),
      if_neg (hne _ (by decide)), if_neg (hne _ (by decide)), if_neg (hne _ (by decide))]
  refine ⟨by omega, ?_⟩
  rw [hself]
  rcases utf8EncodeChar_cases c with ⟨-, hc⟩ | ⟨hlarge, -⟩
  · rw [utf8_cons, hc]
    rfl
  · omega

theorem read_denoted {pending : Option (Nat × Nat)} (hsmall : Small pending) (s : List Char)
    (rest : List UInt8) : read (modeOf pending) (utf8 (s.flatMap escapeChar) ++ quote :: rest) =
      some (denoted pending s, rest) := by
  induction s generalizing pending with
  | nil =>
    have hquote : read (modeOf pending) (quote :: rest) = _ := read_flushed hsmall fun _ _ _ h => nomatch h.2
    refine hquote.trans ?_
    rw [read_quote, prepend_some, List.append_nil]
    rfl
  | cons c s ih =>
    rw [List.flatMap_cons, utf8_append, List.append_assoc]
    unfold denoted
    cases hgoes : goesOn pending c with
    | some pending' =>
      -- a digit stands for itself, and its byte is taken by the escape
      have hsmall' : Small (some pending') := small_goesOn hsmall hgoes
      cases pending with
      | none => cases hgoes
      | some p =>
        obtain ⟨digits, value⟩ := p
        unfold goesOn at hgoes
        simp only [Option.ite_none_right_eq_some] at hgoes
        obtain ⟨⟨hdigits, hdigit⟩, hpending⟩ := hgoes
        obtain ⟨hascii, hutf8⟩ := utf8_digit hdigit
        have hstep : step (.decimal digits value) (.ofNat c.toNat) = some ([], some (modeOf (some pending'))) := by
          have hdigit' : isDigit (.ofNat c.toNat) = true := (isDigit_ofNat hascii).trans hdigit
          show (if _ then _ else _) = _
          rw [if_pos ⟨hdigits, hdigit'⟩, Lib.toNat_ofNat_of_lt (by omega), ← hpending]
          rfl
        rw [hutf8]
        refine (read_cons hstep).trans ?_
        rw [prepend_nil]
        exact ih hsmall'
    | none =>
      obtain ⟨b, bytes, hbytes, hb⟩ := escapeChar_head c
      have hflushed := @read_flushed pending hsmall b (bytes ++ (utf8 (s.flatMap escapeChar) ++ quote :: rest))
        (by
          rintro digits value rfl ⟨hdigits, hdigit⟩
          have hmore : goesOn (some (digits, value)) c = some _ := if_pos ⟨hdigits, hb hdigit⟩
          rw [hmore] at hgoes
          cases hgoes)
      rw [← List.cons_append, ← hbytes] at hflushed
      rw [hflushed, read_escapeChar]
      split_ifs
      · have hzero := @ih (some (1, 0)) (.inl ⟨rfl, rfl⟩)
        have : modeOf (some (1, 0)) = .decimal 1 0 := rfl
        rw [this] at hzero
        rw [hzero]
        rfl
      · have htext := @ih none trivial
        have : modeOf none = .text := rfl
        rw [this] at htext
        rw [htext]
        rfl

/-! ## What it denotes -/

/-- No character U+0000 is followed by a decimal digit. -/
def NoZeroDigit (s : List Char) : Prop := s.IsChain fun a b => a = '\x00' → b.isDigit = false

theorem length_utf8EncodeChar_pos (c : Char) : 0 < (String.utf8EncodeChar c).length :=
  List.length_pos_iff.mpr String.utf8EncodeChar_ne_nil

/-- What goes into an escape is not denoted on its own. -/
theorem length_denoted_le (pending : Option (Nat × Nat)) (s : List Char) :
    (denoted pending s).length ≤ (flushed pending).length + (utf8 s).length := by
  induction s generalizing pending with
  | nil => exact Nat.le_add_right _ _
  | cons c s ih =>
    have hc := length_utf8EncodeChar_pos c
    unfold denoted
    rw [utf8_cons, List.length_append]
    cases hgoes : goesOn pending c with
    | some pending' =>
      have hrest := ih (some pending')
      have hone : (flushed (some pending')).length = 1 := rfl
      have hflushed : (flushed pending).length = 1 := by
        cases pending with
        | none => cases hgoes
        | some p => rfl
      dsimp only
      omega
    | none =>
      dsimp only
      rw [List.length_append]
      split_ifs with hzero
      · have hrest := ih (some (1, 0))
        have hone : (flushed (some (1, 0))).length = 1 := rfl
        omega
      · have hrest := ih none
        have hnone : (flushed none).length = 0 := rfl
        rw [List.length_append]
        omega

/-- The literal denotes the text exactly if no digit is taken into an escape. -/
theorem denoted_eq_iff (s : List Char) : denoted none s = utf8 s ↔ NoZeroDigit s := by
  unfold NoZeroDigit
  induction s with
  | nil => exact iff_of_true rfl .nil
  | cons c s ih =>
    have hstep : denoted none (c :: s) =
        if c = '\x00' then denoted (some (1, 0)) s else String.utf8EncodeChar c ++ denoted none s := rfl
    rw [hstep, utf8_cons]
    by_cases hzero : c = '\x00'
    · subst hzero
      rw [if_pos rfl]
      cases s with
      | nil => exact iff_of_true rfl (.singleton _)
      | cons d s =>
        rw [List.isChain_cons_cons]
        cases hdigit : d.isDigit with
        | true =>
          refine iff_of_false (fun heq => ?_) fun h => nomatch h.1 rfl
          have hgoes : goesOn (some (1, 0)) d = some (2, 0 * 10 + (d.toNat - 48)) :=
            if_pos ⟨by omega, hdigit⟩
          have hlength := length_denoted_le (some (2, 0 * 10 + (d.toNat - 48))) s
          have hd := length_utf8EncodeChar_pos d
          have hshort := congrArg List.length heq
          unfold denoted at hshort
          rw [hgoes] at hshort
          dsimp only [flushed] at hshort hlength
          rw [List.length_append, utf8_cons, List.length_append] at hshort
          have hone : (String.utf8EncodeChar '\x00').length = 1 := by decide
          simp only [List.length_cons, List.length_nil] at hlength
          omega
        | false =>
          have hdone : goesOn (some (1, 0)) d = none := if_neg fun h => by simp [hdigit] at h
          have hrest : denoted (some (1, 0)) (d :: s) = 0 :: denoted none (d :: s) := by
            unfold denoted
            rw [hdone]
            rfl
          have hself : String.utf8EncodeChar '\x00' = [0] := by decide
          rw [hrest, hself, List.singleton_append, List.cons.injEq, ih]
          exact ⟨fun h => ⟨fun _ => rfl, h.2⟩, fun h => ⟨rfl, h.2⟩⟩
    · rw [if_neg hzero, List.append_cancel_left_eq, ih]
      cases s with
      | nil => exact iff_of_true .nil (.singleton _)
      | cons d s =>
        rw [List.isChain_cons_cons]
        exact (and_iff_right fun h => absurd h hzero).symm

/-- **Faithful literals.** A text is denoted by its literal exactly if no U+0000 of it is followed by
a digit; hexadecimal data that is accepted always is, by both functions. -/
theorem literals_faithful (s hex : List Char) :
    (Denotes (escapeLuaString s) (utf8 s) ↔ NoZeroDigit s) ∧
    ∀ bytes, hexToBytes hex = .ok bytes → Denotes (bytesToLuaEscapes bytes) bytes ∧
      ∃ escapes, hexToLuaEscapes hex = .ok escapes ∧ Denotes escapes bytes := by
  refine ⟨?_, fun bytes h => ?_⟩
  · have hdenotes : Denotes (escapeLuaString s) (denoted none s) := by
      intro rest
      rw [escapeLuaString_eq]
      exact @read_denoted none trivial s rest
    rw [← denoted_eq_iff]
    constructor
    · exact fun h => denotes_inj hdenotes h
    · intro h
      rw [← h]
      exact hdenotes
  · have hbytes := denotes_bytesToLuaEscapes bytes
    exact ⟨hbytes, _, hexToLuaEscapes_of_hexToBytes h, hbytes⟩

theorem literals_faithful_hex :
    hexToBytes ['4', '1', ' ', '+', 'f'] = .ok [0x41, 0x0F] ∧
      ∃ escapes, hexToLuaEscapes ['4', '1', ' ', '+', 'f'] = .ok escapes ∧ Denotes escapes [0x41, 0x0F] :=
  ⟨rfl, ((literals_faithful [] ['4', '1', ' ', '+', 'f']).2 [0x41, 0x0F] rfl).2⟩

/-- U+0000 and `7` are written as `\07`, which is a BEL. -/
theorem zero_digit_lost : ¬ Denotes (escapeLuaString ['\x00', '7']) (utf8 ['\x00', '7']) := by
  intro h
  have hread := h []
  revert hread
  decide

end TauTerm.Script
