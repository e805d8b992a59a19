import Mathlib
import TauTerm.Lib.Utf8

/-!
# Rust texts

A text is the list of its characters. `char::is_whitespace`, `str::trim` and the reading of a
byte in hexadecimal.
-/

namespace Lib.Rust

/-! ## Blanks -/

/-- The Unicode property `White_Space`. -/
def isWhitespace (c : Char) : Bool :=
  (0x9 ≤ c.toNat && c.toNat ≤ 0xd) || c.toNat ∈ [0x20, 0x85, 0xa0, 0x1680] ||
  (0x2000 ≤ c.toNat && c.toNat ≤ 0x200a) || c.toNat ∈ [0x2028, 0x2029, 0x202f, 0x205f, 0x3000]

def trim (text : List Char) : List Char := (text.dropWhile isWhitespace).rdropWhile isWhitespace

theorem trim_ne_nil {c : Char} {text : List Char} (hc : isWhitespace c = false) (hmem : c ∈ text) :
    trim text ≠ [] := by
  intro hnil
  rw [trim, List.rdropWhile_eq_nil_iff] at hnil
  by_cases hdrop : text.dropWhile isWhitespace = []
  · rw [List.dropWhile_eq_nil_iff] at hdrop
    rw [hdrop c hmem] at hc
    cases hc
  · have hfirst := List.head_dropWhile_not isWhitespace hdrop
    rw [hnil _ (List.head_mem hdrop)] at hfirst
    cases hfirst

/-! ## Hexadecimal -/

/-- `char::to_digit(16)` -/
def toDigit (c : Char) : Option Nat :=
  if '0' ≤ c ∧ c ≤ '9' then some (c.toNat - 48)
  else if 'a' ≤ c ∧ c ≤ 'f' then some (c.toNat - 87)
  else if 'A' ≤ c ∧ c ≤ 'F' then some (c.toNat - 55)
  else none

/-- The digits of a number that fits into a byte. -/
def parseDigits (value : Nat) : List Char → Option UInt8
  | [] => some (.ofNat value)
  | c :: cs =>
    match toDigit c with
    | some d => if value * 16 + d < 256 then parseDigits (value * 16 + d) cs else none
    | none => none

/-- `u8::from_str_radix(_, 16)`, which takes a plus in front of the digits. -/
def fromStrRadix : List Char → Option UInt8
  | [] => none
  | ['+'] => none
  | '+' :: cs => parseDigits 0 cs
  | cs => parseDigits 0 cs

theorem utf8Size_of_toDigit {c : Char} {d : Nat} (h : toDigit c = some d) : c.utf8Size = 1 := by
  have hc : c.toNat < 128 := by
    unfold toDigit at h
    split_ifs at h with h1 h2 h3
    · have : c.toNat ≤ 57 := h1.2
      omega
    · have : c.toNat ≤ 102 := h2.2
      omega
    · have : c.toNat ≤ 70 := h3.2
      omega
  exact Char.utf8Size_eq_one_iff.mpr (UInt32.le_iff_toNat_le.mpr (Nat.le_of_lt_succ hc))

theorem utf8Size_of_parseDigits {value : Nat} {cs : List Char} {byte : UInt8}
    (h : parseDigits value cs = some byte) : ∀ c ∈ cs, c.utf8Size = 1 := by
  induction cs generalizing value with
  | nil => exact fun c hc => absurd hc List.not_mem_nil
  | cons c cs ih =>
    unfold parseDigits at h
    cases hd : toDigit c with
    | none => rw [hd] at h; cases h
    | some d =>
      rw [hd] at h
      simp only [Option.ite_none_right_eq_some] at h
      exact List.forall_mem_cons.mpr ⟨utf8Size_of_toDigit hd, ih h.2⟩

/-- What is read as a byte is ASCII. -/
theorem utf8Size_of_fromStrRadix {cs : List Char} {c : Char} (h : (fromStrRadix cs).isSome)
    (hc : c ∈ cs) : c.utf8Size = 1 := by
  obtain ⟨byte, hbyte⟩ := Option.isSome_iff_exists.mp h
  unfold fromStrRadix at hbyte
  split at hbyte
  · cases hbyte
  · cases hbyte
  · obtain rfl | hc := List.mem_cons.mp hc
    · decide
    · exact utf8Size_of_parseDigits hbyte c hc
  · exact utf8Size_of_parseDigits hbyte c hc

theorem length_utf8_of_ascii {cs : List Char} (h : ∀ c ∈ cs, c.utf8Size = 1) :
    (utf8 cs).length = cs.length := by
  induction cs with
  | nil => rfl
  | cons c cs ih =>
    obtain ⟨hc, hcs⟩ := List.forall_mem_cons.mp h
    rw [utf8_cons, List.length_append, String.length_utf8EncodeChar, hc, ih hcs, List.length_cons,
      Nat.add_comm]

end Lib.Rust
