import Mathlib
import TauTerm.Tools.ByteNotations
import TauTerm.Tools.Encoding

/-!
# The conversions and their inverses

What one conversion writes, its inverse reads. Texts that begin with a byte order mark lose it on the way,
and a surrogate that is alone makes the encoder of addresses throw.
-/

namespace TauTerm.Tools

open Lib Lib.Js

variable {bytes : List UInt8} {chars : List Char} {s : JsString} {radix : Radix}

/-! ## Text -/

theorem parse_bytesToHex (hne : bytes ≠ []) : Reports (parseByteInput (bytesToHex bytes)) bytes :=
  parse_normalizedHex hne

theorem strictUtf8Decode_encode_iff (chars : List Char) :
    strictUtf8Decode (encodeUtf8 (utf16 chars)) = .ok (utf16 chars) ↔
      chars.head? ≠ some byteOrderMark := by
  rw [← decodeUtf8_encode_iff]
  unfold strictUtf8Decode
  rw [decodeUtf8_encode]
  dsimp only
  rw [Except.ok.injEq, Option.some.injEq]

theorem encodeUtf8_ne_nil (hne : chars ≠ []) : encodeUtf8 (utf16 chars) ≠ [] := by
  obtain ⟨c, rest, rfl⟩ := List.exists_cons_of_ne_nil hne
  rw [encodeUtf8, toUsv_utf16, utf8_cons]
  exact List.append_ne_nil_of_left_ne_nil String.utf8EncodeChar_ne_nil _

theorem hexToString_bytesToHex (hne : bytes ≠ []) :
    hexToString (bytesToHex bytes) = strictUtf8Decode bytes := by
  obtain ⟨format, hparse⟩ := parse_bytesToHex hne
  rw [hexToString, hparse]

theorem hexToString_stringToHex (hne : chars ≠ []) :
    (∃ encoded, stringToHex (utf16 chars) = .ok encoded ∧ hexToString encoded = .ok (utf16 chars)) ↔
      chars.head? ≠ some byteOrderMark := by
  rw [← strictUtf8Decode_encode_iff, ← hexToString_bytesToHex (encodeUtf8_ne_nil hne)]
  simp only [stringToHex, Except.ok.injEq, exists_eq_left']

theorem isBase64_sextetUnit {n : Nat} (hn : n < 64) : isBase64 (sextetUnit n) = true := by
  rw [isBase64, (sextetUnit_spec hn).1]
  rfl

theorem isCanonical_btoa (bytes : List UInt8) : isCanonical (btoa bytes) = true := by
  have hlt := sextets_lt bytes
  unfold btoa
  induction bytes using sextets.induct with
  | case1 a b c rest ih =>
    simp only [sextets, List.forall_mem_cons] at hlt
    obtain ⟨hx, hy, hz, hw, hrest⟩ := hlt
    have hlength : (a :: b :: c :: rest).length % 3 = rest.length % 3 := by
      simp only [List.length_cons]
      omega
    rw [hlength]
    simp only [sextets, List.map_cons, List.cons_append, isCanonical, isBase64_sextetUnit hx,
      isBase64_sextetUnit hy, isBase64_sextetUnit hz, isBase64_sextetUnit hw, ih hrest, Bool.and_self,
      Bool.true_or]
  | case2 a b =>
    simp only [sextets, List.forall_mem_cons] at hlt
    obtain ⟨hx, hy, hz, -⟩ := hlt
    change isCanonical [_, _, _, unit '='] = true
    simp [isCanonical, isBase64_sextetUnit hx, isBase64_sextetUnit hy, isBase64_sextetUnit hz]
  | case3 a =>
    simp only [sextets, List.forall_mem_cons] at hlt
    obtain ⟨hx, hy, -⟩ := hlt
    change isCanonical [_, _, unit '=', unit '='] = true
    simp [isCanonical, isBase64_sextetUnit hx, isBase64_sextetUnit hy]
  | case4 => rfl

theorem base64Decode_btoa (hne : bytes ≠ []) (ignoreWhitespace : Bool) :
    base64Decode (btoa bytes) ignoreWhitespace = strictUtf8Decode bytes := by
  have hspace : ∀ u ∈ btoa bytes, isSpace u = false := fun u hu => (btoa_mem hu).1
  have hnil : btoa bytes ≠ [] := by
    intro hnil
    have := atob_btoa bytes
    rw [hnil] at this
    exact hne (Option.some.inj this).symm
  have htrim : trim (btoa bytes) ≠ [] := by
    obtain ⟨u, hu⟩ := List.exists_mem_of_ne_nil _ hnil
    intro hall
    have hspace' := trim_eq_nil_iff.mp hall u hu
    rw [hspace u hu] at hspace'
    cases hspace'
  have hany : (btoa bytes).any isSpace = false := List.any_eq_false.mpr fun u hu => by simp [hspace u hu]
  have hfilter : (btoa bytes).filter (fun u => !isSpace u) = btoa bytes :=
    List.filter_eq_self.mpr fun u hu => by rw [hspace u hu]; rfl
  unfold base64Decode
  rw [if_neg htrim, hany, Bool.and_false, if_neg Bool.false_ne_true]
  dsimp only
  rw [hfilter, ite_self, isCanonical_btoa, Bool.not_true, if_neg Bool.false_ne_true, atob_btoa]

theorem base64Decode_encode (hne : chars ≠ []) (ignoreWhitespace : Bool) :
    (∃ encoded, base64Encode (utf16 chars) = .ok encoded ∧
      base64Decode encoded ignoreWhitespace = .ok (utf16 chars)) ↔ chars.head? ≠ some byteOrderMark := by
  rw [← strictUtf8Decode_encode_iff, ← base64Decode_btoa (encodeUtf8_ne_nil hne) ignoreWhitespace]
  simp only [base64Encode, Except.ok.injEq, exists_eq_left']

theorem urlDecode_encode (chars : List Char) :
    ∃ encoded, urlEncode (utf16 chars) = some (.ok encoded) ∧ urlDecode encoded = .ok (utf16 chars) := by
  refine ⟨chars.flatMap encodeUriChar, ?_, ?_⟩
  · rw [urlEncode, encodeURIComponent_utf16]
    rfl
  · rw [urlDecode, decodeURIComponent_encode]

/-! ## Integers -/

/-- Digits that no step of the parsers changes. -/
structure IsPlain (radix : Radix) (digits : JsString) : Prop where
  ne_nil : digits ≠ []
  all : ∀ u ∈ digits, radix.isDigit u = true
  plain : ∀ u ∈ digits, isDigitGap u = false ∧ u ≠ unit '_' ∧ u ≠ unit '+' ∧ u ≠ unit '-' ∧
    radix.isMark u = false

variable {digits : JsString}

namespace IsPlain

theorem isSpace (h : IsPlain radix digits) : ∀ u ∈ digits, isSpace u = false := fun u hu => by
  have := (h.plain u hu).1
  rw [isDigitGap, Bool.or_eq_false_iff] at this
  exact this.1

theorem withoutUnderscores (h : IsPlain radix digits) : withoutUnderscores digits = digits :=
  List.filter_eq_self.mpr fun u hu => by simpa using (h.plain u hu).2.1

theorem digits_eq (h : IsPlain radix digits) : radix.digits digits = digits := by
  obtain _ | ⟨u, _ | ⟨v, rest⟩⟩ := digits
  · rfl
  · rfl
  · have hmark := (h.plain v (List.mem_cons_of_mem u List.mem_cons_self)).2.2.2.2
    rw [Radix.digits, hmark, Bool.and_false, if_neg Bool.false_ne_true]

theorem normalize (h : IsPlain radix digits) : normalizePrefixedDigits radix digits = some digits := by
  have htokens : tokens isDigitGap digits = [digits] := by
    have := tokens_token h.ne_nil (fun u hu => (h.plain u hu).1) (s := []) trivial
    rwa [List.append_nil] at this
  have hall : digits.all radix.isDigit = true := List.all_eq_true.mpr h.all
  unfold normalizePrefixedDigits
  rw [trim_of_forall h.isSpace, if_neg h.ne_nil, htokens]
  simp [cleanDigits, h.digits_eq, h.ne_nil, hall]

theorem splitSign (h : IsPlain radix digits) : splitSign digits = (false, digits) := by
  obtain _ | ⟨u, rest⟩ := digits
  · rfl
  · obtain ⟨-, -, hplus, hminus, -⟩ := h.plain u List.mem_cons_self
    exact if_neg (not_or.mpr ⟨hplus, hminus⟩)

/-- A number that was written down is read again, with its digits. -/
theorem parse_withSign (h : IsPlain radix digits) {value : Int}
    (hvalue : digitsValue radix.base digits = value.natAbs) :
    parseSignedRadix radix (withSign value digits) = some (value, digits) := by
  unfold withSign parseSignedRadix
  split_ifs with hneg
  · have hspace : ∀ u ∈ unit '-' :: digits, Js.isSpace u = false := fun u hu => by
      obtain rfl | hu := List.mem_cons.mp hu
      · decide
      · exact h.isSpace u hu
    have hsign : Tools.splitSign (unit '-' :: digits) = (true, digits) := by
      rw [Tools.splitSign, if_pos (.inr rfl), trim_of_forall h.isSpace]
      rfl
    have hsigned : signed true value.natAbs = value := by
      rw [signed, if_pos rfl]
      omega
    rw [List.singleton_append, trim_of_forall hspace, if_neg (List.cons_ne_nil _ _), hsign]
    dsimp only
    rw [h.withoutUnderscores, h.normalize, Option.map_some, hvalue, hsigned]
  · have hsigned : signed false value.natAbs = value := by
      rw [signed, if_neg Bool.false_ne_true]
      omega
    rw [List.nil_append, trim_of_forall h.isSpace, if_neg h.ne_nil, h.splitSign]
    dsimp only
    rw [h.withoutUnderscores, h.normalize, Option.map_some, hvalue, hsigned]

end IsPlain

theorem padStart_mem {base n width : Nat} (hlow : 2 ≤ base) {u : UInt16}
    (hu : u ∈ padStart width (numeral base n)) : ∃ d, d < base ∧ u = upperHex d := by
  obtain hu | hu := List.mem_append.mp hu
  · exact ⟨0, by omega, List.eq_of_mem_replicate hu⟩
  · exact numeral_mem hlow hu

theorem digitsValue_padStart {base n width : Nat} (hlow : 2 ≤ base) (hhigh : base ≤ 16) :
    digitsValue base (padStart width (numeral base n)) = n := by
  rw [padStart, digitsValue_zeros, digitsValue_numeral hlow hhigh]

theorem padStart_ne_nil (width base n : Nat) : padStart width (numeral base n) ≠ [] :=
  List.append_ne_nil_of_right_ne_nil _ (numeral_ne_nil base n)

theorem isPlain_hex (width n : Nat) : IsPlain hexRadix (padStart width (numeral 16 n)) := by
  have hdigit : ∀ d : Fin 16, isHex (upperHex d) = true ∧ isDigitGap (upperHex d) = false ∧
      upperHex d ≠ unit '_' ∧ upperHex d ≠ unit '+' ∧ upperHex d ≠ unit '-' ∧
        isX (upperHex d) = false := by decide
  refine ⟨padStart_ne_nil width 16 n, fun u hu => ?_, fun u hu => ?_⟩
  · obtain ⟨d, hd, rfl⟩ := padStart_mem (by omega) hu
    exact (hdigit ⟨d, hd⟩).1
  · obtain ⟨d, hd, rfl⟩ := padStart_mem (by omega) hu
    exact (hdigit ⟨d, hd⟩).2

theorem isPlain_bin (width n : Nat) : IsPlain binRadix (padStart width (numeral 2 n)) := by
  have hdigit : ∀ d : Fin 2, binRadix.isDigit (upperHex d) = true ∧ isDigitGap (upperHex d) = false ∧
      upperHex d ≠ unit '_' ∧ upperHex d ≠ unit '+' ∧ upperHex d ≠ unit '-' ∧
        binRadix.isMark (upperHex d) = false := by decide
  refine ⟨padStart_ne_nil width 2 n, fun u hu => ?_, fun u hu => ?_⟩
  · obtain ⟨d, hd, rfl⟩ := padStart_mem (by omega) hu
    exact (hdigit ⟨d, hd⟩).1
  · obtain ⟨d, hd, rfl⟩ := padStart_mem (by omega) hu
    exact (hdigit ⟨d, hd⟩).2

theorem parse_hex (value : Int) (width : Nat) :
    parseSignedRadix hexRadix (withSign value (padStart width (numeral 16 value.natAbs))) =
      some (value, padStart width (numeral 16 value.natAbs)) :=
  (isPlain_hex width _).parse_withSign (digitsValue_padStart (by decide) (by decide))

theorem parse_bin (value : Int) (width : Nat) :
    parseSignedRadix binRadix (withSign value (padStart width (numeral 2 value.natAbs))) =
      some (value, padStart width (numeral 2 value.natAbs)) :=
  (isPlain_bin width _).parse_withSign (digitsValue_padStart (by decide) (by decide))

theorem parseDecimalBigInt_text (value : Int) : parseDecimalBigInt (decimalText value) = some value := by
  have hdigit : ∀ d : Fin 10, isDecimal (upperHex d) = true ∧ isSpace (upperHex d) = false ∧
      upperHex d ≠ unit '_' ∧ upperHex d ≠ unit '+' ∧ upperHex d ≠ unit '-' := by decide
  have hnumeral : ∀ u ∈ numeral 10 value.natAbs, isDecimal u = true ∧ isSpace u = false ∧
      u ≠ unit '_' ∧ u ≠ unit '+' ∧ u ≠ unit '-' := fun u hu => by
    obtain ⟨d, hd, rfl⟩ := numeral_mem (by omega) hu
    exact hdigit ⟨d, hd⟩
  have hvalue := @digitsValue_numeral 10 (by omega) (by omega) value.natAbs
  have hne := numeral_ne_nil 10 value.natAbs
  unfold decimalText withSign parseDecimalBigInt
  generalize numeral 10 value.natAbs = digits at hnumeral hvalue hne
  have hall : digits.all isDecimal = true := List.all_eq_true.mpr fun u hu => (hnumeral u hu).1
  have hclean : withoutUnderscores digits = digits :=
    List.filter_eq_self.mpr fun u hu => by simpa using (hnumeral u hu).2.2.1
  split_ifs with hneg
  · have hspace : ∀ u ∈ unit '-' :: digits, isSpace u = false := fun u hu => by
      obtain rfl | hu := List.mem_cons.mp hu
      · decide
      · exact (hnumeral u hu).2.1
    have hsource : withoutUnderscores (unit '-' :: digits) = unit '-' :: digits := by
      rw [withoutUnderscores, List.filter_cons_of_pos (by decide)]
      exact congrArg _ hclean
    have hsign : decimalSign (unit '-' :: digits) = (true, digits) := by
      rw [decimalSign, if_pos (.inr rfl)]
      rfl
    rw [List.singleton_append, trim_of_forall hspace, hsource, hsign]
    dsimp only
    rw [if_pos ⟨hne, hall⟩, hvalue, signed, if_pos rfl]
    exact congrArg some (by omega)
  · have hsign : decimalSign digits = (false, digits) := by
      obtain ⟨u, rest, rfl⟩ := List.exists_cons_of_ne_nil hne
      obtain ⟨-, -, -, hplus, hminus⟩ := hnumeral u List.mem_cons_self
      exact if_neg (not_or.mpr ⟨hplus, hminus⟩)
    rw [List.nil_append, trim_of_forall fun u hu => (hnumeral u hu).2.1, hclean, hsign]
    dsimp only
    rw [if_pos ⟨hne, hall⟩, hvalue, signed, if_neg Bool.false_ne_true]
    exact congrArg some (by omega)

/-- Through hexadecimal, through binary, and through both. -/
theorem integers_back (value : Int) (width : Nat) :
    (∃ hex, decToHex (decimalText value) width = .ok hex ∧ hexToDec hex = .ok (decimalText value)) ∧
    (∃ bin, decToBin (decimalText value) width = .ok bin ∧ binToDec bin = .ok (decimalText value)) ∧
    ∃ hex bin hex', decToHex (decimalText value) width = .ok hex ∧ hexToBin hex = .ok bin ∧
      binToHex bin = .ok hex' ∧ hexToDec hex' = .ok (decimalText value) := by
  refine ⟨⟨_, by rw [decToHex, parseDecimalBigInt_text], ?_⟩,
    ⟨_, by rw [decToBin, parseDecimalBigInt_text], ?_⟩,
    ⟨_, _, _, by rw [decToHex, parseDecimalBigInt_text], by rw [hexToBin, parse_hex],
      by rw [binToHex, parse_bin], ?_⟩⟩
  · rw [hexToDec, parse_hex]
  · rw [binToDec, parse_bin]
  · rw [hexToDec, parse_hex]

/-! ## Bytes -/

theorem length_swapGroups (byteSize : Nat) (bytes : List UInt8) :
    (swapGroups byteSize bytes).length = bytes.length := by
  rw [swapGroups, List.length_map, List.length_range]

/-- The place of a byte in its group, from the other end. -/
def mirrored (byteSize i : Nat) : Nat := i / byteSize * byteSize + byteSize - 1 - i % byteSize

theorem mirrored_spec {byteSize : Nat} (hsize : 0 < byteSize) (i : Nat) :
    mirrored byteSize i / byteSize = i / byteSize ∧
      mirrored byteSize i % byteSize = byteSize - 1 - i % byteSize := by
  have hlt := Nat.mod_lt i hsize
  have hplace : mirrored byteSize i = byteSize - 1 - i % byteSize + byteSize * (i / byteSize) := by
    rw [mirrored, Nat.mul_comm]
    omega
  rw [hplace, Nat.add_mul_div_left _ _ hsize, Nat.add_mul_mod_self_left,
    Nat.div_eq_of_lt (by omega), Nat.mod_eq_of_lt (by omega), Nat.zero_add]
  exact ⟨rfl, rfl⟩

theorem mirrored_mirrored {byteSize : Nat} (hsize : 0 < byteSize) (i : Nat) :
    mirrored byteSize (mirrored byteSize i) = i := by
  obtain ⟨hdiv, hmod⟩ := mirrored_spec hsize i
  have hlt := Nat.mod_lt i hsize
  have hi := Nat.div_add_mod i byteSize
  rw [mirrored, hdiv, hmod, Nat.mul_comm]
  omega

theorem mirrored_lt {byteSize i length : Nat} (hgroups : length % byteSize = 0) (hsize : 0 < byteSize)
    (hi : i < length) : mirrored byteSize i < length := by
  obtain ⟨groups, rfl⟩ := Nat.dvd_of_mod_eq_zero hgroups
  rw [Nat.mul_comm] at hi ⊢
  rw [← Nat.div_lt_iff_lt_mul hsize] at hi ⊢
  rwa [(mirrored_spec hsize i).1]

theorem swapGroups_swapGroups {byteSize : Nat} (hsize : 0 < byteSize)
    (hgroups : bytes.length % byteSize = 0) : swapGroups byteSize (swapGroups byteSize bytes) = bytes := by
  have hget : ∀ (bytes : List UInt8) (i : Nat), i < bytes.length →
      (swapGroups byteSize bytes).getD i 0 = bytes.getD (mirrored byteSize i) 0 := by
    intro bytes i hi
    rw [swapGroups, List.getD_eq_getElem _ _ (by simpa using hi), List.getElem_map, List.getElem_range,
      mirrored]
  apply List.ext_getElem
  · rw [length_swapGroups, length_swapGroups]
  intro i hi hi'
  have hplace := mirrored_lt hgroups hsize hi'
  rw [← List.getD_eq_getElem (d := 0) _ hi, ← List.getD_eq_getElem (d := 0) _ hi',
    hget _ i (by rwa [length_swapGroups]), hget _ _ hplace, mirrored_mirrored hsize]

theorem swapEndian_swapEndian {byteSize : Nat} (hsize : 0 < byteSize) (hne : bytes ≠ [])
    (hgroups : bytes.length % byteSize = 0) :
    ∃ swapped, swapEndian (bytesToHex bytes) byteSize = .ok swapped ∧
      swapEndian swapped byteSize = .ok (bytesToHex bytes) := by
  have hswap : ∀ {bytes : List UInt8}, bytes ≠ [] → bytes.length % byteSize = 0 →
      swapEndian (bytesToHex bytes) byteSize = .ok (bytesToHex (swapGroups byteSize bytes)) := by
    intro bytes hne hgroups
    obtain ⟨format, hparse⟩ := parse_bytesToHex hne
    rw [swapEndian, hparse]
    exact if_neg (not_not.mpr hgroups)
  have hlength := length_swapGroups byteSize bytes
  refine ⟨_, hswap hne hgroups, ?_⟩
  rw [hswap (fun hnil => hne ?_) (hlength ▸ hgroups), swapGroups_swapGroups hsize hgroups]
  rw [hnil] at hlength
  exact List.eq_nil_of_length_eq_zero hlength.symm

/-- No bytes are written as an empty text, which is no input. -/
theorem swapEndian_nil (byteSize : Nat) :
    swapEndian (bytesToHex []) byteSize = .error ⟨"emptyInput", none⟩ := rfl

/-! ## Packed decimals -/

theorem isDecimal_digit {u : UInt16} (hu : isDecimal u = true) :
    ∃ d, d < 10 ∧ hexDigit u = some d ∧ upperHex d = u ∧ isSpace u = false := by
  rw [isDecimal, Bool.and_eq_true, decide_eq_true_iff, decide_eq_true_iff] at hu
  have hdigit : ∀ d : Fin 10, hexDigit (upperHex d) = some d.val ∧ isSpace (upperHex d) = false := by decide
  have hd : u.toNat - 0x30 < 10 := by omega
  have hunit : upperHex (u.toNat - 0x30) = u := by
    rw [upperHex, if_pos hd, Nat.add_sub_cancel' hu.1, UInt16.ofNat_toNat]
  refine ⟨u.toNat - 0x30, hd, ?_, hunit, ?_⟩
  · conv_lhs => rw [← hunit]
    exact (hdigit ⟨_, hd⟩).1
  · rw [← hunit]
    exact (hdigit ⟨_, hd⟩).2

theorem packedDigits_packDigits (hall : s.all isDecimal = true) (heven : s.length % 2 = 0) :
    packedDigits (packDigits s) = some s := by
  induction s using List.twoStepInduction with
  | nil => rfl
  | singleton => cases heven
  | cons_cons high low rest ih =>
    simp only [List.all_cons, Bool.and_eq_true] at hall
    obtain ⟨h, hh, hhigh, hback, -⟩ := isDecimal_digit hall.1
    obtain ⟨l, hl, hlow, hback', -⟩ := isDecimal_digit hall.2.1
    have hnat : (UInt8.ofNat (h * 16 + l)).toNat = h * 16 + l := toNat_ofNat_of_lt (by omega)
    have hdiv : (h * 16 + l) / 16 = h := by omega
    have hmod : (h * 16 + l) % 16 = l := by omega
    have hrest := ih hall.2.2 (by simp only [List.length_cons] at heven; omega)
    rw [packDigits, hhigh, hlow, Option.getD_some, Option.getD_some, packedDigits]
    rw [hnat, hdiv, hmod, if_neg (by omega), hrest, hback, hback']
    rfl

theorem packDigits_ne_nil (hne : s ≠ []) (heven : s.length % 2 = 0) : packDigits s ≠ [] := by
  obtain _ | ⟨u, _ | ⟨v, rest⟩⟩ := s
  · exact absurd rfl hne
  · cases heven
  · exact List.cons_ne_nil _ _

theorem packedBcd_back (hne : s ≠ []) (hall : s.all isDecimal = true) :
    ∃ packed, decimalToPackedBcd s = .ok packed ∧ packedBcdToDecimal packed = .ok (stripZeros s) := by
  have hunpack : ∀ {s : JsString}, s ≠ [] → s.all isDecimal = true → s.length % 2 = 0 →
      packedBcdToDecimal (bytesToHex (packDigits s)) = .ok (stripZeros s) := by
    intro s hne hall heven
    obtain ⟨format, hparse⟩ := parse_bytesToHex (packDigits_ne_nil hne heven)
    rw [packedBcdToDecimal, hparse]
    dsimp only
    rw [packedDigits_packDigits hall heven]
  have htrim : trim s = s := trim_of_forall fun u hu =>
    (isDecimal_digit (List.all_eq_true.mp hall u hu)).choose_spec.2.2.2
  unfold decimalToPackedBcd
  rw [htrim]
  dsimp only
  rw [if_neg (not_not.mpr ⟨hne, hall⟩)]
  refine ⟨_, rfl, ?_⟩
  split_ifs with hodd
  · have hzero : isDecimal (upperHex 0) = true := by decide
    rw [hunpack (List.cons_ne_nil _ _) (by rw [List.all_cons, hzero, hall]; rfl)
      (by rw [List.length_cons]; omega)]
    -- the zero in front is stripped again
    obtain ⟨u, rest, rfl⟩ := List.exists_cons_of_ne_nil hne
    rw [stripZeros, if_pos rfl]
  · exact hunpack hne hall (not_not.mp hodd)

/-! ## All of them -/

/-- Texts come back unless they begin with a byte order mark (addresses always do); numbers come back, and
bytes if there are any; and nothing throws but the encoder of addresses, at a surrogate that is alone. -/
theorem conversions_inverse (floats : FloatCodec) :
    (∀ chars ≠ [], ∀ ignoreWhitespace,
      ((∃ encoded, base64Encode (utf16 chars) = .ok encoded ∧
        base64Decode encoded ignoreWhitespace = .ok (utf16 chars)) ↔ chars.head? ≠ some byteOrderMark)) ∧
    (∀ chars ≠ [],
      ((∃ encoded, stringToHex (utf16 chars) = .ok encoded ∧ hexToString encoded = .ok (utf16 chars)) ↔
        chars.head? ≠ some byteOrderMark)) ∧
    (∀ chars, ∃ encoded, urlEncode (utf16 chars) = some (.ok encoded) ∧
      urlDecode encoded = .ok (utf16 chars)) ∧
    (∀ value width,
      (∃ hex, decToHex (decimalText value) width = .ok hex ∧ hexToDec hex = .ok (decimalText value)) ∧
      (∃ bin, decToBin (decimalText value) width = .ok bin ∧ binToDec bin = .ok (decimalText value)) ∧
      ∃ hex bin hex', decToHex (decimalText value) width = .ok hex ∧ hexToBin hex = .ok bin ∧
        binToHex bin = .ok hex' ∧ hexToDec hex' = .ok (decimalText value)) ∧
    (∀ byteSize ∈ [1, 2, 4, 8], ∀ bytes, bytes.length % byteSize = 0 →
      ((∃ swapped, swapEndian (bytesToHex bytes) byteSize = .ok swapped ∧
        swapEndian swapped byteSize = .ok (bytesToHex bytes)) ↔ bytes ≠ [])) ∧
    (∀ s ≠ [], s.all isDecimal = true → ∃ packed, decimalToPackedBcd s = .ok packed ∧
      packedBcdToDecimal packed = .ok (stripZeros s)) ∧
    ∀ input op ignoreWhitespace, executeEncodingOp floats input op ignoreWhitespace ≠ none ↔
      (op = .urlEncode → IsWellFormed input) := by
  refine ⟨fun chars hne flag => base64Decode_encode hne flag, fun chars hne => hexToString_stringToHex hne,
    urlDecode_encode, integers_back, fun byteSize hsize bytes hgroups => ?_,
    fun s hne hall => packedBcd_back hne hall, fun input op flag => ?_⟩
  · have hpos : 0 < byteSize := by
      simp only [List.mem_cons, List.not_mem_nil, or_false] at hsize
      omega
    refine ⟨?_, fun hne => swapEndian_swapEndian hpos hne hgroups⟩
    rintro ⟨swapped, hswapped, -⟩ rfl
    rw [swapEndian_nil] at hswapped
    cases hswapped
  · cases op with
    | urlEncode =>
      simp only [executeEncodingOp, urlEncode, ne_eq, Option.map_eq_none_iff, encodeURIComponent_eq_none_iff,
        not_not, true_imp_iff]
    | _ => exact iff_of_true (Option.some_ne_none _) fun h => by cases h

/-- `\uFEFFa` comes back as `a`, through base64 and through hexadecimal; and a lone `\uD800` throws. -/
theorem conversions_lose :
    (base64Encode (utf16 [byteOrderMark, 'a'])).bind (base64Decode · false) = .ok (utf16 ['a']) ∧
    (stringToHex (utf16 [byteOrderMark, 'a'])).bind hexToString = .ok (utf16 ['a']) ∧
    utf16 ['a'] ≠ utf16 [byteOrderMark, 'a'] ∧
    executeEncodingOp ⟨fun _ _ => [], fun _ => []⟩ [0xD800] .urlEncode false = none := by
  decide

end TauTerm.Tools
