import Mathlib
import TauTerm.Lib.Utf16
import TauTerm.Lib.Utf8

/-!
# Text codecs of the web platform

`TextEncoder` and `TextDecoder` for UTF-8, and `encodeURIComponent` with its inverse. A decoder takes a byte
order mark for one and leaves it out; the encoder of components throws at a surrogate that is alone.
-/

namespace Lib.Js

open Lib

/-! ## UTF-8 -/

def encodeUtf8 (s : JsString) : List UInt8 := utf8 (toUsv s)

def byteOrderMark : Char := Char.ofNat 0xFEFF

/-- `new TextDecoder("utf-8", { fatal: true }).decode(bytes)`; `none` where it throws. -/
def decodeUtf8 (bytes : List UInt8) : Option JsString :=
  (fromUtf8 bytes).map fun chars => utf16 (if chars.head? = some byteOrderMark then chars.tail else chars)

theorem utf8WellFormed_encode {c : Char} {lead : UInt8} {bytes : List UInt8} (data : List UInt8)
    (h : String.utf8EncodeChar c = lead :: bytes) : utf8WellFormed lead (bytes ++ data) = true := by
  by_contra hill
  -- what is not well formed is read as a replacement, and the replacement itself is well formed
  have hchar := congrArg Prod.fst (utf8Char_encode data h)
  have hreplaced : (utf8Char lead (bytes ++ data)).1 = Char.ofNat 0xFFFD := by
    unfold utf8WellFormed at hill
    unfold utf8Char
    split_ifs at hill ⊢ with hascii
    · exact absurd rfl hill
    · cases hfollow : utf8Follow lead with
      | none => rfl
      | some follow =>
        obtain ⟨n, lo, hi⟩ := follow
        rw [hfollow] at hill
        dsimp only at hill ⊢
        rw [if_neg (by simpa using hill)]
  rw [hreplaced] at hchar
  subst hchar
  have hbytes : String.utf8EncodeChar (Char.ofNat 0xFFFD) = [0xEF, 0xBF, 0xBD] := by decide
  rw [hbytes] at h
  obtain ⟨rfl, rfl⟩ := List.cons.inj h
  exact hill rfl

theorem utf8Valid_skip (bytes data : List UInt8) :
    utf8Valid bytes.length (bytes ++ data) = utf8Valid 0 data := by
  induction bytes with
  | nil => rfl
  | cons byte bytes ih => exact ih

theorem fromUtf8_encode (chars : List Char) : fromUtf8 (utf8 chars) = some chars := by
  have hvalid : utf8Valid 0 (utf8 chars) = true := by
    induction chars with
    | nil => rfl
    | cons c chars ih =>
      obtain ⟨lead, bytes, h⟩ := List.exists_cons_of_ne_nil (String.utf8EncodeChar_ne_nil (c := c))
      rw [utf8_cons, h, List.cons_append, utf8Valid, utf8WellFormed_encode _ h,
        utf8Char_encode _ h, utf8Valid_skip, ih]
      rfl
  rw [fromUtf8, if_pos hvalid, fromUtf8Lossy_encode]

example : fromUtf8 [0x61, 0xE4, 0xBD, 0xA0] = some "a你".toList ∧ fromUtf8 [0xE4, 0xBD, 0x62] = none := by
  decide

theorem decodeUtf8_encode (chars : List Char) : decodeUtf8 (encodeUtf8 (utf16 chars)) =
    some (utf16 (if chars.head? = some byteOrderMark then chars.tail else chars)) := by
  rw [decodeUtf8, encodeUtf8, toUsv_utf16, fromUtf8_encode]
  rfl

/-- What was encoded is decoded, unless it begins with a byte order mark. -/
theorem decodeUtf8_encode_iff (chars : List Char) :
    decodeUtf8 (encodeUtf8 (utf16 chars)) = some (utf16 chars) ↔ chars.head? ≠ some byteOrderMark := by
  rw [decodeUtf8_encode]
  split_ifs with hmark
  · refine iff_of_false (fun h => ?_) (not_not.mpr hmark)
    have htail : chars.tail = chars := utf16_injective (Option.some.inj h)
    cases chars with
    | nil => cases hmark
    | cons c chars => exact absurd (congrArg List.length htail) (by simp)
  · exact iff_of_true rfl hmark

/-! ## Components of an address -/

/-- The characters that `encodeURIComponent` leaves as they are. -/
def isUnescaped (c : Char) : Bool := c.isAlphanum || "-_.!~*'()".toList.contains c

def percent (byte : UInt8) : JsString :=
  [unit '%', upperHex (byte.toNat / 16), upperHex (byte.toNat % 16)]

def encodeUriChar (c : Char) : JsString :=
  if isUnescaped c then utf16Char c else (String.utf8EncodeChar c).flatMap percent

/-- `encodeURIComponent(s)`; `none` where it throws. -/
def encodeURIComponent (s : JsString) : Option JsString :=
  ((points s).mapM id).map fun chars => chars.flatMap encodeUriChar

/-- The byte of an escape at the front, and what is behind it. -/
def percentByte : JsString → Option (UInt8 × JsString)
  | u :: high :: low :: rest =>
    if u = unit '%' then do
      let h ← hexDigit high
      let l ← hexDigit low
      some (UInt8.ofNat (h * 16 + l), rest)
    else none
  | _ => none

def percentBytes : Nat → JsString → Option (List UInt8 × JsString)
  | 0, s => some ([], s)
  | n + 1, s => do
    let (byte, rest) ← percentByte s
    let (bytes, rest) ← percentBytes n rest
    some (byte :: bytes, rest)

/-- How many bytes are to follow a lead byte. -/
def followers (lead : UInt8) : Option Nat := if lead < 0x80 then some 0 else (utf8Follow lead).map Prod.fst

/-- `decodeURIComponent`, for as many rounds as there is fuel. -/
def decodeUri : Nat → JsString → Option JsString
  | _, [] => some []
  | 0, _ :: _ => none
  | fuel + 1, u :: rest =>
    if u = unit '%' then do
      let (lead, rest) ← percentByte (u :: rest)
      let n ← followers lead
      let (bytes, rest) ← percentBytes n rest
      let chars ← fromUtf8 (lead :: bytes)
      let text ← decodeUri fuel rest
      some (utf16 chars ++ text)
    else (decodeUri fuel rest).map (u :: ·)

/-- `decodeURIComponent(s)`; every round takes a code unit at least. -/
def decodeURIComponent (s : JsString) : Option JsString := decodeUri s.length s

theorem encodeURIComponent_utf16 (chars : List Char) :
    encodeURIComponent (utf16 chars) = some (chars.flatMap encodeUriChar) := by
  have hall : (chars.map some).mapM id = some chars := by
    induction chars with
    | nil => rfl
    | cons c chars ih =>
      rw [List.map_cons, List.mapM_cons, ih]
      rfl
  rw [encodeURIComponent, points_utf16, hall]
  rfl

theorem mapM_id_of_mem {points : List (Option Char)} (h : none ∈ points) : points.mapM id = none := by
  induction points with
  | nil => cases h
  | cons point points ih =>
    rw [List.mapM_cons]
    obtain rfl | h := List.mem_cons.mp h
    · rfl
    · rw [ih h]
      cases point <;> rfl

/-- The encoder throws at surrogates that are alone, and only there. -/
theorem encodeURIComponent_eq_none_iff {s : JsString} : encodeURIComponent s = none ↔ ¬ IsWellFormed s := by
  constructor
  · intro hnone hformed
    obtain ⟨chars, rfl⟩ := isWellFormed_iff.mp hformed
    rw [encodeURIComponent_utf16] at hnone
    cases hnone
  · intro hill
    have hmem : none ∈ points s := by
      by_contra hnot
      exact hill fun point hpoint hnone => hnot (hnone ▸ hpoint)
    rw [encodeURIComponent, mapM_id_of_mem hmem]
    rfl

theorem percentByte_percent (byte : UInt8) (s : JsString) :
    percentByte (percent byte ++ s) = some (byte, s) := by
  have hlt := byte.toNat_lt
  have hbyte : UInt8.ofNat (byte.toNat / 16 * 16 + byte.toNat % 16) = byte := by
    rw [Nat.div_add_mod', UInt8.ofNat_toNat]
  change percentByte (_ :: _ :: _ :: s) = _
  rw [percentByte, if_pos rfl, hexDigit_upperHex (by omega), hexDigit_upperHex (by omega)]
  change some (UInt8.ofNat (byte.toNat / 16 * 16 + byte.toNat % 16), s) = _
  rw [hbyte]

theorem percentBytes_percent (bytes : List UInt8) (s : JsString) :
    percentBytes bytes.length (bytes.flatMap percent ++ s) = some (bytes, s) := by
  induction bytes with
  | nil => rfl
  | cons byte bytes ih =>
    rw [List.flatMap_cons, List.append_assoc, List.length_cons, percentBytes, percentByte_percent]
    change (percentBytes bytes.length (bytes.flatMap percent ++ s)).bind _ = _
    rw [ih]
    rfl

theorem followers_encode {c : Char} {lead : UInt8} {bytes : List UInt8}
    (h : String.utf8EncodeChar c = lead :: bytes) : followers lead = some bytes.length := by
  have hcount := congrArg Prod.snd (utf8Char_encode [] h)
  have hvalid := utf8WellFormed_encode [] h
  unfold utf8Char at hcount
  unfold utf8WellFormed at hvalid
  unfold followers
  split_ifs at hcount hvalid ⊢
  · exact congrArg some hcount
  · cases hfollow : utf8Follow lead with
    | none =>
      rw [hfollow] at hvalid
      cases hvalid
    | some follow =>
      obtain ⟨n, lo, hi⟩ := follow
      rw [hfollow] at hcount hvalid
      dsimp only at hcount hvalid
      rw [if_pos (by simpa using hvalid)] at hcount
      exact congrArg some hcount

theorem utf16Char_unescaped {c : Char} (h : isUnescaped c = true) :
    ∃ u, utf16Char c = [u] ∧ u ≠ unit '%' := by
  have hlt : c.toNat < 0x80 := by
    rw [isUnescaped, Bool.or_eq_true] at h
    obtain h | h := h
    · simp only [Char.isAlphanum, Char.isAlpha, Char.isUpper, Char.isLower, Char.isDigit, Bool.or_eq_true,
        Bool.and_eq_true, decide_eq_true_eq, ge_iff_le, UInt32.le_iff_toNat_le] at h
      change c.val.toNat < 0x80
      obtain (⟨-, h⟩ | ⟨-, h⟩) | ⟨-, h⟩ := h
      · exact h.trans_lt (by decide)
      · exact h.trans_lt (by decide)
      · exact h.trans_lt (by decide)
    · have hall : "-_.!~*'()".toList.all (fun c => c.toNat < 0x80) = true := by decide
      exact of_decide_eq_true (List.all_eq_true.mp hall c (List.contains_iff_mem.mp h))
  refine ⟨UInt16.ofNat c.toNat, by rw [utf16Char, if_pos (by omega)], fun hpercent => ?_⟩
  have hnat := congrArg UInt16.toNat hpercent
  rw [toNat_unit (by omega)] at hnat
  have hc : c = '%' := Char.toNat_inj.mp hnat
  rw [hc] at h
  exact absurd h (by decide)

theorem decodeUri_encode (chars : List Char) {fuel : Nat}
    (hfuel : (chars.flatMap encodeUriChar).length ≤ fuel) :
    decodeUri fuel (chars.flatMap encodeUriChar) = some (utf16 chars) := by
  induction chars generalizing fuel with
  | nil => cases fuel <;> rfl
  | cons c chars ih =>
    rw [List.flatMap_cons] at hfuel ⊢
    rw [utf16_cons]
    by_cases hc : isUnescaped c = true
    · obtain ⟨u, hu, hne⟩ := utf16Char_unescaped hc
      rw [encodeUriChar, if_pos hc, hu] at hfuel ⊢
      rw [List.singleton_append] at hfuel ⊢
      obtain _ | fuel := fuel
      · cases hfuel
      · rw [decodeUri, if_neg hne, ih (Nat.le_of_succ_le_succ hfuel)]
        rfl
    · obtain ⟨lead, bytes, hbytes⟩ := List.exists_cons_of_ne_nil (String.utf8EncodeChar_ne_nil (c := c))
      have hchar : fromUtf8 (lead :: bytes) = some [c] := by
        rw [← hbytes, ← fromUtf8_encode, utf8, List.flatMap_singleton]
      rw [encodeUriChar, if_neg hc, hbytes, List.flatMap_cons, List.append_assoc] at hfuel ⊢
      obtain _ | fuel := fuel
      · cases hfuel
      · change decodeUri (fuel + 1) (unit '%' :: _) = _
        rw [decodeUri, if_pos rfl]
        change (percentByte (percent lead ++ (bytes.flatMap percent ++ chars.flatMap encodeUriChar))).bind _ = _
        rw [percentByte_percent, Option.bind_some]
        change (followers lead).bind _ = _
        rw [followers_encode hbytes, Option.bind_some]
        change (percentBytes bytes.length _).bind _ = _
        rw [percentBytes_percent, Option.bind_some]
        change (fromUtf8 (lead :: bytes)).bind _ = _
        rw [hchar, Option.bind_some]
        have hrest : (chars.flatMap encodeUriChar).length ≤ fuel := by
          simp only [List.length_append, percent, List.length_cons] at hfuel
          omega
        change (decodeUri fuel _).bind _ = _
        rw [ih hrest, Option.bind_some]
        rw [utf16_cons]
        simp [utf16]

theorem decodeURIComponent_encode (chars : List Char) :
    decodeURIComponent (chars.flatMap encodeUriChar) = some (utf16 chars) :=
  decodeUri_encode chars le_rfl

end Lib.Js
