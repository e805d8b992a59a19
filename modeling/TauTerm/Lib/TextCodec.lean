import Mathlib
import TauTerm.Lib.WebText

/-!
# Encodings of text

A codec writes a text character by character and reads it back strictly: what is read was written
so, and there is no other way to write it. UTF-8 and the two orders of UTF-16 are such, and a
platform decoder over one leaves out a byte order mark at the front.
-/

namespace Lib

open Js

structure TextCodec where
  encodeChar : Char → List UInt8
  decode : List UInt8 → Option (List Char)
  decode_nil : decode [] = some []
  decode_encodeChar : ∀ c rest, decode (encodeChar c ++ rest) = (decode rest).map (c :: ·)
  decode_sound : ∀ {bytes chars}, decode bytes = some chars → chars.flatMap encodeChar = bytes

namespace TextCodec

variable (codec : TextCodec)

def encode (chars : List Char) : List UInt8 := chars.flatMap codec.encodeChar

/-- The byte order mark. -/
def mark : List UInt8 := codec.encodeChar byteOrderMark

/-- `new TextDecoder(encoding, { fatal: true }).decode(bytes)`; `none` where it throws. -/
def textDecoder (bytes : List UInt8) : Option JsString :=
  (codec.decode bytes).map fun chars =>
    utf16 (if chars.head? = some byteOrderMark then chars.tail else chars)

variable {codec}

theorem decode_encode_append (chars : List Char) (rest : List UInt8) :
    codec.decode (codec.encode chars ++ rest) = (codec.decode rest).map (chars ++ ·) := by
  induction chars with
  | nil => simp [encode]
  | cons c chars ih =>
    rw [encode, List.flatMap_cons, List.append_assoc, codec.decode_encodeChar, ← encode, ih,
      Option.map_map]
    rfl

theorem decode_encode (chars : List Char) : codec.decode (codec.encode chars) = some chars := by
  have h := @decode_encode_append codec chars []
  rwa [List.append_nil, codec.decode_nil, Option.map_some, List.append_nil] at h

theorem encode_injective : Function.Injective codec.encode := fun a b h =>
  Option.some.inj (by rw [← @decode_encode codec a, h, decode_encode])

/-- A text begins with the bytes of a mark exactly if it begins with a mark. -/
theorem mark_prefix_encode_iff {chars : List Char} :
    codec.mark <+: codec.encode chars ↔ chars.head? = some byteOrderMark := by
  constructor
  · rintro ⟨rest, hrest⟩
    have hdecode := congrArg codec.decode hrest
    rw [mark, codec.decode_encodeChar, decode_encode] at hdecode
    obtain ⟨tail, -, rfl⟩ := Option.map_eq_some_iff.mp hdecode
    rfl
  · intro hhead
    cases chars with
    | nil => cases hhead
    | cons c chars =>
      obtain rfl : c = byteOrderMark := Option.some.inj hhead
      exact ⟨codec.encode chars, rfl⟩

theorem textDecoder_encode (chars : List Char) : codec.textDecoder (codec.encode chars) =
    some (utf16 (if chars.head? = some byteOrderMark then chars.tail else chars)) := by
  rw [textDecoder, decode_encode]
  rfl

theorem textDecoder_eq_some {bytes : List UInt8} {s : JsString}
    (h : codec.textDecoder bytes = some s) : ∃ chars, bytes = codec.encode chars ∧
      s = utf16 (if chars.head? = some byteOrderMark then chars.tail else chars) := by
  obtain ⟨chars, hchars, rfl⟩ := Option.map_eq_some_iff.mp h
  exact ⟨chars, (codec.decode_sound hchars).symm, rfl⟩

end TextCodec

/-! ## UTF-8 -/

/-- Two bytes of UTF-8. -/
theorem utf8EncodeChar_two {lead b : UInt8} (hlo : 0xC2 ≤ lead.toNat) (hhi : lead.toNat ≤ 0xDF)
    (hb : IsContinuation b) :
    String.utf8EncodeChar (Char.ofNat (lead.toNat % 32 * 64 + b.toNat % 64)) = [lead, b] := by
  obtain ⟨hb1, hb2⟩ := hb
  generalize hv : lead.toNat % 32 * 64 + b.toNat % 64 = v
  have hchar : (Char.ofNat v).val.toNat = v := toNat_char (.inl (by omega))
  have hlead : UInt8.ofNat (v / 64 % 32 + 192) = lead := by
    rw [← UInt8.toNat_inj, toNat_ofNat_of_lt (by omega)]
    omega
  have hlast : UInt8.ofNat (v % 64 + 128) = b := by
    rw [← UInt8.toNat_inj, toNat_ofNat_of_lt (by omega)]
    omega
  unfold String.utf8EncodeChar
  simp only [hchar]
  rw [if_neg (by omega), if_pos (by omega)]
  exact congrArg₂ _ hlead (congrArg₂ _ hlast rfl)

/-- Three bytes of UTF-8. -/
theorem utf8EncodeChar_three {lead b c : UInt8} (hlo : 0xE0 ≤ lead.toNat) (hhi : lead.toNat ≤ 0xEF)
    (hb : IsContinuation b) (hc : IsContinuation c) (hlong : lead.toNat = 0xE0 → 0xA0 ≤ b.toNat)
    (hsurrogate : lead.toNat = 0xED → b.toNat ≤ 0x9F) :
    String.utf8EncodeChar (Char.ofNat ((lead.toNat % 16 * 64 + b.toNat % 64) * 64 + c.toNat % 64)) =
      [lead, b, c] := by
  obtain ⟨hb1, hb2⟩ := hb
  obtain ⟨hc1, hc2⟩ := hc
  generalize hv : (lead.toNat % 16 * 64 + b.toNat % 64) * 64 + c.toNat % 64 = v
  have hchar : (Char.ofNat v).val.toNat = v :=
    toNat_char (show v < 0xD800 ∨ (0xDFFF < v ∧ v < 0x110000) by omega)
  have hlead : UInt8.ofNat (v / 64 / 64 % 16 + 224) = lead := by
    rw [← UInt8.toNat_inj, toNat_ofNat_of_lt (by omega)]
    omega
  have hmid : UInt8.ofNat (v / 64 % 64 + 128) = b := by
    rw [← UInt8.toNat_inj, toNat_ofNat_of_lt (by omega)]
    omega
  have hlast : UInt8.ofNat (v % 64 + 128) = c := by
    rw [← UInt8.toNat_inj, toNat_ofNat_of_lt (by omega)]
    omega
  rw [Nat.div_div_eq_div_mul] at hlead
  unfold String.utf8EncodeChar
  simp only [hchar]
  rw [if_neg (by omega), if_neg (by omega), if_pos (by omega)]
  exact congrArg₂ _ hlead (congrArg₂ _ hmid (congrArg₂ _ hlast rfl))

/-- Four bytes of UTF-8. -/
theorem utf8EncodeChar_four {lead b c d : UInt8} (hlo : 0xF0 ≤ lead.toNat) (hhi : lead.toNat ≤ 0xF4)
    (hb : IsContinuation b) (hc : IsContinuation c) (hd : IsContinuation d)
    (hlong : lead.toNat = 0xF0 → 0x90 ≤ b.toNat) (hend : lead.toNat = 0xF4 → b.toNat ≤ 0x8F) :
    String.utf8EncodeChar (Char.ofNat
      (((lead.toNat % 8 * 64 + b.toNat % 64) * 64 + c.toNat % 64) * 64 + d.toNat % 64)) =
        [lead, b, c, d] := by
  obtain ⟨hb1, hb2⟩ := hb
  obtain ⟨hc1, hc2⟩ := hc
  obtain ⟨hd1, hd2⟩ := hd
  generalize hv : ((lead.toNat % 8 * 64 + b.toNat % 64) * 64 + c.toNat % 64) * 64 + d.toNat % 64 = v
  have hchar : (Char.ofNat v).val.toNat = v :=
    toNat_char (show v < 0xD800 ∨ (0xDFFF < v ∧ v < 0x110000) by omega)
  have hlead : UInt8.ofNat (v / 64 / 64 / 64 % 8 + 240) = lead := by
    rw [← UInt8.toNat_inj, toNat_ofNat_of_lt (by omega)]
    omega
  have hsecond : UInt8.ofNat (v / 64 / 64 % 64 + 128) = b := by
    rw [← UInt8.toNat_inj, toNat_ofNat_of_lt (by omega)]
    omega
  have hthird : UInt8.ofNat (v / 64 % 64 + 128) = c := by
    rw [← UInt8.toNat_inj, toNat_ofNat_of_lt (by omega)]
    omega
  have hlast : UInt8.ofNat (v % 64 + 128) = d := by
    rw [← UInt8.toNat_inj, toNat_ofNat_of_lt (by omega)]
    omega
  rw [Nat.div_div_eq_div_mul, Nat.div_div_eq_div_mul] at hlead
  rw [Nat.div_div_eq_div_mul] at hsecond
  unfold String.utf8EncodeChar
  simp only [hchar]
  rw [if_neg (by omega), if_neg (by omega), if_neg (by omega)]
  exact congrArg₂ _ hlead (congrArg₂ _ hsecond (congrArg₂ _ hthird (congrArg₂ _ hlast rfl)))

/-- What continues a lead byte, the first byte of it within its own range. -/
theorem utf8Continuation_full {n : Nat} {lo hi : UInt8} {data : List UInt8} (hlo : 0x80 ≤ lo.toNat)
    (hhi : hi.toNat ≤ 0xBF) (h : (utf8Continuation (n + 1) lo hi data).length = n + 1) :
    ∃ b bytes rest, data = b :: bytes ++ rest ∧ bytes.length = n ∧
      utf8Continuation (n + 1) lo hi data = b :: bytes ∧ lo.toNat ≤ b.toNat ∧ b.toNat ≤ hi.toNat ∧
      IsContinuation b ∧ ∀ c ∈ bytes, IsContinuation c := by
  obtain ⟨hall, rest, hrest⟩ := utf8Continuation_spec (n := n + 1) data hlo hhi
  cases data with
  | nil => cases h
  | cons b data =>
    rw [utf8Continuation] at h hall hrest ⊢
    split_ifs at h hall hrest ⊢ with hrange
    · refine ⟨b, _, rest, hrest.symm, by simpa using h, rfl, UInt8.le_iff_toNat_le.mp hrange.1,
        UInt8.le_iff_toNat_le.mp hrange.2, hall b List.mem_cons_self, fun c hc => ?_⟩
      exact hall c (List.mem_cons_of_mem _ hc)

theorem utf8Continuation_three {lead lo hi : UInt8} {data : List UInt8} (hlo : 0x80 ≤ lo.toNat)
    (hhi : hi.toNat ≤ 0xBF) (hlen : (utf8Continuation 2 lo hi data).length = 2)
    (hlead : 0xE0 ≤ lead.toNat) (hlead' : lead.toNat ≤ 0xEF)
    (hlong : lead.toNat = 0xE0 → 0xA0 ≤ lo.toNat) (hsurrogate : lead.toNat = 0xED → hi.toNat ≤ 0x9F) :
    ∃ bytes rest, data = bytes ++ rest ∧ 2 = bytes.length ∧
      String.utf8EncodeChar (Char.ofNat ((utf8Continuation 2 lo hi data).foldl
        (fun acc byte => acc * 64 + byte.toNat % 64) (lead.toNat % 2 ^ (6 - 2)))) = lead :: bytes := by
  obtain ⟨b, bytes, rest, hdata, hcount, hcont, hfirst, hfirst', hb, hall⟩ :=
    utf8Continuation_full hlo hhi hlen
  obtain ⟨c, rfl⟩ := List.length_eq_one_iff.mp hcount
  refine ⟨[b, c], rest, hdata, rfl, ?_⟩
  rw [hcont]
  exact utf8EncodeChar_three hlead hlead' hb (hall c List.mem_cons_self)
    (fun h => (hlong h).trans hfirst) fun h => hfirst'.trans (hsurrogate h)

theorem utf8Continuation_four {lead lo hi : UInt8} {data : List UInt8} (hlo : 0x80 ≤ lo.toNat)
    (hhi : hi.toNat ≤ 0xBF) (hlen : (utf8Continuation 3 lo hi data).length = 3)
    (hlead : 0xF0 ≤ lead.toNat) (hlead' : lead.toNat ≤ 0xF4)
    (hlong : lead.toNat = 0xF0 → 0x90 ≤ lo.toNat) (hend : lead.toNat = 0xF4 → hi.toNat ≤ 0x8F) :
    ∃ bytes rest, data = bytes ++ rest ∧ 3 = bytes.length ∧
      String.utf8EncodeChar (Char.ofNat ((utf8Continuation 3 lo hi data).foldl
        (fun acc byte => acc * 64 + byte.toNat % 64) (lead.toNat % 2 ^ (6 - 3)))) = lead :: bytes := by
  obtain ⟨b, bytes, rest, hdata, hcount, hcont, hfirst, hfirst', hb, hall⟩ :=
    utf8Continuation_full hlo hhi hlen
  obtain ⟨c, d, rfl⟩ := List.length_eq_two.mp hcount
  refine ⟨[b, c, d], rest, hdata, rfl, ?_⟩
  rw [hcont]
  exact utf8EncodeChar_four hlead hlead' hb (hall c List.mem_cons_self)
    (hall d (List.mem_cons_of_mem _ List.mem_cons_self)) (fun h => (hlong h).trans hfirst)
    fun h => hfirst'.trans (hend h)

/-- A well-formed character is written as it was read. -/
theorem utf8EncodeChar_utf8Char {lead : UInt8} {data : List UInt8}
    (h : utf8WellFormed lead data = true) :
    ∃ bytes rest, data = bytes ++ rest ∧ (utf8Char lead data).2 = bytes.length ∧
      String.utf8EncodeChar (utf8Char lead data).1 = lead :: bytes := by
  unfold utf8WellFormed at h
  unfold utf8Char
  split_ifs at h ⊢ with hascii
  · have hlt : lead.toNat < 0x80 := UInt8.lt_iff_toNat_lt.mp hascii
    have hchar : (Char.ofNat lead.toNat).val.toNat = lead.toNat := toNat_char (.inl (by omega))
    refine ⟨[], data, rfl, rfl, ?_⟩
    unfold String.utf8EncodeChar
    simp only [hchar]
    rw [if_pos (by omega)]
    exact congrArg₂ _ UInt8.ofNat_toNat rfl
  · cases hfollow : utf8Follow lead with
    | none =>
      rw [hfollow] at h
      cases h
    | some follow =>
      obtain ⟨n, lo, hi⟩ := follow
      rw [hfollow] at h
      have hlen : (utf8Continuation n lo hi data).length = n := by simpa using h
      obtain ⟨hlo, hhi⟩ := utf8Follow_range hfollow
      dsimp only
      rw [if_pos hlen]
      rw [utf8Follow_toNat] at hfollow
      split_ifs at hfollow <;> cases hfollow
      · obtain ⟨b, bytes, rest, hdata, hcount, hcont, -, -, hb, -⟩ := utf8Continuation_full hlo hhi hlen
        obtain rfl := List.length_eq_zero_iff.mp hcount
        refine ⟨[b], rest, hdata, rfl, ?_⟩
        rw [hcont]
        exact utf8EncodeChar_two (by omega) (by omega) hb
      · exact utf8Continuation_three hlo hhi hlen (by omega) (by omega) (fun _ => le_rfl) (by omega)
      · exact utf8Continuation_three hlo hhi hlen (by omega) (by omega) (by omega) (fun _ => le_rfl)
      · exact utf8Continuation_three hlo hhi hlen (by omega) (by omega) (by omega) (by omega)
      · exact utf8Continuation_four hlo hhi hlen (by omega) (by omega) (fun _ => le_rfl) (by omega)
      · exact utf8Continuation_four hlo hhi hlen (by omega) (by omega) (by omega) (by omega)
      · exact utf8Continuation_four hlo hhi hlen (by omega) (by omega) (by omega) (fun _ => le_rfl)

/-- What is well formed is written as it was read. -/
theorem encode_utf8Chars {data : List UInt8} (h : utf8Valid 0 data = true) :
    utf8 (utf8Chars 0 data) = data := by
  induction hn : data.length using Nat.strong_induction_on generalizing data with
  | _ n ih =>
    cases data with
    | nil => rfl
    | cons lead data =>
      rw [utf8Valid, Bool.and_eq_true] at h
      obtain ⟨bytes, rest, rfl, htaken, hencode⟩ := utf8EncodeChar_utf8Char h.1
      have hvalid := h.2
      rw [htaken, utf8Valid_skip] at hvalid
      rw [utf8Chars, htaken, utf8Chars_skip, utf8_cons, hencode,
        ih rest.length (by simp at hn; omega) hvalid rfl]
      rfl

def TextCodec.utf8 : TextCodec where
  encodeChar := String.utf8EncodeChar
  decode := fromUtf8
  decode_nil := rfl
  decode_encodeChar c rest := by
    obtain ⟨lead, bytes, h⟩ := List.exists_cons_of_ne_nil (String.utf8EncodeChar_ne_nil (c := c))
    have hvalid : utf8Valid 0 (lead :: (bytes ++ rest)) = utf8Valid 0 rest := by
      rw [utf8Valid, utf8WellFormed_encode rest h, utf8Char_encode rest h, utf8Valid_skip,
        Bool.true_and]
    have hchars : fromUtf8Lossy (lead :: (bytes ++ rest)) = c :: fromUtf8Lossy rest := by
      rw [fromUtf8Lossy, utf8Chars, utf8Char_encode rest h, utf8Chars_skip, ← fromUtf8Lossy]
    rw [h, List.cons_append, fromUtf8, fromUtf8, hvalid, hchars]
    split_ifs <;> rfl
  decode_sound h := by
    unfold fromUtf8 at h
    split_ifs at h with hvalid
    obtain rfl := Option.some.inj h
    exact encode_utf8Chars hvalid

/-! ## UTF-16 -/

section Utf16

variable (pair : UInt16 → UInt8 × UInt8) (unpair : UInt8 → UInt8 → UInt16)

def unitBytes (s : JsString) : List UInt8 := s.flatMap fun u => [(pair u).1, (pair u).2]

/-- The code units of two bytes each; none for a byte that is left. -/
def bytesUnits : List UInt8 → Option JsString
  | a :: b :: rest => (bytesUnits rest).map (unpair a b :: ·)
  | [] => some []
  | [_] => none

/-- The characters of a string without lone surrogates. -/
def strictPoints (s : JsString) : Option (List Char) := (points s).mapM id

theorem mapM_id_map_some (chars : List Char) : (chars.map some).mapM id = some chars := by
  induction chars with
  | nil => rfl
  | cons c chars ih =>
    rw [List.map_cons, List.mapM_cons, ih]
    rfl

theorem mapM_id_eq_some {points : List (Option Char)} {chars : List Char}
    (h : points.mapM id = some chars) : points = chars.map some := by
  induction points generalizing chars with
  | nil =>
    obtain rfl : [] = chars := Option.some.inj h
    rfl
  | cons point points ih =>
    rw [List.mapM_cons] at h
    cases point with
    | none => cases h
    | some c =>
      obtain ⟨_, hc, h⟩ := Option.bind_eq_some_iff.mp h
      obtain ⟨tail, htail, h⟩ := Option.bind_eq_some_iff.mp h
      obtain rfl := Option.some.inj hc
      obtain rfl := Option.some.inj h
      rw [ih htail]
      rfl

theorem strictPoints_eq_some_iff {s : JsString} {chars : List Char} :
    strictPoints s = some chars ↔ s = utf16 chars := by
  constructor
  · intro h
    have hpoints := mapM_id_eq_some h
    have hwell : IsWellFormed s := fun point hpoint => by
      rw [hpoints] at hpoint
      obtain ⟨c, -, rfl⟩ := List.mem_map.mp hpoint
      exact Option.some_ne_none c
    obtain ⟨chars', rfl⟩ := isWellFormed_iff.mp hwell
    rw [points_utf16] at hpoints
    rw [List.map_injective_iff.mpr (Option.some_injective Char) hpoints]
  · rintro rfl
    rw [strictPoints, points_utf16, mapM_id_map_some]

theorem strictPoints_utf16Char (c : Char) (s : JsString) :
    strictPoints (utf16Char c ++ s) = (strictPoints s).map (c :: ·) := by
  rw [strictPoints, points_utf16Char, List.mapM_cons, strictPoints]
  cases (points s).mapM id <;> rfl

variable {pair unpair} (hunpair : ∀ u, unpair (pair u).1 (pair u).2 = u)
  (hpair : ∀ a b, pair (unpair a b) = (a, b))
include hunpair

theorem bytesUnits_unitBytes_append (s : JsString) (rest : List UInt8) :
    bytesUnits unpair (unitBytes pair s ++ rest) = (bytesUnits unpair rest).map (s ++ ·) := by
  induction s with
  | nil => simp [unitBytes]
  | cons u s ih =>
    rw [unitBytes, List.flatMap_cons, ← unitBytes]
    change (bytesUnits unpair (unitBytes pair s ++ rest)).map (unpair (pair u).1 (pair u).2 :: ·) = _
    rw [ih, hunpair, Option.map_map]
    rfl

omit hunpair
include hpair

theorem unitBytes_of_bytesUnits {bytes : List UInt8} {s : JsString}
    (h : bytesUnits unpair bytes = some s) : unitBytes pair s = bytes := by
  induction bytes using bytesUnits.induct generalizing s with
  | case1 a b rest ih =>
    rw [bytesUnits] at h
    obtain ⟨tail, htail, rfl⟩ := Option.map_eq_some_iff.mp h
    rw [unitBytes, List.flatMap_cons, ← unitBytes, ih htail, hpair]
    rfl
  | case2 =>
    obtain rfl : [] = s := Option.some.inj h
    rfl
  | case3 => cases h

end Utf16

/-- UTF-16 in one of its orders. -/
def TextCodec.utf16Order (pair : UInt16 → UInt8 × UInt8) (unpair : UInt8 → UInt8 → UInt16)
    (hunpair : ∀ u, unpair (pair u).1 (pair u).2 = u) (hpair : ∀ a b, pair (unpair a b) = (a, b)) :
    TextCodec where
  encodeChar c := unitBytes pair (utf16Char c)
  decode bytes := (bytesUnits unpair bytes).bind strictPoints
  decode_nil := rfl
  decode_encodeChar c rest := by
    rw [bytesUnits_unitBytes_append hunpair, Option.bind_map]
    cases bytesUnits unpair rest with
    | none => rfl
    | some s => exact strictPoints_utf16Char c s
  decode_sound h := by
    obtain ⟨s, hs, hpoints⟩ := Option.bind_eq_some_iff.mp h
    obtain rfl := strictPoints_eq_some_iff.mp hpoints
    rw [← unitBytes_of_bytesUnits hpair hs, unitBytes, utf16, List.flatMap_assoc]
    rfl

def lowByte (u : UInt16) : UInt8 := UInt8.ofNat (u.toNat % 256)

def highByte (u : UInt16) : UInt8 := UInt8.ofNat (u.toNat / 256)

def unitOf (low high : UInt8) : UInt16 := UInt16.ofNat (high.toNat * 256 + low.toNat)

theorem unitOf_bytes (u : UInt16) : unitOf (lowByte u) (highByte u) = u := by
  have hu := u.toNat_lt
  rw [← UInt16.toNat_inj, unitOf, lowByte, highByte, toNat_ofNat_of_lt (by omega),
    toNat_ofNat_of_lt (by omega), toNat_unit (by omega)]
  omega

theorem lowByte_unitOf (low high : UInt8) : lowByte (unitOf low high) = low := by
  have hlow := low.toNat_lt
  have hhigh := high.toNat_lt
  rw [← UInt8.toNat_inj, lowByte, unitOf, toNat_unit (by omega), toNat_ofNat_of_lt (by omega)]
  omega

theorem highByte_unitOf (low high : UInt8) : highByte (unitOf low high) = high := by
  have hlow := low.toNat_lt
  have hhigh := high.toNat_lt
  rw [← UInt8.toNat_inj, highByte, unitOf, toNat_unit (by omega), toNat_ofNat_of_lt (by omega)]
  omega

def TextCodec.utf16le : TextCodec :=
  .utf16Order (fun u => (lowByte u, highByte u)) unitOf unitOf_bytes
    fun low high => by rw [lowByte_unitOf, highByte_unitOf]

def TextCodec.utf16be : TextCodec :=
  .utf16Order (fun u => (highByte u, lowByte u)) (fun high low => unitOf low high) unitOf_bytes
    fun high low => by rw [lowByte_unitOf, highByte_unitOf]

end Lib
