import Mathlib

/-!
# UTF-8

`String::from_utf8_lossy`: every maximal ill-formed piece of the input is one
U+FFFD, everything else is decoded. `String::from_utf8` fails if there is such a piece.
-/

namespace Lib

/-- How many bytes follow a lead byte, and the range of the first of them. -/
def utf8Follow (lead : UInt8) : Option (Nat × UInt8 × UInt8) :=
  if 0xC2 ≤ lead ∧ lead ≤ 0xDF then some (1, 0x80, 0xBF)
  else if lead = 0xE0 then some (2, 0xA0, 0xBF)
  else if lead = 0xED then some (2, 0x80, 0x9F)
  else if 0xE1 ≤ lead ∧ lead ≤ 0xEF then some (2, 0x80, 0xBF)
  else if lead = 0xF0 then some (3, 0x90, 0xBF)
  else if 0xF1 ≤ lead ∧ lead ≤ 0xF3 then some (3, 0x80, 0xBF)
  else if lead = 0xF4 then some (3, 0x80, 0x8F)
  else none

/-- The continuation bytes in front of `data`, at most `n`, the first between `lo` and `hi`. -/
def utf8Continuation : Nat → UInt8 → UInt8 → List UInt8 → List UInt8
  | 0, _, _, _ => []
  | _ + 1, _, _, [] => []
  | n + 1, lo, hi, byte :: data =>
    if lo ≤ byte ∧ byte ≤ hi then byte :: utf8Continuation n 0x80 0xBF data else []

/-- The character that `lead` begins, and how many of the bytes behind it it takes. -/
def utf8Char (lead : UInt8) (data : List UInt8) : Char × Nat :=
  if lead < 0x80 then (Char.ofNat lead.toNat, 0)
  else
    match utf8Follow lead with
    | none => (Char.ofNat 0xFFFD, 0)
    | some (n, lo, hi) =>
      let bytes := utf8Continuation n lo hi data
      if bytes.length = n then
        (Char.ofNat (bytes.foldl (fun acc byte => acc * 64 + byte.toNat % 64)
          (lead.toNat % 2 ^ (6 - n))), n)
      else (Char.ofNat 0xFFFD, bytes.length)

/-- The characters of `data` once `skip` bytes of it have been taken. -/
def utf8Chars : Nat → List UInt8 → List Char
  | _, [] => []
  | skip + 1, _ :: data => utf8Chars skip data
  | 0, lead :: data => (utf8Char lead data).1 :: utf8Chars (utf8Char lead data).2 data

def fromUtf8Lossy (data : List UInt8) : List Char := utf8Chars 0 data

/-- `lead` begins a well-formed character. -/
def utf8WellFormed (lead : UInt8) (data : List UInt8) : Bool :=
  if lead < 0x80 then true
  else
    match utf8Follow lead with
    | none => false
    | some (n, lo, hi) => (utf8Continuation n lo hi data).length == n

/-- The bytes are UTF-8 once `skip` bytes of them have been taken. -/
def utf8Valid : Nat → List UInt8 → Bool
  | _, [] => true
  | skip + 1, _ :: data => utf8Valid skip data
  | 0, lead :: data => utf8WellFormed lead data && utf8Valid (utf8Char lead data).2 data

def fromUtf8 (data : List UInt8) : Option (List Char) :=
  if utf8Valid 0 data then some (fromUtf8Lossy data) else none

/-! ## Encoding -/

def utf8 (text : List Char) : List UInt8 := text.flatMap String.utf8EncodeChar

theorem utf8_cons (c : Char) (text : List Char) :
    utf8 (c :: text) = String.utf8EncodeChar c ++ utf8 text := List.flatMap_cons

theorem utf8_append (text more : List Char) : utf8 (text ++ more) = utf8 text ++ utf8 more :=
  List.flatMap_append

theorem toNat_ofNat_of_lt {n : Nat} (h : n < 256) : (UInt8.ofNat n).toNat = n := by
  rw [UInt8.toNat_ofNat', Nat.mod_eq_of_lt h]

/-- A byte behind the lead of an encoded character holds six bits of it. -/
theorem toNat_continuation (n : Nat) : (UInt8.ofNat (n % 64 + 128)).toNat = n % 64 + 128 :=
  toNat_ofNat_of_lt (by omega)

/-- `utf8Follow`, on numbers. -/
theorem utf8Follow_toNat (lead : UInt8) :
    utf8Follow lead =
      if 0xC2 ≤ lead.toNat ∧ lead.toNat ≤ 0xDF then some (1, 0x80, 0xBF)
      else if lead.toNat = 0xE0 then some (2, 0xA0, 0xBF)
      else if lead.toNat = 0xED then some (2, 0x80, 0x9F)
      else if 0xE1 ≤ lead.toNat ∧ lead.toNat ≤ 0xEF then some (2, 0x80, 0xBF)
      else if lead.toNat = 0xF0 then some (3, 0x90, 0xBF)
      else if 0xF1 ≤ lead.toNat ∧ lead.toNat ≤ 0xF3 then some (3, 0x80, 0xBF)
      else if lead.toNat = 0xF4 then some (3, 0x80, 0x8F)
      else none := by
  simp only [utf8Follow, UInt8.le_iff_toNat_le, ← UInt8.toNat_inj]
  rfl

/-- Bytes of six bits each follow one another. -/
theorem utf8Continuation_map (ns : List Nat) (data : List UInt8) :
    utf8Continuation ns.length 0x80 0xBF (ns.map (fun n => UInt8.ofNat (n % 64 + 128)) ++ data) =
      ns.map fun n => UInt8.ofNat (n % 64 + 128) := by
  induction ns with
  | nil => rfl
  | cons n ns ih =>
    have hn := toNat_continuation n
    have hlo : 0x80 ≤ UInt8.ofNat (n % 64 + 128) := by
      rw [UInt8.le_iff_toNat_le, hn]
      exact Nat.le_add_left 128 _
    have hhi : UInt8.ofNat (n % 64 + 128) ≤ 0xBF := by
      rw [UInt8.le_iff_toNat_le, hn]
      exact Nat.add_le_add_right (Nat.le_of_lt_succ (Nat.mod_lt n (by decide))) 128
    simp only [List.map_cons, List.cons_append, List.length_cons, utf8Continuation]
    rw [if_pos ⟨hlo, hhi⟩, ih]

/-- A character of several bytes: `n` and `ns` are what the bytes behind the lead hold. -/
theorem utf8Char_lead {lead lo hi : UInt8} {n : Nat} {ns : List Nat} (data : List UInt8)
    (hlead : 0x80 ≤ lead.toNat) (hfollow : utf8Follow lead = some (ns.length + 1, lo, hi))
    (hlo : lo.toNat ≤ n % 64 + 128) (hhi : n % 64 + 128 ≤ hi.toNat) :
    utf8Char lead (((n :: ns).map fun n => UInt8.ofNat (n % 64 + 128)) ++ data) =
      (Char.ofNat ((n :: ns).foldl (fun acc n => acc * 64 + n % 64)
        (lead.toNat % 2 ^ (6 - (ns.length + 1)))), ns.length + 1) := by
  have hn := toNat_continuation n
  have hcont : utf8Continuation (ns.length + 1) lo hi
      (((n :: ns).map fun n => UInt8.ofNat (n % 64 + 128)) ++ data) =
        (n :: ns).map fun n => UInt8.ofNat (n % 64 + 128) := by
    simp only [List.map_cons, List.cons_append, utf8Continuation]
    rw [if_pos ⟨UInt8.le_iff_toNat_le.mpr (by rw [hn]; exact hlo), UInt8.le_iff_toNat_le.mpr (by rw [hn]; exact hhi)⟩,
      utf8Continuation_map]
  have hmod : ∀ k : Nat, (k % 64 + 128) % 64 = k % 64 := fun k => by omega
  unfold utf8Char
  rw [if_neg (by rw [UInt8.lt_iff_toNat_lt]; simpa using hlead), hfollow]
  simp only [hcont]
  rw [if_pos (by simp), List.foldl_map]
  simp only [toNat_continuation, hmod]

theorem utf8Char_encode {c : Char} {lead : UInt8} {bytes : List UInt8} (data : List UInt8)
    (h : String.utf8EncodeChar c = lead :: bytes) :
    utf8Char lead (bytes ++ data) = (c, bytes.length) := by
  have hc : c.val.toNat < 0xD800 ∨ (0xDFFF < c.val.toNat ∧ c.val.toNat < 0x110000) := c.valid
  have hof : Char.ofNat c.val.toNat = c := Char.ofNat_toNat c
  generalize hv : c.val.toNat = v at hc hof
  unfold String.utf8EncodeChar at h
  simp only [hv] at h
  have hdiv : v / 64 / 64 = v / 4096 := Nat.div_div_eq_div_mul v 64 64
  have hdiv' : v / 4096 / 64 = v / 262144 := Nat.div_div_eq_div_mul v 4096 64
  by_cases h1 : v ≤ 0x7F
  · rw [if_pos h1] at h
    obtain ⟨rfl, rfl⟩ := List.cons.inj h
    unfold utf8Char
    rw [if_pos (by rw [UInt8.lt_iff_toNat_lt, toNat_ofNat_of_lt (by omega)]; simp; omega),
      toNat_ofNat_of_lt (by omega), hof]
    rfl
  rw [if_neg h1] at h
  by_cases h2 : v ≤ 0x7FF
  · rw [if_pos h2] at h
    obtain ⟨rfl, rfl⟩ := List.cons.inj h
    have hlead : (UInt8.ofNat (v / 64 % 32 + 192)).toNat = v / 64 + 192 := by
      rw [toNat_ofNat_of_lt (by omega)]
      omega
    have hfollow : utf8Follow (UInt8.ofNat (v / 64 % 32 + 192)) = some (1, 0x80, 0xBF) := by
      rw [utf8Follow_toNat, if_pos (by omega)]
    refine (@utf8Char_lead _ _ _ v [] data (by omega) hfollow (by simp) (by simp; omega)).trans ?_
    rw [hlead, ← hof]
    refine Prod.ext (congrArg Char.ofNat ?_) rfl
    simp only [List.foldl_cons, List.foldl_nil, List.length_nil]
    omega
  rw [if_neg h2] at h
  by_cases h3 : v ≤ 0xFFFF
  · rw [if_pos h3] at h
    obtain ⟨rfl, rfl⟩ := List.cons.inj h
    have hlead : (UInt8.ofNat (v / 4096 % 16 + 224)).toNat = v / 4096 + 224 := by
      rw [toNat_ofNat_of_lt (by omega)]
      omega
    have hfollow : ∃ lo hi, utf8Follow (UInt8.ofNat (v / 4096 % 16 + 224)) = some (2, lo, hi) ∧
        lo.toNat ≤ v / 64 % 64 + 128 ∧ v / 64 % 64 + 128 ≤ hi.toNat := by
      rw [utf8Follow_toNat, hlead, if_neg (by omega)]
      split_ifs
      · exact ⟨_, _, rfl, by simp; omega, by simp; omega⟩
      · exact ⟨_, _, rfl, by simp, by simp; omega⟩
      · exact ⟨_, _, rfl, by simp, by simp; omega⟩
      all_goals omega
    obtain ⟨lo, hi, hfollow, hlo, hhi⟩ := hfollow
    refine (@utf8Char_lead _ _ _ (v / 64) [v] data (by omega) hfollow hlo hhi).trans ?_
    rw [hlead, ← hof]
    refine Prod.ext (congrArg Char.ofNat ?_) rfl
    simp only [List.foldl_cons, List.foldl_nil, List.length_cons, List.length_nil]
    omega
  · rw [if_neg h3] at h
    obtain ⟨rfl, rfl⟩ := List.cons.inj h
    have hlead : (UInt8.ofNat (v / 262144 % 8 + 240)).toNat = v / 262144 + 240 := by
      rw [toNat_ofNat_of_lt (by omega)]
      omega
    have hfollow : ∃ lo hi, utf8Follow (UInt8.ofNat (v / 262144 % 8 + 240)) = some (3, lo, hi) ∧
        lo.toNat ≤ v / 4096 % 64 + 128 ∧ v / 4096 % 64 + 128 ≤ hi.toNat := by
      rw [utf8Follow_toNat, hlead, if_neg (by omega), if_neg (by omega), if_neg (by omega),
        if_neg (by omega)]
      split_ifs
      · exact ⟨_, _, rfl, by simp; omega, by simp; omega⟩
      · exact ⟨_, _, rfl, by simp, by simp; omega⟩
      · exact ⟨_, _, rfl, by simp, by simp; omega⟩
      · omega
    obtain ⟨lo, hi, hfollow, hlo, hhi⟩ := hfollow
    refine (@utf8Char_lead _ _ _ (v / 4096) [v / 64, v] data (by omega) hfollow hlo hhi).trans ?_
    rw [hlead, ← hof]
    refine Prod.ext (congrArg Char.ofNat ?_) rfl
    simp only [List.foldl_cons, List.foldl_nil, List.length_cons, List.length_nil]
    omega

theorem utf8Chars_skip (bytes data : List UInt8) :
    utf8Chars bytes.length (bytes ++ data) = utf8Chars 0 data := by
  induction bytes with
  | nil => rfl
  | cons byte bytes ih => exact ih

theorem fromUtf8Lossy_encode_append (text : List Char) (data : List UInt8) :
    fromUtf8Lossy (utf8 text ++ data) = text ++ fromUtf8Lossy data := by
  induction text with
  | nil => rfl
  | cons c text ih =>
    obtain ⟨lead, bytes, h⟩ := List.exists_cons_of_ne_nil (String.utf8EncodeChar_ne_nil (c := c))
    rw [utf8_cons, h, List.append_assoc, List.cons_append]
    unfold fromUtf8Lossy
    rw [utf8Chars, utf8Char_encode _ h, utf8Chars_skip]
    exact congrArg (c :: ·) ih

/-- What was encoded is decoded. -/
theorem fromUtf8Lossy_encode (text : List Char) : fromUtf8Lossy (utf8 text) = text := by
  have h := fromUtf8Lossy_encode_append text []
  rwa [List.append_nil, show fromUtf8Lossy [] = [] from rfl, List.append_nil] at h

example : fromUtf8Lossy [0x61, 0xE4, 0xBD, 0xA0, 0xE4, 0xBD, 0x62, 0xFF] = "a你\uFFFDb\uFFFD".toList := by
  decide

/-! ## Counting characters -/

theorem length_utf8Chars_le (skip : Nat) (data : List UInt8) :
    (utf8Chars skip data).length ≤ data.length := by
  induction data generalizing skip with
  | nil => cases skip <;> exact le_rfl
  | cons byte data ih =>
    cases skip with
    | zero => exact Nat.succ_le_succ (ih _)
    | succ skip => exact (ih skip).trans (Nat.le_succ _)

theorem length_fromUtf8Lossy_le (data : List UInt8) : (fromUtf8Lossy data).length ≤ data.length :=
  length_utf8Chars_le 0 data

/-- A byte that begins no character. -/
def IsContinuation (byte : UInt8) : Prop := 0x80 ≤ byte.toNat ∧ byte.toNat ≤ 0xBF

theorem utf8Char_continuation {byte : UInt8} (h : IsContinuation byte) (data : List UInt8) :
    utf8Char byte data = (Char.ofNat 0xFFFD, 0) := by
  obtain ⟨hlo, hhi⟩ := h
  have hfollow : utf8Follow byte = none := by
    rw [utf8Follow_toNat, if_neg (by omega), if_neg (by omega), if_neg (by omega),
      if_neg (by omega), if_neg (by omega), if_neg (by omega), if_neg (by omega)]
  unfold utf8Char
  rw [if_neg (by rw [UInt8.lt_iff_toNat_lt]; simpa using hlo), hfollow]

/-- Continuation bytes without a lead count one by one. -/
theorem length_utf8Chars_continuation {bytes : List UInt8} (h : ∀ b ∈ bytes, IsContinuation b)
    (data : List UInt8) :
    (utf8Chars 0 (bytes ++ data)).length = bytes.length + (utf8Chars 0 data).length := by
  induction bytes with
  | nil => exact (Nat.zero_add _).symm
  | cons byte bytes ih =>
    rw [List.cons_append, utf8Chars, utf8Char_continuation (h byte List.mem_cons_self),
      List.length_cons, ih fun b hb => h b (List.mem_cons_of_mem _ hb), List.length_cons]
    omega

theorem utf8Continuation_spec {n : Nat} {lo hi : UInt8} (data : List UInt8) (hlo : 0x80 ≤ lo.toNat)
    (hhi : hi.toNat ≤ 0xBF) :
    (∀ b ∈ utf8Continuation n lo hi data, IsContinuation b) ∧
      utf8Continuation n lo hi data <+: data := by
  induction data generalizing n lo hi with
  | nil => cases n <;> exact ⟨fun _ h => absurd h List.not_mem_nil, List.nil_prefix⟩
  | cons byte data ih =>
    cases n with
    | zero => exact ⟨fun _ h => absurd h List.not_mem_nil, List.nil_prefix⟩
    | succ n =>
      rw [utf8Continuation]
      split_ifs with h
      · obtain ⟨hall, hstart⟩ := @ih n 0x80 0xBF le_rfl le_rfl
        refine ⟨fun b hb => ?_, List.cons_prefix_cons.mpr ⟨rfl, hstart⟩⟩
        rcases List.mem_cons.mp hb with rfl | hb
        · exact ⟨hlo.trans (UInt8.le_iff_toNat_le.mp h.1), (UInt8.le_iff_toNat_le.mp h.2).trans hhi⟩
        · exact hall b hb
      · exact ⟨fun _ h => absurd h List.not_mem_nil, List.nil_prefix⟩

theorem utf8Follow_range {lead lo hi : UInt8} {n : Nat} (h : utf8Follow lead = some (n, lo, hi)) :
    0x80 ≤ lo.toNat ∧ hi.toNat ≤ 0xBF := by
  rw [utf8Follow_toNat] at h
  split_ifs at h <;> (cases h; decide)

/-- The bytes a character takes behind its lead are continuation bytes. -/
theorem utf8Char_taken (lead : UInt8) (data : List UInt8) :
    ∃ bytes rest, data = bytes ++ rest ∧ (utf8Char lead data).2 = bytes.length ∧
      ∀ b ∈ bytes, IsContinuation b := by
  have hnone : ∃ bytes rest, data = bytes ++ rest ∧ 0 = bytes.length ∧
      ∀ b ∈ bytes, IsContinuation b :=
    ⟨[], data, rfl, rfl, fun _ h => absurd h List.not_mem_nil⟩
  unfold utf8Char
  split_ifs
  · exact hnone
  · split
    · exact hnone
    · rename_i n lo hi hfollow
      obtain ⟨hlo, hhi⟩ := utf8Follow_range hfollow
      obtain ⟨hall, rest, hrest⟩ := utf8Continuation_spec (n := n) data hlo hhi
      refine ⟨_, rest, hrest.symm, ?_, hall⟩
      dsimp only
      split_ifs with hlen
      · exact hlen.symm
      · rfl

theorem length_fromUtf8Lossy_cons (byte : UInt8) (data : List UInt8) :
    (fromUtf8Lossy (byte :: data)).length ≤ 1 + (fromUtf8Lossy data).length := by
  obtain ⟨bytes, rest, hdata, htaken, hall⟩ := utf8Char_taken byte data
  unfold fromUtf8Lossy
  rw [utf8Chars, List.length_cons, htaken, hdata, utf8Chars_skip, length_utf8Chars_continuation hall]
  omega

theorem length_fromUtf8Lossy_append (bytes data : List UInt8) :
    (fromUtf8Lossy (bytes ++ data)).length ≤ bytes.length + (fromUtf8Lossy data).length := by
  induction bytes with
  | nil => exact (Nat.zero_add _).ge
  | cons byte bytes ih =>
    have h := length_fromUtf8Lossy_cons byte (bytes ++ data)
    rw [List.cons_append, List.length_cons]
    omega

/-! ## Pieces of an encoded text -/

theorem length_utf8EncodeChar_le (c : Char) : (String.utf8EncodeChar c).length ≤ 4 := by
  unfold String.utf8EncodeChar
  dsimp only
  split_ifs <;> simp

theorem length_encode_le (text : List Char) : (utf8 text).length ≤ 4 * text.length := by
  induction text with
  | nil => exact le_rfl
  | cons c text ih =>
    have hc := length_utf8EncodeChar_le c
    rw [utf8_cons, List.length_append, List.length_cons]
    omega

/-- What is behind a cut: the end of a character, then whole characters. -/
theorem drop_encode (text : List Char) (offset : Nat) :
    ∃ before after piece, text = before ++ after ∧ piece.length ≤ 3 ∧
      (utf8 text).drop offset = piece ++ utf8 after := by
  induction text generalizing offset with
  | nil => exact ⟨[], [], [], rfl, by decide, List.drop_nil⟩
  | cons c text ih =>
    have hc := length_utf8EncodeChar_le c
    rcases Nat.eq_zero_or_pos offset with rfl | hpos
    · exact ⟨[], c :: text, [], rfl, by decide, rfl⟩
    rw [utf8_cons, List.drop_append]
    rcases Nat.lt_or_ge offset (String.utf8EncodeChar c).length with hlt | hge
    · refine ⟨[c], text, (String.utf8EncodeChar c).drop offset, rfl, ?_, ?_⟩
      · rw [List.length_drop]
        omega
      · rw [Nat.sub_eq_zero_of_le hlt.le, List.drop_zero]
    · obtain ⟨before, after, piece, rfl, hpiece, hdrop⟩ := ih (offset - (String.utf8EncodeChar c).length)
      exact ⟨c :: before, after, piece, rfl, hpiece, by rw [List.drop_of_length_le hge, hdrop]; rfl⟩

/-- What is in front of a cut: whole characters, then the beginning of one. -/
theorem take_encode (text : List Char) (n : Nat) :
    ∃ before after piece, text = before ++ after ∧ piece.length ≤ 3 ∧
      (utf8 text).take n = utf8 before ++ piece := by
  induction text generalizing n with
  | nil => exact ⟨[], [], [], rfl, by decide, List.take_nil⟩
  | cons c text ih =>
    have hc := length_utf8EncodeChar_le c
    rw [utf8_cons, List.take_append]
    rcases Nat.lt_or_ge n (String.utf8EncodeChar c).length with hlt | hge
    · refine ⟨[], c :: text, (String.utf8EncodeChar c).take n, rfl, ?_, ?_⟩
      · rw [List.length_take]
        omega
      · rw [Nat.sub_eq_zero_of_le hlt.le, List.take_zero, List.append_nil]
        rfl
    · obtain ⟨before, after, piece, rfl, hpiece, htake⟩ := ih (n - (String.utf8EncodeChar c).length)
      exact ⟨c :: before, after, piece, rfl, hpiece, by
        rw [List.take_of_length_le hge, htake, utf8_cons, List.append_assoc]⟩

/-- A piece of an encoded text that leaves out many of its bytes leaves out many of its
characters. -/
theorem length_fromUtf8Lossy_slice (text : List Char) (tail : List UInt8) (offset n : Nat) :
    4 * (fromUtf8Lossy (((utf8 text ++ tail).drop offset).take n)).length + (utf8 text).length ≤
      4 * text.length + n + 4 * (6 + tail.length) := by
  obtain ⟨before, rest, head, rfl, hhead, hdrop⟩ := drop_encode text offset
  obtain ⟨inside, after, piece, rfl, hpiece, htake⟩ := take_encode rest (n - head.length)
  obtain ⟨extra, hextra, hslice⟩ : ∃ extra : List UInt8, extra.length ≤ tail.length ∧
      ((utf8 (before ++ (inside ++ after)) ++ tail).drop offset).take n =
        head.take n ++ (utf8 inside ++ (piece ++ extra)) := by
    rw [List.drop_append, hdrop, List.append_assoc, List.take_append, List.take_append, htake,
      List.append_assoc]
    refine ⟨_, ?_, rfl⟩
    rw [List.length_take, List.length_drop]
    omega
  have hcount := length_fromUtf8Lossy_append (head.take n) (utf8 inside ++ (piece ++ extra))
  have hrest := length_fromUtf8Lossy_le (piece ++ extra)
  have hbytes := congrArg List.length htake
  have hbefore := length_encode_le before
  have hafter := length_encode_le after
  rw [hslice]
  rw [fromUtf8Lossy_encode_append] at hcount
  simp only [List.length_append, List.length_take, utf8_append] at hcount hrest hbytes ⊢
  omega

end Lib
