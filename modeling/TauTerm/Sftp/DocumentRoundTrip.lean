import Mathlib
import TauTerm.Sftp.DocumentCodec

/-!
# Opening and saving a document

The three Unicode encodings are codecs with a mark. A decoder of the platform leaves out a mark of
its own at the front, and the front end another one before that, so a text is got back exactly if
it does not begin with a mark itself.
-/

namespace TauTerm.Sftp

open Lib Lib.Js

def RemoteDocumentEncoding.codec : RemoteDocumentEncoding → Option TextCodec
  | .utf8 => some .utf8
  | .utf16le => some .utf16le
  | .utf16be => some .utf16be
  | .legacy _ => none

variable {legacy : LegacyCodecs} {encoding : RemoteDocumentEncoding} {codec : TextCodec}
  {bytes : List UInt8}

/-! ## The codec -/

theorem fatalDecode_eq (h : encoding.codec = some codec) (source : List UInt8) :
    fatalDecode legacy encoding source = codec.textDecoder source := by
  cases encoding <;> cases h <;> rfl

theorem take_eq_iff_prefix {α : Type} {l m : List α} : m.take l.length = l ↔ l <+: m :=
  ⟨fun h => ⟨m.drop l.length, by conv_rhs => rw [← List.take_append_drop l.length m, h]⟩,
    fun ⟨_, h⟩ => h ▸ List.take_left⟩

/-- The mark that is found is the mark of the encoding. -/
theorem detectBom_eq_iff (h : encoding.codec = some codec) (bytes : List UInt8) :
    (detectBom bytes).encoding = some encoding ↔ codec.mark <+: bytes := by
  have hutf8 : bytes.take 3 = [0xef, 0xbb, 0xbf] ↔ [0xef, 0xbb, 0xbf] <+: bytes :=
    take_eq_iff_prefix (l := [0xef, 0xbb, 0xbf])
  have hle : bytes.take 2 = [0xff, 0xfe] ↔ [0xff, 0xfe] <+: bytes :=
    take_eq_iff_prefix (l := [0xff, 0xfe])
  have hbe : bytes.take 2 = [0xfe, 0xff] ↔ [0xfe, 0xff] <+: bytes :=
    take_eq_iff_prefix (l := [0xfe, 0xff])
  have hmarks : TextCodec.utf8.mark = [0xef, 0xbb, 0xbf] ∧ TextCodec.utf16le.mark = [0xff, 0xfe] ∧
      TextCodec.utf16be.mark = [0xfe, 0xff] := by decide
  have hdetect : (detectBom bytes).encoding =
      if [0xef, 0xbb, 0xbf] <+: bytes then some .utf8
      else if [0xff, 0xfe] <+: bytes then some .utf16le
      else if [0xfe, 0xff] <+: bytes then some .utf16be else none := by
    unfold detectBom
    simp only [hutf8, hle, hbe]
    split_ifs <;> rfl
  rw [hdetect]
  -- no two of the marks begin alike
  cases encoding with
  | utf8 =>
    cases h
    rw [hmarks.1]
    split_ifs with h1 h2 h3 <;> simp [h1]
  | utf16le =>
    cases h
    rw [hmarks.2.1]
    split_ifs with h1 h2 h3
    · obtain ⟨rest, rfl⟩ := h1
      simp
    · simp [h2]
    · simp [h2]
    · simp [h2]
  | utf16be =>
    cases h
    rw [hmarks.2.2]
    split_ifs with h1 h2 h3
    · obtain ⟨rest, rfl⟩ := h1
      simp
    · obtain ⟨rest, rfl⟩ := h2
      simp
    · simp [h3]
    · simp [h3]
  | legacy _ => cases h

theorem detectBom_bom (h : (detectBom bytes).encoding = some encoding) : (detectBom bytes).bom = true := by
  unfold detectBom at h ⊢
  split_ifs at h ⊢ <;> rfl

/-- What is left of the bytes once the mark of the encoding is taken off. -/
theorem drop_offset (h : encoding.codec = some codec) (rest : List UInt8) :
    (codec.mark ++ rest).drop (detectBom (codec.mark ++ rest)).offset = rest := by
  cases encoding <;> cases h <;> rfl

/-! ## Line endings in both alphabets -/

theorem utf16_spelling : Spelling '\r' '\n' (unit '\r') (unit '\n') utf16Char := by
  have honly : ∀ a : Char, a.toNat < 0xD800 → ∀ c : Char, c ≠ a → unit a ∉ utf16Char c := by
    intro a ha c hc hmem
    have hunit : (unit a).toNat = a.toNat := toNat_unit (by omega)
    have hvalid : c.toNat < 0xD800 ∨ (0xDFFF < c.toNat ∧ c.toNat < 0x110000) := c.valid
    unfold utf16Char at hmem
    split_ifs at hmem with hbmp
    · rw [List.mem_singleton, ← UInt16.toNat_inj, hunit, toNat_unit hbmp] at hmem
      exact hc (Char.toNat_inj.mp hmem.symm)
    · rw [List.mem_cons, List.mem_singleton, ← UInt16.toNat_inj, ← UInt16.toNat_inj, hunit,
        toNat_unit (by omega), toNat_unit (by omega)] at hmem
      omega
  refine ⟨by decide, by decide, fun c => ?_, honly '\r' (by decide), honly '\n' (by decide)⟩
  unfold utf16Char
  split_ifs <;> exact List.cons_ne_nil _ _

theorem cr_ne_lf : '\r' ≠ '\n' := by decide

theorem unit_cr_ne_lf : unit '\r' ≠ unit '\n' := by decide

theorem normalizeDocumentText_utf16 (chars : List Char) :
    normalizeDocumentText (utf16 chars) = utf16 (normalizeLineEndings chars) :=
  utf16_spelling.unify_flatMap cr_ne_lf unit_cr_ne_lf chars

theorem expand_utf16 (e : LineEnding) (chars : List Char) :
    expand (unit '\r') (unit '\n') e (utf16 chars) = utf16 (expand '\r' '\n' e chars) :=
  utf16_spelling.expand_flatMap e chars

/-- There is one kind of line ending in the text, or none. -/
def Uniform (text : JsString) : Prop :=
  ∃ e, ∀ e' ∈ lineEndings (unit '\r') (unit '\n') text, e' = e

/-- A single kind is detected. -/
theorem Uniform.detected {text : JsString} (h : Uniform text) :
    ∀ e ∈ lineEndings (unit '\r') (unit '\n') text, e = detectLineEnding text := by
  obtain ⟨e, hall⟩ := h
  intro e' he'
  obtain rfl := hall e' he'
  have hrep := List.eq_replicate_of_mem hall
  have hpos : 0 < (lineEndings (unit '\r') (unit '\n') text).length := List.length_pos_of_mem he'
  generalize (lineEndings (unit '\r') (unit '\n') text).length = n at hrep hpos
  unfold detectLineEnding
  rw [hrep]
  cases e' <;> simp [List.count_replicate, hpos]

/-! ## `serialize_text` -/

theorem replaceOne_self {α : Type} [DecidableEq α] (a : α) (l : List α) : replaceOne a [a] l = l := by
  induction l with
  | nil => rfl
  | cons x l ih =>
    rw [replaceOne_cons, ih]
    split_ifs with h
    · rw [h]
      rfl
    · rfl

theorem writeLineEndings_name (normalized : List Char) (ending : RemoteLineEnding) :
    writeLineEndings normalized (lineEndingName ending) =
      .ok (expand '\r' '\n' ending normalized) := by
  cases ending with
  | lf => exact congrArg Except.ok (replaceOne_self '\n' normalized).symm
  | crlf => rfl
  | cr => rfl

theorem encodeText_name (h : encoding.codec = some codec) (bom : Bool) (text : List Char) :
    encodeText legacy encoding.name bom text = .ok (codec.encode text) := by
  cases encoding with
  | utf8 => cases h; rfl
  | utf16le =>
    cases h
    exact congrArg Except.ok List.flatMap_assoc
  | utf16be =>
    cases h
    exact congrArg Except.ok List.flatMap_assoc
  | legacy _ => cases h

theorem bomBytes_name (h : encoding.codec = some codec) : bomBytes encoding.name = codec.mark := by
  cases encoding <;> cases h <;> rfl

/-- The bytes of a text: the mark, if there is one, and the text with its line endings. -/
def written (codec : TextCodec) (text : List Char) (ending : RemoteLineEnding) (bom : Bool) :
    List UInt8 :=
  (if bom then codec.mark else []) ++
    codec.encode (expand '\r' '\n' ending (normalizeLineEndings text))

theorem serializeText_eq_ok_iff (h : encoding.codec = some codec) {text : List Char}
    {ending : RemoteLineEnding} {bom : Bool} {output : List UInt8} :
    serializeText legacy text (RemoteDocumentFormat.mk encoding ending bom).wire = .ok output ↔
      written codec text ending bom = output ∧ output.length ≤ DOCUMENT_EDIT_LIMIT := by
  have hsame : (if bom then bomBytes encoding.name ++
      codec.encode (expand '\r' '\n' ending (normalizeLineEndings text))
      else codec.encode (expand '\r' '\n' ending (normalizeLineEndings text))) =
        written codec text ending bom := by
    rw [bomBytes_name h]
    cases bom <;> rfl
  have hserialize : serializeText legacy text (RemoteDocumentFormat.mk encoding ending bom).wire =
      if (written codec text ending bom).length > DOCUMENT_EDIT_LIMIT then
        let length := (written codec text ending bom).length
        .error s!"保存后的文档超过可编辑上限（{length} bytes > {DOCUMENT_EDIT_LIMIT} bytes）"
      else .ok (written codec text ending bom) := by
    rw [← hsame]
    simp only [serializeText, RemoteDocumentFormat.wire, writeLineEndings_name, encodeText_name h]
    rfl
  rw [hserialize]
  split_ifs with hlong
  · refine iff_of_false nofun ?_
    rintro ⟨rfl, hle⟩
    omega
  · rw [Except.ok.injEq]
    refine ⟨fun heq => ⟨heq, heq ▸ by omega⟩, And.left⟩

/-! ## Opening -/

/-- The document is opened, with a format that was detected or with one that was chosen. -/
def Opens (legacy : LegacyCodecs) (bytes : List UInt8) (encoding : RemoteDocumentEncoding)
    (doc : DecodedRemoteDocument) : Prop :=
  (decodeInitialRemoteDocument legacy bytes = doc ∧ doc.encodingConfirmed = true ∧
    doc.format.encoding = encoding) ∨
  decodeRemoteDocumentAs legacy bytes encoding = .ok doc

/-- Saving the document as it was opened writes the bytes again. -/
def SavesBack (legacy : LegacyCodecs) (bytes : List UInt8) (doc : DecodedRemoteDocument) : Prop :=
  ∃ text, doc.text = utf16 text ∧ serializeText legacy text doc.format.wire = .ok bytes

/-- What was saved is opened again, with the same mark. -/
def Reopens (legacy : LegacyCodecs) (output : List UInt8) (encoding : RemoteDocumentEncoding)
    (text : List Char) (bom : Bool) : Prop :=
  ∃ doc, decodeRemoteDocumentAs legacy output encoding = .ok doc ∧
    doc.text = utf16 (normalizeLineEndings text) ∧ doc.format.bom = bom

theorem decodedDocument_eq_ok {bom : Bool} {doc : DecodedRemoteDocument} :
    decodedDocument legacy bytes encoding bom = .ok doc ↔
      ∃ decoded, decodeRemoteDocument legacy bytes encoding = .ok decoded ∧
        doc = ⟨normalizeDocumentText decoded, ⟨encoding, detectLineEnding decoded, bom⟩, false, true⟩ := by
  unfold decodedDocument
  cases decodeRemoteDocument legacy bytes encoding with
  | error _ => exact iff_of_false nofun (by rintro ⟨_, ⟨⟩, -⟩)
  | ok decoded =>
    constructor
    · rintro ⟨⟩
      exact ⟨decoded, rfl, rfl⟩
    · rintro ⟨_, ⟨⟩, rfl⟩
      rfl

/-- The encoding that is detected is that of the mark, or UTF-8 without one. -/
theorem detected_bom (h : (detectRemoteDocumentEncoding legacy bytes).encoding = encoding) :
    (detectRemoteDocumentEncoding legacy bytes).bom =
      decide ((detectBom bytes).encoding = some encoding ∧ (detectBom bytes).bom = true) := by
  unfold detectRemoteDocumentEncoding at h ⊢
  cases hbom : (detectBom bytes).encoding with
  | none => simp
  | some found =>
    rw [hbom] at h
    obtain rfl : found = encoding := h
    simp [detectBom_bom hbom]

/-- However it was opened, its text and its format are those of the bytes. -/
theorem Opens.spec {doc : DecodedRemoteDocument} {decoded : JsString}
    (h : Opens legacy bytes encoding doc)
    (hdecoded : decodeRemoteDocument legacy bytes encoding = .ok decoded) :
    doc.text = normalizeDocumentText decoded ∧
      doc.format = ⟨encoding, detectLineEnding decoded,
        decide ((detectBom bytes).encoding = some encoding ∧ (detectBom bytes).bom = true)⟩ := by
  rcases h with ⟨rfl, hconfirmed, hencoding⟩ | h
  · unfold decodeInitialRemoteDocument at hconfirmed hencoding ⊢
    dsimp only at hconfirmed hencoding ⊢
    split_ifs at hconfirmed hencoding ⊢ with hdetected
    cases hdoc : decodedDocument legacy bytes (detectRemoteDocumentEncoding legacy bytes).encoding
        (detectRemoteDocumentEncoding legacy bytes).bom with
    | error _ =>
      rw [hdoc] at hconfirmed
      cases hconfirmed
    | ok doc =>
      rw [hdoc] at hencoding
      obtain ⟨decoded', hdecoded', rfl⟩ := decodedDocument_eq_ok.mp hdoc
      have hbom := detected_bom hencoding
      dsimp only at hencoding
      rw [hencoding, hdecoded] at hdecoded'
      cases hdecoded'
      dsimp only
      rw [hencoding, hbom]
      exact ⟨rfl, rfl⟩
  · obtain ⟨decoded', hdecoded', rfl⟩ := decodedDocument_eq_ok.mp h
    rw [hdecoded] at hdecoded'
    cases hdecoded'
    exact ⟨rfl, rfl⟩

theorem decodeRemoteDocument_eq_ok {decoded : JsString} (h : encoding.codec = some codec) :
    decodeRemoteDocument legacy bytes encoding = .ok decoded ↔
      codec.textDecoder (if codec.mark <+: bytes then bytes.drop codec.mark.length else bytes) =
        some decoded := by
  have hsource : (if (detectBom bytes).encoding = some encoding then
      bytes.drop (detectBom bytes).offset else bytes) =
        if codec.mark <+: bytes then bytes.drop codec.mark.length else bytes := by
    by_cases hmark : codec.mark <+: bytes
    · obtain ⟨rest, rfl⟩ := hmark
      rw [if_pos ((detectBom_eq_iff h _).mpr (List.prefix_append _ _)),
        if_pos (List.prefix_append _ _), drop_offset h, List.drop_left]
    · rw [if_neg (mt (detectBom_eq_iff h _).mp hmark), if_neg hmark]
  unfold decodeRemoteDocument
  dsimp only
  rw [hsource, fatalDecode_eq h]
  split
  · rename_i text htext
    rw [htext, Except.ok.injEq, Option.some.injEq]
  · rename_i hnone
    rw [hnone]
    exact iff_of_false nofun nofun

/-- Removing a mark keeps the text if there is none. -/
theorem without_mark_eq_iff {chars : List Char} :
    (if chars.head? = some byteOrderMark then chars.tail else chars) = chars ↔
      chars.head? ≠ some byteOrderMark := by
  split_ifs with hmark
  · refine iff_of_false (fun h => ?_) (not_not.mpr hmark)
    cases chars with
    | nil => cases hmark
    | cons c chars => exact absurd (congrArg List.length h) (by simp)
  · exact iff_of_true rfl hmark

/-- Nor do line endings make up for a mark that is removed. -/
theorem normalize_without_mark_iff {chars : List Char} :
    normalizeLineEndings (if chars.head? = some byteOrderMark then chars.tail else chars) =
        normalizeLineEndings chars ↔ chars.head? ≠ some byteOrderMark := by
  split_ifs with hmark
  · refine iff_of_false (fun h => ?_) (not_not.mpr hmark)
    cases chars with
    | nil => cases hmark
    | cons c chars =>
      obtain rfl : c = byteOrderMark := Option.some.inj hmark
      have hcons : normalizeLineEndings (byteOrderMark :: chars) =
          byteOrderMark :: normalizeLineEndings chars := unify_cons (by decide) chars
      rw [hcons] at h
      exact absurd (congrArg List.length h) (by simp)
  · exact iff_of_true rfl hmark

theorem normalizeLineEndings_written (t : List Char) (e : LineEnding) :
    normalizeLineEndings (expand '\r' '\n' e (normalizeLineEndings t)) = normalizeLineEndings t :=
  unify_expand cr_ne_lf (not_mem_unify cr_ne_lf t) e

theorem normalizeLineEndings_idem (t : List Char) :
    normalizeLineEndings (normalizeLineEndings t) = normalizeLineEndings t :=
  unify_of_not_mem (not_mem_unify cr_ne_lf t)

/-- The line endings of a text with one kind of them are got back. -/
theorem Uniform.expand_normalize {t : List Char} (h : Uniform (utf16 t)) :
    expand '\r' '\n' (detectLineEnding (utf16 t)) (normalizeLineEndings t) = t := by
  apply utf16_injective
  rw [← expand_utf16, ← normalizeDocumentText_utf16]
  exact expand_unify unit_cr_ne_lf h.detected

/-- What an opened document is written as: its mark and its text, a second mark left out. -/
theorem Opens.savesBack_iff {doc : DecodedRemoteDocument} {decoded : JsString}
    (hunicode : encoding.codec = some codec) (h : Opens legacy bytes encoding doc)
    (hdecoded : decodeRemoteDocument legacy bytes encoding = .ok decoded)
    (huniform : Uniform decoded) :
    SavesBack legacy bytes doc ↔
      bytes.length ≤ DOCUMENT_EDIT_LIMIT ∧ ¬ codec.mark ++ codec.mark <+: bytes := by
  obtain ⟨htext, hformat⟩ := h.spec hdecoded
  obtain ⟨chars, hsource, rfl⟩ :=
    TextCodec.textDecoder_eq_some ((decodeRemoteDocument_eq_ok hunicode).mp hdecoded)
  have hbom : decide ((detectBom bytes).encoding = some encoding ∧ (detectBom bytes).bom = true) =
      decide (codec.mark <+: bytes) := by
    rw [decide_eq_decide, ← detectBom_eq_iff hunicode]
    exact ⟨And.left, fun hfound => ⟨hfound, detectBom_bom hfound⟩⟩
  have hbytes : bytes = (if codec.mark <+: bytes then codec.mark else []) ++ codec.encode chars := by
    rw [← hsource]
    split_ifs with hmark
    · obtain ⟨rest, rfl⟩ := hmark
      rw [List.drop_left]
    · rfl
  have hsecond : chars.head? ≠ some byteOrderMark ↔ ¬ codec.mark ++ codec.mark <+: bytes := by
    rw [ne_eq, ← @TextCodec.mark_prefix_encode_iff codec, ← hsource]
    split_ifs with hmark
    · obtain ⟨rest, rfl⟩ := hmark
      rw [List.drop_left, List.prefix_append_right_inj]
    · exact iff_of_true hmark fun htwice => hmark ((List.prefix_append _ _).trans htwice)
  rw [normalizeDocumentText_utf16] at htext
  have hwritten : written codec (normalizeLineEndings
      (if chars.head? = some byteOrderMark then chars.tail else chars))
      (detectLineEnding (utf16 (if chars.head? = some byteOrderMark then chars.tail else chars)))
      (decide (codec.mark <+: bytes)) = bytes ↔ chars.head? ≠ some byteOrderMark := by
    rw [written, normalizeLineEndings_idem, huniform.expand_normalize]
    simp only [decide_eq_true_eq]
    conv_lhs => rhs; rw [hbytes]
    rw [List.append_cancel_left_eq, TextCodec.encode_injective.eq_iff]
    exact without_mark_eq_iff
  unfold SavesBack
  constructor
  · rintro ⟨text, htext', hsaved⟩
    obtain rfl := utf16_injective (htext.symm.trans htext')
    rw [hformat, hbom, serializeText_eq_ok_iff hunicode, hwritten] at hsaved
    exact ⟨hsaved.2, hsecond.mp hsaved.1⟩
  · rintro ⟨hlength, honce⟩
    refine ⟨_, htext, ?_⟩
    rw [hformat, hbom, serializeText_eq_ok_iff hunicode, hwritten]
    exact ⟨hsecond.mpr honce, hlength⟩

/-- What was saved is opened as it was, unless the text begins with a mark. -/
theorem reopens_iff (hunicode : encoding.codec = some codec) {text : List Char}
    {ending : RemoteLineEnding} {bom : Bool} {output : List UInt8}
    (h : serializeText legacy text (RemoteDocumentFormat.mk encoding ending bom).wire = .ok output) :
    Reopens legacy output encoding text bom ↔ text.head? ≠ some byteOrderMark := by
  obtain ⟨rfl, -⟩ := (serializeText_eq_ok_iff hunicode).mp h
  have hhead : (expand '\r' '\n' ending (normalizeLineEndings text)).head? = some byteOrderMark ↔
      text.head? = some byteOrderMark :=
    head?_unify_expand (by decide) (by decide) cr_ne_lf
  have hbom : decide ((detectBom (written codec text ending bom)).encoding = some encoding ∧
      (detectBom (written codec text ending bom)).bom = true) =
        decide (codec.mark <+: written codec text ending bom) := by
    rw [decide_eq_decide, ← detectBom_eq_iff hunicode]
    exact ⟨And.left, fun hfound => ⟨hfound, detectBom_bom hfound⟩⟩
  have hplain : codec.mark <+: codec.encode (expand '\r' '\n' ending (normalizeLineEndings text)) ↔
      text.head? = some byteOrderMark := TextCodec.mark_prefix_encode_iff.trans hhead
  have hwithout : normalizeLineEndings
      (if (expand '\r' '\n' ending (normalizeLineEndings text)).head? = some byteOrderMark then
        (expand '\r' '\n' ending (normalizeLineEndings text)).tail
      else expand '\r' '\n' ending (normalizeLineEndings text)) = normalizeLineEndings text ↔
        text.head? ≠ some byteOrderMark := by
    have h := @normalize_without_mark_iff (expand '\r' '\n' ending (normalizeLineEndings text))
    rw [normalizeLineEndings_written] at h
    exact h.trans hhead.not
  have hopens : ∀ decoded, decodeRemoteDocument legacy (written codec text ending bom) encoding =
      .ok decoded → (Reopens legacy (written codec text ending bom) encoding text bom ↔
        normalizeDocumentText decoded = utf16 (normalizeLineEndings text) ∧
          decide (codec.mark <+: written codec text ending bom) = bom) := by
    intro decoded hdecoded
    unfold Reopens decodeRemoteDocumentAs
    simp only [decodedDocument_eq_ok, hdecoded, hbom]
    constructor
    · rintro ⟨_, ⟨_, ⟨⟩, rfl⟩, htext, hmark⟩
      exact ⟨htext, hmark⟩
    · rintro ⟨htext, hmark⟩
      exact ⟨_, ⟨decoded, rfl, rfl⟩, htext, hmark⟩
  cases bom with
  | true =>
    -- the mark is taken off, and a mark of the text by the decoder
    have hmark : codec.mark <+: written codec text ending true := List.prefix_append _ _
    rw [hopens _ ((decodeRemoteDocument_eq_ok hunicode).mpr (by
      rw [if_pos hmark, written, if_pos rfl, List.drop_left, TextCodec.textDecoder_encode])),
      normalizeDocumentText_utf16, utf16_injective.eq_iff, hwithout]
    simp [hmark]
  | false =>
    -- a mark of the text is taken for the mark of the file
    have hmark : codec.mark <+: written codec text ending false ↔ text.head? = some byteOrderMark :=
      hplain
    by_cases hfirst : text.head? = some byteOrderMark
    · refine iff_of_false ?_ (not_not.mpr hfirst)
      rintro ⟨doc, hdoc, -, hno⟩
      obtain ⟨decoded, -, rfl⟩ := decodedDocument_eq_ok.mp hdoc
      dsimp only at hno
      rw [hbom, decide_eq_false_iff_not, hmark] at hno
      exact hno hfirst
    · have hnone := mt hmark.mp hfirst
      rw [hopens _ ((decodeRemoteDocument_eq_ok hunicode).mpr (by
        rw [if_neg hnone, written, if_neg Bool.false_ne_true, List.nil_append,
          TextCodec.textDecoder_encode])),
        normalizeDocumentText_utf16, utf16_injective.eq_iff, hwithout]
      simp [hnone]

/-- **Documents.** In a Unicode encoding, opening a document and saving it writes the same bytes
exactly if the file is within the limit and begins with one mark at most; and saving a text and
opening it returns the text exactly if it does not begin with a mark itself. -/
theorem document_lossless_iff (legacy : LegacyCodecs) (hunicode : encoding.codec = some codec) :
    (∀ bytes doc decoded, Opens legacy bytes encoding doc →
      decodeRemoteDocument legacy bytes encoding = .ok decoded → Uniform decoded →
      (SavesBack legacy bytes doc ↔
        bytes.length ≤ DOCUMENT_EDIT_LIMIT ∧ ¬ codec.mark ++ codec.mark <+: bytes)) ∧
    ∀ text ending bom output,
      serializeText legacy text (RemoteDocumentFormat.mk encoding ending bom).wire = .ok output →
      (Reopens legacy output encoding text bom ↔ text.head? ≠ some byteOrderMark) :=
  ⟨fun _ _ _ hopens hdecoded huniform => hopens.savesBack_iff hunicode hdecoded huniform,
    fun _ _ _ _ hsaved => reopens_iff hunicode hsaved⟩

/-- No legacy encoding is supported. -/
def unicodeOnly : LegacyCodecs := ⟨fun _ _ => none, fun _ _ => none⟩

/-- A file with one mark and two lines of a Windows editor. -/
theorem document_lossless_windows : SavesBack unicodeOnly
    [0xff, 0xfe, 0x61, 0, 0x0d, 0, 0x0a, 0, 0x62, 0]
    ⟨text "a\nb", ⟨.utf16le, .crlf, true⟩, false, true⟩ := by
  have hopens : Opens unicodeOnly [0xff, 0xfe, 0x61, 0, 0x0d, 0, 0x0a, 0, 0x62, 0] .utf16le
      ⟨text "a\nb", ⟨.utf16le, .crlf, true⟩, false, true⟩ := .inl (by decide)
  exact ((document_lossless_iff unicodeOnly rfl).1 _ _ (text "a\r\nb") hopens (by rfl)
    ⟨.crlf, by decide⟩).mpr (by decide)

/-- A second mark is lost when the file is saved, and a text with a mark is read without it. -/
theorem marks_are_lost :
    (∃ doc, Opens unicodeOnly [0xef, 0xbb, 0xbf, 0xef, 0xbb, 0xbf, 0x61] .utf8 doc ∧
      ¬ SavesBack unicodeOnly [0xef, 0xbb, 0xbf, 0xef, 0xbb, 0xbf, 0x61] doc) ∧
    ∃ output, serializeText unicodeOnly [byteOrderMark, 'a'] ⟨"utf-8", "lf", false⟩ = .ok output ∧
      ¬ Reopens unicodeOnly output .utf8 [byteOrderMark, 'a'] false := by
  constructor
  · refine ⟨⟨[0x61], ⟨.utf8, .lf, true⟩, false, true⟩, .inl (by decide), ?_⟩
    rintro ⟨chars, htext, hsaved⟩
    obtain rfl : ['a'] = chars := utf16_injective (show utf16 ['a'] = utf16 chars from htext)
    exact absurd hsaved (by decide)
  · refine ⟨[0xef, 0xbb, 0xbf, 0x61], by rfl, ?_⟩
    rintro ⟨doc, hdoc, -, hbom⟩
    have hmarked : decodeRemoteDocumentAs unicodeOnly [0xef, 0xbb, 0xbf, 0x61] .utf8 =
        .ok ⟨[0x61], ⟨.utf8, .lf, true⟩, false, true⟩ := by rfl
    rw [hmarked] at hdoc
    cases hdoc
    cases hbom

end TauTerm.Sftp
