import Mathlib
import TauTerm.Tools.ByteInput

/-!
# The notations of bytes

`Spells` says which bytes a text spells, in any of the notations, without reading it. What the parser
accepts is what spells bytes if anything at all may stand before the brace of an array.
-/

namespace TauTerm.Tools

open Lib Lib.Js

variable {s digits token body : JsString} {bytes : List UInt8} {format : ByteInputFormat}

/-! ## What the notations are -/

/-- Two digits for each byte. -/
inductive HexPairs : JsString → List UInt8 → Prop
  | nil : HexPairs [] []
  | cons {high low : UInt16} {h l : Nat} {rest : JsString} {bytes : List UInt8} :
    hexDigit high = some h → hexDigit low = some l → HexPairs rest bytes →
      HexPairs (high :: low :: rest) (UInt8.ofNat (h * 16 + l) :: bytes)

/-- One or more bytes, with or without a prefix. -/
def SpellsToken (token : JsString) (bytes : List UInt8) : Prop :=
  bytes ≠ [] ∧ ∃ digits, HexPairs digits bytes ∧
    (token = digits ∨ ∃ x, isX x = true ∧ token = unit '0' :: x :: digits)

/-- Tokens between separators; one run of digits is one token. -/
def SpellsTokens (body : JsString) (bytes : List UInt8) : Prop :=
  ∃ tokens groups, Separates isSeparator body tokens ∧ List.Forall₂ SpellsToken tokens groups ∧
    groups.flatten = bytes ∧ bytes ≠ []

inductive SpellsEscapes : JsString → List UInt8 → Prop
  | nil : SpellsEscapes [] []
  | space {u : UInt16} {s : JsString} {bytes : List UInt8} : isSpace u = true → SpellsEscapes s bytes →
    SpellsEscapes (u :: s) bytes
  | escape {x high low : UInt16} {h l : Nat} {s : JsString} {bytes : List UInt8} : isX x = true →
    hexDigit high = some h → hexDigit low = some l → SpellsEscapes s bytes →
      SpellsEscapes (unit '\\' :: x :: high :: low :: s) (UInt8.ofNat (h * 16 + l) :: bytes)

/-- What may stand behind an array. -/
def IsEnding (tail : JsString) : Prop := trim tail = [] ∨ trim tail = text ";"

/-- A text spells bytes; `Leads` is what may stand before the brace of an array. -/
inductive Spells (Leads : JsString → Prop) : JsString → List UInt8 → Prop
  | tokens {s : JsString} {bytes : List UInt8} : SpellsTokens s bytes → Spells Leads s bytes
  | escapes {s : JsString} {bytes : List UInt8} : SpellsEscapes s bytes → s.head? = some (unit '\\') →
    Spells Leads s bytes
  | array {before body tail : JsString} {bytes : List UInt8} : Leads before → SpellsTokens body bytes →
    IsEnding tail →
      Spells Leads (before ++ unit '\x7b' :: (body ++ unit '\x7d' :: tail)) bytes

/-! ## Digits -/

theorem hexPairs_iff : HexPairs digits bytes ↔
    digits.all isHex = true ∧ digits.length % 2 = 0 ∧ parsePairs digits = bytes := by
  constructor
  · intro h
    induction h with
    | nil => exact ⟨rfl, rfl, rfl⟩
    | @cons high low h l rest bytes hhigh hlow _ ih =>
      obtain ⟨hall, heven, hparse⟩ := ih
      refine ⟨?_, ?_, ?_⟩
      · simp [isHex, hhigh, hlow, hall]
      · rw [List.length_cons, List.length_cons]
        omega
      · rw [parsePairs, hhigh, hlow, hparse]
        rfl
  · rintro ⟨hall, heven, rfl⟩
    induction digits using parsePairs.induct with
    | case1 high low rest ih =>
      simp only [List.all_cons, Bool.and_eq_true] at hall
      obtain ⟨h, hh⟩ := Option.isSome_iff_exists.mp hall.1
      obtain ⟨l, hl⟩ := Option.isSome_iff_exists.mp hall.2.1
      rw [parsePairs, hh, hl]
      refine .cons hh hl (ih hall.2.2 ?_)
      rw [List.length_cons, List.length_cons] at heven
      omega
    | case2 digits hshort =>
      obtain _ | ⟨u, _ | ⟨v, rest⟩⟩ := digits
      · exact .nil
      · cases heven
      · exact absurd rfl (hshort u v rest)

theorem HexPairs.append {digits' : JsString} {bytes' : List UInt8} (h : HexPairs digits bytes)
    (h' : HexPairs digits' bytes') : HexPairs (digits ++ digits') (bytes ++ bytes') := by
  induction h with
  | nil => exact h'
  | cons hhigh hlow _ ih => exact .cons hhigh hlow ih

theorem HexPairs.ne_nil (h : HexPairs digits bytes) : bytes ≠ [] ↔ digits ≠ [] := by
  cases h <;> simp

/-- The result is these bytes. -/
def Reports (result : ToolResult ParsedByteInput) (bytes : List UInt8) : Prop :=
  ∃ format, result = .ok ⟨bytes, toNormalizedHex bytes, format⟩

theorem parseCleanHex_iff :
    Reports (parseCleanHex digits format) bytes ↔ HexPairs digits bytes ∧ bytes ≠ [] := by
  unfold Reports parseCleanHex toolErr
  rw [hexPairs_iff]
  constructor
  · rintro ⟨format', h⟩
    split_ifs at h with hnil hall heven
    injection h with h
    obtain rfl := congrArg ParsedByteInput.bytes h
    have hpairs := (hexPairs_iff).mpr ⟨hall, not_not.mp heven, rfl⟩
    exact ⟨⟨hall, not_not.mp heven, rfl⟩, hpairs.ne_nil.mpr hnil⟩
  · rintro ⟨⟨hall, heven, rfl⟩, hne⟩
    have hnil := ((hexPairs_iff).mpr ⟨hall, heven, rfl⟩).ne_nil.mp hne
    exact ⟨format, by rw [if_neg hnil, if_neg (not_not.mpr hall), if_neg (not_not.mpr heven)]⟩

theorem parseCleanHex_reports {parsed : ParsedByteInput} (h : parseCleanHex digits format = .ok parsed) :
    Reports (parseCleanHex digits format) parsed.bytes := by
  rw [h]
  unfold parseCleanHex toolErr at h
  split_ifs at h
  cases h
  exact ⟨format, rfl⟩

/-! ## Tokens -/

theorem withoutPrefix_iff {rest : JsString} :
    withoutPrefix token = some rest ↔ ∃ x, isX x = true ∧ token = unit '0' :: x :: rest := by
  unfold withoutPrefix
  split
  · rename_i u x rest'
    split_ifs with h
    · rw [Bool.and_eq_true, decide_eq_true_iff] at h
      constructor
      · rintro ⟨rfl⟩
        exact ⟨x, h.2, by rw [h.1]⟩
      · rintro ⟨x', -, heq⟩
        injection heq with _ heq
        injection heq with _ heq
        rw [heq]
    · refine ⟨fun hnone => (by cases hnone), ?_⟩
      rintro ⟨x', hx', heq⟩
      injection heq with hu heq
      injection heq with hx _
      rw [Bool.and_eq_true, decide_eq_true_iff] at h
      exact absurd ⟨hu, hx ▸ hx'⟩ h
  · rename_i hshort
    refine ⟨fun hnone => (by cases hnone), ?_⟩
    rintro ⟨x, -, rfl⟩
    exact absurd rfl (hshort _ _ _)

theorem isX_iff {x : UInt16} : isX x = true ↔ x = unit 'x' ∨ x = unit 'X' := by
  rw [isX, Bool.or_eq_true, decide_eq_true_iff, decide_eq_true_iff]

theorem not_isHex_of_isX {x : UInt16} (h : isX x = true) : isHex x = false := by
  obtain rfl | rfl := isX_iff.mp h <;> decide

/-- Digits have no prefix. -/
theorem withoutPrefix_digits (h : digits.all isHex = true) : withoutPrefix digits = none := by
  by_contra hsome
  obtain ⟨rest, hrest⟩ := Option.ne_none_iff_exists'.mp hsome
  obtain ⟨x, hx, rfl⟩ := (withoutPrefix_iff).mp hrest
  rw [List.all_cons, List.all_cons, not_isHex_of_isX hx] at h
  simp at h

theorem tokenDigits_iff : SpellsToken token bytes ↔
    ∃ digits, tokenDigits token = some digits ∧ HexPairs digits bytes := by
  unfold tokenDigits
  constructor
  · rintro ⟨hne, digits, hpairs, htoken⟩
    have hall := ((hexPairs_iff).mp hpairs).1
    have hdigits : (withoutPrefix token).getD token = digits := by
      obtain rfl | htoken := htoken
      · rw [withoutPrefix_digits hall]
        rfl
      · rw [(withoutPrefix_iff).mpr htoken]
        rfl
    refine ⟨digits, ?_, hpairs⟩
    dsimp only
    rw [hdigits, if_pos ⟨hpairs.ne_nil.mp hne, hall⟩]
  · rintro ⟨digits, hdigits, hpairs⟩
    dsimp only at hdigits
    split_ifs at hdigits with hall
    have hdigits := Option.some.inj hdigits
    refine ⟨hpairs.ne_nil.mpr (hdigits ▸ hall.1), digits, hpairs, ?_⟩
    cases hstart : withoutPrefix token with
    | none =>
      rw [hstart] at hdigits
      exact .inl hdigits
    | some rest =>
      rw [hstart] at hdigits
      obtain rfl : rest = digits := hdigits
      exact .inr ((withoutPrefix_iff).mp hstart)

theorem cleanTokens_spells {tokens : List JsString} {cleaned : JsString}
    (h : cleanTokens tokens = .ok cleaned) :
    ∃ groups, List.Forall₂ SpellsToken tokens groups ∧ HexPairs cleaned groups.flatten := by
  induction tokens generalizing cleaned with
  | nil =>
    cases h
    exact ⟨[], .nil, .nil⟩
  | cons token tokens ih =>
    rw [cleanTokens] at h
    split at h
    · cases h
    · rename_i digits hdigits
      split_ifs at h with heven
      split at h
      · cases h
      · rename_i rest hrest
        cases h
        obtain ⟨groups, hgroups, hpairs⟩ := ih hrest
        have hall : digits.all isHex = true := by
          unfold tokenDigits at hdigits
          dsimp only at hdigits
          split_ifs at hdigits with hall
          exact Option.some.inj hdigits ▸ hall.2
        have hfirst := (hexPairs_iff).mpr ⟨hall, not_not.mp heven, rfl⟩
        exact ⟨parsePairs digits :: groups, .cons (tokenDigits_iff.mpr ⟨digits, hdigits, hfirst⟩) hgroups,
          hfirst.append hpairs⟩

theorem cleanTokens_of_spells {tokens : List JsString} {groups : List (List UInt8)}
    (h : List.Forall₂ SpellsToken tokens groups) :
    ∃ cleaned, cleanTokens tokens = .ok cleaned ∧ HexPairs cleaned groups.flatten := by
  induction h with
  | nil => exact ⟨[], rfl, .nil⟩
  | cons hfirst _ ih =>
    obtain ⟨cleaned, hcleaned, hpairs⟩ := ih
    obtain ⟨digits, hdigits, hfirst⟩ := tokenDigits_iff.mp hfirst
    refine ⟨digits ++ cleaned, ?_, hfirst.append hpairs⟩
    rw [cleanTokens, hdigits]
    dsimp only
    rw [if_neg (not_not.mpr ((hexPairs_iff).mp hfirst).2.1), hcleaned]

/-- A text without separators is one token. -/
theorem tokens_single (hbody : body.any isSeparator = false) (hne : body ≠ []) :
    tokens isSeparator body = [body] := by
  have hnone : ∀ u ∈ body, isSeparator u = false := fun u hu =>
    Bool.eq_false_iff.mpr (List.any_eq_false.mp hbody u hu)
  have := tokens_token hne hnone (s := []) trivial
  rwa [List.append_nil] at this

theorem parseBody_iff : Reports (parseBody body format) bytes ↔ SpellsTokens body bytes := by
  unfold parseBody
  split_ifs with hrun
  · obtain ⟨hseparator, hstart⟩ := hrun
    rw [Bool.not_eq_true] at hseparator
    rw [parseCleanHex_iff]
    constructor
    · rintro ⟨hpairs, hne⟩
      refine ⟨[body], [bytes], separates_iff.mpr (tokens_single hseparator (hpairs.ne_nil.mp hne)),
        .cons ⟨hne, body, hpairs, .inl rfl⟩ .nil, List.flatten_singleton, hne⟩
    · rintro ⟨tokens, groups, htokens, hgroups, rfl, hne⟩
      have hbody : body ≠ [] := by
        rintro rfl
        obtain rfl := (separates_iff.mp htokens).symm
        cases hgroups
        exact hne rfl
      rw [separates_iff, tokens_single hseparator hbody] at htokens
      subst htokens
      obtain _ | ⟨⟨-, digits, hpairs, htoken⟩, hrest⟩ := hgroups
      cases hrest
      obtain rfl | hstarted := htoken
      · rw [List.flatten_singleton] at hne ⊢
        exact ⟨hpairs, hne⟩
      · rw [(withoutPrefix_iff).mpr hstarted] at hstart
        cases hstart
  · have hnil : ∀ groups, List.Forall₂ SpellsToken [] groups → groups.flatten = [] := by
      intro groups h
      cases h
      rfl
    dsimp only
    split_ifs with htokens
    · refine ⟨fun ⟨_, h⟩ => (by cases h), ?_⟩
      rintro ⟨tokens, groups, hseparates, hgroups, rfl, hne⟩
      rw [separates_iff, htokens] at hseparates
      exact absurd (hnil groups (hseparates ▸ hgroups)) hne
    · constructor
      · intro h
        split at h
        · obtain ⟨_, h⟩ := h
          cases h
        · rename_i cleaned hcleaned
          obtain ⟨hpairs, hne⟩ := parseCleanHex_iff.mp h
          obtain ⟨groups, hgroups, hpairs'⟩ := cleanTokens_spells hcleaned
          refine ⟨_, groups, separates_tokens _ _, hgroups, ?_, hne⟩
          rw [← ((hexPairs_iff).mp hpairs').2.2, ((hexPairs_iff).mp hpairs).2.2]
      · rintro ⟨tokens, groups, hseparates, hgroups, rfl, hne⟩
        rw [separates_iff] at hseparates
        obtain ⟨cleaned, hcleaned, hpairs⟩ := cleanTokens_of_spells hgroups
        rw [hseparates, hcleaned]
        exact parseCleanHex_iff.mpr ⟨hpairs, hne⟩

theorem parseBody_reports {parsed : ParsedByteInput} (h : parseBody body format = .ok parsed) :
    Reports (parseBody body format) parsed.bytes := by
  unfold parseBody at h ⊢
  dsimp only at h ⊢
  split_ifs at h ⊢
  · exact parseCleanHex_reports h
  · cases h
  · split at h
    · cases h
    · exact parseCleanHex_reports h

/-! ## Escapes -/

theorem escapesFollow_four (u x high low : UInt16) (rest : JsString) :
    escapesFollow (u :: x :: high :: low :: rest) =
      if isSpace u then escapesFollow (x :: high :: low :: rest)
      else isEscape u x high low && escapesFollow rest := rfl

theorem escapesFollow_space {u : UInt16} (hu : isSpace u = true) (s : JsString) :
    escapesFollow (u :: s) = escapesFollow s := by
  obtain _ | ⟨x, _ | ⟨high, _ | ⟨low, rest⟩⟩⟩ := s
  · change [u].all isSpace = true
    simp [hu]
  · change [u, x].all isSpace = [x].all isSpace
    simp [hu]
  · change [u, x, high].all isSpace = [x, high].all isSpace
    simp [hu]
  · rw [escapesFollow_four, if_pos hu]

theorem escapedDigits_skip {u : UInt16} (hu : u ≠ unit '\\') (s : JsString) :
    escapedDigits (u :: s) = escapedDigits s := by
  have hescape : ∀ x high low, isEscape u x high low = false := fun x high low => by
    rw [isEscape, decide_eq_false hu]
    rfl
  obtain _ | ⟨x, _ | ⟨high, _ | ⟨low, rest⟩⟩⟩ := s
  · rfl
  · rfl
  · rfl
  · rw [escapedDigits, if_neg (by rw [hescape]; exact Bool.false_ne_true)]

theorem spellsEscapes_spaces (hs : s.all isSpace = true) : SpellsEscapes s [] := by
  induction s with
  | nil => exact .nil
  | cons u s ih =>
    rw [List.all_cons, Bool.and_eq_true] at hs
    exact .space hs.1 (ih hs.2)

theorem isEscape_iff {u x high low : UInt16} : isEscape u x high low = true ↔
    u = unit '\\' ∧ isX x = true ∧ isHex high = true ∧ isHex low = true := by
  simp only [isEscape, Bool.and_eq_true, decide_eq_true_iff, and_assoc]

theorem spellsEscapes_iff : SpellsEscapes s bytes ↔
    escapesFollow s = true ∧ HexPairs (escapedDigits s) bytes := by
  have hbackslash : isSpace (unit '\\') = false := by decide
  constructor
  · intro h
    induction h with
    | nil => exact ⟨rfl, .nil⟩
    | @space u s bytes hu _ ih =>
      have hne : u ≠ unit '\\' := by
        rintro rfl
        rw [hbackslash] at hu
        cases hu
      rwa [escapesFollow_space hu, escapedDigits_skip hne]
    | @escape x high low h l s bytes hx hhigh hlow _ ih =>
      have hescape : isEscape (unit '\\') x high low = true :=
        isEscape_iff.mpr ⟨rfl, hx, by rw [isHex, hhigh]; rfl, by rw [isHex, hlow]; rfl⟩
      rw [escapesFollow_four, escapedDigits, hbackslash, if_neg Bool.false_ne_true, if_pos hescape, hescape]
      exact ⟨ih.1, .cons hhigh hlow ih.2⟩
  · rintro ⟨hfollow, hpairs⟩
    induction s using escapesFollow.induct generalizing bytes with
    | case1 u x high low rest hu ih =>
      rw [escapesFollow_space hu] at hfollow
      have hne : u ≠ unit '\\' := by
        rintro rfl
        rw [hbackslash] at hu
        cases hu
      rw [escapedDigits_skip hne] at hpairs
      exact .space hu (ih hfollow hpairs)
    | case2 u x high low rest hu ih =>
      rw [escapesFollow_four, if_neg hu, Bool.and_eq_true] at hfollow
      obtain ⟨hescape, hfollow⟩ := hfollow
      rw [escapedDigits, if_pos hescape] at hpairs
      obtain ⟨rfl, hx, -, -⟩ := isEscape_iff.mp hescape
      obtain _ | ⟨hhigh, hlow, hpairs⟩ := hpairs
      exact .escape hx hhigh hlow (ih hfollow hpairs)
    | case3 rest hshort =>
      have hspaces : rest.all isSpace = true := by
        rwa [escapesFollow] at hfollow
        exact hshort
      have hdigits : escapedDigits rest = [] := by
        rw [escapedDigits]
        exact hshort
      rw [hdigits] at hpairs
      cases hpairs
      exact spellsEscapes_spaces hspaces

theorem isEscapedHex_iff : isEscapedHex s = true ↔
    s.head? = some (unit '\\') ∧ escapesFollow s = true := by
  have hbackslash : isSpace (unit '\\') = false := by decide
  obtain _ | ⟨u, _ | ⟨x, _ | ⟨high, _ | ⟨low, rest⟩⟩⟩⟩ := s
  · simp [isEscapedHex]
  all_goals
    rw [List.head?_cons, Option.some.injEq]
    refine ⟨fun h => ?_, fun ⟨hu, h⟩ => ?_⟩
  · cases h
  · rw [hu, escapesFollow, List.all_cons, hbackslash] at h
    · cases h
    · simp
  · cases h
  · rw [hu, escapesFollow, List.all_cons, hbackslash] at h
    · cases h
    · simp
  · cases h
  · rw [hu, escapesFollow, List.all_cons, hbackslash] at h
    · cases h
    · simp
  · rw [isEscapedHex, Bool.and_eq_true] at h
    obtain ⟨hescape, hrest⟩ := h
    obtain ⟨rfl, -⟩ := isEscape_iff.mp hescape
    refine ⟨rfl, ?_⟩
    rw [escapesFollow_four, if_neg (by rw [hbackslash]; exact Bool.false_ne_true), hescape, hrest]
    rfl
  · rw [hu, escapesFollow_four, if_neg (by rw [hbackslash]; exact Bool.false_ne_true)] at h
    rw [hu, isEscapedHex, h]

/-! ## Which branch a text takes -/

theorem includesEscape_skip {u : UInt16} (hu : u ≠ unit '\\') (s : JsString) :
    includesEscape (u :: s) = includesEscape s := by
  cases s with
  | nil => rfl
  | cons v s => rw [includesEscape, decide_eq_false hu, Bool.false_and, Bool.false_or]

theorem includesEscape_append {u : UInt16} (hu : u ≠ unit '\\') (hx : isX u = false) (s t : JsString) :
    includesEscape (s ++ u :: t) = (includesEscape s || includesEscape t) := by
  induction s with
  | nil => exact includesEscape_skip hu t
  | cons v s ih =>
    cases s with
    | nil =>
      rw [List.singleton_append, includesEscape, hx, Bool.and_false, Bool.false_or, includesEscape_skip hu]
      rfl
    | cons w s =>
      rw [List.cons_append, List.cons_append, includesEscape, ← List.cons_append, ih, includesEscape,
        Bool.or_assoc]

theorem includesEscape_of_notMem (hs : unit '\\' ∉ s) : includesEscape s = false := by
  induction s with
  | nil => rfl
  | cons u s ih =>
    rw [includesEscape_skip fun hu => hs (hu ▸ List.mem_cons_self)]
    exact ih fun hmem => hs (List.mem_cons_of_mem u hmem)

theorem SpellsToken.mem {u : UInt16} (h : SpellsToken token bytes) (hu : u ∈ token) :
    isHex u = true ∨ isX u = true := by
  obtain ⟨-, digits, hpairs, htoken⟩ := h
  have hall := List.all_eq_true.mp ((hexPairs_iff).mp hpairs).1
  obtain rfl | ⟨x, hx, rfl⟩ := htoken
  · exact .inl (hall u hu)
  · obtain rfl | hu := List.mem_cons.mp hu
    · exact .inl (by decide)
    obtain rfl | hu := List.mem_cons.mp hu
    · exact .inr hx
    · exact .inl (hall u hu)

theorem exists_group {tokens : List JsString} {groups : List (List UInt8)}
    (h : List.Forall₂ SpellsToken tokens groups) (htoken : token ∈ tokens) :
    ∃ group, SpellsToken token group := by
  induction h with
  | nil => cases htoken
  | cons hfirst _ ih =>
    obtain rfl | htoken := List.mem_cons.mp htoken
    · exact ⟨_, hfirst⟩
    · exact ih htoken

/-- Tokens have no braces and no backslashes. -/
theorem SpellsTokens.notMem {u : UInt16} (h : SpellsTokens body bytes) (hseparator : isSeparator u = false)
    (hhex : isHex u = false) (hx : isX u = false) : u ∉ body := by
  intro hu
  obtain ⟨tokens, groups, hseparates, hgroups, -⟩ := h
  obtain hsep | ⟨token, htoken, hmem⟩ := hseparates.mem hu
  · rw [hseparator] at hsep
    cases hsep
  · obtain ⟨group, hspells⟩ := exists_group hgroups htoken
    obtain h | h := hspells.mem hmem
    · rw [hhex] at h
      cases h
    · rw [hx] at h
      cases h

/-- Blanks around tokens are separators too. -/
theorem spellsTokens_trim : SpellsTokens (trim s) bytes ↔ SpellsTokens s bytes := by
  have hspace : ∀ u, isSpace u = true → isSeparator u = true := fun u hu => by
    rw [isSeparator, hu, Bool.true_or]
  have htokens : tokens isSeparator s = tokens isSeparator (trim s) := by
    obtain ⟨lead, tail, heq, hlead, htail⟩ := trim_split s
    conv_lhs => rw [heq]
    rw [tokens_append_right fun u hu => hspace u (htail u hu),
      tokens_append_of_all fun u hu => hspace u (hlead u hu)]
  unfold SpellsTokens
  simp only [separates_iff, htokens]

/-! ## What the parser accepts -/

/-- What the parser lets stand before a brace. -/
def IsLoose (before : JsString) : Prop := unit '\x7b' ∉ before ∧ includesEscape before = false

theorem IsEnding.notMem {tail : JsString} {u : UInt16} (h : IsEnding tail) (hspace : isSpace u = false)
    (hu : u ≠ unit ';') : u ∉ tail := by
  intro hmem
  have htrim : u ∈ trim tail := by
    obtain ⟨lead, last, heq, hlead, hlast⟩ := trim_split tail
    rw [heq] at hmem
    obtain hmem | hmem := List.mem_append.mp hmem
    · obtain hmem | hmem := List.mem_append.mp hmem
      · rw [hlead u hmem] at hspace
        cases hspace
      · exact hmem
    · rw [hlast u hmem] at hspace
      cases hspace
  obtain h | h := h
  · rw [h] at htrim
    cases htrim
  · rw [h] at htrim
    exact hu (List.mem_singleton.mp htrim)

/-- A text with a brace in front of a brace is cut at the first one and at the last one. -/
theorem array_cut {before body tail : JsString} (hbefore : unit '\x7b' ∉ before)
    (hbody : unit '\x7d' ∉ tail) :
    let s := before ++ unit '\x7b' :: (body ++ unit '\x7d' :: tail)
    indexOf (unit '\x7b') s = some before.length ∧
      lastIndexOf (unit '\x7d') s = some (before.length + (body.length + 1)) ∧
      s.drop (before.length + (body.length + 1) + 1) = tail ∧
      (s.take (before.length + (body.length + 1))).drop (before.length + 1) = body := by
  have hs : before ++ unit '\x7b' :: (body ++ unit '\x7d' :: tail) =
      (before ++ unit '\x7b' :: body) ++ unit '\x7d' :: tail := by
    rw [List.append_assoc, List.cons_append]
  have hlength : (before ++ unit '\x7b' :: body).length = before.length + (body.length + 1) := by
    rw [List.length_append, List.length_cons]
  refine ⟨indexOf_eq_some_iff.mpr ⟨before, _, rfl, hbefore, rfl⟩,
    lastIndexOf_eq_some_iff.mpr ⟨_, tail, hs, hbody, hlength⟩, ?_, ?_⟩
  · rw [hs, ← hlength, ← List.drop_drop, List.drop_left]
    rfl
  · rw [hs, ← hlength, List.take_left, ← List.drop_drop, List.drop_left]
    rfl

theorem exists_body {before rest front tail : JsString}
    (h : before ++ unit '\x7b' :: rest = front ++ unit '\x7d' :: tail)
    (hlt : before.length < front.length) : ∃ body, rest = body ++ unit '\x7d' :: tail := by
  obtain ⟨a, rfl, ha⟩ | ⟨a, rfl, -⟩ := List.append_eq_append_iff.mp h
  · obtain _ | ⟨u, body⟩ := a
    · rw [List.append_nil] at hlt
      exact absurd hlt (lt_irrefl _)
    · exact ⟨body, (List.cons.inj ha).2⟩
  · rw [List.length_append] at hlt
    omega

theorem parseByteInput_iff :
    Reports (parseByteInput s) bytes ↔ Spells IsLoose (trim s) bytes := by
  have hnone : ∀ {code : String}, ¬ Reports (toolErr code) bytes := by
    rintro code ⟨format, h⟩
    cases h
  have hbackslash : isSpace (unit '\\') = false := by decide
  unfold parseByteInput
  generalize trim s = t
  dsimp only
  constructor
  · intro h
    split_ifs at h with hnil hescape hform
    · exact absurd h hnone
    · obtain ⟨hhead, hfollow⟩ := isEscapedHex_iff.mp hform
      exact .escapes (spellsEscapes_iff.mpr ⟨hfollow, (parseCleanHex_iff.mp h).1⟩) hhead
    · exact absurd h hnone
    · split at h
      · exact .tokens (parseBody_iff.mp h)
      · rename_i openBrace closeBrace hopen hclose
        split_ifs at h with hle hend
        · exact absurd h hnone
        · exact absurd h hnone
        · obtain ⟨before, rest, rfl, hbefore, rfl⟩ := indexOf_eq_some_iff.mp hopen
          obtain ⟨front, tail, hcut, htail, rfl⟩ := lastIndexOf_eq_some_iff.mp hclose
          obtain ⟨body, rfl⟩ := exists_body hcut (not_le.mp hle)
          obtain ⟨-, hlast, hdrop, htake⟩ := @array_cut _ body _ hbefore htail
          have hfront : front.length = before.length + (body.length + 1) :=
            Option.some.inj (hclose.symm.trans hlast)
          rw [hfront, htake] at h
          rw [hfront, hdrop] at hend
          rw [Bool.not_eq_true, includesEscape_append (by decide) (by decide), Bool.or_eq_false_iff] at hescape
          refine .array ⟨hbefore, hescape.1⟩ (spellsTokens_trim.mp (parseBody_iff.mp h)) ?_
          by_cases hempty : trim tail = []
          · exact .inl hempty
          · exact .inr (not_not.mp fun hne => hend ⟨hempty, hne⟩)
      · exact absurd h hnone
  · intro h
    cases h with
    | tokens h =>
      have hne : t ≠ [] := by
        rintro rfl
        obtain ⟨tokens, groups, hseparates, hgroups, rfl, hbytes⟩ := h
        rw [separates_iff] at hseparates
        subst hseparates
        cases hgroups
        exact hbytes rfl
      have hescape : includesEscape t = false :=
        includesEscape_of_notMem (h.notMem (by decide) (by decide) (by decide))
      have hopen : indexOf (unit '\x7b') t = none :=
        indexOf_eq_none_iff.mpr (h.notMem (by decide) (by decide) (by decide))
      have hclose : lastIndexOf (unit '\x7d') t = none :=
        lastIndexOf_eq_none_iff.mpr (h.notMem (by decide) (by decide) (by decide))
      rw [if_neg hne, hescape, if_neg Bool.false_ne_true, hopen, hclose]
      exact parseBody_iff.mpr h
    | escapes h hhead =>
      obtain ⟨hfollow, hpairs⟩ := spellsEscapes_iff.mp h
      cases h with
      | nil => cases hhead
      | space hu _ =>
        obtain rfl := Option.some.inj hhead
        rw [hbackslash] at hu
        cases hu
      | @escape x high low _ _ rest _ hx _ _ _ =>
        have hescape : includesEscape (unit '\\' :: x :: high :: low :: rest) = true := by
          rw [includesEscape, hx]
          rfl
        rw [if_neg (List.cons_ne_nil _ _), if_pos hescape, if_pos (isEscapedHex_iff.mpr ⟨hhead, hfollow⟩)]
        exact parseCleanHex_iff.mpr ⟨hpairs, List.cons_ne_nil _ _⟩
    | @array before body tail _ hbefore hbody htail =>
      have hnotail : unit '\\' ∉ tail := htail.notMem (by decide) (by decide)
      have hnobody : unit '\\' ∉ body := hbody.notMem (by decide) (by decide) (by decide)
      have hescape : includesEscape (before ++ unit '\x7b' :: (body ++ unit '\x7d' :: tail)) = false := by
        rw [includesEscape_append (by decide) (by decide), hbefore.2, Bool.false_or,
          includesEscape_append (by decide) (by decide), includesEscape_of_notMem hnobody,
          includesEscape_of_notMem hnotail]
        rfl
      obtain ⟨hopen, hclose, hdrop, htake⟩ := @array_cut _ body _ hbefore.1
          (htail.notMem (by decide) (by decide))
      have hend : ¬(trim tail ≠ [] ∧ trim tail ≠ text ";") := fun hne => htail.elim hne.1 hne.2
      rw [if_neg (by simp), hescape, if_neg Bool.false_ne_true, hopen, hclose]
      dsimp only
      rw [if_neg (by omega), hdrop, if_neg hend, htake]
      exact parseBody_iff.mpr (spellsTokens_trim.mpr hbody)

theorem parseByteInput_reports {parsed : ParsedByteInput} (h : parseByteInput s = .ok parsed) :
    Reports (parseByteInput s) parsed.bytes := by
  unfold parseByteInput at h ⊢
  dsimp only at h ⊢
  split_ifs at h ⊢
  · cases h
  · exact parseCleanHex_reports h
  · cases h
  · split at h
    · exact parseBody_reports h
    · split_ifs at h ⊢
      · cases h
      · cases h
      · exact parseBody_reports h
    · cases h

/-! ## The documented notations -/

/-- `\w` -/
def isWord (u : UInt16) : Bool :=
  let n := u.toNat
  (0x30 ≤ n && n ≤ 0x39) || (0x41 ≤ n && n ≤ 0x5A) || (0x61 ≤ n && n ≤ 0x7A) || n = 0x5F

def isIdentifier (word : JsString) : Bool :=
  word.all isWord && !word.head?.any fun u => 0x30 ≤ u.toNat && u.toNat ≤ 0x39

/-- The words of a type and a name, a size in brackets, and an equals sign. -/
def IsDeclaration (before : JsString) : Prop :=
  ∃ names words size gap last,
    before = names ++ unit '[' :: (size ++ unit ']' :: (gap ++ unit '=' :: last)) ∧
      Separates isSpace names words ∧ 2 ≤ words.length ∧ (∀ word ∈ words, isIdentifier word = true) ∧
        (∀ u ∈ size, isSpace u = true ∨ isWord u = true) ∧ (∀ u ∈ gap, isSpace u = true) ∧
          ∀ u ∈ last, isSpace u = true

def IsDocumented (before : JsString) : Prop := before = [] ∨ IsDeclaration before

theorem IsDeclaration.mem {before : JsString} {u : UInt16} (h : IsDeclaration before) (hu : u ∈ before) :
    isSpace u = true ∨ isWord u = true ∨ u ∈ text "[]=" := by
  obtain ⟨names, words, size, gap, last, rfl, hnames, -, hwords, hsize, hgap, hlast⟩ := h
  simp only [List.mem_append, List.mem_cons] at hu
  obtain hu | rfl | hu | rfl | hu | rfl | hu := hu
  · refine (hnames.mem hu).imp_right fun ⟨word, hword, hmem⟩ => .inl ?_
    have := hwords word hword
    rw [isIdentifier, Bool.and_eq_true] at this
    exact List.all_eq_true.mp this.1 u hmem
  · exact .inr (.inr (by decide))
  · exact (hsize u hu).imp_right .inl
  · exact .inr (.inr (by decide))
  · exact .inl (hgap u hu)
  · exact .inr (.inr (by decide))
  · exact .inl (hlast u hu)

theorem IsDocumented.isLoose {before : JsString} (h : IsDocumented before) : IsLoose before := by
  obtain rfl | h := h
  · exact ⟨List.not_mem_nil, rfl⟩
  · have hnot : ∀ {u}, isSpace u = false → isWord u = false → u ∉ text "[]=" → u ∉ before := by
      intro u hspace hword hmark hu
      obtain hu | hu | hu := h.mem hu
      · rw [hspace] at hu
        cases hu
      · rw [hword] at hu
        cases hu
      · exact hmark hu
    exact ⟨hnot (by decide) (by decide) (by decide),
      includesEscape_of_notMem (hnot (by decide) (by decide) (by decide))⟩

theorem Spells.mono {Leads Leads' : JsString → Prop} (hmono : ∀ before, Leads before → Leads' before)
    (h : Spells Leads s bytes) : Spells Leads' s bytes := by
  cases h with
  | tokens h => exact .tokens h
  | escapes h hhead => exact .escapes h hhead
  | array hbefore hbody htail => exact .array (hmono _ hbefore) hbody htail

/-- A text spells no two lists of bytes. -/
theorem Spells.unique {bytes' : List UInt8} (h : Spells IsLoose (trim s) bytes)
    (h' : Spells IsLoose (trim s) bytes') : bytes = bytes' := by
  obtain ⟨format, hparse⟩ := (parseByteInput_iff).mpr h
  obtain ⟨format', hparse'⟩ := (parseByteInput_iff).mpr h'
  exact congrArg ParsedByteInput.bytes (Except.ok.inj (hparse.symm.trans hparse'))

theorem SpellsEscapes.mem {u : UInt16} (h : SpellsEscapes s bytes) (hu : u ∈ s) :
    isSpace u = true ∨ u = unit '\\' ∨ isX u = true ∨ isHex u = true := by
  induction h with
  | nil => cases hu
  | space hspace _ ih =>
    obtain rfl | hu := List.mem_cons.mp hu
    · exact .inl hspace
    · exact ih hu
  | escape hx hhigh hlow _ ih =>
    simp only [List.mem_cons] at hu
    obtain rfl | rfl | rfl | rfl | hu := hu
    · exact .inr (.inl rfl)
    · exact .inr (.inr (.inl hx))
    · exact .inr (.inr (.inr (by rw [isHex, hhigh]; rfl)))
    · exact .inr (.inr (.inr (by rw [isHex, hlow]; rfl)))
    · exact ih hu

/-- The body of an array, with text before it that is no declaration. -/
def HasStrayText (s : JsString) : Prop :=
  ∃ before body tail bytes, trim s = before ++ unit '\x7b' :: (body ++ unit '\x7d' :: tail) ∧
    IsLoose before ∧ ¬ IsDocumented before ∧ SpellsTokens body bytes ∧ IsEnding tail

/-- What stands before the first brace of a text. -/
theorem before_unique {before before' rest rest' : JsString} {u : UInt16} (hnot : u ∉ before)
    (hnot' : u ∉ before') (h : before ++ u :: rest = before' ++ u :: rest') : before = before' := by
  have hindex := indexOf_eq_some_iff.mpr ⟨before, rest, rfl, hnot, rfl⟩
  have hindex' := indexOf_eq_some_iff.mpr ⟨before', rest', h, hnot', rfl⟩
  exact (List.append_inj h (Option.some.inj (hindex.symm.trans hindex'))).1

theorem spells_documented_iff {before body tail : JsString} (hbefore : IsLoose before)
    (hbody : SpellsTokens body bytes) (htail : IsEnding tail) :
    Spells IsDocumented (before ++ unit '\x7b' :: (body ++ unit '\x7d' :: tail)) bytes ↔
      IsDocumented before := by
  refine ⟨fun h => ?_, fun h => .array h hbody htail⟩
  have hmem : unit '\x7b' ∈ before ++ unit '\x7b' :: (body ++ unit '\x7d' :: tail) :=
    List.mem_append_right _ List.mem_cons_self
  generalize hs : before ++ unit '\x7b' :: (body ++ unit '\x7d' :: tail) = s at h hmem
  cases h with
  | tokens h => exact absurd hmem (h.notMem (by decide) (by decide) (by decide))
  | escapes h _ =>
    have hbrace : ¬(isSpace (unit '\x7b') = true ∨ unit '\x7b' = unit '\\' ∨
        isX (unit '\x7b') = true ∨ isHex (unit '\x7b') = true) := by decide
    exact absurd (h.mem hmem) hbrace
  | array hdocumented _ _ =>
    rw [before_unique hbefore.1 hdocumented.isLoose.1 hs]
    exact hdocumented

/-! ## The normalized text -/

theorem spellsToken_byteHex (byte : UInt8) : SpellsToken (byteHex byte) [byte] := by
  have hlt := byte.toNat_lt
  have hbyte : UInt8.ofNat (byte.toNat / 16 * 16 + byte.toNat % 16) = byte := by
    rw [Nat.div_add_mod', UInt8.ofNat_toNat]
  refine ⟨List.cons_ne_nil _ _, byteHex byte, ?_, .inl rfl⟩
  conv_rhs => rw [← hbyte]
  exact .cons (hexDigit_upperHex (by omega)) (hexDigit_upperHex (by omega)) .nil

theorem byteHex_token (byte : UInt8) : byteHex byte ≠ [] ∧ ∀ u ∈ byteHex byte, isSeparator u = false := by
  have hdigit : ∀ n : Fin 16, isSeparator (upperHex n) = false := by decide
  have hlt := byte.toNat_lt
  refine ⟨List.cons_ne_nil _ _, fun u hu => ?_⟩
  rw [byteHex, List.mem_cons, List.mem_singleton] at hu
  obtain rfl | rfl := hu
  · exact hdigit ⟨byte.toNat / 16, by omega⟩
  · exact hdigit ⟨byte.toNat % 16, by omega⟩

theorem separates_normalizedHex (bytes : List UInt8) :
    Separates isSeparator (toNormalizedHex bytes) (bytes.map byteHex) := by
  have htoken : ∀ (byte : UInt8) {s : JsString} {tokens : List JsString}, EndsAt isSeparator s →
      Separates isSeparator s tokens → Separates isSeparator (byteHex byte ++ s) (byteHex byte :: tokens) :=
    fun byte _ _ hend h => .token (byteHex_token byte).1 (byteHex_token byte).2 hend h
  have hblank : isSeparator (unit ' ') = true := by decide
  unfold toNormalizedHex spacedHex
  induction bytes with
  | nil => exact .nil
  | cons byte bytes ih =>
    cases bytes with
    | nil =>
      rw [List.map_cons, List.map_nil, List.intercalate_singleton, ← List.append_nil (byteHex byte)]
      exact List.append_nil (byteHex byte) ▸ htoken byte trivial .nil
    | cons other bytes =>
      rw [List.map_cons, List.map_cons, List.intercalate_cons_cons, List.append_assoc]
      exact htoken byte hblank (.separator hblank ih)

theorem spellsTokens_normalizedHex (hne : bytes ≠ []) : SpellsTokens (toNormalizedHex bytes) bytes := by
  refine ⟨_, bytes.map fun byte => [byte], separates_normalizedHex bytes, ?_, ?_, hne⟩
  · rw [List.forall₂_map_left_iff, List.forall₂_map_right_iff, List.forall₂_same]
    exact fun byte _ => spellsToken_byteHex byte
  · rw [← List.flatMap_def]
    exact List.flatMap_singleton' bytes

theorem parse_normalizedHex (hne : bytes ≠ []) :
    Reports (parseByteInput (toNormalizedHex bytes)) bytes :=
  (parseByteInput_iff).mpr (.tokens (spellsTokens_trim.mpr (spellsTokens_normalizedHex hne)))

theorem Spells.ne_nil {Leads : JsString → Prop} (h : Spells Leads s bytes) : bytes ≠ [] := by
  cases h with
  | tokens h => exact h.choose_spec.choose_spec.2.2.2
  | escapes h hhead =>
    cases h with
    | nil => cases hhead
    | space hu _ =>
      obtain rfl := Option.some.inj hhead
      exact absurd hu (by decide)
    | escape _ _ _ _ => exact List.cons_ne_nil _ _
  | array _ h _ => exact h.choose_spec.choose_spec.2.2.2

/-- What the parser accepts spells the bytes that it reports, but for stray text before the brace of an
array; and it accepts all that spells bytes, and reports them as a text that it reads the same. -/
theorem parseByteInput_exact (s : JsString) :
    ((∀ parsed, parseByteInput s = .ok parsed → Spells IsDocumented (trim s) parsed.bytes) ↔
      ¬ HasStrayText s) ∧
    ∀ bytes, Spells IsDocumented (trim s) bytes →
      ∃ parsed, parseByteInput s = .ok parsed ∧ parsed.bytes = bytes ∧
        ∃ again, parseByteInput parsed.normalizedHex = .ok again ∧ again.bytes = bytes := by
  refine ⟨⟨?_, fun hstray parsed hparsed => ?_⟩, fun bytes h => ?_⟩
  · rintro h ⟨before, body, tail, bytes, hs, hbefore, hstray, hbody, htail⟩
    have hloose : Spells IsLoose (trim s) bytes := by
      rw [hs]
      exact .array hbefore hbody htail
    obtain ⟨format, hparse⟩ := (parseByteInput_iff).mpr hloose
    have hspells := h _ hparse
    rw [hs, spells_documented_iff hbefore hbody htail] at hspells
    exact hstray hspells
  · have hspells := (parseByteInput_iff).mp (parseByteInput_reports hparsed)
    generalize hs : trim s = t at hspells
    cases hspells with
    | tokens h => exact .tokens h
    | escapes h hhead => exact .escapes h hhead
    | @array before body tail _ hbefore hbody htail =>
      by_cases hdocumented : IsDocumented before
      · exact .array hdocumented hbody htail
      · exact absurd ⟨before, body, tail, _, hs, hbefore, hdocumented, hbody, htail⟩ hstray
  · obtain ⟨format, hparse⟩ := (parseByteInput_iff).mpr (h.mono fun _ => IsDocumented.isLoose)
    obtain ⟨format', hagain⟩ := parse_normalizedHex h.ne_nil
    exact ⟨_, hparse, rfl, _, hagain, rfl⟩

theorem parseByteInput_declared :
    ∃ parsed, parseByteInput (text "uint8_t data[2] = \x7b 0xde, 0xAD \x7d;") = .ok parsed ∧
      parsed.bytes = [0xDE, 0xAD] ∧
        ∃ again, parseByteInput parsed.normalizedHex = .ok again ∧ again.bytes = [0xDE, 0xAD] := by
  refine (parseByteInput_exact _).2 _ ?_
  have htrim : trim (text "uint8_t data[2] = \x7b 0xde, 0xAD \x7d;") =
      text "uint8_t data[2] = " ++ unit '\x7b' :: (text " 0xde, 0xAD " ++ unit '\x7d' :: text ";") := by
    decide
  have hbody : SpellsTokens (text " 0xde, 0xAD ") [0xDE, 0xAD] :=
    parseBody_iff.mp ⟨.cArray, show parseBody (text " 0xde, 0xAD ") .cArray = _ by decide⟩
  rw [htrim]
  refine .array (.inr ⟨text "uint8_t data", [text "uint8_t", text "data"], text "2", text " ", text " ", ?_⟩)
    hbody (.inr (by decide))
  have hblank : ∀ u ∈ text " ", isSpace u = true :=
    List.all_eq_true.mp (show (text " ").all isSpace = true by decide)
  have hsize : ∀ u ∈ text "2", isWord u = true :=
    List.all_eq_true.mp (show (text "2").all isWord = true by decide)
  have hwords : ∀ word ∈ [text "uint8_t", text "data"], isIdentifier word = true :=
    List.all_eq_true.mp (show [text "uint8_t", text "data"].all isIdentifier = true by decide)
  exact ⟨by decide, separates_iff.mpr (by decide), by decide, hwords,
    fun u hu => .inr (hsize u hu), hblank, hblank⟩

/-- Bytes before a brace are dropped. -/
theorem parseByteInput_drops :
    ¬ ∀ s parsed, parseByteInput s = .ok parsed → Spells IsDocumented (trim s) parsed.bytes := by
  intro h
  have hparse : Reports (parseByteInput (text "DE AD \x7b BE EF \x7d")) [0xBE, 0xEF] :=
    ⟨.cArray, by decide⟩
  have hbody : SpellsTokens (text " BE EF ") [0xBE, 0xEF] :=
    parseBody_iff.mp ⟨.cArray, show parseBody (text " BE EF ") .cArray = _ by decide⟩
  have htrim : trim (text "DE AD \x7b BE EF \x7d") =
      text "DE AD " ++ unit '\x7b' :: (text " BE EF " ++ unit '\x7d' :: []) := by decide
  obtain ⟨format, hparse⟩ := hparse
  have hspells := h _ _ hparse
  rw [htrim, spells_documented_iff ⟨by decide, by decide⟩ hbody (.inl rfl)] at hspells
  obtain hempty | ⟨names, words, size, gap, last, heq, -⟩ := hspells
  · exact absurd hempty (by decide)
  · -- a declaration has an equals sign
    have hmem : unit '=' ∈ text "DE AD " := by
      rw [heq]
      simp
    exact absurd hmem (by decide)

end TauTerm.Tools
