import Mathlib
import TauTerm.Trdp.Dataset
import TauTerm.Trdp.PcapNg

/-!
# Decoding without a panic

The hex text of a payload is cut every two bytes, and the widths of a schema are divisors and
offsets. `SplitsChar` and `Hazard` say when a cut, a division or a sum goes wrong.
-/

namespace TauTerm.Trdp

open Lib (visit)
open Lib.Rust (fromStrRadix isWhitespace utf8Size_of_fromStrRadix)

/-! ## Hex text -/

/-- What ends the reading of a hex text: an `Err`, or a slice that does not lie between characters. -/
inductive HexAbort where
  | error (text : String)
  | sliceInsideChar
  deriving DecidableEq

/-- The characters of the first `n` bytes, if they end between two characters. -/
def takeBytes : Nat → List Char → Option (List Char × List Char)
  | 0, text => some ([], text)
  | _ + 1, [] => none
  | n + 1, c :: text =>
    if c.utf8Size ≤ n + 1 then
      (takeBytes (n + 1 - c.utf8Size) text).map fun r => (c :: r.1, r.2)
    else none

theorem takeBytes_zero (text : List Char) : takeBytes 0 text = some ([], text) := by
  cases text <;> rfl

theorem takeBytes_append {n : Nat} {text pair rest : List Char}
    (h : takeBytes n text = some (pair, rest)) : pair ++ rest = text := by
  induction text generalizing n pair rest with
  | nil =>
    cases n with
    | zero => cases h; rfl
    | succ n => cases h
  | cons c text ih =>
    cases n with
    | zero => cases h; rfl
    | succ n =>
      rw [takeBytes] at h
      split at h
      · obtain ⟨⟨pair', rest'⟩, hrest, heq⟩ := Option.map_eq_some_iff.mp h
        cases heq
        rw [List.cons_append, ih hrest]
      · cases h

theorem takeBytes_ne_nil {n : Nat} {text pair rest : List Char}
    (h : takeBytes (n + 1) text = some (pair, rest)) : pair ≠ [] := by
  cases text with
  | nil => cases h
  | cons c text =>
    rw [takeBytes] at h
    split at h
    · obtain ⟨_, -, heq⟩ := Option.map_eq_some_iff.mp h
      cases heq
      exact List.cons_ne_nil _ _
    · cases h

/-- The pairs from one on, each a slice of two bytes. -/
def decodePairs (text : List Char) : Except HexAbort (List UInt8) :=
  if text = [] then .ok []
  else
    match _ : takeBytes 2 text with
    | none => .error .sliceInsideChar
    | some (pair, rest) =>
      match fromStrRadix pair with
      | none => .error (.error ("无效 HEX: " ++ String.ofList pair))
      | some byte => (decodePairs rest).map (byte :: ·)
  termination_by text.length
  decreasing_by
    have happ := congrArg List.length (takeBytes_append ‹_›)
    have hpos := List.length_pos_of_ne_nil (takeBytes_ne_nil ‹_›)
    rw [List.length_append] at happ
    omega

def byteLength (text : List Char) : Nat := (text.map Char.utf8Size).sum

def decodeHex (value : List Char) : Except HexAbort (List UInt8) :=
  let compact := value.filter fun c => !isWhitespace c
  if byteLength compact % 2 ≠ 0 then .error (.error "HEX 长度必须为偶数") else decodePairs compact

/-- Two bytes in front of the text end inside a character. -/
def CutsChar (text : List Char) : Prop :=
  (∃ c rest, text = c :: rest ∧ 3 ≤ c.utf8Size) ∨
    ∃ c d rest, text = c :: d :: rest ∧ c.utf8Size = 1 ∧ 2 ≤ d.utf8Size

/-- Behind pairs of hex digits the next two bytes end inside a character. -/
def SplitsChar (value : List Char) : Prop :=
  let compact := value.filter fun c => !isWhitespace c
  byteLength compact % 2 = 0 ∧
    ∃ (pairs : List (List Char)) (rest : List Char), compact = pairs.flatten ++ rest ∧
      (∀ pair ∈ pairs, pair.length = 2 ∧ (fromStrRadix pair).isSome) ∧ CutsChar rest

section Hex

variable {text pair rest : List Char} {c d : Char}

theorem takeBytes_cut (h : CutsChar text) : takeBytes 2 text = none := by
  obtain ⟨c, rest, rfl, hsize⟩ | ⟨c, d, rest, rfl, hc, hd⟩ := h
  · rw [takeBytes, if_neg (by omega)]
  · rw [takeBytes, if_pos (by omega), hc]
    change Option.map _ (takeBytes 1 (d :: rest)) = none
    rw [takeBytes, if_neg (by omega)]
    rfl

/-- The next two bytes: a pair of ASCII characters, one character, or the beginning of one. -/
theorem takeBytes_two (hne : text ≠ []) (heven : byteLength text % 2 = 0) :
    (∃ c d rest, text = c :: d :: rest ∧ takeBytes 2 text = some ([c, d], rest)) ∨
      (∃ c rest, text = c :: rest ∧ c.utf8Size = 2 ∧ takeBytes 2 text = some ([c], rest)) ∨
      CutsChar text := by
  obtain ⟨c, text, rfl⟩ := List.exists_cons_of_ne_nil hne
  have hpos := Char.utf8Size_pos c
  by_cases hlarge : 3 ≤ c.utf8Size
  · exact .inr (.inr (.inl ⟨c, text, rfl, hlarge⟩))
  by_cases htwo : c.utf8Size = 2
  · refine .inr (.inl ⟨c, text, rfl, htwo, ?_⟩)
    rw [takeBytes, if_pos (by omega), htwo, takeBytes_zero]
    rfl
  · have hone : c.utf8Size = 1 := by omega
    cases text with
    | nil =>
      simp only [byteLength, List.map_cons, List.map_nil, List.sum_cons, List.sum_nil, hone] at heven
      omega
    | cons d rest =>
      by_cases hd : 2 ≤ d.utf8Size
      · exact .inr (.inr (.inr ⟨c, d, rest, rfl, hone, hd⟩))
      · have hdpos := Char.utf8Size_pos d
        refine .inl ⟨c, d, rest, rfl, ?_⟩
        rw [takeBytes, if_pos (by omega), hone]
        change Option.map _ (takeBytes 1 (d :: rest)) = _
        rw [takeBytes, if_pos (by omega), show d.utf8Size = 1 by omega, takeBytes_zero]
        rfl

theorem decodePairs_none (hne : text ≠ []) (h : takeBytes 2 text = none) :
    decodePairs text = .error .sliceInsideChar := by
  rw [decodePairs, if_neg hne]
  split
  · rfl
  · rename_i heq
    rw [h] at heq
    cases heq

theorem decodePairs_some (hne : text ≠ []) (h : takeBytes 2 text = some (pair, rest)) :
    decodePairs text =
      match fromStrRadix pair with
      | none => .error (.error ("无效 HEX: " ++ String.ofList pair))
      | some byte => (decodePairs rest).map (byte :: ·) := by
  rw [decodePairs, if_neg hne]
  split
  · rename_i heq
    rw [h] at heq
    cases heq
  · rename_i heq
    rw [h] at heq
    cases heq
    rfl

/-- Behind a pair that parses the reading goes on. -/
theorem decodePairs_pair (hpair : pair.length = 2) (hparsed : (fromStrRadix pair).isSome)
    (rest : List Char) :
    decodePairs (pair ++ rest) = .error .sliceInsideChar ↔
      decodePairs rest = .error .sliceInsideChar := by
  obtain ⟨c, d, rfl⟩ := List.length_eq_two.mp hpair
  have hc := utf8Size_of_fromStrRadix hparsed (c := c) (by simp)
  have hd := utf8Size_of_fromStrRadix hparsed (c := d) (by simp)
  have htake : takeBytes 2 ([c, d] ++ rest) = some ([c, d], rest) := by
    change takeBytes 2 (c :: d :: rest) = _
    rw [takeBytes, if_pos (by omega), hc]
    change Option.map _ (takeBytes 1 (d :: rest)) = _
    rw [takeBytes, if_pos (by omega), hd, takeBytes_zero]
    rfl
  obtain ⟨byte, hbyte⟩ := Option.isSome_iff_exists.mp hparsed
  rw [decodePairs_some (by simp) htake, hbyte]
  cases decodePairs rest <;> simp [Except.map]

theorem byteLength_append (text rest : List Char) :
    byteLength (text ++ rest) = byteLength text + byteLength rest := by
  simp [byteLength]

theorem decodePairs_iff (heven : byteLength text % 2 = 0) :
    decodePairs text = .error .sliceInsideChar ↔
      ∃ (pairs : List (List Char)) (rest : List Char), text = pairs.flatten ++ rest ∧
        (∀ pair ∈ pairs, pair.length = 2 ∧ (fromStrRadix pair).isSome) ∧ CutsChar rest := by
  constructor
  · intro h
    induction hlen : text.length using Nat.strongRecOn generalizing text with
    | _ n ih =>
      have hne : text ≠ [] := by
        rintro rfl
        rw [decodePairs, if_pos rfl] at h
        cases h
      obtain ⟨c, d, rest, rfl, htake⟩ | ⟨c, rest, rfl, hsize, htake⟩ | hcut :=
        takeBytes_two hne heven
      · rw [decodePairs_some hne htake] at h
        cases hparsed : fromStrRadix [c, d] with
        | none =>
          rw [hparsed] at h
          cases h
        | some byte =>
          have hsome : (fromStrRadix [c, d]).isSome := by rw [hparsed]; rfl
          have hrest : decodePairs rest = .error .sliceInsideChar := by
            rw [← @decodePairs_pair [c, d] rfl hsome]
            rw [List.cons_append, List.cons_append, List.nil_append, decodePairs_some hne htake]
            exact h
          have heven' : byteLength rest % 2 = 0 := by
            have hsplit := byteLength_append [c, d] rest
            have hc := utf8Size_of_fromStrRadix hsome (c := c) (by simp)
            have hd := utf8Size_of_fromStrRadix hsome (c := d) (by simp)
            have htwo : byteLength [c, d] = 2 := by simp [byteLength, hc, hd]
            change byteLength (c :: d :: rest) = _ at hsplit
            omega
          have hlt : rest.length < n := by
            rw [← hlen]
            exact Nat.lt_succ_of_lt (Nat.lt_succ_self _)
          obtain ⟨pairs, rest', rfl, hpairs, hcut⟩ := ih rest.length hlt heven' hrest rfl
          refine ⟨[c, d] :: pairs, rest', rfl, ?_, hcut⟩
          intro pair hpair
          obtain rfl | hpair := List.mem_cons.mp hpair
          · exact ⟨rfl, hsome⟩
          · exact hpairs pair hpair
      · rw [decodePairs_some hne htake] at h
        cases hparsed : fromStrRadix [c] with
        | none =>
          rw [hparsed] at h
          cases h
        | some byte =>
          have := @utf8Size_of_fromStrRadix [c] c (by rw [hparsed]; rfl) (by simp)
          omega
      · exact ⟨[], text, rfl, by simp, hcut⟩
  · rintro ⟨pairs, rest, rfl, hpairs, hcut⟩
    induction pairs with
    | nil =>
      have hne : rest ≠ [] := by
        obtain ⟨_, _, rfl, -⟩ | ⟨_, _, _, rfl, -, -⟩ := hcut <;> exact List.cons_ne_nil _ _
      exact decodePairs_none hne (takeBytes_cut hcut)
    | cons pair pairs ih =>
      obtain ⟨hlen, hparsed⟩ := hpairs pair List.mem_cons_self
      have htwo : byteLength pair = 2 := by
        obtain ⟨c, d, rfl⟩ := List.length_eq_two.mp hlen
        simp [byteLength, utf8Size_of_fromStrRadix hparsed (c := c) (by simp),
          utf8Size_of_fromStrRadix hparsed (c := d) (by simp)]
      rw [List.flatten_cons, List.append_assoc] at heven ⊢
      rw [byteLength_append] at heven
      rw [decodePairs_pair hlen hparsed]
      exact ih (by omega) fun other hother => hpairs other (List.mem_cons_of_mem _ hother)

/-- A hex text is cut inside a character exactly if it splits one. -/
theorem decodeHex_iff (value : List Char) :
    decodeHex value = .error .sliceInsideChar ↔ SplitsChar value := by
  unfold decodeHex SplitsChar
  simp only
  split
  · rename_i hodd
    exact iff_of_false (by simp) fun h => hodd h.1
  · rename_i heven
    rw [not_not] at heven
    rw [decodePairs_iff heven, and_iff_right heven]

end Hex

/-! ## Widths -/

/-- `fixed_dataset_width`, so many levels deep at most. -/
def widthAt (imported : TrdpXmlImport) : Nat → Nat → List Nat → Option Nat :=
  visit imported.find (fun _ => none) (fun _ => none) fun nested dataset =>
    fixedWidth nested dataset.elements 0

section Widths

variable {imported : TrdpXmlImport} {datasetId levels typeId w : Nat} {dataset : TrdpXmlDataset}
  {element : TrdpXmlElement} {elements : List TrdpXmlElement} {f g : Nat → Option Nat}

theorem primitiveWidth_le (h : primitiveWidth typeId = some w) : typeId ≤ 16 := by
  unfold primitiveWidth at h
  split at h <;> first | omega | cases h

theorem itemWidth_nested (htype : 1000 ≤ typeId) : itemWidth f typeId = f typeId := by
  unfold itemWidth
  split
  · have := primitiveWidth_le ‹_›
    omega
  · rw [if_pos htype]

theorem itemWidth_primitive (htype : ¬ 1000 ≤ typeId) :
    itemWidth f typeId = primitiveWidth typeId := by
  unfold itemWidth
  split
  · rename_i heq
    rw [heq]
  · rename_i heq
    rw [if_neg htype, heq]

theorem itemWidth_mono (h : ∀ id w, f id = some w → g id = some w)
    (hw : itemWidth f typeId = some w) : itemWidth g typeId = some w := by
  by_cases htype : 1000 ≤ typeId
  · rw [itemWidth_nested htype] at hw ⊢
    exact h _ _ hw
  · rw [itemWidth_primitive htype] at hw ⊢
    exact hw

/-- An element in front: it is not dynamic, and the sum goes on behind its items. -/
theorem fixedWidth_cons {total : Nat} :
    fixedWidth f (element :: elements) total = some w ↔
      element.dynamic = false ∧ ∃ width, itemWidth f element.typeId = some width ∧
        total + width * element.arraySize < USIZE_SIZE ∧
        fixedWidth f elements (total + width * element.arraySize) = some w := by
  rw [fixedWidth]
  cases element.dynamic with
  | true => simp
  | false =>
    cases itemWidth f element.typeId with
    | none => simp
    | some width =>
      by_cases hproduct : width * element.arraySize < USIZE_SIZE
      · by_cases hsum : total + width * element.arraySize < USIZE_SIZE
        · simp [checkedMul, checkedAdd, hproduct, hsum]
        · simp [checkedMul, checkedAdd, hproduct, hsum]
      · have hsum : ¬ total + width * element.arraySize < USIZE_SIZE := by omega
        simp [checkedMul, hproduct, hsum]

theorem le_fixedWidth {total : Nat} (h : fixedWidth f elements total = some w) : total ≤ w := by
  induction elements generalizing total with
  | nil => exact le_of_eq (Option.some.inj h)
  | cons element elements ih =>
    obtain ⟨-, width, -, -, hrest⟩ := (fixedWidth_cons).mp h
    exact le_trans (Nat.le_add_right _ _) (ih hrest)

theorem fixedWidth_mono (h : ∀ id w, f id = some w → g id = some w) {total : Nat}
    (hw : fixedWidth f elements total = some w) : fixedWidth g elements total = some w := by
  induction elements generalizing total with
  | nil => exact hw
  | cons element elements ih =>
    obtain ⟨hdynamic, width, hwidth, hsum, hrest⟩ := (fixedWidth_cons).mp hw
    exact (fixedWidth_cons).mpr ⟨hdynamic, width, itemWidth_mono h hwidth, hsum, ih hrest⟩

theorem fixedWidth_congr {total : Nat}
    (h : ∀ element ∈ elements, f element.typeId = g element.typeId) :
    fixedWidth f elements total = fixedWidth g elements total := by
  induction elements generalizing total with
  | nil => rfl
  | cons element elements ih =>
    have hitem : itemWidth f element.typeId = itemWidth g element.typeId := by
      rw [itemWidth, itemWidth, h element List.mem_cons_self]
    have hrest : fixedWidth f elements = fixedWidth g elements :=
      funext fun _ => ih fun other hother => h other (List.mem_cons_of_mem _ hother)
    rw [fixedWidth, fixedWidth, hitem, hrest]

theorem itemWidth_of_mem {total : Nat} (h : fixedWidth f elements total = some w)
    (hmem : element ∈ elements) : ∃ width, itemWidth f element.typeId = some width := by
  induction elements generalizing total with
  | nil => cases hmem
  | cons other elements ih =>
    obtain ⟨-, width, hwidth, -, hrest⟩ := (fixedWidth_cons).mp h
    obtain rfl | hmem := List.mem_cons.mp hmem
    · exact ⟨width, hwidth⟩
    · exact ih hrest hmem

/-- A sum that begins later is larger by as much. -/
theorem fixedWidth_shift {total more : Nat} (h : fixedWidth f elements total = some w)
    (hmore : more + w < USIZE_SIZE) : fixedWidth f elements (more + total) = some (more + w) := by
  induction elements generalizing total with
  | nil => rw [← Option.some.inj h]; rfl
  | cons element elements ih =>
    obtain ⟨hdynamic, width, hwidth, -, hrest⟩ := (fixedWidth_cons).mp h
    have hle := le_fixedWidth hrest
    refine (fixedWidth_cons).mpr ⟨hdynamic, width, hwidth, by omega, ?_⟩
    rw [Nat.add_assoc]
    exact ih hrest

theorem widthAt_mono {levels' : Nat} {visiting visiting' : List Nat} (hlevels : levels ≤ levels')
    (hvisiting : visiting' ⊆ visiting) (h : widthAt imported levels datasetId visiting = some w) :
    widthAt imported levels' datasetId visiting' = some w := by
  unfold widthAt at h ⊢
  refine Lib.visit_mono (R := fun a b => ∀ w, a = some w → b = some w) ?_ ?_ ?_ hlevels
    hvisiting datasetId w h
  · intro _ _ _ hnone
    cases hnone
  · intro _ _ hnone
    exact hnone
  · intro _ _ _ hchildren _ hw
    exact fixedWidth_mono hchildren hw

theorem widthAt_dataset (h : widthAt imported (levels + 1) datasetId [] = some w) :
    ∃ dataset, imported.find datasetId = some dataset ∧
      fixedWidth (fun id => widthAt imported levels id []) dataset.elements 0 = some w := by
  rw [widthAt, visit, if_neg List.not_mem_nil] at h
  cases hfind : imported.find datasetId with
  | none =>
    rw [hfind] at h
    cases h
  | some dataset =>
    rw [hfind] at h
    exact ⟨dataset, rfl, fixedWidth_mono
      (fun _ _ h => widthAt_mono le_rfl (List.nil_subset _) h) h⟩

/-- A dataset of a fixed width is the sum of its elements. -/
theorem fixedDatasetWidth_dataset (h : fixedDatasetWidth imported datasetId = some w) :
    ∃ dataset, imported.find datasetId = some dataset ∧
      fixedWidth (fixedDatasetWidth imported) dataset.elements 0 = some w := by
  obtain ⟨dataset, hfind, hw⟩ := widthAt_dataset h
  exact ⟨dataset, hfind, fixedWidth_mono
    (fun _ _ h => widthAt_mono (Nat.le_succ _) (List.Subset.refl _) h) hw⟩

/-- The levels that the width of a dataset takes, one more than there are if it has none. -/
def rank (imported : TrdpXmlImport) (datasetId : Nat) : Nat :=
  (List.range (imported.levels + 1)).findIdx fun levels =>
    (widthAt imported levels datasetId []).isSome

theorem rank_le (h : (widthAt imported levels datasetId []).isSome) :
    rank imported datasetId ≤ levels := by
  by_contra hlt
  have := List.not_of_lt_findIdx (not_le.mp hlt)
  rw [List.getElem_range] at this
  simp [h] at this

/-- The datasets of a fixed width that a dataset refers to. -/
def fixedChildren (imported : TrdpXmlImport) (dataset : TrdpXmlDataset) : List Nat :=
  (dataset.elements.map TrdpXmlElement.typeId).filter fun id =>
    1000 ≤ id ∧ (fixedDatasetWidth imported id).isSome

/-- To them the rank falls. -/
theorem rank_lt (hfind : imported.find datasetId = some dataset)
    (hchild : typeId ∈ fixedChildren imported dataset) :
    rank imported typeId < rank imported datasetId := by
  obtain ⟨hmem, hfixed⟩ := List.mem_filter.mp hchild
  obtain ⟨htype, hsome⟩ : 1000 ≤ typeId ∧ (fixedDatasetWidth imported typeId).isSome := by
    simpa using hfixed
  by_cases hrank : rank imported datasetId < imported.levels + 1
  · have hwidth : (widthAt imported (rank imported datasetId) datasetId []).isSome := by
      have hlt : rank imported datasetId < (List.range (imported.levels + 1)).length := by
        rwa [List.length_range]
      have hfound : (widthAt imported (List.range (imported.levels + 1))[rank imported datasetId]
          datasetId []).isSome := List.findIdx_getElem (w := hlt)
      rwa [List.getElem_range] at hfound
    cases hdatasetRank : rank imported datasetId with
    | zero =>
      rw [hdatasetRank] at hwidth
      cases hwidth
    | succ levels =>
      rw [hdatasetRank] at hwidth
      obtain ⟨w, hw⟩ := Option.isSome_iff_exists.mp hwidth
      obtain ⟨dataset', hfind', hsum⟩ := widthAt_dataset hw
      rw [hfind] at hfind'
      cases hfind'
      obtain ⟨element, helement, rfl⟩ := List.mem_map.mp hmem
      obtain ⟨width, hitem⟩ := itemWidth_of_mem hsum helement
      rw [itemWidth_nested htype] at hitem
      exact Nat.lt_succ_of_le (rank_le (Option.isSome_iff_exists.mpr ⟨width, hitem⟩))
  · exact lt_of_le_of_lt (rank_le hsome) (not_lt.mp hrank)

theorem mem_ids (hfind : imported.find datasetId = some dataset) :
    datasetId ∈ imported.datasets.map TrdpXmlDataset.id := by
  have hid : dataset.id = datasetId := by simpa using List.find?_some hfind
  exact List.mem_map.mpr ⟨dataset, List.mem_of_find?_eq_some hfind, hid⟩

theorem unvisited_lt_levels (imported : TrdpXmlImport) :
    Lib.unvisited (imported.datasets.map TrdpXmlDataset.id) [] < imported.levels := by
  refine Nat.lt_succ_of_le ((List.length_filter_le _ _).trans ?_)
  rw [List.length_map]

end Widths

/-! ## Decoding -/

/-- A decoding that ends in a panic. -/
def Panics {α : Type} (result : Except Abort α) : Prop :=
  result = .error .divisionByZero ∨ result = .error .overflow

/-- One past the length of the longest slice, `isize::MAX`. -/
def SLICE_LIMIT : Nat := 2 ^ 63

/-- `decode_dataset_inner`, so many levels deep at most. -/
def decodeAt (imported : TrdpXmlImport) :
    Nat → Nat → List Nat → List UInt8 → Except Abort (Members × Nat) :=
  visit imported.find (fun id _ => .error (.error s!"Dataset 嵌套循环: {id}"))
    (fun id _ => .error (.error s!"Dataset {id} 不存在"))
    fun nested dataset payload =>
      decodeElements (fixedDatasetWidth imported) nested dataset.id payload dataset.elements 0 []

/-- The offsets or the count of an element from `start` on go wrong. -/
def Overruns (f : Nat → Option Nat) (element : TrdpXmlElement) (trailing : List TrdpXmlElement)
    (width length start : Nat) : Prop :=
  if element.dynamic then
    ∃ reserved, fixedWidth f trailing 0 = some reserved ∧
      (USIZE_SIZE ≤ start + reserved ∨ width = 0 ∧ start + reserved = length)
  else USIZE_SIZE ≤ start + width

/-- So does an element behind others that lie in the payload. -/
def HazardFrom (f : Nat → Option Nat) (elements : List TrdpXmlElement) (length offset : Nat) : Prop :=
  ∃ front element trailing start width, elements = front ++ element :: trailing ∧
    fixedWidth f front offset = some start ∧ start ≤ length ∧
    itemWidth f element.typeId = some width ∧ Overruns f element trailing width length start

def Hazard (imported : TrdpXmlImport) (datasetId length : Nat) : Prop :=
  ∃ dataset, imported.find datasetId = some dataset ∧
    HazardFrom (fixedDatasetWidth imported) dataset.elements length 0

/-- The nested datasets of a fixed width are decoded from as many bytes. -/
def DecodesFixed (f : Nat → Option Nat) (nested : DecodeNested) (typeId : Nat) : Prop :=
  ∀ slice : List UInt8, 1000 ≤ typeId → f typeId = some slice.length →
    slice.length < SLICE_LIMIT → ∃ fields, nested typeId slice = .ok (fields, slice.length)

section Items

variable {item : List UInt8 → Except Abort Value} {tooShort : Nat → Abort} {payload : List UInt8}
  {width count offset : Nat}

theorem decodeItems_overflow (hcount : 0 < count) (h : USIZE_SIZE ≤ offset + width) :
    decodeItems item tooShort payload width count offset = .error .overflow := by
  obtain ⟨count, rfl⟩ := Nat.exists_eq_add_one_of_ne_zero (Nat.pos_iff_ne_zero.mp hcount)
  rw [decodeItems, if_pos h]

variable (tooShort)
  (hitem : ∀ slice : List UInt8, slice.length = width → width < SLICE_LIMIT →
    ∃ value, item slice = .ok value)
  (hpayload : payload.length < SLICE_LIMIT)

include hitem hpayload

theorem decodeItems_ok (hfit : offset + width * count ≤ payload.length) :
    ∃ values, decodeItems item tooShort payload width count offset =
      .ok (values, offset + width * count) := by
  induction count generalizing offset with
  | zero => exact ⟨[], rfl⟩
  | succ count ih =>
    rw [Nat.mul_succ] at hfit ⊢
    have hsize : ¬ USIZE_SIZE ≤ offset + width := by
      simp only [USIZE_SIZE, SLICE_LIMIT] at *
      omega
    obtain ⟨value, hvalue⟩ := hitem ((payload.drop offset).take width) (by simp; omega) (by omega)
    obtain ⟨values, hvalues⟩ := @ih (offset + width) (by omega)
    refine ⟨value :: values, ?_⟩
    rw [decodeItems, if_neg hsize, if_neg (by omega), hvalue]
    simp only [bind, Except.bind, hvalues]
    congr 2
    omega

theorem decodeItems_short (hoffset : offset ≤ payload.length) (hfirst : offset + width < USIZE_SIZE)
    (hshort : payload.length < offset + width * count) :
    ∃ stop, decodeItems item tooShort payload width count offset = .error (tooShort stop) := by
  induction count generalizing offset with
  | zero => omega
  | succ count ih =>
    rw [decodeItems, if_neg (by omega)]
    by_cases hfit : payload.length < offset + width
    · exact ⟨offset, if_pos hfit⟩
    · rw [if_neg hfit]
      obtain ⟨value, hvalue⟩ :=
        hitem ((payload.drop offset).take width) (by simp; omega) (by omega)
      rw [Nat.mul_succ] at hshort
      have hnext : offset + width + width < USIZE_SIZE := by
        simp only [USIZE_SIZE, SLICE_LIMIT] at *
        omega
      obtain ⟨stop, hrest⟩ := ih (by omega) hnext (by omega)
      refine ⟨stop, ?_⟩
      rw [hvalue]
      simp only [bind, Except.bind, hrest]

end Items

section Elements

variable {f : Nat → Option Nat} {nested nested' : DecodeNested} {datasetId width offset : Nat}
  {payload : List UInt8} {element : TrdpXmlElement} {elements : List TrdpXmlElement}
  {fields : Members}

theorem decodeItem_congr {typeId : Nat} (h : 1000 ≤ typeId → nested typeId = nested' typeId)
    (slice : List UInt8) : decodeItem nested typeId width slice = decodeItem nested' typeId width slice := by
  unfold decodeItem
  split
  · rw [h ‹_›]
  · rfl

theorem decodeItem_ok {typeId : Nat} (hnested : DecodesFixed f nested typeId)
    (hwidth : itemWidth f typeId = some width) (slice : List UInt8) (hslice : slice.length = width)
    (hlimit : width < SLICE_LIMIT) : ∃ value, decodeItem nested typeId width slice = .ok value := by
  subst hslice
  unfold decodeItem
  split
  · rename_i htype
    rw [itemWidth_nested htype] at hwidth
    obtain ⟨fields, hfields⟩ := hnested slice htype hwidth hlimit
    refine ⟨.object fields, ?_⟩
    simp only [hfields, bind, Except.bind, ne_eq, not_true_eq_false, if_false]
  · exact ⟨_, rfl⟩

theorem decodeElement_congr (trailing : List TrdpXmlElement)
    (h : 1000 ≤ element.typeId → (f element.typeId).isSome →
      nested element.typeId = nested' element.typeId) :
    decodeElement f nested datasetId payload element trailing offset =
      decodeElement f nested' datasetId payload element trailing offset := by
  unfold decodeElement
  cases hwidth : itemWidth f element.typeId with
  | none => rfl
  | some width =>
    have hitem : decodeItem nested element.typeId width = decodeItem nested' element.typeId width := by
      funext slice
      refine decodeItem_congr (fun htype => h htype ?_) slice
      rw [← itemWidth_nested (f := f) htype, hwidth]
      rfl
    simp only [bind, Except.bind, hitem]

theorem decodeElements_congr
    (h : ∀ element ∈ elements, 1000 ≤ element.typeId → (f element.typeId).isSome →
      nested element.typeId = nested' element.typeId) :
    decodeElements f nested datasetId payload elements offset fields =
      decodeElements f nested' datasetId payload elements offset fields := by
  induction elements generalizing offset fields with
  | nil => rfl
  | cons element elements ih =>
    rw [decodeElements, decodeElements, decodeElement_congr _ (h element List.mem_cons_self)]
    cases decodeElement f nested' datasetId payload element elements offset with
    | error => rfl
    | ok result => exact ih fun other hother => h other (List.mem_cons_of_mem _ hother)

variable (nested datasetId payload offset)

/-- An element of unknown width is an error. -/
theorem decodeElement_unknown (hwidth : itemWidth f element.typeId = none)
    (trailing : List TrdpXmlElement) :
    ∃ text, decodeElement f nested datasetId payload element trailing offset =
      .error (.error text) := by
  unfold decodeElement
  rw [hwidth]
  dsimp only
  split <;> exact ⟨_, rfl⟩

/-- The items of an element, from its count on. -/
theorem decodeElement_some (hwidth : itemWidth f element.typeId = some width)
    (trailing : List TrdpXmlElement) :
    ∃ tooShort : Nat → String,
      decodeElement f nested datasetId payload element trailing offset =
        (itemCount datasetId element (fixedWidth f trailing 0) width payload.length offset >>= fun count =>
          decodeItems (decodeItem nested element.typeId width) (fun stop => .error (tooShort stop))
            payload width count offset >>= fun result =>
          .ok (rawValue element result.1, result.2)) := by
  unfold decodeElement
  rw [hwidth]
  exact ⟨_, rfl⟩

variable {nested payload offset}

/-- The items of an element that is not dynamic lie in the payload. -/
theorem decodeElement_fixed (hnested : DecodesFixed f nested element.typeId)
    (hpayload : payload.length < SLICE_LIMIT) (hdynamic : element.dynamic = false)
    (hwidth : itemWidth f element.typeId = some width)
    (hfit : offset + width * element.arraySize ≤ payload.length) (trailing : List TrdpXmlElement) :
    ∃ raw, decodeElement f nested datasetId payload element trailing offset =
      .ok (raw, offset + width * element.arraySize) := by
  obtain ⟨tooShort, heq⟩ := decodeElement_some nested datasetId offset payload hwidth trailing
  obtain ⟨values, hvalues⟩ := decodeItems_ok (fun stop => .error (tooShort stop))
    (decodeItem_ok hnested hwidth) hpayload hfit
  refine ⟨rawValue element values, ?_⟩
  rw [heq]
  unfold itemCount
  rw [hdynamic]
  simp only [bind, Except.bind, Bool.false_eq_true, if_false, hvalues]

theorem decodeElement_overflow (hdynamic : element.dynamic = false)
    (hwidth : itemWidth f element.typeId = some width) (h : USIZE_SIZE ≤ offset + width)
    (trailing : List TrdpXmlElement) :
    decodeElement f nested datasetId payload element trailing offset = .error .overflow := by
  obtain ⟨tooShort, heq⟩ := decodeElement_some nested datasetId offset payload hwidth trailing
  have hsize : 0 < element.arraySize := by
    rw [TrdpXmlElement.dynamic, beq_eq_false_iff_ne] at hdynamic
    exact Nat.pos_of_ne_zero hdynamic
  rw [heq]
  unfold itemCount
  rw [hdynamic]
  simp only [bind, Except.bind, Bool.false_eq_true, if_false, decodeItems_overflow hsize h]

theorem decodeElement_short (hnested : DecodesFixed f nested element.typeId)
    (hpayload : payload.length < SLICE_LIMIT) (hdynamic : element.dynamic = false)
    (hwidth : itemWidth f element.typeId = some width) (hoffset : offset ≤ payload.length)
    (hfirst : offset + width < USIZE_SIZE)
    (hshort : payload.length < offset + width * element.arraySize) (trailing : List TrdpXmlElement) :
    ∃ text, decodeElement f nested datasetId payload element trailing offset =
      .error (.error text) := by
  obtain ⟨tooShort, heq⟩ := decodeElement_some nested datasetId offset payload hwidth trailing
  obtain ⟨stop, hstop⟩ := decodeItems_short (fun stop => .error (tooShort stop))
    (decodeItem_ok hnested hwidth) hpayload hoffset hfirst hshort
  refine ⟨tooShort stop, ?_⟩
  rw [heq]
  unfold itemCount
  rw [hdynamic]
  simp only [bind, Except.bind, Bool.false_eq_true, if_false, hstop]

variable {datasetId}

/-- Elements of fixed widths that lie in the payload. -/
theorem decodeElements_fixed (hnested : ∀ element ∈ elements, DecodesFixed f nested element.typeId)
    (hpayload : payload.length < SLICE_LIMIT) (hwidth : fixedWidth f elements offset = some width)
    (hfit : width ≤ payload.length) :
    ∃ fields', decodeElements f nested datasetId payload elements offset fields =
      .ok (fields', width) := by
  induction elements generalizing offset fields with
  | nil =>
    cases hwidth
    exact ⟨fields, rfl⟩
  | cons element elements ih =>
    obtain ⟨hdynamic, itemWidth, hitem, -, hrest⟩ := (fixedWidth_cons).mp hwidth
    have hle := le_fixedWidth hrest
    obtain ⟨raw, hraw⟩ := decodeElement_fixed datasetId (hnested element List.mem_cons_self) hpayload hdynamic
      hitem (hle.trans hfit) elements
    rw [decodeElements, hraw]
    exact ih (fun other hother => hnested other (List.mem_cons_of_mem _ hother)) hrest

/-- How a dynamic element ends in a panic. Behind it every width is fixed. -/
theorem decodeElements_dynamic (hnested : ∀ element ∈ elements, DecodesFixed f nested element.typeId)
    (hitem : DecodesFixed f nested element.typeId) (hpayload : payload.length < SLICE_LIMIT)
    (hdynamic : element.dynamic = true)
    (hwidth : itemWidth f element.typeId = some width) :
    Panics (decodeElements f nested datasetId payload (element :: elements) offset fields) ↔
      Overruns f element elements width payload.length offset := by
  obtain ⟨tooShort, heq⟩ := decodeElement_some nested datasetId offset payload hwidth elements
  rw [decodeElements, heq]
  unfold itemCount Overruns
  rw [hdynamic, if_pos rfl, if_pos rfl]
  cases hreserved : fixedWidth f elements 0 with
  | none => exact iff_of_false (by simp [Panics, bind, Except.bind]) (by simp)
  | some reserved =>
    simp only [Option.some.injEq, exists_eq_left']
    by_cases hover : USIZE_SIZE ≤ offset + reserved
    · rw [if_pos hover]
      exact iff_of_true (.inr rfl) (.inl hover)
    rw [if_neg hover, or_iff_right hover]
    by_cases hshort : payload.length < offset + reserved
    · rw [if_pos hshort]
      refine iff_of_false (by simp [Panics, bind, Except.bind]) fun h => ?_
      omega
    rw [if_neg hshort]
    by_cases hdvd : width ∣ payload.length - offset - reserved
    · rw [if_neg (not_not.mpr hdvd)]
      by_cases hzero : width = 0
      · rw [if_pos hzero]
        rw [hzero, zero_dvd_iff] at hdvd
        exact iff_of_true (.inl rfl) ⟨hzero, by omega⟩
      · rw [if_neg hzero]
        refine iff_of_false ?_ fun h => hzero h.1
        obtain ⟨count, hcount⟩ := hdvd
        have hdiv : (payload.length - offset - reserved) / width = count := by
          rw [hcount, Nat.mul_div_cancel_left _ (Nat.pos_of_ne_zero hzero)]
        have hfit : offset + width * count + reserved = payload.length := by omega
        obtain ⟨values, hvalues⟩ := decodeItems_ok (fun stop => .error (tooShort stop))
          (decodeItem_ok hitem hwidth) hpayload (show offset + width * count ≤ payload.length by omega)
        have hsum : fixedWidth f elements (offset + width * count + 0) = some payload.length := by
          rw [fixedWidth_shift hreserved (by simp only [USIZE_SIZE, SLICE_LIMIT] at *; omega), hfit]
        obtain ⟨fields', hfields⟩ := @decodeElements_fixed f nested datasetId _ _ payload elements
          (fields.insert element.name (fieldObject element (rawValue element values)))
          hnested hpayload hsum le_rfl
        rw [Nat.add_zero] at hfields
        simp [bind, Except.bind, hdiv, hvalues, hfields, Panics]
    · rw [if_pos hdvd]
      refine iff_of_false (by simp [Panics, bind, Except.bind]) fun h => hdvd ?_
      rw [h.1, zero_dvd_iff]
      omega

/-- An element in front that is not dynamic: it overruns, or the elements behind it do. -/
theorem hazardFrom_cons (hdynamic : element.dynamic = false)
    (hwidth : itemWidth f element.typeId = some width) {length : Nat} (hoffset : offset ≤ length)
    (hlength : length < SLICE_LIMIT) :
    HazardFrom f (element :: elements) length offset ↔ USIZE_SIZE ≤ offset + width ∨
      offset + width * element.arraySize ≤ length ∧
        HazardFrom f elements length (offset + width * element.arraySize) := by
  constructor
  · rintro ⟨front, other, trailing, start, width', heq, hfront, hstart, hwidth', hover⟩
    cases front with
    | nil =>
      cases heq
      cases hfront
      cases hwidth.symm.trans hwidth'
      rw [Overruns, hdynamic] at hover
      exact .inl (by simpa using hover)
    | cons first front =>
      cases heq
      obtain ⟨-, itemWidth, hitem, -, hrest⟩ := (fixedWidth_cons).mp hfront
      cases hwidth.symm.trans hitem
      exact .inr ⟨(le_fixedWidth hrest).trans hstart,
        front, other, trailing, start, width', rfl, hrest, hstart, hwidth', hover⟩
  · rintro (hover | ⟨hfit, front, other, trailing, start, width', rfl, hfront, hstart, hrest⟩)
    · refine ⟨[], element, elements, offset, width, rfl, rfl, hoffset, hwidth, ?_⟩
      rw [Overruns, hdynamic]
      simpa using hover
    · refine ⟨element :: front, other, trailing, start, width', rfl, ?_, hstart, hrest⟩
      refine (fixedWidth_cons).mpr ⟨hdynamic, width, hwidth, ?_, hfront⟩
      simp only [USIZE_SIZE, SLICE_LIMIT] at *
      omega

/-- The elements end in a panic exactly if one of them overruns. -/
theorem decodeElements_panics (hnested : ∀ element ∈ elements, DecodesFixed f nested element.typeId)
    (hpayload : payload.length < SLICE_LIMIT) (hoffset : offset ≤ payload.length) :
    Panics (decodeElements f nested datasetId payload elements offset fields) ↔
      HazardFrom f elements payload.length offset := by
  induction elements generalizing offset fields with
  | nil =>
    refine iff_of_false (by simp [decodeElements, Panics]) ?_
    rintro ⟨front, element, trailing, -, -, heq, -⟩
    exact List.append_ne_nil_of_right_ne_nil _ (List.cons_ne_nil _ _) heq.symm
  | cons element elements ih =>
    have helement := hnested element List.mem_cons_self
    have helements : ∀ element ∈ elements, DecodesFixed f nested element.typeId :=
      fun other hother => hnested other (List.mem_cons_of_mem _ hother)
    cases hwidth : itemWidth f element.typeId with
    | none =>
      obtain ⟨text, herror⟩ := decodeElement_unknown nested datasetId offset payload hwidth elements
      rw [decodeElements, herror]
      refine iff_of_false (by simp [Panics, bind, Except.bind]) ?_
      rintro ⟨front, other, trailing, start, width, heq, hfront, -, hother, -⟩
      cases front with
      | nil =>
        cases heq
        rw [hwidth] at hother
        cases hother
      | cons first front =>
        cases heq
        obtain ⟨-, width', hitem, -⟩ := (fixedWidth_cons).mp hfront
        rw [hwidth] at hitem
        cases hitem
    | some width =>
      cases hdynamic : element.dynamic with
      | true =>
        rw [decodeElements_dynamic helements helement hpayload hdynamic hwidth]
        constructor
        · intro hover
          exact ⟨[], element, elements, offset, width, rfl, rfl, hoffset, hwidth, hover⟩
        · rintro ⟨front, other, trailing, start, width', heq, hfront, -, hother, hover⟩
          cases front with
          | nil =>
            cases heq
            cases hfront
            cases hwidth.symm.trans hother
            exact hover
          | cons first front =>
            cases heq
            rw [((fixedWidth_cons).mp hfront).1] at hdynamic
            cases hdynamic
      | false =>
        rw [hazardFrom_cons hdynamic hwidth hoffset hpayload, decodeElements]
        by_cases hover : USIZE_SIZE ≤ offset + width
        · rw [decodeElement_overflow datasetId hdynamic hwidth hover elements]
          exact iff_of_true (.inr rfl) (.inl hover)
        rw [or_iff_right hover]
        by_cases hfit : offset + width * element.arraySize ≤ payload.length
        · obtain ⟨raw, hraw⟩ :=
            decodeElement_fixed datasetId helement hpayload hdynamic hwidth hfit elements
          rw [hraw, and_iff_right hfit]
          exact ih helements hfit
        · obtain ⟨text, herror⟩ := decodeElement_short datasetId helement hpayload
            hdynamic hwidth hoffset (not_le.mp hover) (not_le.mp hfit) elements
          rw [herror]
          exact iff_of_false (by simp [Panics, bind, Except.bind]) fun h => hfit h.1

end Elements

section Datasets

variable {imported : TrdpXmlImport} {datasetId : Nat} {payload : List UInt8}
  {dataset : TrdpXmlDataset}

/-- The decoding from the outside: no nested dataset of a fixed width is being visited. -/
theorem decodeDataset_eq (hfind : imported.find datasetId = some dataset) :
    decodeDataset imported datasetId payload =
      decodeElements (fixedDatasetWidth imported) (decodeDataset imported) dataset.id payload
        dataset.elements 0 [] := by
  refine congrFun (@Lib.visited_eq _ _ _ _ _ _ _ _ _ (fixedChildren imported) (fun _ _ => mem_ids)
      ?_ _ (fun _ _ hfind _ => rank_lt hfind) _ _ _ (unvisited_lt_levels imported) hfind) payload
  intro f g dataset hchildren
  funext payload
  refine decodeElements_congr fun element helement htype hwidth => hchildren _ ?_
  refine List.mem_filter.mpr ⟨List.mem_map_of_mem helement, ?_⟩
  simpa using And.intro htype hwidth

/-- A dataset of a fixed width is decoded from as many bytes. -/
theorem decodesFixed (imported : TrdpXmlImport) (datasetId : Nat) :
    DecodesFixed (fixedDatasetWidth imported) (decodeDataset imported) datasetId := by
  induction hrank : rank imported datasetId using Nat.strongRecOn generalizing datasetId with
  | _ n ih =>
    intro slice htype hwidth hlimit
    obtain ⟨dataset, hfind, hsum⟩ := fixedDatasetWidth_dataset hwidth
    rw [decodeDataset_eq hfind]
    refine decodeElements_fixed ?_ hlimit hsum le_rfl
    intro element helement slice' htype' hwidth' hlimit'
    have hchild : element.typeId ∈ fixedChildren imported dataset :=
      List.mem_filter.mpr ⟨List.mem_map_of_mem helement, by simp [htype', hwidth']⟩
    have hlt := rank_lt hfind hchild
    rw [hrank] at hlt
    exact ih _ hlt element.typeId rfl slice' htype' hwidth' hlimit'

theorem decodeDataset_panics (imported : TrdpXmlImport) (datasetId : Nat)
    (hpayload : payload.length < SLICE_LIMIT) :
    Panics (decodeDataset imported datasetId payload) ↔ Hazard imported datasetId payload.length := by
  cases hfind : imported.find datasetId with
  | none =>
    have hmissing : decodeDataset imported datasetId payload =
        .error (.error s!"Dataset {datasetId} 不存在") := by
      rw [decodeDataset, TrdpXmlImport.levels, visit, if_neg List.not_mem_nil, hfind]
    rw [hmissing]
    refine iff_of_false (by simp [Panics]) ?_
    rintro ⟨dataset, hfind', -⟩
    rw [hfind] at hfind'
    cases hfind'
  | some dataset =>
    rw [decodeDataset_eq hfind, decodeElements_panics (fun _ _ => decodesFixed imported _) hpayload
      (Nat.zero_le _), Hazard, hfind]
    simp

/-- More levels than the schema has datasets make no difference. -/
theorem widthAt_levels {levels : Nat} (hlevels : imported.levels ≤ levels) :
    widthAt imported levels datasetId [] = fixedDatasetWidth imported datasetId := by
  have hunvisited := unvisited_lt_levels imported
  refine @Lib.visit_levels _ _ _ _ _ _ _ _ _
      (fun dataset => dataset.elements.map TrdpXmlElement.typeId) (fun _ _ => mem_ids) ?_ _ _ _ _
      (hunvisited.trans_le hlevels) hunvisited
  intro f g dataset hchildren
  exact fixedWidth_congr fun element helement => hchildren _ (List.mem_map_of_mem helement)

theorem decodeAt_levels {levels : Nat} (hlevels : imported.levels ≤ levels) :
    decodeAt imported levels datasetId [] payload = decodeDataset imported datasetId payload := by
  have hunvisited := unvisited_lt_levels imported
  refine congrFun (@Lib.visit_levels _ _ _ _ _ _ _ _ _
      (fun dataset => dataset.elements.map TrdpXmlElement.typeId) (fun _ _ => mem_ids) ?_ _ _ _ _
      (hunvisited.trans_le hlevels) hunvisited) payload
  intro f g dataset hchildren
  funext payload
  exact decodeElements_congr fun element helement _ _ =>
    hchildren _ (List.mem_map_of_mem helement)

/-- A text and a payload are decoded without a panic, and the recursions end at the levels that the
schema has. -/
def DecodesSafely (imported : TrdpXmlImport) (datasetId : Nat) (text : List Char)
    (payload : List UInt8) : Prop :=
  decodeHex text ≠ .error .sliceInsideChar ∧
    (∀ levels ≥ imported.levels,
      widthAt imported levels datasetId [] = fixedDatasetWidth imported datasetId ∧
        decodeAt imported levels datasetId [] payload = decodeDataset imported datasetId payload) ∧
    ¬ Panics (decodeDataset imported datasetId payload)

/-- Decoding is safe exactly if the text splits no character and no element of the dataset
overruns. -/
theorem decodesSafely_iff (imported : TrdpXmlImport) (datasetId : Nat) (text : List Char)
    (payload : List UInt8) (hpayload : payload.length < SLICE_LIMIT) :
    DecodesSafely imported datasetId text payload ↔
      ¬ SplitsChar text ∧ ¬ Hazard imported datasetId payload.length := by
  rw [DecodesSafely, ne_eq, decodeHex_iff, decodeDataset_panics imported datasetId hpayload]
  exact and_congr_right' (and_iff_right fun levels hlevels =>
    ⟨widthAt_levels hlevels, decodeAt_levels hlevels⟩)

end Datasets

/-- An empty dataset, and one with an array of it of unknown size. -/
def EMPTY_ITEMS : TrdpXmlImport where
  datasets := [
    { id := 1000
      elements := [] },
    { id := 1001
      elements := [
        { name := "items"
          dataType := "Dataset 1000"
          typeId := 1000
          arraySize := 0
          unit := none
          scale := none
          offset := none }] }]

theorem decodesSafely_bytes : DecodesSafely EMPTY_ITEMS 1001 "0a ff".toList [10, 255] := by
  have hsplits : ¬ SplitsChar "0a ff".toList := by
    rintro ⟨-, pairs, rest, hcompact, -, hcuts⟩
    have hsmall : ∀ c ∈ rest, c.utf8Size = 1 := by
      intro c hc
      have hmem : c ∈ pairs.flatten ++ rest := List.mem_append_right _ hc
      rw [← hcompact] at hmem
      have hall : ∀ c ∈ ['0', 'a', ' ', 'f', 'f'], c.utf8Size = 1 := by simp [Char.utf8Size]
      exact hall c (List.mem_of_mem_filter hmem)
    obtain ⟨c, rest', rfl, hlarge⟩ | ⟨c, d, rest', rfl, -, hlarge⟩ := hcuts
    · have := hsmall c (by simp)
      omega
    · have := hsmall d (by simp)
      omega
  have hhazard : ¬ Hazard EMPTY_ITEMS 1001 2 := by
    rintro ⟨dataset, hfind, front, element, trailing, start, width, helements, hstart, -, -, hover⟩
    obtain rfl := Option.some.inj hfind
    -- The dataset has one element.
    obtain ⟨rfl, rfl, rfl⟩ : front = [] ∧ _ = element ∧ [] = trailing := by
      cases front with
      | nil => exact ⟨rfl, List.cons.inj helements⟩
      | cons first front => simp at helements
    obtain rfl := Option.some.inj hstart
    obtain ⟨reserved, hreserved, hover⟩ := hover
    obtain rfl := Option.some.inj hreserved
    simp [USIZE_SIZE] at hover
  exact (decodesSafely_iff EMPTY_ITEMS 1001 "0a ff".toList [10, 255] (by decide)).mpr
    ⟨hsplits, hhazard⟩

/-- No byte is left for the array, and a text of four bytes has its second character in the middle. -/
theorem empty_items_panic :
    decodeDataset EMPTY_ITEMS 1001 [] = .error .divisionByZero ∧
      ¬ DecodesSafely EMPTY_ITEMS 1001 [] [] ∧ ¬ DecodesSafely EMPTY_ITEMS 1000 "aéb".toList [] := by
  have hzero : decodeDataset EMPTY_ITEMS 1001 [] = .error .divisionByZero := by rfl
  refine ⟨hzero, fun h => h.2.2 (.inl hzero), fun h => h.1 ?_⟩
  rw [decodeHex_iff]
  exact ⟨by decide, [], "aéb".toList, rfl, by simp, .inr ⟨'a', 'é', ['b'], rfl, by decide, by decide⟩⟩

end TauTerm.Trdp
