import Mathlib
import TauTerm.Lib.Lines
import TauTerm.Lib.RustText
import TauTerm.Lib.Utf8
import TauTerm.Ssh.JournalCommand

/-!
# Pages of the journal history

A page is read with one record more than it shows: the look-ahead proves that an older page exists,
and the last cursor that is shown begins it. `journalctl` is what the remote host prints for the
words of `historyWords`; the JSON reader is a parameter.
-/

namespace TauTerm.Ssh

open Lib (splitLines IsLine fromUtf8Lossy)
open Lib.Rust (isWhitespace trim)

def maxQueryLimit : Nat := 500

def maxQueryOutputBytes : Nat := 32 * 1024 * 1024

structure JournalEntry (F : Type) where
  cursor : Option String
  fields : F
  deriving DecidableEq

/-- A record that matches the filters, as the journal prints it: one line of JSON, which gives the
cursor back if the reader accepts it. -/
structure JournalRecord {F : Type} (parseEntry : List Char → Option (JournalEntry F)) where
  cursor : String
  line : List Char
  cursor_ne : cursor ≠ ""
  oneLine : '\n' ∉ line
  notBlank : trim line ≠ []
  cursor_parsed : ∀ entry, parseEntry (trim line) = some entry → entry.cursor = some cursor

structure JournaldQueryResponse (F : Type) where
  entries : List (JournalEntry F)
  nextCursor : Option String
  hasMore : Bool

variable {F : Type} (parseEntry : List Char → Option (JournalEntry F))

/-- `str::lines` -/
def textLines (text : List Char) : List (List Char) :=
  let r := splitLines (· == '\n') text
  let ended := r.1.map fun line =>
    if line.dropLast.getLast? = some '\r' then line.dropLast.dropLast else line.dropLast
  ended ++ if r.2.isEmpty then [] else [r.2]

def parseOutputEntries (stdout : List UInt8) : List (JournalEntry F) :=
  (textLines (fromUtf8Lossy stdout)).filterMap fun line =>
    let line := trim line
    if line = [] then none else parseEntry line

def finalizePage (entries : List (JournalEntry F)) (cursor : Option String) (limit : Nat) :
    JournaldQueryResponse F :=
  let entries :=
    match cursor with
    | some cursor => entries.eraseP fun entry => JournalEntry.cursor entry = some cursor
    | none => entries
  let hasMore := decide (limit < entries.length)
  let entries := entries.take limit
  let nextCursor := if hasMore then entries.getLast?.bind JournalEntry.cursor else none
  ⟨entries, nextCursor, hasMore && nextCursor.isSome⟩

variable {parseEntry}

def printed (records : List (JournalRecord parseEntry)) : List UInt8 :=
  Lib.utf8 (records.flatMap fun record => record.line ++ ['\n'])

/-- What `journalctl -r` prints for `-n` and `--cursor`: the newest records, from the cursor on. -/
def journalctl (records : List (JournalRecord parseEntry)) (cursor : Option String) (count : Nat) :
    List UInt8 :=
  match cursor with
  | none => printed (records.take count)
  | some cursor => printed ((records.dropWhile fun record => record.cursor ≠ cursor).take count)

/-- The output is collected up to a bound. -/
def runJournalctl (stdout : List UInt8) : Except String (List UInt8) :=
  if maxQueryOutputBytes < stdout.length then .error "journalctl output exceeded bounded query buffer"
  else .ok stdout

def clampLimit (limit : Nat) : Nat := max 1 (min limit maxQueryLimit)

def journaldQueryPage (records : List (JournalRecord parseEntry)) (cursor : Option String)
    (limit : Nat) : Except String (JournaldQueryResponse F) := do
  let limit := clampLimit limit
  let stdout ← runJournalctl (journalctl records (nonEmpty cursor) (lineCount cursor limit))
  return finalizePage (parseOutputEntries parseEntry stdout) cursor limit

/-- Page after page, until one has no cursor for a next one. -/
def requestPages (records : List (JournalRecord parseEntry)) (limit : Nat) :
    Nat → Option String → Option (List (JournaldQueryResponse F))
  | 0, _ => none
  | fuel + 1, cursor =>
    match journaldQueryPage records cursor limit with
    | .error _ => none
    | .ok page =>
      match page.nextCursor with
      | none => some [page]
      | some next => (requestPages records limit fuel (some next)).map (page :: ·)

/-- What the reader makes of a record. -/
def JournalRecord.entry (record : JournalRecord parseEntry) : Option (JournalEntry F) :=
  parseEntry (trim record.line)

/-- The pages end, every page before the last one shows something, and together they show every
record the reader accepts, once and in order. -/
def PagesComplete (records : List (JournalRecord parseEntry)) (limit : Nat) : Prop :=
  ∃ fuel pages, requestPages records limit fuel none = some pages ∧
    (∀ page ∈ pages, page.nextCursor ≠ none → page.entries ≠ []) ∧
    pages.flatMap (·.entries) = records.filterMap JournalRecord.entry

/-! ## What journalctl prints is what is parsed -/

theorem dropLast_line (line : List Char) : (line ++ ['\n']).dropLast = line := List.dropLast_concat

/-- A carriage return at the end of a line goes with the blanks. -/
theorem trim_return (line : List Char) : trim (line ++ ['\r']) = trim line := by
  unfold trim
  by_cases hblank : line.dropWhile isWhitespace = []
  · have hall : ∀ c ∈ line, isWhitespace c := List.dropWhile_eq_nil_iff.mp hblank
    have hall' : (line ++ ['\r']).dropWhile isWhitespace = [] := by
      rw [List.dropWhile_eq_nil_iff]
      intro c hc
      obtain hc | hc := List.mem_append.mp hc
      · exact hall c hc
      · rw [List.mem_singleton.mp hc]
        decide
    rw [hblank, hall']
  · have hdrop : (line ++ ['\r']).dropWhile isWhitespace = line.dropWhile isWhitespace ++ ['\r'] := by
      rw [List.dropWhile_append, if_neg (by simpa using hblank)]
    rw [hdrop, List.rdropWhile_concat_pos _ _ _ (by decide)]

theorem trim_line (line : List Char) :
    trim (if (line ++ ['\n']).dropLast.getLast? = some '\r' then (line ++ ['\n']).dropLast.dropLast
      else (line ++ ['\n']).dropLast) = trim line := by
  rw [dropLast_line]
  split
  · rename_i hreturn
    have hline := List.dropLast_append_getLast? '\r' hreturn
    rw [← trim_return, hline]
  · rfl

theorem parseOutputEntries_printed (records : List (JournalRecord parseEntry)) :
    parseOutputEntries parseEntry (printed records) = records.filterMap JournalRecord.entry := by
  have hlines : ∀ l ∈ records.map (fun record => record.line ++ ['\n']), IsLine (· == '\n') l := by
    intro l hl
    obtain ⟨record, -, rfl⟩ := List.mem_map.mp hl
    refine ⟨record.line, '\n', rfl, rfl, ?_⟩
    intro c hc hend
    obtain rfl : c = '\n' := by simpa using hend
    exact record.oneLine hc
  have hsplit := Lib.splitLines_flatten hlines []
  rw [List.append_nil, ← List.flatMap_def, show splitLines (· == '\n') ([] : List Char) = ([], []) from rfl,
    List.append_nil] at hsplit
  unfold parseOutputEntries printed textLines
  rw [Lib.fromUtf8Lossy_encode, hsplit]
  simp only [List.isEmpty_nil, if_true, List.append_nil, List.map_map, List.filterMap_map]
  refine List.filterMap_congr fun record _ => ?_
  simp only [Function.comp_apply, trim_line]
  rw [if_neg record.notBlank]
  rfl

/-! ## One page -/

section Page

variable {records : List (JournalRecord parseEntry)} {limit j : Nat}

/-- How many records the reader accepts in front of the first one it rejects. -/
def acceptedFront (records : List (JournalRecord parseEntry)) : Nat :=
  records.findIdx fun record => record.entry.isNone

/-- The page that has no next cursor. -/
def lastPage (records : List (JournalRecord parseEntry)) (limit : Nat) : Nat :=
  (acceptedFront records - 1) / limit

/-- The records a request for page `j` prints: those of the page with the look-ahead, behind the
one the cursor names. -/
def pageRecords (records : List (JournalRecord parseEntry)) (limit j : Nat) :
    List (JournalRecord parseEntry) :=
  if j = 0 then records.take (limit + 1) else (records.drop (j * limit - 1)).take (limit + 2)

def PageFits (records : List (JournalRecord parseEntry)) (limit j : Nat) : Prop :=
  (printed (pageRecords records limit j)).length ≤ maxQueryOutputBytes

/-- The cursor of page `j`: that of the record in front of it. -/
def cursorAt (records : List (JournalRecord parseEntry)) (limit j : Nat) : Option String :=
  if j = 0 then none else records[j * limit - 1]?.map JournalRecord.cursor

/-- What page `j` shows. -/
def pageEntries (records : List (JournalRecord parseEntry)) (limit j : Nat) : List (JournalEntry F) :=
  (((records.drop (j * limit)).take (limit + 1)).filterMap JournalRecord.entry).take limit

theorem entry_of_lt_acceptedFront {i : Nat} (h : i < acceptedFront records) :
    ∃ hi : i < records.length, ∃ e, records[i].entry = some e ∧ e.cursor = some records[i].cursor := by
  have hi : i < records.length := lt_of_lt_of_le h List.findIdx_le_length
  have hsome := List.not_of_lt_findIdx h
  obtain ⟨e, he⟩ := Option.isSome_iff_exists.mp (by simpa using hsome)
  exact ⟨hi, e, he, records[i].cursor_parsed e he⟩

/-- A window in front of the first rejected record has all its entries. -/
theorem length_filterMap_entry {start count : Nat} (h : start + count ≤ acceptedFront records) :
    (((records.drop start).take count).filterMap JournalRecord.entry).length = count := by
  have hlen : acceptedFront records ≤ records.length := List.findIdx_le_length
  have hall : ∀ r ∈ (records.drop start).take count, (JournalRecord.entry r).isSome := by
    intro r hr
    obtain ⟨i, hi, rfl⟩ := List.mem_iff_getElem.mp hr
    rw [List.length_take, List.length_drop] at hi
    obtain ⟨_, e, he, -⟩ := @entry_of_lt_acceptedFront _ _ records (start + i) (by omega)
    rw [List.getElem_take, List.getElem_drop, he]
    rfl
  rw [List.length_filterMap_eq_countP, List.countP_eq_length.mpr hall, List.length_take,
    List.length_drop]
  omega

/-- A window that holds the first rejected record, or the end, is short of an entry. -/
theorem length_filterMap_entry_lt {start count : Nat} (hstart : start ≤ acceptedFront records)
    (h : acceptedFront records < start + count) :
    (((records.drop start).take count).filterMap JournalRecord.entry).length < count := by
  by_cases hend : records.length < start + count
  · refine lt_of_le_of_lt (List.length_filterMap_le _ _) ?_
    rw [List.length_take, List.length_drop]
    have : acceptedFront records ≤ records.length := List.findIdx_le_length
    omega
  · have hlt : acceptedFront records < records.length := by omega
    have hnone : records[acceptedFront records].entry = none := by
      have hfound := List.findIdx_getElem (w := hlt)
      exact Option.isNone_iff_eq_none.mp hfound
    have hmem : records[acceptedFront records] ∈ (records.drop start).take count := by
      rw [List.mem_iff_getElem]
      refine ⟨acceptedFront records - start, by rw [List.length_take, List.length_drop]; omega, ?_⟩
      rw [List.getElem_take, List.getElem_drop]
      congr 1
      omega
    have hlt := List.length_filterMap_lt_length_iff_exists.mpr ⟨_, hmem, hnone⟩
    exact lt_of_lt_of_le hlt (List.length_take_le _ _)

/-- Before the last page everything in front of the look-ahead is accepted, and so is that. -/
theorem succ_mul_lt_acceptedFront (h : j < lastPage records limit) (hlimit : 1 ≤ limit) :
    (j + 1) * limit < acceptedFront records := by
  have hle : (j + 1) * limit ≤ acceptedFront records - 1 :=
    (Nat.le_div_iff_mul_le hlimit).mp h
  have hpos : 0 < (j + 1) * limit := Nat.mul_pos (by omega) hlimit
  omega

theorem mul_le_acceptedFront (h : j ≤ lastPage records limit) (hlimit : 1 ≤ limit) :
    j * limit ≤ acceptedFront records - 1 :=
  (Nat.le_div_iff_mul_le hlimit).mp h

theorem acceptedFront_le_lastPage (records : List (JournalRecord parseEntry)) (hlimit : 1 ≤ limit) :
    acceptedFront records ≤ (lastPage records limit + 1) * limit := by
  have := Nat.lt_mul_div_succ (acceptedFront records - 1) (show 0 < limit by omega)
  rw [Nat.mul_comm] at this
  unfold lastPage
  omega

/-- The cursor is found again where it was taken from. -/
theorem dropWhile_cursor {p : Nat} (hp : p < records.length)
    (hdistinct : records.Pairwise fun r r' => r.cursor ≠ r'.cursor) :
    (records.dropWhile fun record => record.cursor ≠ records[p].cursor) = records.drop p := by
  have hbefore : ∀ r ∈ records.take p, decide (r.cursor ≠ records[p].cursor) = true := by
    intro r hr
    obtain ⟨i, hi, rfl⟩ := List.mem_take_iff_getElem.mp hr
    exact decide_eq_true (List.pairwise_iff_getElem.mp hdistinct i p (by omega) hp (by omega))
  calc (records.dropWhile fun record => record.cursor ≠ records[p].cursor)
      = (records.take p ++ records.drop p).dropWhile fun record => record.cursor ≠ records[p].cursor := by
        rw [List.take_append_drop]
    _ = (records.drop p).dropWhile fun record => record.cursor ≠ records[p].cursor :=
        List.dropWhile_append_of_pos hbefore
    _ = records.drop p := by
        rw [List.drop_eq_getElem_cons hp, List.dropWhile_cons, if_neg (by simp)]

/-- What the host prints for page `j`. -/
theorem journalctl_cursorAt (hlimit : 1 ≤ limit) (hmax : limit ≤ maxQueryLimit)
    (hdistinct : records.Pairwise fun r r' => r.cursor ≠ r'.cursor)
    (hj : j ≤ lastPage records limit) :
    journalctl records (nonEmpty (cursorAt records limit j))
        (lineCount (cursorAt records limit j) limit) = printed (pageRecords records limit j) := by
  have hmax' : limit ≤ 500 := hmax
  have hfront := mul_le_acceptedFront hj hlimit
  have hlen : acceptedFront records ≤ records.length := List.findIdx_le_length
  unfold cursorAt pageRecords
  by_cases hzero : j = 0
  · rw [if_pos hzero, if_pos hzero]
    have hcount : lineCount none limit = limit + 1 := by
      unfold lineCount saturatingAdd
      simp only [Option.isSome_none, Bool.false_eq_true, if_false]
      omega
    rw [hcount]
    rfl
  · have hmul : 0 < j * limit := Nat.mul_pos (by omega) (by omega)
    have hp : j * limit - 1 < records.length := by omega
    have hcount : ∀ c, lineCount (some c) limit = limit + 2 := by
      intro c
      unfold lineCount saturatingAdd
      simp only [Option.isSome_some, if_true]
      omega
    have hcursor : nonEmpty (some records[j * limit - 1].cursor) =
        some records[j * limit - 1].cursor := by
      have := records[j * limit - 1].cursor_ne
      simp [nonEmpty, this]
    rw [if_neg hzero, if_neg hzero, List.getElem?_eq_getElem hp, Option.map_some, hcursor, hcount]
    exact congrArg (fun rs => printed (rs.take (limit + 2))) (dropWhile_cursor hp hdistinct)

/-- The record of the cursor is dropped, and the entries of the page and its look-ahead are left. -/
theorem erase_cursor (hlimit : 1 ≤ limit) (hj : j ≤ lastPage records limit) :
    (match cursorAt records limit j with
      | some cursor => ((pageRecords records limit j).filterMap JournalRecord.entry).eraseP
          fun entry => JournalEntry.cursor entry = some cursor
      | none => (pageRecords records limit j).filterMap JournalRecord.entry) =
      ((records.drop (j * limit)).take (limit + 1)).filterMap JournalRecord.entry := by
  have hfront := mul_le_acceptedFront hj hlimit
  have hlen : acceptedFront records ≤ records.length := List.findIdx_le_length
  unfold cursorAt pageRecords
  by_cases hzero : j = 0
  · subst hzero
    simp
  · have hmul : 0 < j * limit := Nat.mul_pos (by omega) (by omega)
    obtain ⟨hp, e, he, hcursor⟩ :=
      @entry_of_lt_acceptedFront _ _ records (j * limit - 1) (by omega)
    have hdrop : (records.drop (j * limit - 1)).take (limit + 2) =
        records[j * limit - 1] :: (records.drop (j * limit)).take (limit + 1) := by
      rw [List.drop_eq_getElem_cons hp, List.take_succ_cons, show j * limit - 1 + 1 = j * limit by omega]
    rw [if_neg hzero, if_neg hzero, List.getElem?_eq_getElem hp, Option.map_some, hdrop,
      List.filterMap_cons_some he]
    exact List.eraseP_cons_of_pos (by simpa using hcursor)

theorem pageEntries_full (hlimit : 1 ≤ limit) (hj : j < lastPage records limit) :
    pageEntries records limit j =
      ((records.drop (j * limit)).take limit).filterMap JournalRecord.entry := by
  have hfront := succ_mul_lt_acceptedFront hj hlimit
  rw [Nat.add_one_mul] at hfront
  have hall := @length_filterMap_entry _ _ records (j * limit) limit (by omega)
  unfold pageEntries
  rw [List.take_add_one, List.filterMap_append, List.take_append_of_le_length (by omega),
    List.take_of_length_le (by omega)]

theorem length_lastPage (hlimit : 1 ≤ limit) :
    (((records.drop (lastPage records limit * limit)).take (limit + 1)).filterMap
      JournalRecord.entry).length < limit + 1 := by
  have hfront := acceptedFront_le_lastPage records hlimit
  have hle := @mul_le_acceptedFront _ _ records _ _ (le_refl (lastPage records limit)) hlimit
  rw [Nat.add_one_mul] at hfront
  exact length_filterMap_entry_lt (by omega) (by omega)

theorem pageEntries_last (hlimit : 1 ≤ limit) :
    pageEntries records limit (lastPage records limit) =
      ((records.drop (lastPage records limit * limit)).take (limit + 1)).filterMap
        JournalRecord.entry :=
  List.take_of_length_le (Nat.le_of_lt_succ (length_lastPage hlimit))

/-- The last entry that page `j` shows, if there is a next page. -/
theorem getLast?_pageEntries (hlimit : 1 ≤ limit) (hj : j < lastPage records limit) :
    (pageEntries records limit j).getLast?.bind JournalEntry.cursor = cursorAt records limit (j + 1) := by
  have hfront := succ_mul_lt_acceptedFront hj hlimit
  rw [Nat.add_one_mul] at hfront
  obtain ⟨hp, e, he, hcursor⟩ :=
    @entry_of_lt_acceptedFront _ _ records (j * limit + (limit - 1)) (by omega)
  have hwindow : (records.drop (j * limit)).take limit =
      (records.drop (j * limit)).take (limit - 1) ++ [records[j * limit + (limit - 1)]] := by
    have hlt : limit - 1 < (records.drop (j * limit)).length := by
      rw [List.length_drop]
      omega
    have hstep := List.take_succ_eq_append_getElem hlt
    rwa [Nat.sub_add_cancel hlimit, List.getElem_drop] at hstep
  have hnext : cursorAt records limit (j + 1) = some records[j * limit + (limit - 1)].cursor := by
    unfold cursorAt
    rw [if_neg (by omega), Nat.add_one_mul, show j * limit + limit - 1 = j * limit + (limit - 1) by omega,
      List.getElem?_eq_getElem hp, Option.map_some]
  rw [pageEntries_full hlimit hj, hwindow, List.filterMap_append, List.filterMap_cons_some he, List.filterMap_nil,
    List.getLast?_concat, Option.bind_some, hcursor, hnext]

/-- Page `j`, as the code returns it. -/
def pageAt (records : List (JournalRecord parseEntry)) (limit j : Nat) : JournaldQueryResponse F :=
  let next := if j < lastPage records limit then cursorAt records limit (j + 1) else none
  ⟨pageEntries records limit j, next, decide (j < lastPage records limit) && next.isSome⟩

theorem finalizePage_pageRecords (hlimit : 1 ≤ limit) (hj : j ≤ lastPage records limit) :
    finalizePage ((pageRecords records limit j).filterMap JournalRecord.entry)
      (cursorAt records limit j) limit = pageAt records limit j := by
  have hmore : limit < (((records.drop (j * limit)).take (limit + 1)).filterMap
      JournalRecord.entry).length ↔ j < lastPage records limit := by
    constructor
    · intro hlt
      by_contra hlast
      obtain rfl : j = lastPage records limit := by omega
      have := @length_lastPage _ _ records _ hlimit
      omega
    · intro hlt
      have hfront := succ_mul_lt_acceptedFront hlt hlimit
      rw [Nat.add_one_mul] at hfront
      rw [length_filterMap_entry (by omega)]
      omega
  unfold finalizePage
  simp only [erase_cursor hlimit hj, hmore]
  by_cases hlt : j < lastPage records limit
  · have hnext := getLast?_pageEntries hlimit hlt
    unfold pageEntries at hnext
    simp [pageAt, pageEntries, hlt, hnext]
  · simp [pageAt, pageEntries, hlt]

end Page

/-! ## All pages -/

section Pages

variable {records : List (JournalRecord parseEntry)} {limit j : Nat}

theorem one_le_clampLimit (limit : Nat) : 1 ≤ clampLimit limit := Nat.le_max_left ..

theorem clampLimit_le (limit : Nat) : clampLimit limit ≤ maxQueryLimit :=
  Nat.max_le.mpr ⟨by decide, Nat.min_le_right ..⟩

variable (hdistinct : records.Pairwise fun r r' => r.cursor ≠ r'.cursor)
include hdistinct

theorem journaldQueryPage_at (hj : j ≤ lastPage records (clampLimit limit)) :
    journaldQueryPage records (cursorAt records (clampLimit limit) j) limit =
      if maxQueryOutputBytes < (printed (pageRecords records (clampLimit limit) j)).length then
        .error "journalctl output exceeded bounded query buffer"
      else .ok (pageAt records (clampLimit limit) j) := by
  have hlimit := one_le_clampLimit limit
  unfold journaldQueryPage runJournalctl
  simp only [journalctl_cursorAt hlimit (clampLimit_le limit) hdistinct hj]
  split
  · rfl
  · change Except.ok (finalizePage (parseOutputEntries parseEntry (printed _)) _ _) = _
    rw [parseOutputEntries_printed, finalizePage_pageRecords hlimit hj]

/-- The requests from page `j` on give the pages up to the last one, if each of them fits. -/
theorem requestPages_at (fuel : Nat) (hj : j ≤ lastPage records (clampLimit limit))
    (pages : List (JournaldQueryResponse F)) :
    requestPages records limit fuel (cursorAt records (clampLimit limit) j) = some pages ↔
      lastPage records (clampLimit limit) - j < fuel ∧
        (∀ i, j ≤ i → i ≤ lastPage records (clampLimit limit) →
          PageFits records (clampLimit limit) i) ∧
        pages = (List.range' j (lastPage records (clampLimit limit) - j + 1)).map
          (pageAt records (clampLimit limit)) := by
  have hlimit := one_le_clampLimit limit
  induction fuel generalizing j pages with
  | zero => simp [requestPages]
  | succ fuel ih =>
    rw [requestPages, journaldQueryPage_at hdistinct hj]
    by_cases hfits : maxQueryOutputBytes < (printed (pageRecords records (clampLimit limit) j)).length
    · rw [if_pos hfits]
      refine iff_of_false (by simp) fun h => ?_
      have := h.2.1 j le_rfl hj
      unfold PageFits at this
      omega
    · rw [if_neg hfits]
      have hfits' : PageFits records (clampLimit limit) j := Nat.le_of_not_lt hfits
      by_cases hlast : j < lastPage records (clampLimit limit)
      · -- there is a next page, and its requests begin at the cursor this page gives
        have hfront := @mul_le_acceptedFront _ _ records _ (j + 1) hlast hlimit
        have hmul : 0 < (j + 1) * clampLimit limit := Nat.mul_pos (by omega) hlimit
        obtain ⟨hp, -⟩ := @entry_of_lt_acceptedFront _ _ records ((j + 1) * clampLimit limit - 1)
            (by omega)
        have hcursor : (pageAt records (clampLimit limit) j).nextCursor =
            some records[(j + 1) * clampLimit limit - 1].cursor := by
          simp only [pageAt, cursorAt]
          rw [if_pos hlast, if_neg (by omega), List.getElem?_eq_getElem hp, Option.map_some]
        have hnext : cursorAt records (clampLimit limit) (j + 1) =
            some records[(j + 1) * clampLimit limit - 1].cursor := by
          rw [← hcursor, pageAt, if_pos hlast]
        have hrange : List.range' j (lastPage records (clampLimit limit) - j + 1) =
            j :: List.range' (j + 1) (lastPage records (clampLimit limit) - (j + 1) + 1) := by
          rw [List.range'_succ, show lastPage records (clampLimit limit) - j =
            lastPage records (clampLimit limit) - (j + 1) + 1 by omega]
        simp only [hcursor]
        rw [← hnext, hrange, List.map_cons, Option.map_eq_some_iff]
        constructor
        · rintro ⟨rest, hrest, rfl⟩
          obtain ⟨hfuel, hall, rfl⟩ := (ih hlast rest).mp hrest
          refine ⟨by omega, fun i hi hi' => ?_, rfl⟩
          obtain rfl | hi := Nat.eq_or_lt_of_le hi
          · exact hfits'
          · exact hall i hi hi'
        · rintro ⟨hfuel, hall, rfl⟩
          exact ⟨_, (ih hlast _).mpr ⟨by omega, fun i hi hi' => hall i (by omega) hi', rfl⟩, rfl⟩
      · obtain rfl : j = lastPage records (clampLimit limit) := by omega
        have hcursor : (pageAt records (clampLimit limit)
            (lastPage records (clampLimit limit))).nextCursor = none := by
          simp [pageAt]
        simp only [hcursor, Option.some.injEq]
        rw [Nat.sub_self]
        constructor
        · rintro rfl
          refine ⟨by omega, fun i hi hi' => ?_, rfl⟩
          obtain rfl : i = lastPage records (clampLimit limit) := by omega
          exact hfits'
        · rintro ⟨-, -, rfl⟩
          rfl

omit hdistinct in
/-- What the pages from `j` on show together. -/
theorem flatMap_pageEntries (hlimit : 1 ≤ limit) {n : Nat} (hj : j + n = lastPage records limit) :
    (List.range' j (n + 1)).flatMap (pageEntries records limit) =
      ((records.drop (j * limit)).take ((n + 1) * limit + 1)).filterMap JournalRecord.entry := by
  induction n generalizing j with
  | zero =>
    obtain rfl : j = lastPage records limit := hj
    rw [Nat.zero_add, List.range'_one, List.flatMap_singleton, pageEntries_last hlimit, Nat.one_mul]
  | succ n ih =>
    have htake := @List.take_add _ (records.drop (j * limit)) limit ((n + 1) * limit + 1)
    rw [List.drop_drop] at htake
    rw [List.range'_succ, List.flatMap_cons, pageEntries_full hlimit (by omega), ih (by omega),
      ← List.filterMap_append, Nat.add_one_mul (n + 1), Nat.add_one_mul j,
      show (n + 1) * limit + limit + 1 = limit + ((n + 1) * limit + 1) by omega, htake]

/-- Paging shows everything the reader accepts exactly if each page fits into the bound of a query
and nothing accepted is behind the look-ahead of the page that shows the first rejected record. -/
theorem pagesComplete_iff :
    PagesComplete records limit ↔
      (∀ j ≤ lastPage records (clampLimit limit), PageFits records (clampLimit limit) j) ∧
        ∀ record ∈ records.drop
          ((lastPage records (clampLimit limit) + 1) * clampLimit limit + 1),
          record.entry = none := by
  have hlimit := one_le_clampLimit limit
  have hpages := fun fuel pages => @requestPages_at _ _ _ limit 0 hdistinct fuel (Nat.zero_le _)
      pages
  have hstart : cursorAt records (clampLimit limit) 0 = none := rfl
  rw [hstart] at hpages
  have hshown : ((List.range' 0 (lastPage records (clampLimit limit) - 0 + 1)).map
      (pageAt records (clampLimit limit))).flatMap (·.entries) =
      (records.take ((lastPage records (clampLimit limit) + 1) * clampLimit limit + 1)).filterMap
        JournalRecord.entry := by
    have hall := @flatMap_pageEntries _ _ records _ 0 hlimit _ (Nat.zero_add _)
    rw [Nat.zero_mul, List.drop_zero] at hall
    rw [List.flatMap_map, Nat.sub_zero]
    exact hall
  have hsplit : records.filterMap JournalRecord.entry =
      (records.take ((lastPage records (clampLimit limit) + 1) * clampLimit limit + 1)).filterMap
          JournalRecord.entry ++
        (records.drop ((lastPage records (clampLimit limit) + 1) * clampLimit limit + 1)).filterMap
          JournalRecord.entry := by
    rw [← List.filterMap_append, List.take_append_drop]
  constructor
  · rintro ⟨fuel, pages, hrun, -, hflat⟩
    obtain ⟨-, hfits, rfl⟩ := (hpages fuel pages).mp hrun
    refine ⟨fun j hj => hfits j (Nat.zero_le j) hj, ?_⟩
    rw [hshown, hsplit, List.self_eq_append_right, List.filterMap_eq_nil_iff] at hflat
    exact hflat
  · rintro ⟨hfits, hrest⟩
    refine ⟨lastPage records (clampLimit limit) + 1, _,
      (hpages _ _).mpr ⟨by omega, fun i _ hi => hfits i hi, rfl⟩, ?_, ?_⟩
    · intro page hpage hnext
      obtain ⟨j, hj, rfl⟩ := List.mem_map.mp hpage
      have hlast : j < lastPage records (clampLimit limit) := by
        by_contra hlast
        exact hnext (by simp [pageAt, hlast])
      have hfront := succ_mul_lt_acceptedFront hlast hlimit
      rw [Nat.add_one_mul] at hfront
      have hlen := @length_filterMap_entry _ _ records (j * clampLimit limit) (clampLimit limit)
          (by omega)
      change pageEntries records (clampLimit limit) j ≠ []
      rw [pageEntries_full hlimit hlast]
      intro hnil
      rw [hnil] at hlen
      exact absurd hlen (by simp only [List.length_nil]; omega)
    · rw [hshown, hsplit, List.filterMap_eq_nil_iff.mpr hrest, List.append_nil]

end Pages

section Sample

def sampleLine (cursor : String) : List Char :=
  ("\x7b\"__CURSOR\":\"" ++ cursor ++ "\"\x7d").toList

/-- A JSON object with a number that is out of range. -/
def rejectedLine : List Char := "\x7b\"__CURSOR\":\"s=3\",\"N\":1e999\x7d".toList

def sampleParse (line : List Char) : Option (JournalEntry Unit) :=
  (["s=1", "s=2"].find? fun cursor => line = sampleLine cursor).map fun cursor => ⟨some cursor, ()⟩

def sampleRecord (line : List Char) (cursor : String) (cursor_ne : cursor ≠ "") (oneLine : '\n' ∉ line)
    (htrim : trim line = line) (hne : line ≠ [])
    (hcursor : ∀ entry ∈ sampleParse line, entry.cursor = some cursor) : JournalRecord sampleParse where
  cursor := cursor
  line := line
  cursor_ne := cursor_ne
  oneLine := oneLine
  notBlank := by
    rw [htrim]
    exact hne
  cursor_parsed := by
    intro entry h
    rw [htrim] at h
    exact hcursor entry h

def accepted1 : JournalRecord sampleParse :=
  sampleRecord (sampleLine "s=1") "s=1" (by decide) (by decide) (by decide) (by decide) (by decide)

def accepted2 : JournalRecord sampleParse :=
  sampleRecord (sampleLine "s=2") "s=2" (by decide) (by decide) (by decide) (by decide) (by decide)

def rejected3 : JournalRecord sampleParse :=
  sampleRecord rejectedLine "s=3" (by decide) (by decide) (by decide) (by decide) (by decide)

theorem pagesComplete_two : PagesComplete [accepted2, accepted1] 1 := by
  refine (pagesComplete_iff (by decide)).mpr ⟨?_, by decide⟩
  have hall : ∀ j ≤ 1, (printed (pageRecords [accepted2, accepted1] 1 j)).length ≤
      maxQueryOutputBytes := by
    decide
  exact hall

/-- A rejected record in a page makes that page the last one, whatever is behind it. -/
theorem rejected_record_ends_paging :
    [rejected3, accepted2, accepted1].Pairwise (fun r r' => r.cursor ≠ r'.cursor) ∧
      ¬ PagesComplete [rejected3, accepted2, accepted1] 1 := by
  refine ⟨by decide, ?_⟩
  rintro ⟨fuel, pages, hrun, -, hflat⟩
  have hpage : ((journaldQueryPage [rejected3, accepted2, accepted1] none 1).toOption.map
      fun page => (page.entries, page.nextCursor)) = some ([⟨some "s=2", ()⟩], none) := by
    decide
  cases fuel with
  | zero => cases hrun
  | succ fuel =>
    rw [requestPages] at hrun
    cases hquery : journaldQueryPage [rejected3, accepted2, accepted1] none 1 with
    | error e => rw [hquery] at hrun; cases hrun
    | ok page =>
      rw [hquery] at hrun hpage
      obtain ⟨hentries, hnext⟩ := Prod.mk.inj (Option.some.inj hpage)
      simp only [hnext, Option.some.injEq] at hrun
      subst hrun
      rw [List.flatMap_singleton, hentries] at hflat
      exact absurd hflat (by decide)

end Sample

end TauTerm.Ssh
