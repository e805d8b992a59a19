import Mathlib
import TauTerm.Lib.ShellWords

/-!
# The journalctl command line

A query is sent to the SSH host as one command line, which the remote shell splits into words again.
Every text of the user is quoted by `shellEscape`. The words that were meant are `filterWords`,
`streamWords` and `historyWords`.
-/

namespace TauTerm.Ssh

open Lib.ShellWords (Spells isPlain)

structure JournaldQueryFilters where
  level : Option String
  keyword : Option String
  unit : Option String
  kernelOnly : Bool
  since : Option String
  untilTime : Option String
  deriving DecidableEq

/-- `value.as_deref().filter(|value| !value.is_empty())` -/
def nonEmpty (value : Option String) : Option String := value.filter fun v => !v.isEmpty

/-- `value.replace('\'', "'\\''")`, between single quotes. -/
def shellEscape (value : String) : String :=
  "'" ++ String.ofList (value.toList.flatMap fun c => if c = '\'' then "'\\''".toList else [c]) ++ "'"

def buildFilterArgs (filters : JournaldQueryFilters) : List String :=
  let args := ["-o", "json", "--no-pager", "--quiet"]
  let args := args ++ (nonEmpty filters.level).elim [] fun level => ["-p", shellEscape level]
  let args := args ++ (nonEmpty filters.unit).elim [] fun unit => ["-u", shellEscape unit]
  let args := args ++ if filters.kernelOnly then ["_TRANSPORT=kernel"] else []
  let args := args ++ (nonEmpty filters.since).elim [] fun since => ["-S", shellEscape since]
  let args := args ++ (nonEmpty filters.untilTime).elim [] fun untilTime => ["-U", shellEscape untilTime]
  args ++ (nonEmpty filters.keyword).elim [] fun keyword => ["--grep=" ++ shellEscape keyword]

def buildStreamArgs (filters : JournaldQueryFilters) : List String :=
  buildFilterArgs filters ++ ["-n0", "-f"]

/-- `usize::saturating_add` -/
def saturatingAdd (a b : Nat) : Nat := min (a + b) (2 ^ 64 - 1)

/-- One record more than the page has proves `has_more`, and a cursor brings its own record along. -/
def lineCount (cursor : Option String) (limit : Nat) : Nat :=
  saturatingAdd limit (if cursor.isSome then 2 else 1)

def buildHistoryArgs (filters : JournaldQueryFilters) (cursor : Option String) (limit : Nat) :
    List String :=
  let args := buildFilterArgs filters ++ ["-r", "-n" ++ toString (lineCount cursor limit)]
  args ++ (nonEmpty cursor).elim [] fun cursor => ["--cursor=" ++ shellEscape cursor]

def buildCommand (command : String) (args : List String) : String :=
  if args.isEmpty then command else command ++ " " ++ " ".intercalate args

/-! ## The words that are meant -/

def filterWords (filters : JournaldQueryFilters) : List String :=
  ["-o", "json", "--no-pager", "--quiet"]
    ++ ((nonEmpty filters.level).elim [] fun level => ["-p", level])
    ++ ((nonEmpty filters.unit).elim [] fun unit => ["-u", unit])
    ++ (if filters.kernelOnly then ["_TRANSPORT=kernel"] else [])
    ++ ((nonEmpty filters.since).elim [] fun since => ["-S", since])
    ++ ((nonEmpty filters.untilTime).elim [] fun untilTime => ["-U", untilTime])
    ++ ((nonEmpty filters.keyword).elim [] fun keyword => ["--grep=" ++ keyword])

def streamWords (filters : JournaldQueryFilters) : List String := filterWords filters ++ ["-n0", "-f"]

def historyWords (filters : JournaldQueryFilters) (cursor : Option String) (limit : Nat) :
    List String :=
  filterWords filters ++ ["-r", "-n" ++ toString (lineCount cursor limit)]
    ++ (nonEmpty cursor).elim [] fun cursor => ["--cursor=" ++ cursor]

/-- The texts of the user that a query carries. -/
def userStrings (filters : JournaldQueryFilters) : List String :=
  [filters.level, filters.unit, filters.since, filters.untilTime, filters.keyword].filterMap nonEmpty

/-- The words the remote shell runs. -/
def shellWords (command : String) : Option (List String) :=
  (Lib.ShellWords.split command.toList).map fun words => words.map String.ofList

/-! ## Quoting -/

/-- The text between the quotes keeps the reader inside them. A quote closes them, is given by a
backslash, and opens them again. -/
theorem foldlM_escaped (words : List (List Char)) (value read : List Char) :
    (value.flatMap fun c => if c = '\'' then "'\\''".toList else [c]).foldlM Lib.ShellWords.step
      ⟨words, .single read⟩ = some ⟨words, .single (read ++ value)⟩ := by
  induction value generalizing read with
  | nil => simp
  | cons c value ih =>
    have hone : (if c = '\'' then "'\\''".toList else [c]).foldlM Lib.ShellWords.step
        ⟨words, .single read⟩ = some ⟨words, .single (read ++ [c])⟩ := by
      by_cases hc : c = '\''
      · subst hc
        rw [if_pos rfl]
        rfl
      · rw [if_neg hc]
        simp [Lib.ShellWords.step, hc]
    rw [List.flatMap_cons, List.foldlM_append, hone]
    change (List.foldlM _ _ _ : Option Lib.ShellWords.Reader) = _
    rw [ih]
    simp

/-- `arg` is read by the shell as the word `w`. -/
def ReadAs (arg w : String) : Prop := Spells arg.toList w.toList

theorem ReadAs.append {a b v w : String} (h : ReadAs a v) (h' : ReadAs b w) :
    ReadAs (a ++ b) (v ++ w) := by
  unfold ReadAs
  rw [String.toList_append, String.toList_append]
  exact Spells.append h h'

theorem ReadAs.escape (value : String) : ReadAs (shellEscape value) value := by
  intro words current
  have hopen : Lib.ShellWords.step ⟨words, current.elim .blank .word⟩ '\'' =
      some ⟨words, .single (current.getD [])⟩ := by
    rw [Lib.ShellWords.step_unquoted]
    rfl
  have hchars : (shellEscape value).toList = '\'' ::
      ((value.toList.flatMap fun c => if c = '\'' then "'\\''".toList else [c]) ++ ['\'']) := by
    simp [shellEscape]
  rw [hchars, List.foldlM_cons, hopen]
  change (List.foldlM _ _ _ : Option Lib.ShellWords.Reader) = _
  rw [List.foldlM_append, foldlM_escaped]
  rfl

theorem ReadAs.plain {arg : String} (hne : arg.toList ≠ []) (h : arg.toList.all isPlain) :
    ReadAs arg arg := Spells.plain hne h

theorem isPlain_of_isDigit {c : Char} (h : c.isDigit) : isPlain c := by
  obtain ⟨hlow, hhigh⟩ := Char.isDigit_iff_toNat.mp h
  have hc : c = Char.ofNat c.toNat := (Char.ofNat_toNat c).symm
  generalize c.toNat = n at hlow hhigh hc
  subst hc
  simp only [Char.reduceToNat] at hlow hhigh
  interval_cases n <;> decide

theorem readAs_toString (n : Nat) : ReadAs ("-n" ++ toString n) ("-n" ++ toString n) := by
  apply ReadAs.plain
  · simp
  · have hdigits : (Nat.toDigits 10 n).all isPlain := by
      rw [List.all_eq_true]
      intro c hc
      exact isPlain_of_isDigit (Nat.isDigit_of_mem_toDigits (by decide) (by decide) hc)
    rw [String.toList_append, Nat.toString_eq_repr, Nat.toList_repr, List.all_append, hdigits]
    decide

/-! ## Every argument is read as the word that is meant -/

/-- Arguments that are read as the words on the right, in order. -/
abbrev AllRead (args words : List String) : Prop := List.Forall₂ ReadAs args words

theorem AllRead.append {args args' words words' : List String} (h : AllRead args words)
    (h' : AllRead args' words') : AllRead (args ++ args') (words ++ words') :=
  List.rel_append h h'

theorem allRead_option {value : Option String} {f g : String → List String}
    (h : ∀ v, AllRead (f v) (g v)) : AllRead (value.elim [] f) (value.elim [] g) := by
  cases value with
  | none => exact .nil
  | some v => exact h v

/-- Arguments of the code's own that need no quotes. -/
theorem allRead_plain : ∀ {args : List String},
    (∀ arg ∈ args, arg.toList ≠ [] ∧ arg.toList.all isPlain) → AllRead args args
  | [], _ => .nil
  | arg :: _, h =>
    .cons (ReadAs.plain (h arg List.mem_cons_self).1 (h arg List.mem_cons_self).2)
      (allRead_plain fun other hother => h other (List.mem_cons_of_mem _ hother))

/-- An option of the code's own with a quoted text behind it. -/
theorem allRead_flag {flag : String} (hne : flag.toList ≠ []) (hplain : flag.toList.all isPlain)
    (v : String) : AllRead [flag, shellEscape v] [flag, v] :=
  .cons (ReadAs.plain hne hplain) (.cons (ReadAs.escape v) .nil)

/-- A quoted text behind `--name=`, in the same word. -/
theorem allRead_assign {flag : String} (hne : flag.toList ≠ []) (hplain : flag.toList.all isPlain)
    (v : String) : AllRead [flag ++ shellEscape v] [flag ++ v] :=
  .cons ((ReadAs.plain hne hplain).append (ReadAs.escape v)) .nil

theorem allRead_filterArgs (filters : JournaldQueryFilters) :
    AllRead (buildFilterArgs filters) (filterWords filters) := by
  have hkernel : AllRead (if filters.kernelOnly then ["_TRANSPORT=kernel"] else [])
      (if filters.kernelOnly then ["_TRANSPORT=kernel"] else []) := by
    split
    · exact allRead_plain (by decide)
    · exact .nil
  apply AllRead.append
  · apply AllRead.append
    · apply AllRead.append
      · apply AllRead.append _ hkernel
        apply AllRead.append
        · apply AllRead.append
          · exact allRead_plain (by decide)
          · exact allRead_option (allRead_flag (by decide) (by decide))
        · exact allRead_option (allRead_flag (by decide) (by decide))
      · exact allRead_option (allRead_flag (by decide) (by decide))
    · exact allRead_option (allRead_flag (by decide) (by decide))
  · exact allRead_option (allRead_assign (by decide) (by decide))

theorem allRead_streamArgs (filters : JournaldQueryFilters) :
    AllRead (buildStreamArgs filters) (streamWords filters) :=
  (allRead_filterArgs filters).append (allRead_plain (by decide))

theorem allRead_historyArgs (filters : JournaldQueryFilters) (cursor : Option String) (limit : Nat) :
    AllRead (buildHistoryArgs filters cursor limit) (historyWords filters cursor limit) := by
  apply AllRead.append
  · apply (allRead_filterArgs filters).append
    exact .cons (ReadAs.plain (by decide) (by decide)) (.cons (readAs_toString _) .nil)
  · exact allRead_option (allRead_assign (by decide) (by decide))

theorem toList_intercalate_cons (arg : String) (args : List String) :
    (" ".intercalate (arg :: args)).toList =
      arg.toList ++ (args.map String.toList).flatMap (' ' :: ·) := by
  induction args generalizing arg with
  | nil => simp
  | cons next args ih =>
    rw [String.intercalate_cons_cons, String.toList_append, String.toList_append, ih]
    simp

/-- A command line of arguments that are read as words is read as one simple command. -/
theorem shellWords_buildCommand {args words : List String} (h : AllRead args words) :
    shellWords (buildCommand "journalctl" args) = some ("journalctl" :: words) := by
  have hname : Spells "journalctl".toList "journalctl".toList :=
    Spells.plain (by decide) (by decide)
  have hline : (buildCommand "journalctl" args).toList =
      "journalctl".toList ++ (args.map String.toList).flatMap (' ' :: ·) := by
    cases args with
    | nil => rfl
    | cons arg args =>
      rw [buildCommand, if_neg (by simp), String.toList_append, String.toList_append,
        toList_intercalate_cons]
      simp
  have hwords : List.Forall₂ Spells (args.map String.toList) (words.map String.toList) := by
    rw [List.forall₂_map_left_iff, List.forall₂_map_right_iff]
    exact h
  have hback : (words.map String.toList).map String.ofList = words := by
    rw [List.map_map, show String.ofList ∘ String.toList = id from funext fun s => by simp]
    exact List.map_id words
  unfold shellWords
  rw [hline, Lib.ShellWords.split_words hname hwords (by decide), Option.map_some, List.map_cons, hback]
  simp

/-! ## What a query runs -/

/-- Every text of the user is one of the words, or the end of one. -/
theorem userString_word {filters : JournaldQueryFilters} {v : String} (h : v ∈ userStrings filters) :
    ∃ w ∈ filterWords filters, v.toList <:+ w.toList := by
  obtain ⟨field, hfield, hv⟩ := List.mem_filterMap.mp h
  simp only [List.mem_cons, List.not_mem_nil, or_false] at hfield
  obtain rfl | rfl | rfl | rfl | rfl := hfield
  · exact ⟨v, by simp [filterWords, hv], List.suffix_rfl⟩
  · exact ⟨v, by simp [filterWords, hv], List.suffix_rfl⟩
  · exact ⟨v, by simp [filterWords, hv], List.suffix_rfl⟩
  · exact ⟨v, by simp [filterWords, hv], List.suffix_rfl⟩
  · refine ⟨"--grep=" ++ v, by simp [filterWords, hv], ?_⟩
    rw [String.toList_append]
    exact List.suffix_append _ _

/-- A given cursor ends the last word. -/
theorem cursor_word {cursor : Option String} {v : String} (h : nonEmpty cursor = some v)
    (filters : JournaldQueryFilters) (limit : Nat) :
    ∃ w ∈ historyWords filters cursor limit, v.toList <:+ w.toList := by
  refine ⟨"--cursor=" ++ v, by simp [historyWords, h], ?_⟩
  rw [String.toList_append]
  exact List.suffix_append _ _

/-- The remote shell runs `journalctl` with the words that are meant, and nothing else. -/
theorem shellWords_journalctl (filters : JournaldQueryFilters) (cursor : Option String)
    (limit : Nat) :
    shellWords (buildCommand "journalctl" (buildHistoryArgs filters cursor limit)) =
        some ("journalctl" :: historyWords filters cursor limit) ∧
      shellWords (buildCommand "journalctl" (buildStreamArgs filters)) =
        some ("journalctl" :: streamWords filters) ∧
      (∀ v ∈ userStrings filters, ∃ w ∈ filterWords filters, v.toList <:+ w.toList) ∧
      ∀ v, nonEmpty cursor = some v →
        ∃ w ∈ historyWords filters cursor limit, v.toList <:+ w.toList :=
  ⟨shellWords_buildCommand (allRead_historyArgs filters cursor limit),
    shellWords_buildCommand (allRead_streamArgs filters),
    fun _ h => userString_word h,
    fun _ h => cursor_word h filters limit⟩

end TauTerm.Ssh
