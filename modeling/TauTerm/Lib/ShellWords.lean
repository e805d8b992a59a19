import Mathlib

/-!
# Words of a POSIX shell command

The shell reads a command line one character after the other. Only a line that is one simple command
without expansions has words here: an operator, a line feed, a `$`, a backquote or a pattern outside
quotes ends the reading. Blanks separate words, and quotes join their text to the word around them.
-/

namespace Lib.ShellWords

/-- Where the reader stands, with the characters of the word it is in. -/
inductive Mode where
  | blank
  | word (read : List Char)
  | single (read : List Char)
  | double (read : List Char)
  | escape (read : Option (List Char))
  | doubleEscape (read : List Char)
  deriving DecidableEq

structure Reader where
  words : List (List Char)
  mode : Mode
  deriving DecidableEq

/-- Operators, expansions and patterns: they have a meaning of their own outside quotes. -/
def isActive (c : Char) : Bool := c ∈ "|&;<>()$`*?[]{}~!\n".toList

def isBlank (c : Char) : Bool := c = ' ' || c = '\t'

/-- One character outside quotes, with the word it may belong to. -/
def unquoted (words : List (List Char)) (current : Option (List Char)) (c : Char) : Option Reader :=
  if isActive c then none
  else if isBlank c then some ⟨words ++ current.toList, .blank⟩
  else if c = '\'' then some ⟨words, .single (current.getD [])⟩
  else if c = '"' then some ⟨words, .double (current.getD [])⟩
  else if c = '\\' then some ⟨words, .escape current⟩
  else if c = '#' ∧ current = none then none
  else some ⟨words, .word (current.getD [] ++ [c])⟩

/-- One character between double quotes. -/
def doubleQuoted (words : List (List Char)) (w : List Char) (c : Char) : Option Reader :=
  if c = '$' ∨ c = '`' then none
  else if c = '"' then some ⟨words, .word w⟩
  else if c = '\\' then some ⟨words, .doubleEscape w⟩
  else some ⟨words, .double (w ++ [c])⟩

def step (r : Reader) (c : Char) : Option Reader :=
  match r.mode with
  | .blank => unquoted r.words none c
  | .word w => unquoted r.words (some w) c
  | .single w => if c = '\'' then some ⟨r.words, .word w⟩ else some ⟨r.words, .single (w ++ [c])⟩
  | .double w => doubleQuoted r.words w c
  | .escape current =>
    -- a backslash before a line feed joins two lines
    if c = '\n' then some ⟨r.words, current.elim .blank .word⟩
    else some ⟨r.words, .word (current.getD [] ++ [c])⟩
  | .doubleEscape w =>
    if c = '\n' then some ⟨r.words, .double w⟩
    else if c ∈ ['$', '`', '"', '\\'] then some ⟨r.words, .double (w ++ [c])⟩
    else some ⟨r.words, .double (w ++ ['\\', c])⟩

/-- The words when the line ends here. An open quote has none. -/
def Reader.finish (r : Reader) : Option (List (List Char)) :=
  match r.mode with
  | .blank => some r.words
  | .word w => some (r.words ++ [w])
  | _ => none

def reservedWords : List (List Char) :=
  ["case", "do", "done", "elif", "else", "esac", "fi", "for", "if", "in", "then", "until", "while"].map
    String.toList

/-- The first word names the command: it is no assignment and no reserved word. -/
def namesCommand (words : List (List Char)) : Bool :=
  match words with
  | [] => false
  | w :: _ => '=' ∉ w && w ∉ reservedWords

/-- The words of a line that is one simple command. -/
def split (line : List Char) : Option (List (List Char)) :=
  (line.foldlM step ⟨[], .blank⟩).bind fun r => r.finish.filter namesCommand

/-- A character that stands for itself everywhere outside quotes. -/
def isPlain (c : Char) : Bool :=
  !isActive c && !isBlank c && c ∉ ['\'', '"', '\\', '#']

/-- `text` read outside quotes adds `w` to the word it is in, or begins a word with it. -/
def Spells (text w : List Char) : Prop :=
  ∀ (words : List (List Char)) (current : Option (List Char)),
    text.foldlM step ⟨words, current.elim .blank .word⟩ = some ⟨words, .word (current.getD [] ++ w)⟩

variable {words : List (List Char)} {w : List Char} {c : Char}

theorem step_unquoted (words : List (List Char)) (current : Option (List Char)) (c : Char) :
    step ⟨words, current.elim .blank .word⟩ c = unquoted words current c := by
  cases current <;> rfl

theorem unquoted_plain (h : isPlain c) (words : List (List Char)) (current : Option (List Char)) :
    unquoted words current c = some ⟨words, .word (current.getD [] ++ [c])⟩ := by
  simp only [isPlain, Bool.and_eq_true, Bool.not_eq_true', decide_eq_true_eq, List.mem_cons,
    List.not_mem_nil, or_false, not_or] at h
  obtain ⟨⟨hactive, hblank⟩, hsingle, hdouble, hbackslash, hhash⟩ := h
  unfold unquoted
  rw [if_neg (by simp [hactive]), if_neg (by simp [hblank]), if_neg hsingle, if_neg hdouble,
    if_neg hbackslash, if_neg (fun h => hhash h.1)]

namespace Spells

variable {text text' w w' : List Char}

/-- Behind a first piece the reader is inside a word, and the second piece goes on with it. -/
theorem append (h : Spells text w) (h' : Spells text' w') : Spells (text ++ text') (w ++ w') := by
  intro words current
  rw [List.foldlM_append, h words current]
  have hrest := h' words (some (current.getD [] ++ w))
  simpa [List.append_assoc] using hrest

theorem single (h : isPlain c) : Spells [c] [c] := by
  intro words current
  rw [List.foldlM_cons, step_unquoted, unquoted_plain h]
  rfl

theorem plain : ∀ {text : List Char}, text ≠ [] → text.all isPlain → Spells text text
  | [], hne, _ => absurd rfl hne
  | [c], _, h => single (by simpa using h)
  | c :: d :: text, _, h => by
    simp only [List.all_cons, Bool.and_eq_true] at h
    have hrest : Spells (d :: text) (d :: text) :=
      plain (List.cons_ne_nil d text) (by simp only [List.all_cons, Bool.and_eq_true]; exact h.2)
    exact append (single h.1) hrest

end Spells

/-- Two words with a blank between them. -/
theorem foldlM_words {texts : List (List Char)} {ws : List (List Char)}
    (h : List.Forall₂ Spells texts ws) (words : List (List Char)) (current : List Char) :
    (texts.flatMap (' ' :: ·)).foldlM step ⟨words, .word current⟩ =
      some ⟨words ++ (current :: ws).dropLast, .word ((current :: ws).getLast (by simp))⟩ := by
  induction h generalizing words current with
  | nil => simp
  | @cons text w texts ws htext _ ih =>
    have hblank : step ⟨words, .word current⟩ ' ' = some ⟨words ++ [current], .blank⟩ := by
      simp [step, unquoted, isActive, isBlank]
    have hword : text.foldlM step ⟨words ++ [current], .blank⟩ = some ⟨words ++ [current], .word w⟩ := by
      simpa using htext (words ++ [current]) none
    rw [List.flatMap_cons, List.cons_append, List.foldlM_cons, hblank]
    change ((text ++ _).foldlM step ⟨words ++ [current], .blank⟩ : Option Reader) = _
    rw [List.foldlM_append, hword]
    change (List.foldlM step _ _ : Option Reader) = _
    rw [ih]
    simp

/-- Pieces that spell words, with blanks between them, are read as these words. -/
theorem split_words {text name : List Char} {texts ws : List (List Char)} (hname : Spells text name)
    (h : List.Forall₂ Spells texts ws) (hcommand : namesCommand [name]) :
    split (text ++ texts.flatMap (' ' :: ·)) = some (name :: ws) := by
  have hfirst : text.foldlM step ⟨[], .blank⟩ = some ⟨[], .word name⟩ := by
    simpa using hname [] none
  have hrest := foldlM_words h [] name
  have hall : (name :: ws).dropLast ++ [(name :: ws).getLast (by simp)] = name :: ws :=
    List.dropLast_append_getLast (by simp)
  unfold split
  rw [List.foldlM_append, hfirst]
  change Option.bind (List.foldlM step _ _ : Option Reader) _ = _
  rw [hrest]
  simp only [Option.bind_some, Reader.finish, List.nil_append, hall]
  exact Option.filter_eq_some_iff.mpr ⟨rfl, hcommand⟩

end Lib.ShellWords
