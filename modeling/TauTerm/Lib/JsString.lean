import Mathlib

/-!
# Strings of JavaScript

A string is a list of code units of UTF-16, in which surrogates need not come in pairs.
-/

namespace Lib

abbrev JsString := List UInt16

namespace Js

/-- A character that takes one code unit. -/
def unit (c : Char) : UInt16 := UInt16.ofNat c.toNat

def text (s : String) : JsString := s.toList.map unit

/-- `\s`, which is also what `trim` takes away. -/
def isSpace (u : UInt16) : Bool :=
  [0x09, 0x0A, 0x0B, 0x0C, 0x0D, 0x20, 0xA0, 0x1680, 0x2028, 0x2029, 0x202F, 0x205F, 0x3000,
    0xFEFF].contains u || (0x2000 ≤ u && u ≤ 0x200A)

def trim (s : JsString) : JsString := (s.dropWhile isSpace).rdropWhile isSpace

/-- What `trim` takes away is space. -/
theorem trim_split (s : JsString) : ∃ lead tail, s = lead ++ trim s ++ tail ∧
    (∀ u ∈ lead, isSpace u = true) ∧ ∀ u ∈ tail, isSpace u = true := by
  refine ⟨s.takeWhile isSpace, (s.dropWhile isSpace).rtakeWhile isSpace, ?_, fun u hu => ?_, fun u hu => ?_⟩
  · rw [trim, List.append_assoc, List.rdropWhile, List.rtakeWhile, ← List.reverse_append,
      List.takeWhile_append_dropWhile, List.reverse_reverse, List.takeWhile_append_dropWhile]
  · exact List.mem_takeWhile_imp hu
  · rw [List.rtakeWhile, List.mem_reverse] at hu
    exact List.mem_takeWhile_imp hu

/-- A text whose ends are no spaces is not trimmed. -/
theorem trim_eq_self {s : JsString} (hfirst : ∀ u, s.head? = some u → isSpace u = false)
    (hlast : ∀ u, s.getLast? = some u → isSpace u = false) : trim s = s := by
  have hdrop : s.dropWhile isSpace = s := by
    cases s with
    | nil => rfl
    | cons u s => rw [List.dropWhile_cons_of_neg (by rw [hfirst u rfl]; exact Bool.false_ne_true)]
  rw [trim, hdrop]
  cases hs : s.getLast? with
  | none =>
    rw [List.getLast?_eq_none_iff.mp hs]
    rfl
  | some u =>
    refine List.rdropWhile_eq_self_iff.mpr fun hne => ?_
    rw [List.getLast?_eq_some_getLast hne, Option.some.injEq] at hs
    rw [hs, hlast u (by rw [List.getLast?_eq_some_getLast hne, hs])]
    exact Bool.false_ne_true

theorem trim_eq_nil_iff {s : JsString} : trim s = [] ↔ ∀ u ∈ s, isSpace u = true := by
  constructor
  · intro h u hu
    obtain ⟨lead, tail, heq, hlead, htail⟩ := trim_split s
    rw [heq, h, List.append_nil] at hu
    exact (List.mem_append.mp hu).elim (hlead u) (htail u)
  · intro h
    have hdrop : s.dropWhile isSpace = [] := List.dropWhile_eq_nil_iff.mpr h
    rw [trim, hdrop]
    rfl

theorem trim_of_forall {s : JsString} (hs : ∀ u ∈ s, isSpace u = false) : trim s = s :=
  trim_eq_self (fun u hu => hs u (List.mem_of_head? hu)) fun u hu => hs u (List.mem_of_getLast? hu)

def indexOf (u : UInt16) (s : JsString) : Option Nat := s.idxOf? u

def lastIndexOf (u : UInt16) (s : JsString) : Option Nat :=
  (indexOf u s.reverse).map (s.length - 1 - ·)

section Index

variable {u : UInt16} {s : JsString} {i : Nat}

theorem indexOf_eq_none_iff : indexOf u s = none ↔ u ∉ s := List.idxOf?_eq_none_iff

theorem indexOf_eq_some_iff : indexOf u s = some i ↔
    ∃ before rest, s = before ++ u :: rest ∧ u ∉ before ∧ before.length = i := by
  induction s generalizing i with
  | nil =>
    refine ⟨fun h => (by cases h), ?_⟩
    rintro ⟨before, rest, h, -⟩
    exact absurd h (by simp)
  | cons v s ih =>
    rw [indexOf, List.idxOf?_cons]
    by_cases hv : v = u
    · subst hv
      rw [if_pos (beq_self_eq_true v)]
      constructor
      · rintro ⟨rfl⟩
        exact ⟨[], s, rfl, List.not_mem_nil, rfl⟩
      · rintro ⟨_ | ⟨w, before⟩, rest, heq, hnot, rfl⟩
        · rfl
        · obtain ⟨rfl, -⟩ := List.cons.inj heq
          exact absurd List.mem_cons_self hnot
    · rw [if_neg (by simpa using hv), Option.map_eq_some_iff]
      constructor
      · rintro ⟨j, hj, rfl⟩
        obtain ⟨before, rest, rfl, hnot, rfl⟩ := ih.mp hj
        refine ⟨v :: before, rest, rfl, fun hmem => ?_, rfl⟩
        obtain rfl | hmem := List.mem_cons.mp hmem
        · exact hv rfl
        · exact hnot hmem
      · rintro ⟨_ | ⟨w, before⟩, rest, heq, hnot, rfl⟩
        · exact absurd (List.cons.inj heq).1 hv
        · obtain ⟨rfl, rfl⟩ := List.cons.inj heq
          exact ⟨before.length, ih.mpr ⟨before, rest, rfl, fun hmem => hnot (List.mem_cons_of_mem _ hmem), rfl⟩,
            rfl⟩

theorem lastIndexOf_eq_none_iff : lastIndexOf u s = none ↔ u ∉ s := by
  rw [lastIndexOf, Option.map_eq_none_iff, indexOf_eq_none_iff, List.mem_reverse]

theorem lastIndexOf_eq_some_iff : lastIndexOf u s = some i ↔
    ∃ before rest, s = before ++ u :: rest ∧ u ∉ rest ∧ before.length = i := by
  rw [lastIndexOf, Option.map_eq_some_iff]
  constructor
  · rintro ⟨j, hj, rfl⟩
    obtain ⟨before, rest, heq, hnot, rfl⟩ := indexOf_eq_some_iff.mp hj
    have hs : s = rest.reverse ++ u :: before.reverse := by
      rw [← List.reverse_reverse s, heq, List.reverse_append, List.reverse_cons, List.append_assoc]
      rfl
    refine ⟨rest.reverse, before.reverse, hs, fun hmem => hnot (List.mem_reverse.mp hmem), ?_⟩
    rw [hs, List.length_append, List.length_cons, List.length_reverse, List.length_reverse]
    omega
  · rintro ⟨before, rest, rfl, hnot, rfl⟩
    refine ⟨rest.length, indexOf_eq_some_iff.mpr ⟨rest.reverse, before.reverse, ?_,
      fun hmem => hnot (List.mem_reverse.mp hmem), List.length_reverse⟩, ?_⟩
    · rw [List.reverse_append, List.reverse_cons, List.append_assoc]
      rfl
    · rw [List.length_append, List.length_cons]
      omega

end Index

/-! ## Hexadecimal digits -/

def hexDigit (u : UInt16) : Option Nat :=
  let n := u.toNat
  if 0x30 ≤ n ∧ n ≤ 0x39 then some (n - 0x30)
  else if 0x41 ≤ n ∧ n ≤ 0x46 then some (n - 0x37)
  else if 0x61 ≤ n ∧ n ≤ 0x66 then some (n - 0x57)
  else none

/-- `[0-9a-fA-F]` -/
def isHex (u : UInt16) : Bool := (hexDigit u).isSome

/-- A digit of `toString(16).toUpperCase()`. -/
def upperHex (n : Nat) : UInt16 := UInt16.ofNat (if n < 10 then 0x30 + n else 0x37 + n)

theorem hexDigit_upperHex {n : Nat} (hn : n < 16) : hexDigit (upperHex n) = some n := by
  have h : ∀ n : Fin 16, hexDigit (upperHex n) = some n.val := by decide
  exact h ⟨n, hn⟩

end Js

end Lib
