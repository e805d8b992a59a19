import Mathlib
import TauTerm.Lib.JsString

/-!
# UTF-16

What the code units of a string stand for: characters, and surrogates that are alone.
-/

namespace Lib.Js

def isHigh (u : UInt16) : Bool := 0xD800 ≤ u.toNat && u.toNat ≤ 0xDBFF

def isLow (u : UInt16) : Bool := 0xDC00 ≤ u.toNat && u.toNat ≤ 0xDFFF

def utf16Char (c : Char) : JsString :=
  if c.toNat < 0x10000 then [UInt16.ofNat c.toNat]
  else
    [UInt16.ofNat (0xD800 + (c.toNat - 0x10000) / 0x400), UInt16.ofNat (0xDC00 + (c.toNat - 0x10000) % 0x400)]

def utf16 (chars : List Char) : JsString := chars.flatMap utf16Char

theorem utf16_cons (c : Char) (chars : List Char) : utf16 (c :: chars) = utf16Char c ++ utf16 chars := rfl

/-- The characters of a string; `none` for a surrogate without its pair. -/
def points : JsString → List (Option Char)
  | u :: v :: rest =>
    if isHigh u && isLow v then
      some (Char.ofNat (0x10000 + (u.toNat - 0xD800) * 0x400 + (v.toNat - 0xDC00))) :: points rest
    else (if isHigh u || isLow u then none else some (Char.ofNat u.toNat)) :: points (v :: rest)
  | [u] => [if isHigh u || isLow u then none else some (Char.ofNat u.toNat)]
  | [] => []

/-- `isWellFormed()` -/
def IsWellFormed (s : JsString) : Prop := ∀ point ∈ points s, point ≠ none

instance (s : JsString) : Decidable (IsWellFormed s) := by
  unfold IsWellFormed
  infer_instance

/-- The characters, with a replacement for every surrogate that is alone. -/
def toUsv (s : JsString) : List Char := (points s).map fun point => point.getD (Char.ofNat 0xFFFD)

theorem toNat_unit {n : Nat} (h : n < 0x10000) : (UInt16.ofNat n).toNat = n := by
  rw [UInt16.toNat_ofNat']
  exact Nat.mod_eq_of_lt h

theorem toNat_char {n : Nat} (h : n.isValidChar) : (Char.ofNat n).toNat = n := by
  rw [Char.ofNat, dif_pos h]
  rfl

theorem points_cons {u : UInt16} (hhigh : isHigh u = false) (hlow : isLow u = false) (s : JsString) :
    points (u :: s) = some (Char.ofNat u.toNat) :: points s := by
  cases s with
  | nil => simp [points, hhigh, hlow]
  | cons v s => simp [points, hhigh, hlow]

theorem points_utf16Char (c : Char) (s : JsString) : points (utf16Char c ++ s) = some c :: points s := by
  have hc : c.toNat < 0xD800 ∨ (0xDFFF < c.toNat ∧ c.toNat < 0x110000) := c.valid
  have hof : Char.ofNat c.toNat = c := Char.ofNat_toNat c
  unfold utf16Char
  generalize hv : c.toNat = v at hc hof
  split_ifs with hbmp
  · have hu := toNat_unit hbmp
    have hhigh : isHigh (UInt16.ofNat v) = false := by
      rw [isHigh, hu, Bool.and_eq_false_iff, decide_eq_false_iff_not, decide_eq_false_iff_not]
      omega
    have hlow : isLow (UInt16.ofNat v) = false := by
      rw [isLow, hu, Bool.and_eq_false_iff, decide_eq_false_iff_not, decide_eq_false_iff_not]
      omega
    rw [List.singleton_append, points_cons hhigh hlow, hu, hof]
  · have hu := @toNat_unit (0xD800 + (v - 0x10000) / 0x400) (by omega)
    have hl := @toNat_unit (0xDC00 + (v - 0x10000) % 0x400) (by omega)
    have hhigh : isHigh (UInt16.ofNat (0xD800 + (v - 0x10000) / 0x400)) = true := by
      rw [isHigh, hu, Bool.and_eq_true, decide_eq_true_iff, decide_eq_true_iff]
      omega
    have hlow : isLow (UInt16.ofNat (0xDC00 + (v - 0x10000) % 0x400)) = true := by
      rw [isLow, hl, Bool.and_eq_true, decide_eq_true_iff, decide_eq_true_iff]
      omega
    have hback : 0x10000 + (0xD800 + (v - 0x10000) / 0x400 - 0xD800) * 0x400 +
        (0xDC00 + (v - 0x10000) % 0x400 - 0xDC00) = v := by omega
    rw [List.cons_append, List.singleton_append, points, hhigh, hlow, Bool.and_self, if_pos rfl, hu, hl,
      hback, hof]

theorem points_utf16 (chars : List Char) : points (utf16 chars) = chars.map some := by
  induction chars with
  | nil => rfl
  | cons c chars ih =>
    rw [utf16_cons, points_utf16Char, ih]
    rfl

theorem toUsv_utf16 (chars : List Char) : toUsv (utf16 chars) = chars := by
  rw [toUsv, points_utf16, List.map_map]
  exact List.map_id'' (fun _ => rfl) chars

theorem utf16_injective : Function.Injective utf16 := Function.LeftInverse.injective toUsv_utf16

theorem isWellFormed_utf16 (chars : List Char) : IsWellFormed (utf16 chars) := by
  intro point hpoint
  rw [points_utf16] at hpoint
  obtain ⟨c, -, rfl⟩ := List.mem_map.mp hpoint
  exact Option.some_ne_none c

theorem utf16Char_pair {u v : UInt16} (hhigh : isHigh u = true) (hlow : isLow v = true) :
    utf16Char (Char.ofNat (0x10000 + (u.toNat - 0xD800) * 0x400 + (v.toNat - 0xDC00))) = [u, v] := by
  rw [isHigh, Bool.and_eq_true, decide_eq_true_iff, decide_eq_true_iff] at hhigh
  rw [isLow, Bool.and_eq_true, decide_eq_true_iff, decide_eq_true_iff] at hlow
  have hvalid : (0x10000 + (u.toNat - 0xD800) * 0x400 + (v.toNat - 0xDC00)).isValidChar := by
    right
    omega
  have hnat : (Char.ofNat (0x10000 + (u.toNat - 0xD800) * 0x400 + (v.toNat - 0xDC00))).toNat =
      0x10000 + (u.toNat - 0xD800) * 0x400 + (v.toNat - 0xDC00) := toNat_char hvalid
  rw [utf16Char, hnat, if_neg (by omega)]
  have hu : 0xD800 + (0x10000 + (u.toNat - 0xD800) * 0x400 + (v.toNat - 0xDC00) - 0x10000) / 0x400 =
      u.toNat := by omega
  have hv : 0xDC00 + (0x10000 + (u.toNat - 0xD800) * 0x400 + (v.toNat - 0xDC00) - 0x10000) % 0x400 =
      v.toNat := by omega
  rw [hu, hv, UInt16.ofNat_toNat, UInt16.ofNat_toNat]

theorem utf16Char_unit {u : UInt16} (h : (isHigh u || isLow u) = false) :
    utf16Char (Char.ofNat u.toNat) = [u] := by
  have hlt := u.toNat_lt
  rw [isHigh, isLow, Bool.or_eq_false_iff, Bool.and_eq_false_iff, Bool.and_eq_false_iff,
    decide_eq_false_iff_not, decide_eq_false_iff_not, decide_eq_false_iff_not, decide_eq_false_iff_not] at h
  have hvalid : u.toNat.isValidChar := by
    have : u.toNat < 0xD800 ∨ (0xDFFF < u.toNat ∧ u.toNat < 0x110000) := by omega
    exact this
  have hnat : (Char.ofNat u.toNat).toNat = u.toNat := toNat_char hvalid
  rw [utf16Char, hnat, if_pos (by omega), UInt16.ofNat_toNat]

/-- A string is well formed if it is what some characters are written as. -/
theorem isWellFormed_iff {s : JsString} : IsWellFormed s ↔ ∃ chars, s = utf16 chars := by
  refine ⟨fun h => ⟨toUsv s, ?_⟩, fun ⟨chars, hs⟩ => hs ▸ isWellFormed_utf16 chars⟩
  induction s using points.induct with
  | case1 u v rest hpair ih =>
    rw [IsWellFormed, points, if_pos hpair] at h
    rw [Bool.and_eq_true] at hpair
    have hrest := ih fun point hpoint => h point (List.mem_cons_of_mem _ hpoint)
    rw [toUsv, points, hpair.1, hpair.2, Bool.and_self, if_pos rfl, List.map_cons, utf16_cons, ← toUsv,
      ← hrest, Option.getD_some, utf16Char_pair hpair.1 hpair.2, List.cons_append, List.singleton_append]
  | case2 u v rest hpair ih =>
    rw [IsWellFormed, points, if_neg hpair] at h
    have hunit : (isHigh u || isLow u) = false := by
      by_contra hne
      rw [Bool.not_eq_false] at hne
      exact h none (by rw [hne, if_pos rfl]; exact List.mem_cons_self) rfl
    have hrest := ih fun point hpoint => h point (List.mem_cons_of_mem _ hpoint)
    rw [toUsv, points, if_neg hpair, hunit, if_neg Bool.false_ne_true, List.map_cons, utf16_cons, ← toUsv,
      ← hrest, Option.getD_some, utf16Char_unit hunit, List.singleton_append]
  | case3 u =>
    have hunit : (isHigh u || isLow u) = false := by
      by_contra hne
      rw [Bool.not_eq_false] at hne
      exact h none (by rw [points, hne, if_pos rfl]; exact List.mem_cons_self) rfl
    rw [toUsv, points, hunit, if_neg Bool.false_ne_true, List.map_cons, utf16_cons, Option.getD_some,
      utf16Char_unit hunit]
    rfl
  | case4 => rfl

end Lib.Js
