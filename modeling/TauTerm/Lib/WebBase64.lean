import Mathlib
import TauTerm.Lib.Base64
import TauTerm.Lib.JsString

/-!
# `btoa` and `atob`

A binary string is a list of bytes here. The decoder is forgiving: it skips blanks, does without padding, and
drops the bits that are too many.
-/

namespace Lib.Js

def base64Alphabet : JsString := text "ABCDEFGHIJKLMNOPQRSTUVWXYZabcdefghijklmnopqrstuvwxyz0123456789+/"

def sextet (u : UInt16) : Option Nat := sextetOf base64Alphabet u

def sextetUnit (n : Nat) : UInt16 := base64Alphabet.getD n 0

def btoa (bytes : List UInt8) : JsString :=
  (sextets bytes).map sextetUnit ++ List.replicate ((3 - bytes.length % 3) % 3) (unit '=')

/-- Two signs of padding at most, where the length is a multiple of four. -/
def withoutPadding (s : JsString) : JsString :=
  if s.length % 4 ≠ 0 then s
  else
    match s.reverse with
    | u :: v :: rest =>
      if u = unit '=' then if v = unit '=' then rest.reverse else (v :: rest).reverse else s
    | _ => s

/-- The blanks that `atob` skips. -/
def isAsciiBlank (u : UInt16) : Bool := [0x09, 0x0A, 0x0C, 0x0D, 0x20].contains u

/-- `none` where it throws. -/
def atob (s : JsString) : Option (List UInt8) :=
  let data := withoutPadding (s.filter fun u => !isAsciiBlank u)
  if data.length % 4 = 1 then none else (data.mapM sextet).map octets

/-! ## The decoder undoes the encoder -/

/-- The alphabet by its ranges. -/
def alphabetRanges : JsString :=
  (List.range 26).map (fun i => UInt16.ofNat (65 + i)) ++
    (List.range 26).map (fun i => UInt16.ofNat (97 + i)) ++
    (List.range 10).map (fun i => UInt16.ofNat (48 + i)) ++ [unit '+', unit '/']

theorem base64Alphabet_eq : base64Alphabet = alphabetRanges :=
  (congrArg (List.map unit) String.toList_ofList).trans (by decide)

/-- Every character stands once, and none is a blank or padding. -/
theorem alphabetRanges_spec : alphabetRanges.Nodup ∧ alphabetRanges.length = 64 ∧
    (alphabetRanges.all fun u => u != unit '=' && !isSpace u && !isAsciiBlank u) = true := by
  decide +kernel

theorem sextetUnit_spec {n : Nat} (hn : n < 64) : sextet (sextetUnit n) = some n ∧
    sextetUnit n ≠ unit '=' ∧ isSpace (sextetUnit n) = false ∧ isAsciiBlank (sextetUnit n) = false := by
  obtain ⟨hdistinct, hlength, hplain⟩ := alphabetRanges_spec
  rw [← base64Alphabet_eq] at hdistinct hlength hplain
  have hlt : n < base64Alphabet.length := hlength ▸ hn
  have hat := List.all_eq_true.mp hplain _ (List.getElem_mem hlt)
  simp only [Bool.and_eq_true, bne_iff_ne, Bool.not_eq_true'] at hat
  refine ⟨sextetOf_getD hdistinct hlt 0, ?_⟩
  rw [sextetUnit, List.getD_eq_getElem _ _ hlt]
  exact ⟨hat.1.1, hat.1.2, hat.2⟩

/-- What `btoa` writes has no blanks. -/
theorem btoa_mem {bytes : List UInt8} {u : UInt16} (hu : u ∈ btoa bytes) :
    isSpace u = false ∧ isAsciiBlank u = false := by
  obtain hu | hu := List.mem_append.mp hu
  · obtain ⟨n, hn, rfl⟩ := List.mem_map.mp hu
    exact (sextetUnit_spec (sextets_lt bytes n hn)).2.2
  · obtain rfl := List.eq_of_mem_replicate hu
    decide

theorem withoutPadding_append {s : JsString} {k : Nat} (hs : ∀ u ∈ s, u ≠ unit '=') (hk : k ≤ 2)
    (hlength : (s.length + k) % 4 = 0) : withoutPadding (s ++ List.replicate k (unit '=')) = s := by
  have hmul : ¬ (s ++ List.replicate k (unit '=')).length % 4 ≠ 0 := by
    rw [List.length_append, List.length_replicate]
    exact not_not.mpr hlength
  have hlast : ∀ u rest, s.reverse = u :: rest → u ≠ unit '=' := fun u rest h =>
    hs u (List.mem_reverse.mp (h ▸ List.mem_cons_self))
  rw [withoutPadding, if_neg hmul, List.reverse_append, List.reverse_replicate]
  obtain _ | _ | _ | k := k
  · rw [List.replicate_zero, List.nil_append, List.append_nil]
    cases hreverse : s.reverse with
    | nil => rfl
    | cons u rest =>
      cases rest with
      | nil => rfl
      | cons v rest => exact if_neg (hlast u _ hreverse)
  · cases hreverse : s.reverse with
    | nil =>
      rw [List.reverse_eq_nil_iff.mp hreverse] at hlength
      cases hlength
    | cons u rest =>
      change (if unit '=' = unit '=' then if u = unit '=' then rest.reverse else (u :: rest).reverse else _) = s
      rw [if_pos rfl, if_neg (hlast u _ hreverse), ← hreverse, List.reverse_reverse]
  · change (if unit '=' = unit '=' then if unit '=' = unit '=' then s.reverse.reverse else _ else _) = s
    rw [if_pos rfl, if_pos rfl, List.reverse_reverse]
  · omega

theorem mapM_sextet {ns : List Nat} (h : ∀ n ∈ ns, n < 64) : (ns.map sextetUnit).mapM sextet = some ns := by
  induction ns with
  | nil => rfl
  | cons n ns ih =>
    rw [List.map_cons, List.mapM_cons, (sextetUnit_spec (h n List.mem_cons_self)).1,
      ih fun m hm => h m (List.mem_cons_of_mem n hm)]
    rfl

theorem atob_btoa (bytes : List UInt8) : atob (btoa bytes) = some bytes := by
  have hfilter : (btoa bytes).filter (fun u => !isAsciiBlank u) = btoa bytes :=
    List.filter_eq_self.mpr fun u hu => by rw [(btoa_mem hu).2]; rfl
  have hlength := length_sextets bytes
  have hpadding : withoutPadding (btoa bytes) = (sextets bytes).map sextetUnit := by
    refine withoutPadding_append (fun u hu => ?_) (by omega) ?_
    · obtain ⟨n, hn, rfl⟩ := List.mem_map.mp hu
      exact (sextetUnit_spec (sextets_lt bytes n hn)).2.1
    · rw [List.length_map, hlength]
      omega
  have hcount : ¬ ((sextets bytes).map sextetUnit).length % 4 = 1 := by
    rw [List.length_map]
    omega
  rw [atob, hfilter, hpadding, if_neg hcount, mapM_sextet (sextets_lt bytes), Option.map_some, octets_sextets]

end Lib.Js
