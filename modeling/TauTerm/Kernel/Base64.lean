import Mathlib
import TauTerm.Lib.Base64

/-!
# Base64

`base64_encode` of `kernel/data_batcher.rs`, and the decoder of the standard, which takes neither
missing padding nor stray bits.
-/

namespace TauTerm.Kernel

open Lib

/-! ## The encoder -/

def B64_ALPHABET : List Char :=
  "ABCDEFGHIJKLMNOPQRSTUVWXYZabcdefghijklmnopqrstuvwxyz0123456789+/".toList

/-- The character of the last six bits; the index is always in the table. -/
def b64Char (n : UInt32) : Char := B64_ALPHABET.getD (n &&& 0x3F).toNat '='

def base64Encode : List UInt8 → List Char
  | b0 :: b1 :: b2 :: rest =>
    let n := (b0.toUInt32 <<< 16) ||| (b1.toUInt32 <<< 8) ||| b2.toUInt32
    b64Char (n >>> 18) :: b64Char (n >>> 12) :: b64Char (n >>> 6) :: b64Char n :: base64Encode rest
  | [b0, b1] =>
    let n := (b0.toUInt32 <<< 16) ||| (b1.toUInt32 <<< 8)
    [b64Char (n >>> 18), b64Char (n >>> 12), b64Char (n >>> 6), '=']
  | [b0] =>
    let n := b0.toUInt32 <<< 16
    [b64Char (n >>> 18), b64Char (n >>> 12), '=', '=']
  | [] => []

/-! ## The decoder -/

/-- The six bits of a character. -/
def sextet (c : Char) : Option Nat := sextetOf B64_ALPHABET c

def decodeOne (a b : Char) : Option (List UInt8) := do
  let x ← sextet a
  let y ← sextet b
  if y % 16 = 0 then some (octets [x, y]) else none

def decodeTwo (a b c : Char) : Option (List UInt8) := do
  let x ← sextet a
  let y ← sextet b
  let z ← sextet c
  if z % 4 = 0 then some (octets [x, y, z]) else none

def decodeThree (a b c d : Char) : Option (List UInt8) := do
  let x ← sextet a
  let y ← sextet b
  let z ← sextet c
  let w ← sextet d
  some (octets [x, y, z, w])

/-- Padding stands only in the last group. -/
def base64Decode : List Char → Option (List UInt8)
  | [] => some []
  | a :: b :: c :: d :: rest =>
    if d = '=' then
      if rest = [] then if c = '=' then decodeOne a b else decodeTwo a b c
      else none
    else do
      let group ← decodeThree a b c d
      let bytes ← base64Decode rest
      some (group ++ bytes)
  | _ => none

/-! ## One group -/

theorem alphabet_ranges : B64_ALPHABET =
    (List.range 26).map (fun i => Char.ofNat (65 + i)) ++
      (List.range 26).map (fun i => Char.ofNat (97 + i)) ++
      (List.range 10).map (fun i => Char.ofNat (48 + i)) ++ ['+', '/'] :=
  String.toList_ofList.trans rfl

theorem sextet_alphabet {i : Nat} (hi : i < 64) : sextet (B64_ALPHABET.getD i '=') = some i := by
  have hdistinct : B64_ALPHABET.Nodup ∧ B64_ALPHABET.length = 64 := by
    rw [alphabet_ranges]
    decide +kernel
  exact sextetOf_getD hdistinct.1 (hdistinct.2 ▸ hi) _

theorem sextet_b64Char (n : UInt32) : sextet (b64Char n) = some (n.toNat % 64) := by
  have hindex : (n &&& 0x3F).toNat = n.toNat % 64 := by
    rw [UInt32.toNat_and]
    exact Nat.and_two_pow_sub_one_eq_mod n.toNat 6
  unfold b64Char
  rw [hindex]
  exact sextet_alphabet (Nat.mod_lt _ (by omega))

theorem b64Char_ne (n : UInt32) : b64Char n ≠ '=' := by
  intro h
  have hsextet := sextet_b64Char n
  rw [h] at hsextet
  cases hsextet

section Words

variable (b0 b1 b2 : UInt8)

theorem toNat_word1 : (b0.toUInt32 <<< 16).toNat = b0.toNat * 65536 := by
  have := b0.toNat_lt
  simp [Nat.shiftLeft_eq]
  omega

theorem toNat_word2 :
    ((b0.toUInt32 <<< 16) ||| (b1.toUInt32 <<< 8)).toNat = b0.toNat * 65536 + b1.toNat * 256 := by
  have := b1.toNat_lt
  have hb1 : (b1.toUInt32 <<< 8).toNat = b1.toNat * 256 := by
    simp [Nat.shiftLeft_eq]
    omega
  have hlow : b1.toNat * 256 < 2 ^ 16 := by omega
  rw [UInt32.toNat_or, toNat_word1, hb1, Nat.mul_comm b0.toNat, ← Nat.two_pow_add_eq_or_of_lt hlow]

theorem toNat_word3 :
    ((b0.toUInt32 <<< 16) ||| (b1.toUInt32 <<< 8) ||| b2.toUInt32).toNat =
      b0.toNat * 65536 + b1.toNat * 256 + b2.toNat := by
  have := b2.toNat_lt
  have hlow : b2.toNat < 2 ^ 8 := by omega
  have hhigh : b0.toNat * 65536 + b1.toNat * 256 = 2 ^ 8 * (b0.toNat * 256 + b1.toNat) := by omega
  rw [UInt32.toNat_or, toNat_word2, UInt8.toNat_toUInt32, hhigh, ← Nat.two_pow_add_eq_or_of_lt hlow]

end Words

/-- The six bits that a shift leaves at the end. -/
theorem sextet_shiftRight (n : UInt32) {k : Nat} (hk : k < 32) :
    sextet (b64Char (n >>> UInt32.ofNat k)) = some (n.toNat / 2 ^ k % 64) := by
  have hshift : (UInt32.ofNat k).toNat = k := UInt32.toNat_ofNat_of_lt (hk.trans (by decide))
  rw [sextet_b64Char, UInt32.toNat_shiftRight, hshift, Nat.mod_eq_of_lt hk,
    Nat.shiftRight_eq_div_pow]

section Groups

variable {a b c d : Char} {x y z w : Nat} {b0 b1 b2 : UInt8} {n : UInt32}

theorem decodeThree_eq (hx : sextet a = some x) (hy : sextet b = some y) (hz : sextet c = some z)
    (hw : sextet d = some w) : decodeThree a b c d = some (octets [x, y, z, w]) := by
  rw [decodeThree, hx, hy, hz, hw]
  rfl

theorem decodeTwo_eq (hx : sextet a = some x) (hy : sextet b = some y) (hz : sextet c = some z)
    (hpad : z % 4 = 0) : decodeTwo a b c = some (octets [x, y, z]) := by
  simp [decodeTwo, hx, hy, hz, hpad]

theorem decodeOne_eq (hx : sextet a = some x) (hy : sextet b = some y) (hpad : y % 16 = 0) :
    decodeOne a b = some (octets [x, y]) := by
  simp [decodeOne, hx, hy, hpad]

theorem decodeThree_b64Char (hn : n.toNat = b0.toNat * 65536 + b1.toNat * 256 + b2.toNat) :
    decodeThree (b64Char (n >>> 18)) (b64Char (n >>> 12)) (b64Char (n >>> 6)) (b64Char n) =
      some [b0, b1, b2] := by
  have h0 := b0.toNat_lt
  have h1 := b1.toNat_lt
  have h2 := b2.toNat_lt
  have hgroups : [n.toNat / 2 ^ 18 % 64, n.toNat / 2 ^ 12 % 64, n.toNat / 2 ^ 6 % 64,
      n.toNat % 64] = sextets [b0, b1, b2] := by
    simp only [sextets, List.cons.injEq, and_true]
    exact ⟨by omega, by omega, by omega, by omega⟩
  rw [← octets_sextets [b0, b1, b2], ← hgroups]
  exact decodeThree_eq (sextet_shiftRight n (k := 18) (by decide))
    (sextet_shiftRight n (k := 12) (by decide)) (sextet_shiftRight n (k := 6) (by decide))
    (sextet_b64Char n)

theorem decodeTwo_b64Char (hn : n.toNat = b0.toNat * 65536 + b1.toNat * 256) :
    decodeTwo (b64Char (n >>> 18)) (b64Char (n >>> 12)) (b64Char (n >>> 6)) = some [b0, b1] := by
  have h0 := b0.toNat_lt
  have h1 := b1.toNat_lt
  have hgroups : [n.toNat / 2 ^ 18 % 64, n.toNat / 2 ^ 12 % 64, n.toNat / 2 ^ 6 % 64] =
      sextets [b0, b1] := by
    simp only [sextets, List.cons.injEq, and_true]
    exact ⟨by omega, by omega, by omega⟩
  rw [← octets_sextets [b0, b1], ← hgroups]
  exact decodeTwo_eq (sextet_shiftRight n (k := 18) (by decide))
    (sextet_shiftRight n (k := 12) (by decide)) (sextet_shiftRight n (k := 6) (by decide))
    (by omega)

theorem decodeOne_b64Char (hn : n.toNat = b0.toNat * 65536) :
    decodeOne (b64Char (n >>> 18)) (b64Char (n >>> 12)) = some [b0] := by
  have h0 := b0.toNat_lt
  have hgroups : [n.toNat / 2 ^ 18 % 64, n.toNat / 2 ^ 12 % 64] = sextets [b0] := by
    simp only [sextets, List.cons.injEq, and_true]
    exact ⟨by omega, by omega⟩
  rw [← octets_sextets [b0], ← hgroups]
  exact decodeOne_eq (sextet_shiftRight n (k := 18) (by decide))
    (sextet_shiftRight n (k := 12) (by decide)) (by omega)

end Groups

/-! ## All of them -/

theorem base64Decode_group {a b c d : Char} {bytes : List UInt8} {rest : List Char}
    (hd : d ≠ '=') (h : decodeThree a b c d = some bytes) :
    base64Decode (a :: b :: c :: d :: rest) = (base64Decode rest).map (bytes ++ ·) := by
  rw [base64Decode, if_neg hd, h]
  cases base64Decode rest <;> rfl

/-- The decoder undoes the encoder. -/
theorem base64Decode_encode (bytes : List UInt8) : base64Decode (base64Encode bytes) = some bytes := by
  induction bytes using base64Encode.induct with
  | case1 b0 b1 b2 rest ih =>
    unfold base64Encode
    rw [base64Decode_group (b64Char_ne _) (decodeThree_b64Char (toNat_word3 b0 b1 b2)), ih]
    rfl
  | case2 b0 b1 =>
    show base64Decode [_, _, _, '='] = _
    unfold base64Decode
    rw [if_pos rfl, if_pos rfl, if_neg (b64Char_ne _)]
    exact decodeTwo_b64Char (toNat_word2 b0 b1)
  | case3 b0 =>
    show base64Decode [_, _, '=', '='] = _
    unfold base64Decode
    rw [if_pos rfl, if_pos rfl, if_pos rfl]
    exact decodeOne_b64Char (toNat_word1 b0)
  | case4 => rfl

theorem mapM_base64Decode (payloads : List (List UInt8)) :
    (payloads.map base64Encode).mapM base64Decode = some payloads := by
  induction payloads with
  | nil => rfl
  | cons bytes payloads ih =>
    rw [List.map_cons, List.mapM_cons, base64Decode_encode, ih]
    rfl

end TauTerm.Kernel
