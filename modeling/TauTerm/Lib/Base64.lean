import Mathlib

/-!
# Groups of six bits

Bytes as numbers below 64 and back. The number of a character is its place in the alphabet.
-/

namespace Lib

/-- The groups of six bits of some bytes; the last group is filled up with zeros. -/
def sextets : List UInt8 → List Nat
  | a :: b :: c :: rest =>
    a.toNat / 4 :: (a.toNat % 4 * 16 + b.toNat / 16) :: (b.toNat % 16 * 4 + c.toNat / 64) ::
      c.toNat % 64 :: sextets rest
  | [a, b] => [a.toNat / 4, a.toNat % 4 * 16 + b.toNat / 16, b.toNat % 16 * 4]
  | [a] => [a.toNat / 4, a.toNat % 4 * 16]
  | [] => []

def octets : List Nat → List UInt8
  | x :: y :: z :: w :: rest =>
    UInt8.ofNat (x * 4 + y / 16) :: UInt8.ofNat (y % 16 * 16 + z / 4) :: UInt8.ofNat (z % 4 * 64 + w) ::
      octets rest
  | [x, y, z] => [UInt8.ofNat (x * 4 + y / 16), UInt8.ofNat (y % 16 * 16 + z / 4)]
  | [x, y] => [UInt8.ofNat (x * 4 + y / 16)]
  | _ => []

/-- The number of a character in the alphabet. -/
def sextetOf {α : Type} [DecidableEq α] (alphabet : List α) (a : α) : Option Nat :=
  alphabet.idxOf? a

/-! ## There and back -/

theorem sextets_lt (bytes : List UInt8) : ∀ n ∈ sextets bytes, n < 64 := by
  induction bytes using sextets.induct with
  | case1 a b c rest ih =>
    have ha := a.toNat_lt
    have hb := b.toNat_lt
    have hc := c.toNat_lt
    simp only [sextets, List.forall_mem_cons]
    exact ⟨by omega, by omega, by omega, by omega, ih⟩
  | case2 a b =>
    have ha := a.toNat_lt
    have hb := b.toNat_lt
    simp only [sextets, List.forall_mem_cons]
    exact ⟨by omega, by omega, by omega, fun _ h => by cases h⟩
  | case3 a =>
    have ha := a.toNat_lt
    simp only [sextets, List.forall_mem_cons]
    exact ⟨by omega, by omega, fun _ h => by cases h⟩
  | case4 => exact fun _ h => by cases h

theorem octets_sextets (bytes : List UInt8) : octets (sextets bytes) = bytes := by
  have hbyte : ∀ {n : Nat} {b : UInt8}, n = b.toNat → UInt8.ofNat n = b := by
    rintro n b rfl
    exact UInt8.ofNat_toNat
  induction bytes using sextets.induct with
  | case1 a b c rest ih =>
    have ha := a.toNat_lt
    have hb := b.toNat_lt
    have hc := c.toNat_lt
    rw [sextets, octets, ih, hbyte (b := a) (by omega), hbyte (b := b) (by omega), hbyte (b := c) (by omega)]
  | case2 a b =>
    have ha := a.toNat_lt
    have hb := b.toNat_lt
    rw [sextets, octets, hbyte (b := a) (by omega), hbyte (b := b) (by omega)]
  | case3 a =>
    have ha := a.toNat_lt
    rw [sextets, octets, hbyte (b := a) (by omega)]
  | case4 => rfl

theorem length_sextets (bytes : List UInt8) :
    (sextets bytes).length + (3 - bytes.length % 3) % 3 = (bytes.length + 2) / 3 * 4 := by
  induction bytes using sextets.induct with
  | case1 a b c rest ih =>
    simp only [sextets, List.length_cons]
    omega
  | case2 a b => simp only [sextets, List.length_cons, List.length_nil]
  | case3 a => simp only [sextets, List.length_cons, List.length_nil]
  | case4 => rfl

theorem sextetOf_getD {α : Type} [DecidableEq α] {alphabet : List α} (hdistinct : alphabet.Nodup)
    {n : Nat} (hn : n < alphabet.length) (other : α) :
    sextetOf alphabet (alphabet.getD n other) = some n := by
  rw [sextetOf, List.getD_eq_getElem _ _ hn, List.idxOf?_eq_some_iff]
  refine ⟨hn, rfl, fun m hm heq => ?_⟩
  have := hdistinct.getElem_inj_iff.mp heq
  omega

end Lib
