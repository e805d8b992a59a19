import Mathlib
import TauTerm.Lib.LinearRegister
import TauTerm.Transfer.Crc

/-!
# The checksums bit by bit

One bit of each CRC is a shift of the register, with the polynomial added when a one
falls out. Eight of them are what a table entry and a byte shift do, so the table
driven functions compute the CRCs of their polynomials, whichever way a byte enters.
-/

namespace TauTerm.Transfer

open Lib

def crc16Bit (crc : UInt16) : UInt16 :=
  if crc &&& 0x8000 ≠ 0 then (crc <<< 1) ^^^ 0x1021 else crc <<< 1

def upperByte (byte : UInt8) : UInt16 := byte.toUInt16 <<< 8

/-- `crc16_ccitt_bitwise`. -/
def crc16CcittBitwise (data : List UInt8) : UInt16 :=
  data.foldl (fun crc byte => crc16Bit^[8] (crc ^^^ upperByte byte)) 0

def crc32Bit (crc : UInt32) : UInt32 :=
  if crc &&& 1 ≠ 0 then (crc >>> 1) ^^^ 0xEDB88320 else crc >>> 1

/-- The reflected CRC-32: the low bit of a byte first, the register inverted before and after. -/
def crc32Bitwise (data : List UInt8) : UInt32 :=
  ~~~(data.foldl (fun crc byte => crc32Bit^[8] (crc ^^^ byte.toUInt32)) 0xFFFFFFFF)

theorem and_twoPow_ne_zero {w : Nat} (x : BitVec w) (i : Nat) (hi : i < w) :
    x &&& BitVec.twoPow w i ≠ 0#w ↔ x.getLsbD i = true := by
  rw [BitVec.and_twoPow]
  by_cases h : x.getLsbD i = true
  · rw [if_pos h]
    refine iff_of_true (fun hzero => ?_) h
    have hbit := congrArg (fun v : BitVec w => v.getLsbD i) hzero
    simp [hi] at hbit
  · rw [if_neg h]
    exact iff_of_false (· rfl) h

/-! ## CRC-16 -/

theorem crc16_out (crc : UInt16) : crc &&& 0x8000 ≠ 0 ↔ crc.toBitVec.getLsbD 15 = true := by
  rw [← and_twoPow_ne_zero crc.toBitVec 15 (by decide), ne_eq, ne_eq, ← UInt16.toBitVec_inj]
  exact .rfl

theorem shiftLeft_xor (a b : UInt16) (n : UInt16) : (a ^^^ b) <<< n = (a <<< n) ^^^ (b <<< n) := by
  apply UInt16.toBitVec_inj.mp
  simp [BitVec.shiftLeft_xor_distrib]

theorem crc16Bit_linear : LinearShift crc16Bit := by
  intro a b
  have hout : (a ^^^ b).toBitVec.getLsbD 15 = (a.toBitVec.getLsbD 15 ^^ b.toBitVec.getLsbD 15) := by
    rw [UInt16.toBitVec_xor, BitVec.getLsbD_xor]
  unfold crc16Bit
  simp only [crc16_out, hout, shiftLeft_xor]
  cases a.toBitVec.getLsbD 15 <;> cases b.toBitVec.getLsbD 15
  · rfl
  · exact UInt16.xor_assoc ..
  · simp only [Bool.xor_false, Bool.false_eq_true, if_true, if_false]
    ac_rfl
  · simp only [Bool.xor_true, Bool.not_true, Bool.false_eq_true, if_true, if_false]
    rw [show ∀ x y p : UInt16, x ^^^ p ^^^ (y ^^^ p) = x ^^^ y ^^^ (p ^^^ p) from
      fun x y p => by ac_rfl, UInt16.xor_self, UInt16.xor_zero]

theorem upperByte_xor (a b : UInt8) : upperByte (a ^^^ b) = upperByte a ^^^ upperByte b := by
  unfold upperByte
  rw [← shiftLeft_xor]
  congr 1

/-- An entry of a table that has been computed as a whole. -/
theorem getD_of_toList {α : Type} {table : Array α} {f : Nat → α} {d : α} {i n : Nat}
    (h : table.toList = (List.range n).map f) (hi : i < n) : table.getD i d = f i := by
  have hsize : i < table.size := by
    rw [← Array.length_toList, h]
    simpa using hi
  rw [Array.getD, dif_pos hsize]
  show table[i] = f i
  rw [← Array.getElem_toList]
  simp [h]

/-- Eight shifts of a byte in the upper half, by the table. -/
theorem crc16Bit_upper (i : UInt8) : crc16Bit^[8] (upperByte i) = crc16At i := by
  have htable : crc16Table.toList =
      (List.range 256).map fun i => crc16Bit^[8] (upperByte (UInt8.ofNat i)) := by
    decide +kernel
  rw [crc16At, getD_of_toList htable i.toNat_lt, UInt8.ofNat_toNat]

/-- The table is additive. -/
theorem crc16At_xor (i j : UInt8) : crc16At (i ^^^ j) = crc16At i ^^^ crc16At j := by
  rw [← crc16Bit_upper, ← crc16Bit_upper, ← crc16Bit_upper, upperByte_xor, (crc16Bit_linear).iterate]

/-- While the top bit is clear, the register just moves up. -/
theorem crc16Bit_double {n : Nat} (h : n < 2 ^ 15) :
    crc16Bit (UInt16.ofNat n) = UInt16.ofNat (2 * n) := by
  have htop : ¬ UInt16.ofNat n &&& 0x8000 ≠ 0 := by
    rw [crc16_out, UInt16.toBitVec_ofNat', BitVec.getLsbD_ofNat, Nat.testBit_lt_two_pow h]
    decide
  rw [crc16Bit, if_neg htop]
  apply UInt16.toNat_inj.mp
  rw [UInt16.toNat_shiftLeft, UInt16.toNat_ofNat', UInt16.toNat_ofNat', Nat.shiftLeft_eq]
  show n % 2 ^ 16 * 2 % 2 ^ 16 = 2 * n % 2 ^ 16
  omega

theorem crc16Bit_iterate {n : Nat} (k : Nat) (h : n * 2 ^ k < 2 ^ 16) :
    crc16Bit^[k] (UInt16.ofNat n) = UInt16.ofNat (n * 2 ^ k) := by
  induction k generalizing n with
  | zero => rw [pow_zero, Nat.mul_one, Function.iterate_zero_apply]
  | succ k ih =>
    have hmove : n * 2 ^ (k + 1) = 2 * n * 2 ^ k := by ring
    have hpos := Nat.one_le_two_pow (n := k)
    have hsmall : n < 2 ^ 15 := by nlinarith
    rw [Function.iterate_succ_apply, crc16Bit_double hsmall, ih (by omega), hmove]

/-- Eight shifts of a byte in the lower half move it up. -/
theorem crc16Bit_lower (i : UInt8) : crc16Bit^[8] i.toUInt16 = upperByte i := by
  have hbyte := i.toNat_lt
  have hword : i.toUInt16 = UInt16.ofNat i.toNat := by
    apply UInt16.toNat_inj.mp
    rw [UInt16.toNat_ofNat', UInt8.toNat_toUInt16]
    omega
  have h8 : UInt16.toNat 8 % 16 = 8 := rfl
  rw [hword, crc16Bit_iterate 8 (by omega)]
  apply UInt16.toNat_inj.mp
  rw [upperByte, UInt16.toNat_shiftLeft, UInt8.toNat_toUInt16, h8, Nat.shiftLeft_eq,
    UInt16.toNat_ofNat']

theorem toUInt8_and (crc : UInt16) : (crc &&& 0xFF).toUInt8 = crc.toUInt8 := by
  apply UInt8.toNat_inj.mp
  rw [UInt16.toNat_toUInt8, UInt16.toNat_toUInt8, UInt16.toNat_and]
  exact (congrArg (· % 2 ^ 8) (Nat.and_two_pow_sub_one_eq_mod crc.toNat 8)).trans (Nat.mod_mod _ _)

/-- The two bytes of a register. -/
theorem split_upper_lower (crc : UInt16) :
    crc = upperByte (crc >>> 8).toUInt8 ^^^ crc.toUInt8.toUInt16 := by
  have hzero := xor_hi_lo crc
  rw [UInt16.xor_assoc, toUInt8_and] at hzero
  exact UInt16.xor_eq_zero_iff.mp hzero

theorem shiftLeft_eq_upperByte (crc : UInt16) : crc <<< 8 = upperByte crc.toUInt8 := by
  apply UInt16.toNat_inj.mp
  simp only [upperByte, UInt16.toNat_shiftLeft, UInt8.toNat_toUInt16, UInt16.toNat_toUInt8]
  have h8 : UInt16.toNat 8 % 16 = 8 := rfl
  rw [h8, Nat.shiftLeft_eq, Nat.shiftLeft_eq]
  omega

/-- Eight shifts of a register: the table entry of its upper byte, and its lower byte moved up. -/
theorem crc16Bit_eight (crc : UInt16) :
    crc16Bit^[8] crc = crc16At (crc >>> 8).toUInt8 ^^^ (crc <<< 8) := by
  conv_lhs => rw [split_upper_lower crc]
  rw [(crc16Bit_linear).iterate, crc16Bit_upper, crc16Bit_lower, shiftLeft_eq_upperByte]

theorem crc16Ccitt_eq_foldTop (data : List UInt8) :
    crc16Ccitt data = foldTop crc16Bit^[8] upperByte data 0 := by
  unfold crc16Ccitt foldTop
  congr 1
  funext crc byte
  rw [(crc16Bit_linear).iterate, crc16Bit_eight, crc16Bit_upper, crc16At_xor,
    ← UInt16.xor_assoc, UInt16.xor_comm (crc <<< 8)]

theorem crc16Updcrc_eq_foldBottom (data : List UInt8) :
    crc16Updcrc data = foldBottom crc16Bit^[8] UInt8.toUInt16 data 0 := by
  unfold crc16Updcrc foldBottom
  congr 1
  funext crc byte
  rw [crc16Bit_eight, updcrc, toUInt8_and]

theorem crc16Ccitt_eq_bitwise (data : List UInt8) : crc16Ccitt data = crc16CcittBitwise data :=
  crc16Ccitt_eq_foldTop data

/-- Two bytes more bring the register that bytes enter at the bottom to the other one. -/
theorem crc16CcittZeroPad_eq (data : List UInt8) : crc16CcittZeroPad data = crc16Ccitt data := by
  have hshift (crc : UInt16) : updcrc 0 crc = crc16Bit^[8] crc := by
    rw [crc16Bit_eight, updcrc, toUInt8_and]
    exact UInt16.xor_zero
  have hzero : (crc16Bit^[8])^[2] 0 = 0 :=
    Function.iterate_fixed (Function.iterate_fixed (show crc16Bit 0 = 0 by decide) 8) 2
  rw [crc16CcittZeroPad, hshift, hshift, crc16Updcrc_eq_foldBottom, crc16Ccitt_eq_foldTop, ← hzero,
    foldTop_eq ((crc16Bit_linear).iterate 8) (fun byte => ?_), hzero]
  · rfl
  · rw [Function.iterate_succ_apply', Function.iterate_one, crc16Bit_lower]

theorem toNat_bytes (hi lo : UInt8) :
    (upperByte hi ^^^ lo.toUInt16).toNat = hi.toNat * 256 + lo.toNat := by
  have hlo : lo.toNat < 2 ^ 8 := lo.toNat_lt
  have h8 : UInt16.toNat 8 % 16 = 8 := rfl
  rw [UInt16.toNat_xor, upperByte, UInt16.toNat_shiftLeft, UInt8.toNat_toUInt16,
    UInt8.toNat_toUInt16, h8, Nat.shiftLeft_eq,
    Nat.mod_eq_of_lt (by have := hi.toNat_lt; omega), Nat.mul_comm]
  apply Nat.eq_of_testBit_eq
  intro i
  rw [Nat.testBit_xor, Nat.testBit_two_pow_mul, Nat.testBit_two_pow_mul_add _ hlo]
  by_cases hi8 : i < 8
  · have h8i : ¬ 8 ≤ i := by omega
    simp [hi8, h8i]
  · have h8i : 8 ≤ i := by omega
    have hbit : lo.toNat.testBit i = false :=
      Nat.testBit_lt_two_pow (hlo.trans_le (Nat.pow_le_pow_right (by decide) (by omega)))
    simp [hi8, h8i, hbit]

/-- The receiver accepts the two bytes of the checksum, and no others. -/
theorem feedthrough_iff (data : List UInt8) (hi lo : UInt8) :
    crc16CcittFeedthroughVerify data hi lo = true ↔
      hi.toNat * 256 + lo.toNat = (crc16Ccitt data).toNat := by
  rw [crc16CcittFeedthroughVerify, updcrc_updcrc, beq_iff_eq, UInt16.xor_assoc,
    UInt16.xor_eq_zero_iff, ← toNat_bytes, UInt16.toNat_inj, eq_comm, ← crc16CcittZeroPad_eq]
  rfl

/-! ## CRC-32 -/

theorem crc32_out (crc : UInt32) : crc &&& 1 ≠ 0 ↔ crc.toBitVec.getLsbD 0 = true := by
  rw [← and_twoPow_ne_zero crc.toBitVec 0 (by decide), ne_eq, ne_eq, ← UInt32.toBitVec_inj]
  exact .rfl

theorem shiftRight_xor (a b : UInt32) (n : UInt32) : (a ^^^ b) >>> n = (a >>> n) ^^^ (b >>> n) := by
  apply UInt32.toBitVec_inj.mp
  simp [BitVec.ushiftRight_xor_distrib]

theorem crc32Bit_linear : LinearShift crc32Bit := by
  intro a b
  have hout : (a ^^^ b).toBitVec.getLsbD 0 = (a.toBitVec.getLsbD 0 ^^ b.toBitVec.getLsbD 0) := by
    rw [UInt32.toBitVec_xor, BitVec.getLsbD_xor]
  unfold crc32Bit
  simp only [crc32_out, hout, shiftRight_xor]
  cases a.toBitVec.getLsbD 0 <;> cases b.toBitVec.getLsbD 0
  · rfl
  · exact UInt32.xor_assoc ..
  · simp only [Bool.xor_false, Bool.false_eq_true, if_true, if_false]
    ac_rfl
  · simp only [Bool.xor_true, Bool.not_true, Bool.false_eq_true, if_true, if_false]
    rw [show ∀ x y p : UInt32, x ^^^ p ^^^ (y ^^^ p) = x ^^^ y ^^^ (p ^^^ p) from
      fun x y p => by ac_rfl, UInt32.xor_self, UInt32.xor_zero]

/-- Eight shifts of a byte, by the table. -/
theorem crc32Bit_byte (i : UInt8) : crc32Bit^[8] i.toUInt32 = crc32At i := by
  have htable : crc32Table.toList =
      (List.range 256).map fun i => crc32Bit^[8] (UInt8.ofNat i).toUInt32 := by
    decide +kernel
  rw [crc32At, getD_of_toList htable i.toNat_lt, UInt8.ofNat_toNat]

/-- While only zeros fall out, the register just moves down. -/
theorem crc32Bit_zeros (crc : UInt32) (n : Nat)
    (h : ∀ i < n, crc.toBitVec.getLsbD i = false) :
    (crc32Bit^[n] crc).toBitVec = crc.toBitVec >>> n := by
  induction n with
  | zero => simp
  | succ n ih =>
    have hn := ih fun i hi => h i (by omega)
    have hout : ¬ (crc32Bit^[n] crc) &&& 1 ≠ 0 := by
      rw [crc32_out, hn, BitVec.getLsbD_ushiftRight, h (n + 0) (by omega)]
      decide
    rw [Function.iterate_succ_apply', crc32Bit, if_neg hout, UInt32.toBitVec_shiftRight, hn]
    simp [BitVec.shiftRight_add]

theorem split_low_high (crc : UInt32) : crc = (crc &&& 0xFF) ^^^ (crc &&& ~~~0xFF) := by
  apply UInt32.toBitVec_inj.mp
  apply BitVec.eq_of_getLsbD_eq
  intro i hi
  simp only [UInt32.toBitVec_xor, UInt32.toBitVec_and, UInt32.toBitVec_not, BitVec.getLsbD_xor,
    BitVec.getLsbD_and, BitVec.getLsbD_not, hi, decide_true, Bool.true_and]
  cases crc.toBitVec.getLsbD i <;> cases (UInt32.toBitVec 0xFF).getLsbD i <;> rfl

theorem low_eq (crc : UInt32) : crc &&& 0xFF = ((crc &&& 0xFF).toUInt8).toUInt32 := by
  apply UInt32.toNat_inj.mp
  have hlow : crc.toNat &&& 0xFF = crc.toNat % 2 ^ 8 := Nat.and_two_pow_sub_one_eq_mod crc.toNat 8
  rw [UInt8.toNat_toUInt32, UInt32.toNat_toUInt8, UInt32.toNat_and]
  exact (hlow.trans (Nat.mod_mod _ _).symm).trans (congrArg (· % 2 ^ 8) hlow.symm)

/-- The bits of the mask of the low byte. -/
theorem mask_bit (i : Nat) (hi : i < 32) : (UInt32.toBitVec 0xFF).getLsbD i = decide (i < 8) := by
  have h : ∀ i : Fin 32, (UInt32.toBitVec 0xFF).getLsbD i = decide (i.val < 8) := by decide
  exact h ⟨i, hi⟩

theorem high_bit (crc : UInt32) (i : Nat) (hi : i < 32) :
    (crc &&& ~~~0xFF).toBitVec.getLsbD i = (crc.toBitVec.getLsbD i && decide (8 ≤ i)) := by
  rw [UInt32.toBitVec_and, BitVec.getLsbD_and, UInt32.toBitVec_not, BitVec.getLsbD_not,
    mask_bit i hi]
  by_cases h : i < 8
  · have h' : ¬ 8 ≤ i := by omega
    simp [h, h']
  · have h' : 8 ≤ i := by omega
    simp [h, h', hi]

theorem crc32Bit_high (crc : UInt32) : crc32Bit^[8] (crc &&& ~~~0xFF) = crc >>> 8 := by
  apply UInt32.toBitVec_inj.mp
  rw [crc32Bit_zeros _ 8 fun i hi => ?_]
  · apply BitVec.eq_of_getLsbD_eq
    intro i hi
    have hright : (crc >>> 8).toBitVec = crc.toBitVec >>> (8 : Nat) := rfl
    rw [hright, BitVec.getLsbD_ushiftRight, BitVec.getLsbD_ushiftRight]
    by_cases h : 8 + i < 32
    · rw [high_bit crc _ h, decide_eq_true (by omega), Bool.and_true]
    · rw [BitVec.getLsbD_of_ge _ _ (by omega), BitVec.getLsbD_of_ge _ _ (by omega)]
  · have hle : ¬ 8 ≤ i := by omega
    rw [high_bit crc i (by omega)]
    simp [hle]

/-- Eight shifts of a register: the table entry of its low byte, and the rest moved down. -/
theorem crc32Bit_eight (crc : UInt32) :
    crc32Bit^[8] crc = crc32At (crc &&& 0xFF).toUInt8 ^^^ (crc >>> 8) := by
  conv_lhs => rw [split_low_high crc]
  rw [crc32Bit_linear.iterate, crc32Bit_high, low_eq, crc32Bit_byte, ← low_eq]

theorem byte_shiftRight (byte : UInt8) : byte.toUInt32 >>> 8 = 0 := by
  apply UInt32.toNat_inj.mp
  have hbyte := byte.toNat_lt
  rw [UInt32.toNat_shiftRight, UInt8.toNat_toUInt32]
  exact (Nat.shiftRight_eq_div_pow ..).trans (Nat.div_eq_of_lt hbyte)

theorem crc32Zmodem_eq_bitwise (data : List UInt8) : crc32Zmodem data = crc32Bitwise data := by
  unfold crc32Zmodem crc32Bitwise
  congr 2
  funext crc byte
  rw [crc32Bit_eight, shiftRight_xor, byte_shiftRight, UInt32.xor_zero]

/-! ## The checksums of the transfer protocols -/

/-- The table driven functions compute the CRCs of their polynomials, and a receiver accepts
exactly the checksum that a sender computes. -/
theorem crc_equivalences :
    (∀ data, crc16Ccitt data = crc16CcittBitwise data) ∧
    (∀ data, crc16CcittZeroPad data = crc16Ccitt data) ∧
    (∀ data hi lo, crc16CcittFeedthroughVerify data hi lo = true ↔
      hi.toNat * 256 + lo.toNat = (crc16Ccitt data).toNat) ∧
    ∀ data, crc32Zmodem data = crc32Bitwise data :=
  ⟨crc16Ccitt_eq_bitwise, crc16CcittZeroPad_eq, feedthrough_iff, crc32Zmodem_eq_bitwise⟩

end TauTerm.Transfer
