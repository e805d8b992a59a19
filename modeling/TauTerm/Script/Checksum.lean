import Mathlib
import TauTerm.Lib.CrcRegister
import TauTerm.Modbus.Rtu
import TauTerm.Transfer.CrcBits

/-!
# The checksum engine of the scripts

`_crc_compute` of the script header in `kernel/script_engine/codegen.rs`, with Lua's 64-bit integers.
It works on the mirror image of the polynomial wherever its preset says so; the field `work_poly` of
the presets is not read. For its presets it computes what the checksums of Modbus, YModem and ZModem
compute.
-/

namespace TauTerm.Script

open Lib.Crc

/-! ## The engine -/

abbrev LuaInt := BitVec 64

/-- A shift by a negative number goes the other way. -/
def luaShl (x : LuaInt) (n : Int) : LuaInt := if 0 ≤ n then x <<< n.toNat else x >>> (-n).toNat

def luaShr (x : LuaInt) (n : Int) : LuaInt := luaShl x (-n)

structure CrcPreset where
  init : LuaInt
  refin : Bool
  refout : Bool
  xorout : LuaInt
  reflByte : Bool := false
  swap : Bool := false

def crcPresets (width : Int) (poly : LuaInt) : Option CrcPreset :=
  if width = 8 then
    if poly = 0x07 then some ⟨0, false, false, 0, false, false⟩
    else if poly = 0x31 then some ⟨0, true, true, 0, true, false⟩
    else none
  else if width = 16 then
    if poly = 0x1021 then some ⟨0, true, true, 0, true, false⟩
    else if poly = 0x8005 then some ⟨0xFFFF, true, false, 0, false, true⟩
    else none
  else if width = 32 then
    if poly = 0x04C11DB7 then some ⟨0xFFFFFFFF, true, false, 0xFFFFFFFF, false, false⟩ else none
  else none

def unknownPoly (width : Int) : CrcPreset :=
  if width = 32 then ⟨0xFFFFFFFF, true, false, 0xFFFFFFFF, false, false⟩
  else if width = 16 then ⟨0, true, true, 0, false, false⟩
  else ⟨0, false, false, 0, false, false⟩

/-- `_reflect`; `_reflect8` is the same with the width 8. -/
def reflect (v : LuaInt) (width : Int) : LuaInt :=
  (List.range width.toNat).foldl (fun r (i : Nat) =>
    if v &&& luaShl 1 i ≠ 0 then r ||| luaShl 1 (width - 1 - i) else r) 0

/-- `string.byte` -/
def luaByte (b : UInt8) : LuaInt := b.toBitVec.setWidth 64

def reflectedBit (workPoly crc : LuaInt) : LuaInt :=
  if crc &&& 1 ≠ 0 then luaShr crc 1 ^^^ workPoly else luaShr crc 1

def directBit (topBit mask poly crc : LuaInt) : LuaInt :=
  if crc &&& topBit ≠ 0 then (luaShl crc 1 ^^^ poly) &&& mask else luaShl crc 1 &&& mask

/-- `string.format("%0…X", n)` -/
def formatHex (width : Nat) (n : Nat) : List Char :=
  let digits := (Nat.toDigits 16 n).map Char.toUpper
  List.replicate (width - digits.length) '0' ++ digits

def crcCompute (data : List UInt8) (width : Int) (poly : LuaInt) : List Char :=
  let p := (crcPresets width poly).getD (unknownPoly width)
  let mask := if width = 32 then 0xFFFFFFFF else luaShl 1 width - 1
  let crc :=
    if p.refin then
      let workPoly := reflect poly width
      data.foldl (fun crc b =>
        let byte := if p.reflByte then reflect (luaByte b) 8 else luaByte b
        (reflectedBit workPoly)^[8] (crc ^^^ byte)) p.init
    else
      let topBit := luaShl 1 (width - 1)
      data.foldl (fun crc b =>
        (directBit topBit mask poly)^[8] (crc ^^^ luaShl (luaByte b) (width - 8))) p.init
  let crc := if p.refout then reflect crc width else crc
  let crc := crc ^^^ p.xorout
  if p.swap then
    let lo := crc &&& 0xFF
    let hi := luaShr crc 8 &&& 0xFF
    formatHex 2 lo.toNat ++ formatHex 2 hi.toNat
  else formatHex ((width + 3) / 4).toNat crc.toNat

/-! ## Mirror images -/

theorem luaShl_natCast (x : LuaInt) (n : Nat) : luaShl x n = x <<< n := by
  unfold luaShl
  rw [if_pos (Int.natCast_nonneg n), Int.toNat_natCast]

theorem luaShl_one (n : Nat) : luaShl 1 n = BitVec.twoPow 64 n := luaShl_natCast 1 n

/-- What the loop has done behind `k` of its rounds. -/
theorem reflect_rounds (v : LuaInt) {w : Nat} (hw : w ≤ 64) {k : Nat} (hk : k ≤ w) (j : Nat) :
    ((List.range k).foldl (fun r (i : Nat) =>
      if v &&& luaShl 1 i ≠ 0 then r ||| luaShl 1 ((w : Int) - 1 - i) else r) 0).getLsbD j =
        (decide (j < w ∧ w - 1 - j < k) && v.getLsbD (w - 1 - j)) := by
  induction k with
  | zero => simp
  | succ k ih =>
    rw [List.range_succ, List.foldl_concat]
    have hshift : (w : Int) - 1 - k = (w - 1 - k : Nat) := by omega
    have hbit : v &&& luaShl 1 k ≠ 0 ↔ v.getLsbD k = true := by
      rw [luaShl_one]
      exact Transfer.and_twoPow_ne_zero v k (by omega)
    have ih := ih (by omega)
    by_cases hj : j < w ∧ j = w - 1 - k
    · obtain ⟨hlt, rfl⟩ := hj
      have hback : w - 1 - (w - 1 - k) = k := by omega
      rw [hback] at ih ⊢
      split_ifs with hv
      · have hin : w - 1 - k < 64 := by omega
        have hround : w - 1 - k < w ∧ k < k + 1 := by omega
        rw [hshift, luaShl_one, BitVec.getLsbD_or, BitVec.getLsbD_twoPow, hbit.mp hv,
          decide_eq_true hin, decide_eq_true hround, decide_eq_true rfl, Bool.and_self, Bool.or_true]
      · rw [ih, Bool.eq_false_iff.mpr (mt hbit.mpr hv)]
        simp
    · have hround : (j < w ∧ w - 1 - j < k + 1) ↔ (j < w ∧ w - 1 - j < k) := by omega
      rw [decide_eq_decide.mpr hround, ← ih]
      split_ifs
      · rw [hshift, luaShl_one, BitVec.getLsbD_or, BitVec.getLsbD_twoPow]
        have hne : w - 1 - k ≠ j := by omega
        rw [decide_eq_false hne, Bool.and_false, Bool.or_false]
      · rfl

theorem reflect_bit (v : LuaInt) {w : Nat} (hw : w ≤ 64) (j : Nat) :
    (reflect v w).getLsbD j = (decide (j < w) && v.getLsbD (w - 1 - j)) := by
  unfold reflect
  rw [Int.toNat_natCast, reflect_rounds v hw le_rfl]
  have hall : (j < w ∧ w - 1 - j < w) ↔ j < w := by omega
  rw [decide_eq_decide.mpr hall]

/-- The loop mirrors the lower bits. -/
theorem reflect_setWidth {w : Nat} (hw : w ≤ 64) (x : BitVec w) :
    reflect (x.setWidth 64) w = x.reverse.setWidth 64 := by
  apply BitVec.eq_of_getLsbD_eq
  intro j hj
  rw [reflect_bit _ hw, BitVec.getLsbD_setWidth, BitVec.getLsbD_setWidth, BitVec.getLsbD_reverse,
    BitVec.getMsbD_eq_getLsbD, decide_eq_true hj, Bool.true_and]
  by_cases hlt : j < w
  · have hin : w - 1 - j < 64 := by omega
    rw [decide_eq_true hin, Bool.true_and]
  · rw [decide_eq_false hlt, Bool.false_and, Bool.false_and]

/-! ## One bit -/

theorem reflectedBit_eq (q crc : LuaInt) : reflectedBit q crc = lsbBit q crc := by
  have hout : crc &&& 1 ≠ 0 ↔ crc.getLsbD 0 = true := Transfer.and_twoPow_ne_zero crc 0 (by omega)
  have hshift : luaShr crc 1 = crc >>> 1 := rfl
  unfold reflectedBit lsbBit
  simp only [hshift, hout]

/-- A register that takes the low bits first, in the integers of Lua. -/
theorem reflected_foldl {w : Nat} (hw : 8 ≤ w) (hv : w ≤ 64) (q init : BitVec w)
    (f : LuaInt → LuaInt) (g : BitVec 8 → BitVec 8)
    (hf : ∀ b : BitVec 8, f (b.setWidth 64) = (g b).setWidth 64) (data : List UInt8) :
    data.foldl (fun crc b => (reflectedBit (q.setWidth 64))^[8] (crc ^^^ f (luaByte b)))
        (init.setWidth 64) =
      ((data.map fun b => g b.toBitVec).foldl (lsbByte q) init).setWidth 64 := by
  rw [setWidth_foldl_lsbByte hw hv, List.foldl_map]
  congr 1
  funext crc b
  have hbit : reflectedBit (q.setWidth 64) = lsbBit (q.setWidth 64) := funext (reflectedBit_eq _)
  unfold lsbByte luaByte
  rw [hbit, hf]

theorem mask_bit (i : Nat) : (0xFF : LuaInt).getLsbD i = decide (i < 8) := by
  by_cases hi : i < 64
  · have hall : ∀ i : Fin 64, (0xFF : LuaInt).getLsbD i = decide (i.val < 8) := by decide
    exact hall ⟨i, hi⟩
  · rw [BitVec.getLsbD_of_ge _ _ (by omega), decide_eq_false (by omega)]

theorem and_mask (a : LuaInt) : a &&& 0xFF = (a.setWidth 8).setWidth 64 := by
  apply BitVec.eq_of_getLsbD_eq
  intro i hi
  rw [BitVec.getLsbD_and, mask_bit, BitVec.getLsbD_setWidth, BitVec.getLsbD_setWidth,
    decide_eq_true hi, Bool.true_and, Bool.and_comm]

theorem directBit_eq (p x : BitVec 8) :
    directBit (luaShl 1 7) (luaShl 1 8 - 1) (p.setWidth 64) (x.setWidth 64) =
      (msbBit p x).setWidth 64 := by
  have hout : x.setWidth 64 &&& luaShl 1 7 ≠ 0 ↔ x.msb = true := by
    have htop : (x.setWidth 64).getLsbD 7 = x.msb := by
      rw [BitVec.getLsbD_setWidth, BitVec.msb_eq_getLsbD_last]
      rfl
    rw [← htop]
    exact Transfer.and_twoPow_ne_zero (x.setWidth 64) 7 (by omega)
  have hshift : (luaShl (x.setWidth 64) 1).setWidth 8 = x <<< 1 := by
    apply BitVec.eq_of_getLsbD_eq
    intro i hi
    show ((x.setWidth 64 <<< 1).setWidth 8).getLsbD i = _
    simp [hi]
  have hmask : luaShl 1 8 - 1 = (0xFF : LuaInt) := rfl
  have hp : (p.setWidth 64).setWidth 8 = p := by simp
  unfold directBit msbBit
  simp only [hout, hmask, and_mask]
  split_ifs
  · rw [BitVec.setWidth_xor, hshift, hp]
  · rw [hshift]

/-- The plain register of eight bits, in the integers of Lua. -/
theorem direct_foldl (p : BitVec 8) (data : List UInt8) (init : BitVec 8) :
    data.foldl (fun crc b => (directBit (luaShl 1 7) (luaShl 1 8 - 1) (p.setWidth 64))^[8]
        (crc ^^^ luaShl (luaByte b) (8 - 8))) (init.setWidth 64) =
      ((data.map UInt8.toBitVec).foldl (msbByte p) init).setWidth 64 := by
  induction data generalizing init with
  | nil => rfl
  | cons b data ih =>
    have hiterate : ∀ (n : Nat) (x : BitVec 8),
        (directBit (luaShl 1 7) (luaShl 1 8 - 1) (p.setWidth 64))^[n] (x.setWidth 64) =
          ((msbBit p)^[n] x).setWidth 64 := by
      intro n
      induction n with
      | zero => exact fun x => rfl
      | succ n ihn =>
        intro x
        rw [Function.iterate_succ_apply, directBit_eq, ihn, Function.iterate_succ_apply]
    have hbyte : luaShl (luaByte b) (8 - 8) = b.toBitVec.setWidth 64 :=
      (luaShl_natCast (luaByte b) 0).trans (BitVec.shiftLeft_zero _)
    have htop : msbByte p init b.toBitVec = (msbBit p)^[8] (init ^^^ b.toBitVec) := by
      unfold msbByte
      simp
    rw [List.foldl_cons, List.map_cons, List.foldl_cons, hbyte, ← BitVec.setWidth_xor, hiterate, ih,
      htop]

/-! ## The checksums of the protocols -/

section Registers

variable {α : Type} {w : Nat} {φ : α → BitVec w} {f : α → UInt8 → α} {g : BitVec w → BitVec 8 → BitVec w}

/-- A register of the program, as a vector of bits. -/
theorem foldl_toBitVec (h : ∀ x b, φ (f x b) = g (φ x) b.toBitVec) (data : List UInt8) (x : α) :
    φ (data.foldl f x) = (data.map UInt8.toBitVec).foldl g (φ x) := by
  induction data generalizing x with
  | nil => rfl
  | cons b data ih => rw [List.foldl_cons, ih, h, List.map_cons, List.foldl_cons]

end Registers

theorem crcShift_toBitVec :
    Function.Semiconj UInt16.toBitVec Modbus.Rtu.crcShift (lsbBit 0xA001#16) := by
  intro x
  have hout : x &&& 1 ≠ 0 ↔ x.toBitVec.getLsbD 0 = true := by
    rw [← Transfer.and_twoPow_ne_zero x.toBitVec 0 (by omega), ne_eq, ne_eq, ← UInt16.toBitVec_inj]
    exact .rfl
  unfold Modbus.Rtu.crcShift lsbBit
  simp only [hout]
  split_ifs
  · rfl
  · rfl

theorem crc16_toBitVec (data : List UInt8) : (Modbus.Rtu.crc16 data).toBitVec =
    (data.map UInt8.toBitVec).foldl (lsbByte 0xA001#16) 0xFFFF#16 := by
  refine foldl_toBitVec (fun x b => ?_) data 0xFFFF
  exact crcShift_toBitVec.iterate_right 8 (x ^^^ b.toUInt16)

theorem crc16Bit_toBitVec :
    Function.Semiconj UInt16.toBitVec Transfer.crc16Bit (msbBit 0x1021#16) := by
  intro x
  have hout : x &&& 0x8000 ≠ 0 ↔ x.toBitVec.msb = true := by
    rw [Transfer.crc16_out, BitVec.msb_eq_getLsbD_last]
  unfold Transfer.crc16Bit msbBit
  simp only [hout]
  split_ifs
  · rfl
  · rfl

theorem crc16Ccitt_toBitVec (data : List UInt8) : (Transfer.crc16Ccitt data).toBitVec =
    (data.map UInt8.toBitVec).foldl (msbByte 0x1021#16) 0#16 := by
  rw [Transfer.crc16Ccitt_eq_bitwise]
  refine foldl_toBitVec (fun x b => ?_) data 0
  exact crc16Bit_toBitVec.iterate_right 8 (x ^^^ Transfer.upperByte b)

theorem crc32Bit_toBitVec :
    Function.Semiconj UInt32.toBitVec Transfer.crc32Bit (lsbBit 0xEDB88320#32) := by
  intro x
  unfold Transfer.crc32Bit lsbBit
  simp only [Transfer.crc32_out]
  split_ifs
  · rfl
  · rfl

theorem crc32Zmodem_toBitVec (data : List UInt8) : (Transfer.crc32Zmodem data).toBitVec =
    ~~~(data.map UInt8.toBitVec).foldl (lsbByte 0xEDB88320#32) 0xFFFFFFFF#32 := by
  rw [Transfer.crc32Zmodem_eq_bitwise]
  refine congrArg (~~~ ·) (foldl_toBitVec (fun x b => ?_) data 0xFFFFFFFF)
  exact crc32Bit_toBitVec.iterate_right 8 (x ^^^ b.toUInt32)

/-- The bytes of the checksum behind a frame. -/
def rtuTrailer (data : List UInt8) : List UInt8 :=
  [(Modbus.Rtu.crc16 data).toUInt8, (Modbus.Rtu.crc16 data >>> 8).toUInt8]

/-- One bit of a CRC of eight bits, with the bits of a byte taken from the top. -/
def crc8Bit (poly crc : UInt8) : UInt8 :=
  if crc &&& 0x80 ≠ 0 then (crc <<< 1) ^^^ poly else crc <<< 1

def crc8 (poly : UInt8) (data : List UInt8) : UInt8 :=
  data.foldl (fun crc byte => (crc8Bit poly)^[8] (crc ^^^ byte)) 0

theorem crc8Bit_toBitVec (poly : UInt8) :
    Function.Semiconj UInt8.toBitVec (crc8Bit poly) (msbBit poly.toBitVec) := by
  intro x
  have hout : x &&& 0x80 ≠ 0 ↔ x.toBitVec.msb = true := by
    rw [BitVec.msb_eq_getLsbD_last, ← Transfer.and_twoPow_ne_zero x.toBitVec 7 (by omega), ne_eq, ne_eq,
      ← UInt8.toBitVec_inj]
    exact .rfl
  unfold crc8Bit msbBit
  simp only [hout]
  split_ifs
  · rfl
  · rfl

theorem crc8_toBitVec (poly : UInt8) (data : List UInt8) : (crc8 poly data).toBitVec =
    (data.map UInt8.toBitVec).foldl (msbByte poly.toBitVec) 0#8 := by
  refine foldl_toBitVec (fun x b => ?_) data 0
  have hbyte : b.toBitVec.setWidth 8 <<< (8 - 8) = b.toBitVec := by simp
  unfold msbByte
  rw [hbyte]
  exact (crc8Bit_toBitVec poly).iterate_right 8 (x ^^^ b)

/-! ## The presets -/

theorem toNat_setWidth {w : Nat} (hw : w ≤ 64) (x : BitVec w) : (x.setWidth 64).toNat = x.toNat := by
  rw [BitVec.toNat_setWidth, Nat.mod_eq_of_lt (x.isLt.trans_le (Nat.pow_le_pow_right (by omega) hw))]

theorem crcCompute_modbus (data : List UInt8) :
    crcCompute data 16 0x8005 = (rtuTrailer data).flatMap fun b => formatHex 2 b.toNat := by
  have hpreset : crcPresets 16 0x8005 = some ⟨0xFFFF, true, false, 0, false, true⟩ := rfl
  have hpoly : reflect 0x8005 16 = (0xA001#16).setWidth 64 := by decide
  have hloop := reflected_foldl (by omega) (by omega) 0xA001#16 0xFFFF#16 id id (fun _ => rfl) data
  have hregister : data.foldl (fun crc b => (reflectedBit ((0xA001#16).setWidth 64))^[8]
      (crc ^^^ luaByte b)) 0xFFFF = (Modbus.Rtu.crc16 data).toBitVec.setWidth 64 :=
    hloop.trans (congrArg (BitVec.setWidth 64) (crc16_toBitVec data).symm)
  unfold crcCompute
  rw [hpreset]
  simp only [Option.getD_some, if_true, Bool.false_eq_true, if_false, hpoly, hregister]
  unfold rtuTrailer
  generalize Modbus.Rtu.crc16 data = crc
  have hcrc := crc.toNat_lt
  have hwide : (crc.toBitVec.setWidth 64 ^^^ 0).toNat = crc.toNat :=
    (congrArg BitVec.toNat BitVec.xor_zero).trans (toNat_setWidth (by omega) crc.toBitVec)
  have hlow : ∀ a : LuaInt, (a &&& 0xFF).toNat = a.toNat % 256 := by
    intro a
    rw [and_mask, toNat_setWidth (by omega), BitVec.toNat_setWidth]
  have hhigh : (luaShr (crc.toBitVec.setWidth 64 ^^^ 0) 8).toNat = crc.toNat / 256 := by
    show ((crc.toBitVec.setWidth 64 ^^^ 0) >>> 8).toNat = _
    rw [BitVec.toNat_ushiftRight, hwide, Nat.shiftRight_eq_div_pow]
  have hbyte : (crc >>> 8).toUInt8.toNat = crc.toNat / 256 := Lib.toNat_hi crc
  have hfits : crc.toNat / 256 % 256 = crc.toNat / 256 := Nat.mod_eq_of_lt (by omega)
  rw [hlow, hlow, hwide, hhigh, List.flatMap_cons, List.flatMap_cons, List.flatMap_nil, hbyte,
    hfits, Lib.toNat_lo, List.append_nil]

example : crcCompute [1, 3, 0, 0, 0, 1] 16 0x8005 = "840A".toList := by decide +kernel

/-- A preset whose bytes are mirrored takes the bits from the top after all. -/
theorem reflected_bytes {w : Nat} (hw : 8 ≤ w) (hv : w ≤ 64) (p : BitVec w) (data : List UInt8) :
    reflect (data.foldl (fun crc b => (reflectedBit (p.reverse.setWidth 64))^[8]
        (crc ^^^ reflect (luaByte b) 8)) 0) w =
      ((data.map UInt8.toBitVec).foldl (msbByte p) 0#w).setWidth 64 := by
  have hbyte : ∀ b : BitVec 8, reflect (b.setWidth 64) 8 = b.reverse.setWidth 64 :=
    fun b => reflect_setWidth (by omega) b
  have hloop := reflected_foldl hw hv p.reverse 0#w (reflect · 8) BitVec.reverse hbyte data
  have hzero : (0#w).setWidth 64 = (0 : LuaInt) := BitVec.setWidth_zero _ _
  have hmap : (data.map fun b => b.toBitVec.reverse) =
      (data.map UInt8.toBitVec).map BitVec.reverse := by
    rw [List.map_map]
    rfl
  have hreverse := reverse_foldl_msbByte hw p 0#w (data.map UInt8.toBitVec)
  rw [BitVec.reverse_eq_zero_iff.mpr rfl] at hreverse
  rw [hzero, hmap, ← hreverse] at hloop
  rw [hloop, reflect_setWidth hv, BitVec.reverse_reverse_eq]

theorem crcCompute_ccitt (data : List UInt8) :
    crcCompute data 16 0x1021 = formatHex 4 (Transfer.crc16Ccitt data).toNat := by
  have hpreset : crcPresets 16 0x1021 = some ⟨0, true, true, 0, true, false⟩ := rfl
  have hpoly : reflect 0x1021 16 = (0x1021#16).reverse.setWidth 64 := by decide
  have hloop := reflected_bytes (by omega) (by omega) 0x1021#16 data
  rw [← crc16Ccitt_toBitVec] at hloop
  unfold crcCompute
  rw [hpreset]
  simp only [Option.getD_some, if_true, Bool.false_eq_true, if_false, hpoly]
  refine congrArg (formatHex 4) ?_
  refine (congrArg BitVec.toNat ((BitVec.xor_zero).trans hloop)).trans ?_
  exact toNat_setWidth (by omega) _

theorem crcCompute_crc32 (data : List UInt8) :
    crcCompute data 32 0x04C11DB7 = formatHex 8 (Transfer.crc32Zmodem data).toNat := by
  have hpreset : crcPresets 32 0x04C11DB7 =
      some ⟨0xFFFFFFFF, true, false, 0xFFFFFFFF, false, false⟩ := rfl
  have hpoly : reflect 0x04C11DB7 32 = (0xEDB88320#32).setWidth 64 := by decide
  have hloop := reflected_foldl (by omega) (by omega) 0xEDB88320#32 0xFFFFFFFF#32 id id
    (fun _ => rfl) data
  have hregister := crc32Zmodem_toBitVec data
  have hones : (0xFFFFFFFF : LuaInt) = (BitVec.allOnes 32).setWidth 64 := rfl
  unfold crcCompute
  rw [hpreset]
  simp only [Option.getD_some, if_true, Bool.false_eq_true, if_false, hpoly]
  refine congrArg (formatHex 8) ?_
  refine (congrArg (fun crc : LuaInt => (crc ^^^ 0xFFFFFFFF).toNat) hloop).trans ?_
  rw [hones, ← BitVec.setWidth_xor, BitVec.xor_allOnes, toNat_setWidth (by omega)]
  exact congrArg BitVec.toNat hregister.symm

theorem crcCompute_crc8 (poly : UInt8) (data : List UInt8) :
    crcCompute data 8 (luaByte poly) = formatHex 2 (crc8 poly data).toNat := by
  have hregister := crc8_toBitVec poly data
  by_cases hpoly : poly = 0x31
  · subst hpoly
    have hpreset : crcPresets 8 (luaByte 0x31) = some ⟨0, true, true, 0, true, false⟩ := rfl
    have hwork : reflect (luaByte 0x31) 8 = (0x31#8).reverse.setWidth 64 := by decide
    have hloop := reflected_bytes (by omega) (by omega) 0x31#8 data
    unfold crcCompute
    rw [hpreset]
    simp only [Option.getD_some, if_true, Bool.false_eq_true, if_false, hwork]
    refine congrArg (formatHex 2) ?_
    refine (congrArg BitVec.toNat ((BitVec.xor_zero).trans hloop)).trans ?_
    rw [toNat_setWidth (by omega)]
    exact congrArg BitVec.toNat hregister.symm
  · have hpreset : (crcPresets 8 (luaByte poly)).getD (unknownPoly 8) =
        ⟨0, false, false, 0, false, false⟩ := by
      have hne : luaByte poly ≠ 0x31 := by
        intro h
        apply hpoly
        have hnat := congrArg BitVec.toNat h
        unfold luaByte at hnat
        rw [toNat_setWidth (by omega)] at hnat
        exact UInt8.toNat_inj.mp hnat
      unfold crcPresets
      rw [if_pos rfl, if_neg hne]
      split_ifs
      · rfl
      · rfl
    have hloop := direct_foldl poly.toBitVec data 0#8
    unfold crcCompute
    rw [hpreset]
    simp only [Bool.false_eq_true, if_false]
    refine congrArg (formatHex 2) ?_
    refine (congrArg BitVec.toNat ((BitVec.xor_zero).trans hloop)).trans ?_
    rw [toNat_setWidth (by omega)]
    exact congrArg BitVec.toNat hregister.symm

/-- **One checksum.** The engine of the scripts and the checksums of the protocols agree; the one of
Modbus is what an RTU frame ends with. -/
theorem checksums_agree (data : List UInt8) :
    (∀ unitId pdu, Modbus.Rtu.encode unitId pdu =
      if pdu = [] ∨ pdu.length > Modbus.MAX_PDU_LEN then .error "invalid RTU PDU length"
      else .ok (unitId :: pdu ++ rtuTrailer (unitId :: pdu))) ∧
    crcCompute data 16 0x8005 = (rtuTrailer data).flatMap (fun b => formatHex 2 b.toNat) ∧
    crcCompute data 16 0x1021 = formatHex 4 (Transfer.crc16Ccitt data).toNat ∧
    crcCompute data 32 0x04C11DB7 = formatHex 8 (Transfer.crc32Zmodem data).toNat ∧
    ∀ poly : UInt8, crcCompute data 8 (luaByte poly) = formatHex 2 (crc8 poly data).toNat :=
  ⟨fun _ _ => rfl, crcCompute_modbus data, crcCompute_ccitt data, crcCompute_crc32 data,
    fun poly => crcCompute_crc8 poly data⟩

end TauTerm.Script
