import Mathlib
import TauTerm.Lib.CrcRemainder
import TauTerm.Lib.JsBits
import TauTerm.Script.Checksum

/-!
# The checksum tool

`crcWithParams` shifts a JavaScript number to the left, whatever the parameters mirror. The lower bits of
the number are a register that takes the bits of a byte from the top (`foldl_crcByte`), so the tool
computes the parameterised CRC, and with its presets the checksums of the transports.
-/

namespace TauTerm.Tools

open Lib Lib.Crc

inductive CrcWidth where
  | w8 | w16 | w32
  deriving DecidableEq

def CrcWidth.bits : CrcWidth → Nat
  | .w8 => 8
  | .w16 => 16
  | .w32 => 32

structure CrcParams where
  poly : Int
  init : Int
  refIn : Bool
  refOut : Bool
  xorOut : Int
  width : CrcWidth

def mask : CrcWidth → Int
  | .w8 => 0xFF
  | .w16 => 0xFFFF
  | .w32 => 0xFFFFFFFF

def topBit : CrcWidth → Int
  | .w8 => 0x80
  | .w16 => 0x8000
  | .w32 => 0x80000000

/-- `width === 32 ? value >>> 0 : value & mask` -/
def narrow (width : CrcWidth) (value : Int) : Int :=
  if width = .w32 then Js.ushr value 0 else Js.and value (mask width)

/-- One round of the loop of `reflect`: the source, and the result so far. -/
def reflectRound (pair : Int × Int) : Int × Int :=
  (Js.ushr pair.1 1, Js.or (Js.shl pair.2 1) (Js.and pair.1 1))

def reflect (value : Int) (width : CrcWidth) : Int :=
  let result := (reflectRound^[width.bits] (Js.ushr value 0, 0)).2
  if width = .w32 then Js.ushr result 0 else Js.and result (Js.shl 1 width.bits - 1)

def crcBit (width : CrcWidth) (polynomial crc : Int) : Int :=
  if Js.and crc (topBit width) ≠ 0 then
    narrow width (Js.xor (narrow width (Js.shl crc 1)) polynomial)
  else narrow width (Js.shl crc 1)

def takeByte (width : CrcWidth) (crc byte : Int) : Int :=
  match width with
  | .w8 => Js.xor crc byte
  | .w16 => Js.xor crc (Js.shl byte 8)
  | .w32 => Js.ushr (Js.xor crc (Js.shl byte 24)) 0

def crcByte (refIn : Bool) (width : CrcWidth) (polynomial crc byte : Int) : Int :=
  (crcBit width polynomial)^[8] (takeByte width crc (if refIn then reflect byte .w8 else byte))

def crcWithParams (data : List UInt8) (params : CrcParams) : Int :=
  let crc := data.foldl
    (fun crc byte => crcByte params.refIn params.width (narrow params.width params.poly) crc byte.toNat)
    (narrow params.width params.init)
  narrow params.width
    (Js.xor (if params.refOut then reflect crc params.width else crc) params.xorOut)

/-! ## The presets -/

inductive CrcPreset where
  | crc8 | crc8MaximDow | crc8I4321 | crc8Rohc
  | crc16Modbus | crc16Xmodem | crc16Ibm3740 | crc16Usb
  | crc32IsoHdlc | crc32Mpeg2 | crc32Bzip2 | crc32Cksum
  deriving DecidableEq

structure CrcPresetDefinition where
  params : CrcParams
  check : Int

def CRC_PRESETS : CrcPreset → CrcPresetDefinition
  | .crc8 => ⟨⟨0x07, 0x00, false, false, 0x00, .w8⟩, 0xF4⟩
  | .crc8MaximDow => ⟨⟨0x31, 0x00, true, true, 0x00, .w8⟩, 0xA1⟩
  | .crc8I4321 => ⟨⟨0x07, 0x00, false, false, 0x55, .w8⟩, 0xA1⟩
  | .crc8Rohc => ⟨⟨0x07, 0xFF, true, true, 0x00, .w8⟩, 0xD0⟩
  | .crc16Modbus => ⟨⟨0x8005, 0xFFFF, true, true, 0x0000, .w16⟩, 0x4B37⟩
  | .crc16Xmodem => ⟨⟨0x1021, 0x0000, false, false, 0x0000, .w16⟩, 0x31C3⟩
  | .crc16Ibm3740 => ⟨⟨0x1021, 0xFFFF, false, false, 0x0000, .w16⟩, 0x29B1⟩
  | .crc16Usb => ⟨⟨0x8005, 0xFFFF, true, true, 0xFFFF, .w16⟩, 0xB4C8⟩
  | .crc32IsoHdlc => ⟨⟨0x04C11DB7, 0xFFFFFFFF, true, true, 0xFFFFFFFF, .w32⟩, 0xCBF43926⟩
  | .crc32Mpeg2 => ⟨⟨0x04C11DB7, 0xFFFFFFFF, false, false, 0x00000000, .w32⟩, 0x0376E6E7⟩
  | .crc32Bzip2 => ⟨⟨0x04C11DB7, 0xFFFFFFFF, false, false, 0xFFFFFFFF, .w32⟩, 0xFC891918⟩
  | .crc32Cksum => ⟨⟨0x04C11DB7, 0x00000000, false, false, 0xFFFFFFFF, .w32⟩, 0x765E7680⟩

def crcPreset (data : List UInt8) (preset : CrcPreset) : Int := crcWithParams data (CRC_PRESETS preset).params

/-- Every preset passes its own check. -/
theorem crcPreset_check (preset : CrcPreset) :
    crcPreset "123456789".toUTF8.toList preset = (CRC_PRESETS preset).check := by
  cases preset <;> decide +kernel

/-! ## Numbers as registers -/

variable {width : CrcWidth}

theorem bits_le (width : CrcWidth) : 8 ≤ width.bits ∧ width.bits ≤ 32 := by
  cases width <;> decide

theorem narrow_eq (width : CrcWidth) (value : Int) :
    narrow width value = ((Js.int32 value).setWidth width.bits).toNat := by
  cases width with
  | w8 => exact Js.and_mask (w := 8) (by decide)
  | w16 => exact Js.and_mask (w := 16) (by decide)
  | w32 => exact congrArg (fun x : BitVec 32 => (x.toNat : Int)) (BitVec.setWidth_eq _).symm

theorem int32_narrow (width : CrcWidth) (value : Int) :
    Js.int32 (narrow width value) = ((Js.int32 value).setWidth width.bits).setWidth 32 := by
  rw [narrow_eq, Js.int32_natCast, BitVec.ofNat_toNat]

theorem setWidth_back (x : BitVec width.bits) : (x.setWidth 32).setWidth width.bits = x := by
  rw [BitVec.setWidth_setWidth_of_le x (bits_le width).2, BitVec.setWidth_eq]

theorem setWidth_shiftLeft (x : BitVec width.bits) :
    (x.setWidth 32 <<< 1).setWidth width.bits = x <<< 1 := by
  apply BitVec.eq_of_getLsbD_eq
  intro i hi
  have h32 := (bits_le width).2
  have hi32 : i < 32 := by omega
  rw [BitVec.getLsbD_setWidth, BitVec.getLsbD_shiftLeft, BitVec.getLsbD_shiftLeft, BitVec.getLsbD_setWidth]
  simp only [hi, hi32, show i - 1 < 32 by omega, decide_true, Bool.true_and]

theorem crcBit_eq (p x : BitVec width.bits) {polynomial crc : Int}
    (hp : Js.int32 polynomial = p.setWidth 32) (hx : Js.int32 crc = x.setWidth 32) :
    Js.int32 (crcBit width polynomial crc) = (msbBit p x).setWidth 32 := by
  have htop : Js.and crc (topBit width) ≠ 0 ↔ x.msb = true := by
    have hbit : Js.int32 (topBit width) = BitVec.twoPow 32 (width.bits - 1) := by
      cases width <;> decide
    have hlt : width.bits - 1 < 32 := by have := bits_le width; omega
    rw [Js.and_ne_zero, hx, hbit]
    refine (Transfer.and_twoPow_ne_zero _ _ hlt).trans ?_
    rw [BitVec.getLsbD_setWidth, decide_eq_true hlt, Bool.true_and, BitVec.msb_eq_getLsbD_last]
  have hshift : Js.int32 (narrow width (Js.shl crc 1)) = (x <<< 1).setWidth 32 := by
    rw [int32_narrow, Js.int32_shl, hx]
    exact congrArg (BitVec.setWidth 32) (setWidth_shiftLeft x)
  unfold crcBit msbBit
  simp only [htop]
  split_ifs
  · rw [int32_narrow, Js.int32_xor, hshift, hp, ← BitVec.setWidth_xor, setWidth_back]
  · exact hshift

theorem iterate_crcBit (p : BitVec width.bits) {polynomial : Int}
    (hp : Js.int32 polynomial = p.setWidth 32) (n : Nat) {x : BitVec width.bits} {crc : Int}
    (hx : Js.int32 crc = x.setWidth 32) :
    Js.int32 ((crcBit width polynomial)^[n] crc) = ((msbBit p)^[n] x).setWidth 32 := by
  induction n generalizing x crc with
  | zero => exact hx
  | succ n ih =>
    rw [Function.iterate_succ_apply, Function.iterate_succ_apply]
    exact ih (crcBit_eq p x hp hx)

theorem takeByte_eq (x : BitVec width.bits) (b : BitVec 8) {crc byte : Int}
    (hx : Js.int32 crc = x.setWidth 32) (hb : Js.int32 byte = b.setWidth 32) :
    Js.int32 (takeByte width crc byte) =
      (x ^^^ b.setWidth width.bits <<< (width.bits - 8)).setWidth 32 := by
  cases width with
  | w8 =>
    have hbyte : (b.setWidth 8 <<< 0).setWidth 32 = b.setWidth 32 := by simp
    rw [takeByte, Js.int32_xor, hx, hb, BitVec.setWidth_xor]
    exact congrArg (x.setWidth 32 ^^^ ·) hbyte.symm
  | w16 =>
    have hbyte : (b.setWidth 16 <<< 8).setWidth 32 = b.setWidth 32 <<< 8 := by
      apply BitVec.eq_of_getLsbD_eq
      intro i hi
      rw [BitVec.getLsbD_setWidth, BitVec.getLsbD_shiftLeft, BitVec.getLsbD_shiftLeft,
        BitVec.getLsbD_setWidth, BitVec.getLsbD_setWidth]
      by_cases h16 : i < 16
      · simp [hi, h16, show i - 8 < 16 by omega, show i - 8 < 32 by omega]
      · simp [hi, h16, BitVec.getLsbD_of_ge b (i - 8) (by omega)]
    rw [takeByte, Js.int32_xor, Js.int32_shl, hx, hb, BitVec.setWidth_xor]
    exact congrArg (x.setWidth 32 ^^^ ·) hbyte.symm
  | w32 =>
    have hzero : ∀ y : BitVec 32, y >>> (0 % 32) = y := fun y => by simp
    rw [takeByte, Js.int32_ushr, hzero, Js.int32_xor, Js.int32_shl, hx, hb, BitVec.setWidth_xor]
    exact congrArg (x.setWidth 32 ^^^ ·) (BitVec.setWidth_eq _).symm

/-! ## The loop of `reflect` -/

/-- After `k` rounds the last `k` bits of the source are the result, mirrored. -/
theorem reflectRound_iterate {source : Int} {x : BitVec 32} (hx : Js.int32 source = x) (k : Nat) :
    Js.int32 (reflectRound^[k] (source, 0)).1 = x >>> k ∧
      ∀ j, (Js.int32 (reflectRound^[k] (source, 0)).2).getLsbD j =
        (decide (j < 32 ∧ j < k) && x.getLsbD (k - 1 - j)) := by
  induction k with
  | zero =>
    refine ⟨by simpa using hx, fun j => ?_⟩
    simp [Js.int32]
  | succ k ih =>
    obtain ⟨hsource, hresult⟩ := ih
    rw [Function.iterate_succ_apply', reflectRound]
    refine ⟨?_, fun j => ?_⟩
    · rw [Js.int32_ushr, hsource]
      exact (BitVec.shiftRight_add x k 1).symm
    · rw [Js.int32_or, Js.int32_shl, Js.int32_and, hsource, BitVec.getLsbD_or, BitVec.getLsbD_and,
        BitVec.getLsbD_shiftLeft, BitVec.getLsbD_ushiftRight, hresult]
      have hone : (Js.int32 1).getLsbD j = decide (j = 0) := by
        simp [Js.int32]
      rw [hone]
      obtain _ | j := j
      · simp
      · simp only [Nat.succ_ne_zero, decide_false, Bool.and_false, Bool.or_false, Nat.add_sub_cancel]
        have hround : (decide (j + 1 < 32) && !decide (j + 1 < 1 % 32) && decide (j < 32 ∧ j < k)) =
            decide (j + 1 < 32 ∧ j + 1 < k + 1) := by
          rw [Bool.eq_iff_iff]
          simp only [Bool.and_eq_true, Bool.not_eq_true', decide_eq_true_eq, decide_eq_false_iff_not]
          omega
        rw [← Bool.and_assoc, hround, Nat.sub_right_comm, Nat.sub_sub]

theorem reflect_eq (x : BitVec width.bits) {value : Int} (hx : Js.int32 value = x.setWidth 32) :
    Js.int32 (reflect value width) = x.reverse.setWidth 32 := by
  have hsource : Js.int32 (Js.ushr value 0) = x.setWidth 32 := by
    rw [Js.int32_ushr, hx]
    exact BitVec.ushiftRight_zero _
  have hresult := (reflectRound_iterate hsource width.bits).2
  generalize hr : (reflectRound^[width.bits] (Js.ushr value 0, 0)).2 = result at hresult
  have hmask : width ≠ .w32 → Js.shl 1 width.bits - 1 = mask width := by
    cases width <;> decide
  have hnarrow : reflect value width = narrow width result := by
    unfold reflect narrow
    rw [hr]
    split_ifs with hwidth
    · rfl
    · rw [hmask hwidth]
  rw [hnarrow, int32_narrow]
  refine congrArg (BitVec.setWidth 32) (BitVec.eq_of_getLsbD_eq fun i hi => ?_)
  have h32 := (bits_le width).2
  rw [BitVec.getLsbD_setWidth, hresult, BitVec.getLsbD_setWidth, BitVec.getLsbD_reverse,
    BitVec.getMsbD_eq_getLsbD]
  simp only [hi, show i < 32 by omega, show width.bits - 1 - i < 32 by omega, and_self, decide_true,
    Bool.true_and]

/-! ## The register of the tool -/

theorem crcByte_eq (refIn : Bool) (p x : BitVec width.bits) (b : BitVec 8) {polynomial crc byte : Int}
    (hp : Js.int32 polynomial = p.setWidth 32) (hx : Js.int32 crc = x.setWidth 32)
    (hb : Js.int32 byte = b.setWidth 32) :
    Js.int32 (crcByte refIn width polynomial crc byte) =
      (msbByte p x (if refIn then b.reverse else b)).setWidth 32 := by
  refine iterate_crcBit p hp 8 (takeByte_eq x _ hx ?_)
  cases refIn with
  | false => exact hb
  | true => exact @reflect_eq .w8 b _ hb

theorem foldl_crcByte (refIn : Bool) (p x : BitVec width.bits) (data : List UInt8)
    {polynomial crc : Int} (hp : Js.int32 polynomial = p.setWidth 32)
    (hx : Js.int32 crc = x.setWidth 32) :
    Js.int32 (data.foldl (fun crc byte => crcByte refIn width polynomial crc byte.toNat) crc) =
      ((if refIn then (data.map UInt8.toBitVec).map BitVec.reverse else data.map UInt8.toBitVec).foldl
        (msbByte p) x).setWidth 32 := by
  induction data generalizing crc x with
  | nil => cases refIn <;> exact hx
  | cons byte data ih =>
    have hb : Js.int32 (byte.toNat : Nat) = byte.toBitVec.setWidth 32 := by
      rw [Js.int32_natCast]
      exact BitVec.ofNat_toNat 32 byte.toBitVec
    rw [List.foldl_cons, ih _ (crcByte_eq refIn p x byte.toBitVec hp hx hb)]
    cases refIn <;> rfl

/-- A parameter of the tool: as many of its lower bits as the CRC has. -/
def CrcParams.bits (params : CrcParams) (value : Int) : BitVec params.width.bits :=
  BitVec.ofInt params.width.bits value

theorem CrcParams.bits_eq (params : CrcParams) (value : Int) :
    params.bits value = (Js.int32 value).setWidth params.width.bits := by
  have hdvd : (2 ^ params.width.bits : Int) ∣ 2 ^ 32 := pow_dvd_pow 2 (bits_le params.width).2
  apply BitVec.eq_of_toNat_eq
  zify
  rw [CrcParams.bits, Js.int32, BitVec.toNat_setWidth, Int.natCast_emod, BitVec.toNat_ofInt,
    BitVec.toNat_ofInt, Int.toNat_of_nonneg (Int.emod_nonneg _ (by positivity)),
    Int.toNat_of_nonneg (Int.emod_nonneg _ (by positivity))]
  push_cast
  exact (Int.emod_emod_of_dvd value hdvd).symm

theorem crcWithParams_eq (data : List UInt8) (params : CrcParams) :
    crcWithParams data params =
      (rocksoft (params.bits params.poly) (params.bits params.init) (params.bits params.xorOut)
        params.refIn params.refOut (data.map UInt8.toBitVec)).toNat := by
  rw [rocksoft_eq (bits_le params.width).1]
  have hlast := foldl_crcByte params.refIn (params.bits params.poly) (params.bits params.init) data
    (by rw [int32_narrow, ← params.bits_eq]) (by rw [int32_narrow, ← params.bits_eq])
  unfold crcWithParams
  dsimp only
  generalize data.foldl _ _ = crc at hlast ⊢
  generalize List.foldl _ _ _ = last at hlast ⊢
  have hout : Js.int32 (if params.refOut then reflect crc params.width else crc) =
      (if params.refOut then last.reverse else last).setWidth 32 := by
    cases params.refOut with
    | false => exact hlast
    | true => exact reflect_eq last hlast
  rw [narrow_eq, Js.int32_xor, hout, BitVec.setWidth_xor, setWidth_back, params.bits_eq]

/-! ## The checksums of the transports -/

/-- A CRC whose bytes and result are mirrored takes the bits from the bottom. -/
theorem rocksoft_mirrored {w : Nat} (hw : 8 ≤ w) (poly init xorOut : BitVec w)
    (message : List (BitVec 8)) : rocksoft poly init xorOut true true message =
      message.foldl (lsbByte poly.reverse) init.reverse ^^^ xorOut := by
  have hback : (message.map BitVec.reverse).map BitVec.reverse = message := by
    rw [List.map_map]
    exact List.map_id'' (fun _ => BitVec.reverse_reverse_eq) message
  rw [rocksoft_eq hw]
  simp only [if_true]
  rw [reverse_foldl_msbByte hw, hback]

theorem crcPreset_modbus (data : List UInt8) :
    crcPreset data .crc16Modbus = (Modbus.Rtu.crc16 data).toNat := by
  have hpoly : (0x8005#16).reverse = 0xA001#16 := by decide
  have hinit : (0xFFFF#16).reverse = 0xFFFF#16 := by decide
  refine (crcWithParams_eq data _).trans (congrArg (fun x : BitVec 16 => (x.toNat : Int)) ?_)
  refine (rocksoft_mirrored (by decide) 0x8005#16 0xFFFF#16 0#16 _).trans ?_
  rw [hpoly, hinit, BitVec.xor_zero]
  exact (Script.crc16_toBitVec data).symm

theorem crcPreset_xmodem (data : List UInt8) :
    crcPreset data .crc16Xmodem = (Transfer.crc16Ccitt data).toNat := by
  refine (crcWithParams_eq data _).trans (congrArg (fun x : BitVec 16 => (x.toNat : Int)) ?_)
  refine (rocksoft_eq (by decide) 0x1021#16 0#16 0#16 false false _).trans ?_
  exact BitVec.xor_zero.trans (Script.crc16Ccitt_toBitVec data).symm

set_option maxRecDepth 20000 in
theorem crcPreset_isoHdlc (data : List UInt8) :
    crcPreset data .crc32IsoHdlc = (Transfer.crc32Zmodem data).toNat := by
  have hpoly : (0x04C11DB7#32).reverse = 0xEDB88320#32 := by decide
  have hinit : (0xFFFFFFFF#32).reverse = 0xFFFFFFFF#32 := by decide
  refine (crcWithParams_eq data _).trans (congrArg (fun x : BitVec 32 => (x.toNat : Int)) ?_)
  refine (rocksoft_mirrored (by decide) 0x04C11DB7#32 0xFFFFFFFF#32 0xFFFFFFFF#32 _).trans ?_
  rw [hpoly, hinit]
  exact (BitVec.xor_allOnes).trans (Script.crc32Zmodem_toBitVec data).symm

/-- The tool computes the parameterised CRC, and with its presets what the transports compute. -/
theorem checksumTool_refines :
    (∀ data params,
      crcWithParams data params =
          (rocksoft (params.bits params.poly) (params.bits params.init) (params.bits params.xorOut)
            params.refIn params.refOut (data.map UInt8.toBitVec)).toNat ∧
        0 ≤ crcWithParams data params ∧ crcWithParams data params < 2 ^ params.width.bits) ∧
    ∀ data,
      crcPreset data .crc16Modbus = (Modbus.Rtu.crc16 data).toNat ∧
      crcPreset data .crc16Xmodem = (Transfer.crc16Ccitt data).toNat ∧
      crcPreset data .crc32IsoHdlc = (Transfer.crc32Zmodem data).toNat := by
  refine ⟨fun data params => ⟨crcWithParams_eq data params, ?_⟩,
    fun data => ⟨crcPreset_modbus data, crcPreset_xmodem data, crcPreset_isoHdlc data⟩⟩
  rw [crcWithParams_eq]
  exact ⟨Int.natCast_nonneg _, by exact_mod_cast BitVec.isLt _⟩

end TauTerm.Tools
