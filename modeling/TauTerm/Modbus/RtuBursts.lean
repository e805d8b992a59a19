import Mathlib
import TauTerm.Lib.LinearRegister
import TauTerm.Modbus.Rtu

/-!
# What the RTU checksum detects

A byte enters the register as eight bits, the lowest first, and a frame with its own
checksum leaves the register empty (`crc16_eq_iff`). The shift is additive and loses
nothing, so an error pattern of up to 16 consecutive bits, alone in an empty register,
never leaves it empty.
-/

namespace TauTerm.Modbus.Rtu

open Lib

/-! ## The shift -/

theorem crcShift_odd (crc : UInt16) : crc &&& 1 ≠ 0 ↔ crc.toBitVec.getLsbD 0 = true := by
  have hbit : crc.toBitVec &&& BitVec.twoPow 16 0 ≠ 0#16 ↔ crc.toBitVec.getLsbD 0 = true := by
    rw [BitVec.and_twoPow]
    cases crc.toBitVec.getLsbD 0 <;> decide
  rw [← hbit, ne_eq, ne_eq, ← UInt16.toBitVec_inj]
  exact .rfl

theorem shiftRight_xor (a b n : UInt16) : (a ^^^ b) >>> n = (a >>> n) ^^^ (b >>> n) := by
  apply UInt16.toBitVec_inj.mp
  simp [BitVec.ushiftRight_xor_distrib]

theorem crcShift_linear : LinearShift crcShift := by
  intro a b
  have hodd : (a ^^^ b).toBitVec.getLsbD 0 = (a.toBitVec.getLsbD 0 ^^ b.toBitVec.getLsbD 0) := by
    rw [UInt16.toBitVec_xor, BitVec.getLsbD_xor]
  unfold crcShift
  simp only [crcShift_odd, hodd, shiftRight_xor]
  cases a.toBitVec.getLsbD 0 <;> cases b.toBitVec.getLsbD 0
  · rfl
  · exact UInt16.xor_assoc ..
  · simp only [Bool.xor_false, Bool.false_eq_true, if_true, if_false]
    ac_rfl
  · simp only [Bool.xor_true, Bool.not_true, Bool.false_eq_true, if_true, if_false]
    rw [show ∀ x y p : UInt16, x ^^^ p ^^^ (y ^^^ p) = x ^^^ y ^^^ (p ^^^ p) from
      fun x y p => by ac_rfl, UInt16.xor_self, UInt16.xor_zero]

theorem crcShift_zero : crcShift 0 = 0 := by decide

/-- An even number just moves down. -/
theorem crcShift_double {n : Nat} (h : n < 2 ^ 15) :
    crcShift (UInt16.ofNat (2 * n)) = UInt16.ofNat n := by
  have heven : ¬ UInt16.ofNat (2 * n) &&& 1 ≠ 0 := by
    rw [not_not]
    apply UInt16.toNat_inj.mp
    rw [UInt16.toNat_and, UInt16.toNat_ofNat']
    show (2 * n % 2 ^ 16) &&& 1 = 0
    rw [Nat.and_one_is_mod]
    omega
  rw [crcShift, if_neg heven]
  apply UInt16.toNat_inj.mp
  rw [UInt16.toNat_shiftRight, UInt16.toNat_ofNat', UInt16.toNat_ofNat']
  show (2 * n % 2 ^ 16) >>> 1 = n % 2 ^ 16
  rw [Nat.shiftRight_eq_div_pow]
  omega

/-- No register but the empty one is shifted into the empty one. -/
theorem eq_zero_of_crcShift {crc : UInt16} (h : crcShift crc = 0) : crc = 0 := by
  have hlt := crc.toNat_lt
  have hhalf : (crc >>> 1).toNat = crc.toNat / 2 := by
    rw [UInt16.toNat_shiftRight, Nat.shiftRight_eq_div_pow]
    rfl
  have hodd : (crc &&& 1).toNat = crc.toNat % 2 := by
    rw [UInt16.toNat_and]
    exact Nat.and_one_is_mod _
  unfold crcShift at h
  split_ifs at h with hbit
  · -- the polynomial's top bit stays
    have htop := congrArg UInt16.toNat (UInt16.xor_eq_zero_iff.mp h)
    rw [hhalf] at htop
    have : UInt16.toNat 0xA001 = 40961 := rfl
    omega
  · have hnat := congrArg UInt16.toNat h
    have hzero := congrArg UInt16.toNat (not_not.mp hbit)
    rw [hhalf] at hnat
    rw [hodd] at hzero
    apply UInt16.toNat_inj.mp
    have h0 : UInt16.toNat 0 = 0 := rfl
    omega

theorem eq_zero_of_iterate {crc : UInt16} (n : Nat) (h : crcShift^[n] crc = 0) : crc = 0 := by
  induction n generalizing crc with
  | zero => exact h
  | succ n ih => exact eq_zero_of_crcShift (ih h)

/-! ## Bits in the register -/

/-- A bit, where the register takes its next one. -/
def bitWord (bit : Bool) : UInt16 := if bit then 1 else 0

/-- The register after `bits`. -/
def crcBits (bits : List Bool) (crc : UInt16) : UInt16 := foldTop crcShift bitWord bits crc

/-- The number `bits` spell, the lowest first. -/
def word : List Bool → Nat
  | [] => 0
  | bit :: bits => bit.toNat + 2 * word bits

theorem word_append (bits rest : List Bool) :
    word (bits ++ rest) = word bits + 2 ^ bits.length * word rest := by
  induction bits with
  | nil => simp [word]
  | cons bit bits ih =>
    rw [List.cons_append, word, word, ih, List.length_cons, pow_succ]
    ring

example : word [false, true, true] = 6 := by decide +kernel

theorem word_lt {bits : List Bool} {k : Nat} (h : ∀ n, bits[n]? = some true → n < k) :
    word bits < 2 ^ k := by
  induction bits generalizing k with
  | nil => exact Nat.two_pow_pos k
  | cons bit bits ih =>
    cases k with
    | zero =>
      have hrest : word bits < 2 ^ 0 := ih fun n hn => by
        have := h (n + 1) hn
        omega
      have hbit : bit = false := by
        cases bit with
        | false => rfl
        | true =>
          have := h 0 rfl
          omega
      rw [word, hbit]
      simpa using hrest
    | succ k =>
      have hrest : word bits < 2 ^ k := ih fun n hn => by
        have := h (n + 1) hn
        omega
      have hbit := Bool.toNat_le bit
      rw [word, pow_succ]
      omega

theorem word_eq_zero {bits : List Bool} : word bits = 0 ↔ ∀ bit ∈ bits, bit = false := by
  induction bits with
  | nil => simp [word]
  | cons bit bits ih =>
    rw [word, List.forall_mem_cons, ← ih]
    cases bit <;> simp

/-- Bits that fit the register might as well have been in it from the start. -/
theorem crcBits_zero {bits : List Bool} (h : word bits < 2 ^ 16) :
    crcBits bits 0 = crcShift^[bits.length] (UInt16.ofNat (word bits)) := by
  induction bits with
  | nil => rfl
  | cons bit bits ih =>
    rw [word] at h
    have hhalf : word bits < 2 ^ 15 := by omega
    have hsplit : UInt16.ofNat (word (bit :: bits)) =
        bitWord bit ^^^ UInt16.ofNat (2 * word bits) := by
      apply UInt16.toNat_inj.mp
      rw [UInt16.toNat_xor, UInt16.toNat_ofNat', UInt16.toNat_ofNat', word]
      cases bit with
      | false =>
        show (0 + 2 * word bits) % 2 ^ 16 = 0 ^^^ (2 * word bits) % 2 ^ 16
        rw [Nat.zero_xor, Nat.zero_add]
      | true =>
        show (1 + 2 * word bits) % 2 ^ 16 = 1 ^^^ (2 * word bits) % 2 ^ 16
        have hsum : 1 + 2 * word bits < 2 ^ 16 := h
        rw [Nat.mod_eq_of_lt hsum, Nat.mod_eq_of_lt (by omega), Nat.xor_comm,
          Nat.xor_one_of_even (even_two_mul _), Nat.add_comm]
    calc crcBits (bit :: bits) 0 = crcBits bits (crcShift (bitWord bit)) := by
          rw [crcBits, foldTop, List.foldl_cons, UInt16.zero_xor]
          rfl
      _ = crcBits bits (0 ^^^ crcShift (bitWord bit)) := by rw [UInt16.zero_xor]
      _ = crcBits bits 0 ^^^ crcShift^[bits.length] (crcShift (bitWord bit)) :=
          foldTop_xor crcShift_linear ..
      _ = crcShift^[bits.length + 1] (UInt16.ofNat (word (bit :: bits))) := by
          rw [ih (by omega), ← crcShift_double hhalf, ← Function.iterate_succ_apply,
            ← Function.iterate_succ_apply, ← (crcShift_linear).iterate, UInt16.xor_comm, hsplit]

theorem crcBits_eq {bits : List Bool} (h : word bits < 2 ^ 16) (crc : UInt16) :
    crcBits bits crc = crcShift^[bits.length] (crc ^^^ UInt16.ofNat (word bits)) := by
  calc crcBits bits crc = crcBits bits (0 ^^^ crc) := by rw [UInt16.zero_xor]
    _ = crcBits bits 0 ^^^ crcShift^[bits.length] crc := foldTop_xor crcShift_linear ..
    _ = crcShift^[bits.length] (crc ^^^ UInt16.ofNat (word bits)) := by
        rw [crcBits_zero h, ← (crcShift_linear).iterate, UInt16.xor_comm]

/-- A burst of up to 16 bits does not pass through an empty register unseen. -/
theorem crcBits_burst {bits : List Bool} {start : Nat}
    (h : ∀ n, bits[n]? = some true → start ≤ n ∧ n < start + 16) (hzero : crcBits bits 0 = 0) :
    ∀ bit ∈ bits, bit = false := by
  induction bits generalizing start with
  | nil => exact fun _ hmem => absurd hmem List.not_mem_nil
  | cons bit bits ih =>
    cases start with
    | zero =>
      have hlt : word (bit :: bits) < 2 ^ 16 := word_lt fun n hn => by
        have := h n hn
        omega
      rw [crcBits_zero hlt] at hzero
      have hword := congrArg UInt16.toNat (eq_zero_of_iterate _ hzero)
      rw [UInt16.toNat_ofNat', Nat.mod_eq_of_lt hlt] at hword
      exact word_eq_zero.mp hword
    | succ start =>
      have hbit : bit = false := by
        cases bit with
        | false => rfl
        | true => exact absurd (h 0 rfl).1 (Nat.not_succ_le_zero start)
      subst hbit
      have hrest : ∀ n, bits[n]? = some true → start ≤ n ∧ n < start + 16 := fun n hn => by
        have := h (n + 1) hn
        omega
      exact List.forall_mem_cons.mpr ⟨rfl, ih hrest hzero⟩

/-! ## The bits of a frame -/

/-- Bit `n` of a frame, bytes in transmission order and each from its least significant bit. -/
def frameBit (frame : List UInt8) (n : Nat) : Bool := (frame.getD (n / 8) 0).toNat.testBit (n % 8)

def byteBits (byte : UInt8) : List Bool := (List.range 8).map byte.toNat.testBit

def frameBits (frame : List UInt8) : List Bool :=
  (List.range (8 * frame.length)).map (frameBit frame)

theorem frameBits_cons (byte : UInt8) (frame : List UInt8) :
    frameBits (byte :: frame) = byteBits byte ++ frameBits frame := by
  unfold frameBits byteBits
  rw [List.length_cons, Nat.mul_succ, Nat.add_comm, List.range_add, List.map_append, List.map_map]
  have hrest : ∀ n, frameBit (byte :: frame) (8 + n) = frameBit frame n := fun n => by
    unfold frameBit
    rw [Nat.add_div_left n (by norm_num), Nat.add_mod_left]
    rfl
  exact congrArg _ (List.map_congr_left fun n _ => hrest n)

example : frameBits [5, 128] = [true, false, true, false, false, false, false, false,
    false, false, false, false, false, false, false, true] := by decide +kernel

@[simp] theorem length_byteBits (byte : UInt8) : (byteBits byte).length = 8 := by
  rw [byteBits, List.length_map, List.length_range]

theorem word_testBits (n k : Nat) : word ((List.range k).map n.testBit) = n % 2 ^ k := by
  induction k generalizing n with
  | zero => simp [word, Nat.mod_one]
  | succ k ih =>
    have htail : (List.range k).map (n.testBit ∘ Nat.succ) = (List.range k).map (n / 2).testBit :=
      List.map_congr_left fun m _ => Nat.testBit_succ n m
    rw [List.range_succ_eq_map, List.map_cons, List.map_map, htail, word, ih,
      Nat.toNat_testBit, pow_zero, Nat.div_one, pow_succ', Nat.mod_mul]

theorem word_byteBits (byte : UInt8) : word (byteBits byte) = byte.toNat := by
  rw [byteBits, word_testBits, Nat.mod_eq_of_lt byte.toNat_lt]

theorem frameBits_getElem? {frame : List UInt8} {n : Nat} (h : (frameBits frame)[n]? = some true) :
    frameBit frame n = true := by
  rw [frameBits, List.getElem?_map, Option.map_eq_some_iff] at h
  obtain ⟨m, hm, hbit⟩ := h
  obtain ⟨hlt, rfl⟩ := List.getElem?_eq_some_iff.mp hm
  rwa [List.getElem_range] at hbit

/-- `crc16` is the same register with a byte at a time. -/
theorem crcByte_eq (crc : UInt16) (byte : UInt8) : crcByte crc byte = crcBits (byteBits byte) crc := by
  have hlt : word (byteBits byte) < 2 ^ 16 := by
    have := byte.toNat_lt
    rw [word_byteBits]
    omega
  have hbyte : UInt16.ofNat byte.toNat = byte.toUInt16 := by
    apply UInt16.toNat_inj.mp
    have := byte.toNat_lt
    rw [UInt16.toNat_ofNat', UInt8.toNat_toUInt16]
    omega
  rw [crcBits_eq hlt, length_byteBits, word_byteBits, hbyte, crcByte]

theorem foldl_crcByte (frame : List UInt8) (crc : UInt16) :
    frame.foldl crcByte crc = crcBits (frameBits frame) crc := by
  induction frame generalizing crc with
  | nil => rfl
  | cons byte frame ih =>
    rw [List.foldl_cons, ih, frameBits_cons, crcByte_eq]
    exact (List.foldl_append ..).symm

/-- A pattern whose set bits all lie within 16 consecutive ones. -/
def Burst (error : List UInt8) : Prop :=
  ∃ start, ∀ n, frameBit error n = true → start ≤ n ∧ n < start + 16

theorem foldl_crcByte_burst {error : List UInt8} (h : Burst error)
    (hzero : error.foldl crcByte 0 = 0) : ∀ byte ∈ error, byte = 0 := by
  obtain ⟨start, hwindow⟩ := h
  rw [foldl_crcByte] at hzero
  have hbits := crcBits_burst (fun n hn => hwindow n (frameBits_getElem? hn)) hzero
  clear hwindow hzero
  induction error with
  | nil => exact fun _ hmem => absurd hmem List.not_mem_nil
  | cons byte error ih =>
    rw [frameBits_cons] at hbits
    have hbyte : byte.toNat = 0 := by
      rw [← word_byteBits, word_eq_zero]
      exact fun bit hmem => hbits bit (List.mem_append_left _ hmem)
    exact List.forall_mem_cons.mpr ⟨UInt8.toNat_inj.mp hbyte,
      ih fun bit hmem => hbits bit (List.mem_append_right _ hmem)⟩

/-! ## Frames -/

theorem foldl_crcByte_xor {frame error : List UInt8} (h : error.length = frame.length)
    (crc : UInt16) : (List.zipWith (· ^^^ ·) frame error).foldl crcByte crc =
      frame.foldl crcByte crc ^^^ error.foldl crcByte 0 := by
  have hadd : ∀ a b : UInt8, (a ^^^ b).toUInt16 = a.toUInt16 ^^^ b.toUInt16 := UInt8.toUInt16_xor
  have := foldTop_zipWith ((crcShift_linear).iterate 8) hadd h crc 0
  rwa [UInt16.xor_zero] at this

/-- A frame ends in its own checksum just when it leaves the register empty. -/
theorem crc16_eq_iff (data : List UInt8) (lo hi : UInt8) :
    crc16 data = ofBeBytes hi lo ↔ (data ++ [lo, hi]).foldl crcByte 0xFFFF = 0 := by
  have hword : word (frameBits [lo, hi]) = hi.toNat * 256 + lo.toNat := by
    rw [frameBits_cons, frameBits_cons, word_append, word_append, word_byteBits, word_byteBits,
      length_byteBits]
    show lo.toNat + 2 ^ 8 * (hi.toNat + 2 ^ 8 * 0) = _
    omega
  have hlt : word (frameBits [lo, hi]) < 2 ^ 16 := by
    have := lo.toNat_lt
    have := hi.toNat_lt
    omega
  have hcheck : (data ++ [lo, hi]).foldl crcByte 0xFFFF =
      crcShift^[(frameBits [lo, hi]).length] (crc16 data ^^^ ofBeBytes hi lo) := by
    rw [List.foldl_append, foldl_crcByte [lo, hi], crcBits_eq hlt, hword]
    rfl
  rw [hcheck]
  constructor
  · intro h
    rw [h, UInt16.xor_self]
    exact Function.iterate_fixed crcShift_zero _
  · exact fun h => UInt16.xor_eq_zero_iff.mp (eq_zero_of_iterate _ h)

theorem exists_trailer {frame : List UInt8} (h : 4 ≤ frame.length) :
    ∃ unitId pdu lo hi, pdu ≠ [] ∧ frame = unitId :: pdu ++ [lo, hi] := by
  obtain ⟨unitId, rest, rfl⟩ := List.exists_cons_of_length_pos (l := frame) (by omega)
  obtain ⟨pdu, hi, rfl⟩ := List.eq_nil_or_concat' rest |>.resolve_left (by rintro rfl; simp at h)
  obtain ⟨pdu, lo, rfl⟩ := List.eq_nil_or_concat' pdu |>.resolve_left (by rintro rfl; simp at h)
  refine ⟨unitId, pdu, lo, hi, ?_, by simp⟩
  rintro rfl
  simp at h

theorem decode_trailer (unitId lo hi : UInt8) {pdu : List UInt8} (h : pdu ≠ []) :
    decode (unitId :: pdu ++ [lo, hi]) =
      let expected := crc16 (unitId :: pdu)
      let actual := ofBeBytes hi lo
      if expected ≠ actual then
        .error s!"CRC mismatch: expected 0x{hexUpper 4 expected.toNat}, got 0x{hexUpper 4 actual.toNat}"
      else if pdu = [] ∨ pdu.length > MAX_PDU_LEN then .error "invalid RTU PDU length"
      else .ok (unitId, pdu) := by
  have hpos := List.length_pos_iff.mpr h
  have hlen : (unitId :: pdu ++ [lo, hi]).length = (unitId :: pdu).length + 2 := by simp
  have hlong : ¬ (unitId :: pdu ++ [lo, hi]).length < 4 := by
    rw [hlen, List.length_cons]
    omega
  have hlo : (unitId :: pdu ++ [lo, hi]).getD (unitId :: pdu).length 0 = lo := by
    rw [List.getD_append_right _ _ _ _ le_rfl, Nat.sub_self]
    rfl
  have hhi : (unitId :: pdu ++ [lo, hi]).getD ((unitId :: pdu).length + 1) 0 = hi := by
    rw [List.getD_append_right _ _ _ _ (Nat.le_add_right _ 1), Nat.add_sub_cancel_left]
    rfl
  have htake : (unitId :: pdu ++ [lo, hi]).take (unitId :: pdu).length = unitId :: pdu :=
    List.take_left' rfl
  rw [decode, if_neg hlong, hlen, Nat.add_sub_cancel]
  simp only [htake, hlo, hhi]
  rfl

/-- What `decode` accepts: an address, a PDU that fits, and a checksum that empties the register. -/
theorem decode_ok {frame : List UInt8} {unitId : UInt8} {pdu : List UInt8} :
    decode frame = .ok (unitId, pdu) ↔ pdu ≠ [] ∧ pdu.length ≤ MAX_PDU_LEN ∧
      frame.foldl crcByte 0xFFFF = 0 ∧ ∃ lo hi, frame = unitId :: pdu ++ [lo, hi] := by
  constructor
  · intro h
    have hlen : 4 ≤ frame.length := by
      by_contra hshort
      rw [decode, if_pos (Nat.lt_of_not_le hshort)] at h
      cases h
    obtain ⟨unitId', pdu', lo, hi, hne, rfl⟩ := exists_trailer hlen
    rw [decode_trailer _ _ _ hne] at h
    dsimp only at h
    split_ifs at h with hcrc hpdu
    cases h
    exact ⟨hne, by omega, (crc16_eq_iff _ lo hi).mp (not_not.mp hcrc), lo, hi, rfl⟩
  · rintro ⟨hne, hmax, hzero, lo, hi, rfl⟩
    have hcrc := (crc16_eq_iff (unitId :: pdu) lo hi).mpr hzero
    have hpdu : ¬ (pdu = [] ∨ pdu.length > MAX_PDU_LEN) :=
      not_or.mpr ⟨hne, Nat.not_lt.mpr hmax⟩
    rw [decode_trailer _ _ _ hne]
    dsimp only
    rw [if_neg (not_not.mpr hcrc), if_neg hpdu]

/-- Every accepted frame leaves the register empty, whatever it carries. -/
theorem foldl_crcByte_of_decode {frame : List UInt8} {x : UInt8 × List UInt8}
    (h : decode frame = .ok x) : frame.foldl crcByte 0xFFFF = 0 :=
  ((decode_ok).mp h).2.2.1

theorem encode_decode {frame : List UInt8} {unitId : UInt8} {pdu : List UInt8}
    (h : decode frame = .ok (unitId, pdu)) : encode unitId pdu = .ok frame := by
  obtain ⟨hne, hmax, hzero, lo, hi, rfl⟩ := (decode_ok).mp h
  have hcrc := (crc16_eq_iff (unitId :: pdu) lo hi).mpr hzero
  have hpdu : ¬ (pdu = [] ∨ pdu.length > MAX_PDU_LEN) := not_or.mpr ⟨hne, Nat.not_lt.mpr hmax⟩
  rw [encode, if_neg hpdu, hcrc]
  simp only [lo_ofBeBytes, hi_ofBeBytes]

theorem decode_encode {unitId : UInt8} {pdu : List UInt8} (hne : pdu ≠ [])
    (hmax : pdu.length ≤ MAX_PDU_LEN) :
    ∃ frame, encode unitId pdu = .ok frame ∧ decode frame = .ok (unitId, pdu) := by
  have hpdu : ¬ (pdu = [] ∨ pdu.length > MAX_PDU_LEN) := not_or.mpr ⟨hne, Nat.not_lt.mpr hmax⟩
  have hcrc := (ofBeBytes_hi_lo (crc16 (unitId :: pdu))).symm
  refine ⟨_, if_neg hpdu, (decode_ok).mpr ⟨hne, hmax, ?_, _, _, rfl⟩⟩
  exact (crc16_eq_iff _ _ _).mp hcrc

example : decode [0x01, 0x03, 0x00, 0x00, 0x00, 0x0A, 0xC5, 0xCD] =
    .ok (1, [0x03, 0, 0, 0, 0x0A]) := by decide +kernel

/-- RTU frames go there and back, and no burst of up to 16 bits passes for a frame. -/
theorem decode_rejects_bursts :
    (∀ frame error x, decode frame = .ok x → error.length = frame.length →
      (∃ byte ∈ error, byte ≠ 0) → Burst error →
        ∃ e, decode (List.zipWith (· ^^^ ·) frame error) = .error e) ∧
    (∀ unitId pdu, 1 ≤ pdu.length → pdu.length ≤ 253 →
      ∃ frame, encode unitId pdu = .ok frame ∧ decode frame = .ok (unitId, pdu)) ∧
    (∀ frame unitId pdu, decode frame = .ok (unitId, pdu) → encode unitId pdu = .ok frame) := by
  refine ⟨fun frame error x hok hlen hflip hburst => ?_, fun unitId pdu hpos hmax => ?_,
    fun frame unitId pdu hok => encode_decode hok⟩
  · cases haltered : decode (List.zipWith (· ^^^ ·) frame error) with
    | error e => exact ⟨e, rfl⟩
    | ok y =>
      have hzero := foldl_crcByte_of_decode haltered
      rw [foldl_crcByte_xor hlen, foldl_crcByte_of_decode hok, UInt16.zero_xor] at hzero
      obtain ⟨byte, hmem, hbyte⟩ := hflip
      exact absurd (foldl_crcByte_burst hburst hzero byte hmem) hbyte
  · exact decode_encode (List.length_pos_iff.mp hpos) hmax

theorem frameBit_of_le {frame : List UInt8} {n : Nat} (h : 8 * frame.length ≤ n) :
    frameBit frame n = false := by
  rw [frameBit, List.getD_eq_default _ _ (by omega)]
  exact Nat.zero_testBit _

set_option maxRecDepth 10000 in
/-- The last data bit and the first two of the checksum. -/
theorem decode_rejects_bursts_straddling :
    (∃ e, decode (List.zipWith (· ^^^ ·) [0x01, 0x03, 0x00, 0x00, 0x00, 0x0A, 0xC5, 0xCD]
      [0, 0, 0, 0, 0, 0x80, 0x03, 0]) = .error e) ∧
    (∃ frame, encode 1 [0x03, 0, 0, 0, 0x0A] = .ok frame ∧
      decode frame = .ok (1, [0x03, 0, 0, 0, 0x0A])) ∧
    encode 1 [0x03, 0, 0, 0, 0x0A] = .ok [0x01, 0x03, 0x00, 0x00, 0x00, 0x0A, 0xC5, 0xCD] := by
  obtain ⟨hburst, hround, hback⟩ := decode_rejects_bursts
  have hok : decode [0x01, 0x03, 0x00, 0x00, 0x00, 0x0A, 0xC5, 0xCD] =
      .ok (1, [0x03, 0, 0, 0, 0x0A]) := by decide
  have hbits : ∀ n < 64, frameBit [0, 0, 0, 0, 0, 0x80, 0x03, 0] n = true → 47 ≤ n ∧ n < 63 := by
    decide
  refine ⟨hburst _ _ _ hok rfl ⟨0x80, by decide, by decide⟩ ⟨47, fun n hn => ?_⟩,
    hround _ _ (by decide) (by decide), hback _ _ _ hok⟩
  refine hbits n (Nat.lt_of_not_le fun hle => ?_) hn
  rw [frameBit_of_le hle] at hn
  cases hn

end TauTerm.Modbus.Rtu
