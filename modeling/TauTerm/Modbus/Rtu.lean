import Mathlib
import TauTerm.Modbus.Ascii
import TauTerm.Modbus.Tcp

/-!
# Modbus RTU frames, and the three frame formats together

`codec/rtu.rs` and `encode_adu`. All three formats carry the same
PDUs: those of 1 to 253 bytes (`encodeAdu_eq_ok`).
-/

namespace TauTerm.Modbus

open Lib

namespace Rtu

/-- One round of the inner loop of `crc16`. -/
def crcShift (crc : UInt16) : UInt16 :=
  if crc &&& 1 ≠ 0 then (crc >>> 1) ^^^ 0xA001 else crc >>> 1

def crcByte (crc : UInt16) (byte : UInt8) : UInt16 := crcShift^[8] (crc ^^^ byte.toUInt16)

def crc16 (data : List UInt8) : UInt16 := data.foldl crcByte 0xFFFF

def encode (unitId : UInt8) (pdu : List UInt8) : Except String (List UInt8) :=
  if pdu = [] ∨ pdu.length > MAX_PDU_LEN then .error "invalid RTU PDU length"
  else
    let crc := crc16 (unitId :: pdu)
    .ok (unitId :: pdu ++ [crc.toUInt8, (crc >>> 8).toUInt8])

def decode (frame : List UInt8) : Except String (UInt8 × List UInt8) :=
  if frame.length < 4 then .error "RTU frame too short"
  else
    let dataLen := frame.length - 2
    let expected := crc16 (frame.take dataLen)
    let actual := ofBeBytes (frame.getD (dataLen + 1) 0) (frame.getD dataLen 0)
    if expected ≠ actual then
      .error s!"CRC mismatch: expected 0x{hexUpper 4 expected.toNat}, got 0x{hexUpper 4 actual.toNat}"
    else
      let pdu := (frame.take dataLen).drop 1
      if pdu = [] ∨ pdu.length > MAX_PDU_LEN then .error "invalid RTU PDU length"
      else .ok (frame.headD 0, pdu)

end Rtu

inductive AduMode where
  | rtu
  | ascii
  | tcp
  deriving DecidableEq

def encodeAdu (mode : AduMode) (unitId : UInt8) (transactionId : UInt16) (pdu : List UInt8) :
    Except String (List UInt8) :=
  match mode with
  | .rtu => Rtu.encode unitId pdu
  | .ascii => Ascii.encode unitId pdu
  | .tcp => Tcp.encode transactionId unitId pdu

theorem encodeAdu_isOk (mode : AduMode) (unitId : UInt8) (transactionId : UInt16) (pdu : List UInt8) :
    (encodeAdu mode unitId transactionId pdu).isOk ↔ pdu ≠ [] ∧ pdu.length ≤ MAX_PDU_LEN := by
  have h : ∀ (frame : List UInt8) (e : String),
      (if pdu = [] ∨ pdu.length > MAX_PDU_LEN then (.error e : Except String (List UInt8))
        else .ok frame).isOk ↔ pdu ≠ [] ∧ pdu.length ≤ MAX_PDU_LEN := by
    intro frame e
    by_cases hc : pdu = [] ∨ pdu.length > MAX_PDU_LEN
    · rw [if_pos hc]
      rw [← not_lt, ← not_or]
      simp only [hc, not_true_eq_false, iff_false]
      exact Bool.false_ne_true
    · rw [if_neg hc]
      rw [← not_lt, ← not_or]
      simp only [hc, not_false_eq_true, iff_true]
      rfl
  cases mode
  · exact h _ _
  · exact h _ _
  · exact h _ _

end TauTerm.Modbus
