import Mathlib
import TauTerm.Modbus.DataModelSpec

/-!
# Requests are atomic

`Points` is what a client can read and write. A request that fails leaves it as
it was; one that succeeds changes it by `ModbusRequest.effect`; none ever defines
a point or takes one away.
-/

namespace TauTerm.Modbus

open Lib

structure Points where
  coils : UInt16 → Option Bool
  discreteInputs : UInt16 → Option Bool
  holdingRegisters : UInt16 → Option UInt16
  inputRegisters : UInt16 → Option UInt16
  fileRecords : UInt16 × UInt16 → Option UInt16

def ModelInner.points (inner : ModelInner) : Points where
  coils := inner.addressSpace.coils.values
  discreteInputs := inner.addressSpace.discreteInputs.values
  holdingRegisters := inner.addressSpace.holdingRegisters.values
  inputRegisters := inner.addressSpace.inputRegisters.values
  fileRecords := inner.fileRecords

/-- The change a successful request asks for. A write takes the addressed points
to the requested values and leaves every other point; nothing else writes. -/
def ModbusRequest.effect : ModbusRequest → Points → Points
  | .writeSingleCoil address value, p =>
    { p with coils := writeSpan p.coils address.toNat [value] }
  | .writeSingleRegister address value, p =>
    { p with holdingRegisters := writeSpan p.holdingRegisters address.toNat [value] }
  | .writeMultipleCoils address values, p =>
    { p with coils := writeSpan p.coils address.toNat values }
  | .writeMultipleRegisters address values, p =>
    { p with holdingRegisters := writeSpan p.holdingRegisters address.toNat values }
  | .maskWriteRegister address andMask orMask, p =>
    { p with holdingRegisters := fun point =>
        if point = address then
          (p.holdingRegisters address).map fun old => (old &&& andMask) ||| (orMask &&& ~~~andMask)
        else p.holdingRegisters point }
  | .readWriteMultipleRegisters _ _ writeAddress values, p =>
    { p with holdingRegisters := writeSpan p.holdingRegisters writeAddress.toNat values }
  | .writeFileRecord records, p => { p with fileRecords := writeRecords p.fileRecords records }
  | _, p => p

/-- The same addresses are defined in all four blocks. -/
structure SameDefined (p q : Points) : Prop where
  coils : ∀ point, (q.coils point).isSome = (p.coils point).isSome
  discreteInputs : ∀ point, (q.discreteInputs point).isSome = (p.discreteInputs point).isSome
  holdingRegisters : ∀ point, (q.holdingRegisters point).isSome = (p.holdingRegisters point).isSome
  inputRegisters : ∀ point, (q.inputRegisters point).isSome = (p.inputRegisters point).isSome

theorem SameDefined.refl (p : Points) : SameDefined p p :=
  ⟨fun _ => rfl, fun _ => rfl, fun _ => rfl, fun _ => rfl⟩

/-- A write of one value changes one point. -/
theorem writeSpan_singleton {α : Type} (m : UInt16 → Option α) (address : UInt16) (value : α)
    (point : UInt16) :
    writeSpan m address.toNat [value] point = if point = address then some value else m point := by
  have h := congrFun (writeSpan_update m address value []) point
  rw [writeSpan_nil, Function.update_apply] at h
  exact h.symm

theorem Executes.points {request : ModbusRequest} {inner inner' : ModelInner} {fields : List UInt8}
    (h : Executes request inner fields inner') : inner'.points = request.effect inner.points := by
  cases h with
  | maskWriteRegister current hc hd =>
    unfold ModbusRequest.effect ModelInner.points ModelInner.setHoldingRegisters
    simp only [hc, Option.map_some, Points.mk.injEq, true_and, and_true]
    funext point
    rw [writeSpan_singleton]
  | _ => rfl

theorem Executes.sameDefined {request : ModbusRequest} {inner inner' : ModelInner}
    {fields : List UInt8} (h : Executes request inner fields inner') :
    SameDefined inner.points inner'.points := by
  have coils : ∀ {address : UInt16} {values : List Bool},
      DefinedOn inner.addressSpace.coils.values address values.length →
      SameDefined inner.points
        (inner.setCoils ⟨writeSpan inner.addressSpace.coils.values address.toNat values⟩).points :=
    fun hd => ⟨isSome_writeSpan hd, fun _ => rfl, fun _ => rfl, fun _ => rfl⟩
  have registers : ∀ {address : UInt16} {values : List UInt16},
      DefinedOn inner.addressSpace.holdingRegisters.values address values.length →
      SameDefined inner.points (inner.setHoldingRegisters
        ⟨writeSpan inner.addressSpace.holdingRegisters.values address.toNat values⟩).points :=
    fun hd => ⟨fun _ => rfl, fun _ => rfl, isSome_writeSpan hd, fun _ => rfl⟩
  cases h with
  | writeSingleCoil hd => exact coils hd
  | writeMultipleCoils hd => exact coils hd
  | writeSingleRegister hd => exact registers hd
  | writeMultipleRegisters hd => exact registers hd
  | maskWriteRegister current hc hd => exact registers hd
  | readWriteMultipleRegisters read hd hlen hread => exact registers hd
  | _ => exact ⟨fun _ => rfl, fun _ => rfl, fun _ => rfl, fun _ => rfl⟩

/-- What `r`, the result of a request on `inner`, may look like. -/
structure AtomicOutcome (request : ModbusRequest) (inner : ModelInner)
    (r : Except Abort (List UInt8) × ModelInner) : Prop where
  /-- No address computation passes 65535. -/
  noOverflow : r.1 ≠ .error .overflow
  sameDefined : SameDefined inner.points r.2.points
  error_unchanged : ∀ e, r.1 = .error e → r.2.points = inner.points
  ok_effect : ∀ out, r.1 = .ok out → r.2.points = request.effect inner.points
  /-- The registers that read/write answers are those after its own write. -/
  readAfterWrite : ∀ readAddress readQuantity writeAddress values out,
    request = .readWriteMultipleRegisters readAddress readQuantity writeAddress values →
    r.1 = .ok out →
    ∃ read : List UInt16, read.length = readQuantity.toNat ∧
      out = 0x17 :: UInt8.ofNat (read.length * 2) :: wordsBytes read ∧
      ∀ i, (h : i < read.length) →
        r.2.points.holdingRegisters (readAddress + UInt16.ofNat i) = some read[i]

/-- Every request on every model state is atomic. -/
theorem execute_atomic (request : ModbusRequest) (inner : ModelInner) :
    AtomicOutcome request inner (execute request inner) := by
  rcases execute_cases request inner with ⟨fields, inner', h, e⟩ | ⟨code, e⟩
  · rw [e]
    refine ⟨by simp, h.sameDefined, by simp, fun out _ => h.points, ?_⟩
    rintro readAddress readQuantity writeAddress values out rfl hout
    obtain rfl := Except.ok.inj hout
    cases h with
    | readWriteMultipleRegisters read hd hlen hread => exact ⟨read, hlen, rfl, hread⟩
  · rw [e]
    exact ⟨by simp, .refl _, fun _ _ => rfl, by simp, by simp⟩

end TauTerm.Modbus
