import Mathlib
import TauTerm.Modbus.DataModel

/-!
# What the data model operations do

One lemma for each operation on an address block and on the file records: it
succeeds with a stated effect, or answers an exception code and changes nothing.
No operation ever adds past 65535.
-/

namespace TauTerm.Modbus

open Lib

/-- An outcome that is an exception code, not an overflowing addition. -/
def IsException {α : Type} (r : Except Abort α) : Prop := ∃ code, r = .error (.exception code)

@[simp] theorem isException_error {α : Type} (code : UInt8) :
    IsException (.error (.exception code) : Except Abort α) := ⟨code, rfl⟩

theorem IsException.bind {α β : Type} {r : Except Abort α} (h : IsException r)
    (f : α → Except Abort β) : IsException (r >>= f) := by
  obtain ⟨code, rfl⟩ := h
  exact ⟨code, rfl⟩

/-! ## Loops over `Except` -/

section Loops

variable {ε α β : Type}

theorem forM_except (f : α → Except ε Unit) (l : List α) :
    (l.forM f = .ok () ∧ ∀ x ∈ l, f x = .ok ()) ∨ ∃ x ∈ l, ∃ e, f x = .error e ∧ l.forM f = .error e := by
  induction l with
  | nil => exact .inl ⟨rfl, by simp⟩
  | cons x l ih =>
    rw [show (x :: l).forM f = (f x >>= fun _ => l.forM f) from rfl]
    cases hx : f x with
    | error e => exact .inr ⟨x, List.mem_cons_self, e, hx, rfl⟩
    | ok u =>
      rw [ok_bind]
      rcases ih with ⟨h, hall⟩ | ⟨y, hy, e, hye, h⟩
      · exact .inl ⟨h, List.forall_mem_cons.mpr ⟨hx, hall⟩⟩
      · exact .inr ⟨y, List.mem_cons_of_mem x hy, e, hye, h⟩

theorem mapM_except (f : α → Except ε β) (l : List α) :
    (∃ ys, l.mapM f = .ok ys ∧ List.Forall₂ (fun x y => f x = .ok y) l ys) ∨
      ∃ x ∈ l, ∃ e, f x = .error e ∧ l.mapM f = .error e := by
  induction l with
  | nil => exact .inl ⟨[], rfl, .nil⟩
  | cons x l ih =>
    rw [List.mapM_cons]
    cases hx : f x with
    | error e => exact .inr ⟨x, List.mem_cons_self, e, hx, rfl⟩
    | ok y =>
      rw [ok_bind]
      rcases ih with ⟨ys, h, hall⟩ | ⟨z, hz, e, hze, h⟩
      · exact .inl ⟨y :: ys, by rw [h]; rfl, .cons hx hall⟩
      · exact .inr ⟨z, List.mem_cons_of_mem x hz, e, hze, by rw [h]; rfl⟩

end Loops

/-! ## Spans -/

/-- The value that a write of `values` from `start` on asks for at `point`. -/
def spanValue {α : Type} (start : Nat) (values : List α) (point : UInt16) : Option α :=
  if start ≤ point.toNat then values[point.toNat - start]? else none

/-- `m` after a write of `values` from `start` on. -/
def writeSpan {α : Type} (m : UInt16 → Option α) (start : Nat) (values : List α) (point : UInt16) :
    Option α :=
  (spanValue start values point).or (m point)

/-- The span is inside the address space and every point of it is defined. -/
def DefinedOn {α : Type} (m : UInt16 → Option α) (address : UInt16) (len : Nat) : Prop :=
  address.toNat + len ≤ 65536 ∧ ∀ i < len, ∃ value, m (address + UInt16.ofNat i) = some value

@[simp] theorem writeSpan_nil {α : Type} (m : UInt16 → Option α) (start : Nat) :
    writeSpan m start [] = m := by
  funext point
  simp [writeSpan, spanValue]

/-- A write of the first value, then of the rest one address on. -/
theorem writeSpan_update {α : Type} (m : UInt16 → Option α) (point : UInt16) (value : α)
    (values : List α) :
    writeSpan (Function.update m point (some value)) (point.toNat + 1) values =
      writeSpan m point.toNat (value :: values) := by
  funext p
  unfold writeSpan spanValue
  rcases Nat.lt_trichotomy p.toNat point.toNat with h | h | h
  · have hne : p ≠ point := by rintro rfl; omega
    rw [if_neg (by omega), if_neg (by omega), Function.update_of_ne hne]
  · obtain rfl := UInt16.toNat_inj.mp h
    rw [if_neg (by omega), if_pos le_rfl, Function.update_self, Nat.sub_self]
    rfl
  · have hne : p ≠ point := by rintro rfl; omega
    have hsub : p.toNat - point.toNat = (p.toNat - (point.toNat + 1)) + 1 := by omega
    rw [if_pos (by omega), if_pos (by omega), Function.update_of_ne hne, hsub,
      List.getElem?_cons_succ]

theorem toNat_add_ofNat {address : UInt16} {n : Nat} (h : address.toNat + n < 65536) :
    (address + UInt16.ofNat n).toNat = address.toNat + n := by
  rw [UInt16.toNat_add, UInt16.toNat_ofNat', Nat.mod_eq_of_lt (show n < 2 ^ 16 by omega),
    Nat.mod_eq_of_lt (by omega)]

theorem addAddress_ok {address : UInt16} {n : Nat} (h : address.toNat + n < 65536) :
    addAddress address (UInt16.ofNat n) = .ok (address + UInt16.ofNat n) := by
  unfold addAddress
  rw [if_pos]
  rw [UInt16.toNat_ofNat', Nat.mod_eq_of_lt (show n < 2 ^ 16 by omega)]
  exact h

theorem spanValue_eq_some {α : Type} {start : Nat} {values : List α} {point : UInt16} {value : α}
    (h : spanValue start values point = some value) :
    start ≤ point.toNat ∧ point.toNat - start < values.length := by
  unfold spanValue at h
  split_ifs at h with hs
  exact ⟨hs, (List.getElem?_eq_some_iff.mp h).1⟩

/-- A write to defined points defines no other. -/
theorem isSome_writeSpan {α : Type} {m : UInt16 → Option α} {address : UInt16} {values : List α}
    (h : DefinedOn m address values.length) (point : UInt16) :
    (writeSpan m address.toNat values point).isSome = (m point).isSome := by
  unfold writeSpan
  rcases hv : spanValue address.toNat values point with _ | value
  · rfl
  · obtain ⟨hle, hlt⟩ := spanValue_eq_some hv
    obtain ⟨old, hold⟩ := h.2 _ hlt
    have hp : address + UInt16.ofNat (point.toNat - address.toNat) = point := by
      apply UInt16.toNat_inj.mp
      have := point.toNat_lt
      rw [toNat_add_ofNat (by omega)]
      omega
    rw [hp] at hold
    rw [hold]
    rfl

/-! ## Block operations -/

theorem ensureSpan_cases (address : UInt16) (len : Nat) :
    (ensureSpan address len = .ok () ∧ 0 < len ∧ address.toNat + len ≤ 65536) ∨
      (IsException (ensureSpan address len) ∧ ¬ (0 < len ∧ address.toNat + len ≤ 65536)) := by
  unfold ensureSpan
  by_cases h0 : len = 0
  · rw [if_pos h0]
    exact .inr ⟨isException_error _, by omega⟩
  rw [if_neg h0]
  have hn : len - 1 ≤ 65535 → (UInt16.ofNat (len - 1)).toNat = len - 1 := by
    intro h
    rw [UInt16.toNat_ofNat', Nat.mod_eq_of_lt (by omega)]
  by_cases hspan : len - 1 > 65535 ∨ address.toNat + (UInt16.ofNat (len - 1)).toNat ≥ 65536
  · simp only [if_pos hspan]
    refine .inr ⟨isException_error _, fun h => ?_⟩
    rw [hn (by omega)] at hspan
    omega
  · simp only [if_neg hspan]
    rw [not_or] at hspan
    rw [hn (by omega)] at hspan
    exact .inl ⟨trivial, by omega, by omega⟩

namespace AddressBlock

variable {α : Type}

theorem get_eq_ok {block : AddressBlock α} {address : UInt16} {value : α} :
    block.get address = .ok value ↔ block.values address = some value := by
  unfold get
  cases block.values address <;> simp

theorem get_cases (block : AddressBlock α) (address : UInt16) :
    (∃ value, block.get address = .ok value) ∨ IsException (block.get address) := by
  unfold get
  cases block.values address with
  | none => exact .inr (isException_error _)
  | some value => exact .inl ⟨value, rfl⟩

theorem ensureDefined_cases (block : AddressBlock α) (address : UInt16) (len : Nat) :
    (block.ensureDefined address len = .ok () ∧ 0 < len ∧ DefinedOn block.values address len) ∨
      (IsException (block.ensureDefined address len) ∧
        ¬ (0 < len ∧ DefinedOn block.values address len)) := by
  unfold ensureDefined
  rcases ensureSpan_cases address len with ⟨hs, hpos, hle⟩ | ⟨hs, hn⟩
  · rw [hs, ok_bind]
    have hadd : ∀ i ∈ List.range len, addAddress address (UInt16.ofNat i) =
        .ok (address + UInt16.ofNat i) := by
      intro i hi
      rw [List.mem_range] at hi
      exact addAddress_ok (by omega)
    rcases forM_except (fun offset => do
        let point ← addAddress address (UInt16.ofNat offset)
        if block.values point = none then .error (.exception EX_ILLEGAL_DATA_ADDRESS) else .ok ())
      (List.range len) with ⟨h, hall⟩ | ⟨i, hi, e, he, h⟩
    · refine .inl ⟨h, hpos, hle, fun i hi => ?_⟩
      have hone := hall i (List.mem_range.mpr hi)
      rw [hadd i (List.mem_range.mpr hi), ok_bind, ite_error_eq_ok] at hone
      exact Option.ne_none_iff_exists'.mp hone.1
    · rw [hadd i hi, ok_bind] at he
      split_ifs at he with hv
      refine .inr ⟨by rw [h, ← he]; exact isException_error _, fun hd => ?_⟩
      obtain ⟨value, hvalue⟩ := hd.2.2 i (List.mem_range.mp hi)
      rw [hv] at hvalue
      cases hvalue
  · exact .inr ⟨hs.bind _, fun hd => hn ⟨hd.1, hd.2.1⟩⟩

theorem ensureDefined_of_definedOn {block : AddressBlock α} {address : UInt16} {len : Nat}
    (hpos : 0 < len) (h : DefinedOn block.values address len) :
    block.ensureDefined address len = .ok () := by
  rcases block.ensureDefined_cases address len with ⟨he, -⟩ | ⟨-, hn⟩
  · exact he
  · exact absurd ⟨hpos, h⟩ hn

theorem read_of_definedOn {block : AddressBlock α} {address quantity : UInt16}
    (he : block.ensureDefined address quantity.toNat = .ok ())
    (hd : DefinedOn block.values address quantity.toNat) :
    ∃ values, block.read address quantity = .ok values ∧ values.length = quantity.toNat ∧
      ∀ i, (h : i < values.length) → block.values (address + UInt16.ofNat i) = some values[i] := by
  unfold read
  rw [he, ok_bind]
  rcases mapM_except (fun offset => do
      let point ← addAddress address (UInt16.ofNat offset)
      block.get point) (List.range quantity.toNat) with ⟨values, h, hall⟩ | ⟨i, hi, e, hie, -⟩
  · refine ⟨values, h, ?_, fun i hi => ?_⟩
    · rw [← hall.length_eq, List.length_range]
    · have hlen := hall.length_eq
      rw [List.length_range] at hlen
      have hone := hall.get (by rw [List.length_range]; omega) hi
      simp only [List.get_eq_getElem, List.getElem_range] at hone
      rw [addAddress_ok (by have := hd.1; omega), ok_bind] at hone
      exact get_eq_ok.mp hone
  · rw [List.mem_range] at hi
    obtain ⟨value, hv⟩ := hd.2 i hi
    rw [addAddress_ok (by have := hd.1; omega), ok_bind, get_eq_ok.mpr hv] at hie
    cases hie

theorem read_cases (block : AddressBlock α) (address quantity : UInt16) :
    (∃ values, block.read address quantity = .ok values ∧ values.length = quantity.toNat ∧
      ∀ i, (h : i < values.length) → block.values (address + UInt16.ofNat i) = some values[i]) ∨
      IsException (block.read address quantity) := by
  rcases block.ensureDefined_cases address quantity.toNat with ⟨he, -, hd⟩ | ⟨he, -⟩
  · exact .inl (read_of_definedOn he hd)
  · exact .inr (he.bind _)

theorem writeFrom_run (address : UInt16) (values : List α) (index : Nat) (block : AddressBlock α)
    (h : address.toNat + index + values.length ≤ 65536) :
    writeFrom address index values block =
      (.ok (), ⟨writeSpan block.values (address.toNat + index) values⟩) := by
  induction values generalizing index block with
  | nil => rw [writeSpan_nil]; rfl
  | cons value values ih =>
    rw [List.length_cons] at h
    have hp := @toNat_add_ofNat address index (by omega)
    unfold writeFrom
    rw [Exec.bind_run_ok (by rw [Exec.ofExcept_run, addAddress_ok (by omega)]),
      Exec.bind_run_ok (Exec.modify_run _ _), ih (index + 1) _ (by omega)]
    rw [← hp, ← writeSpan_update, hp]
    rfl

theorem writeExisting_cases (block : AddressBlock α) (address : UInt16) (values : List α) :
    (writeExisting address values block =
        (.ok (), ⟨writeSpan block.values address.toNat values⟩) ∧
      0 < values.length ∧ DefinedOn block.values address values.length) ∨
      ∃ code, writeExisting address values block = (.error (.exception code), block) := by
  unfold writeExisting
  rw [Exec.bind_run_ok (Exec.get_run _)]
  rcases block.ensureDefined_cases address values.length with ⟨he, hpos, hd⟩ | ⟨⟨code, he⟩, -⟩
  · rw [Exec.bind_run_ok (by rw [Exec.ofExcept_run, he]), writeFrom_run address values 0 block
      (by have := hd.1; omega)]
    exact .inl ⟨rfl, hpos, hd⟩
  · right
    exact ⟨code, Exec.bind_run_error (by rw [Exec.ofExcept_run, he]) _⟩

end AddressBlock

/-! ## File records -/

/-- The value that a record of a write request asks for. -/
def FileRecordWrite.valueAt (request : FileRecordWrite) (key : UInt16 × UInt16) : Option UInt16 :=
  if request.fileNumber = key.1 then spanValue request.recordNumber.toNat request.values key.2
  else none

/-- The value a list of them asks for; where they overlap the last one counts. -/
def requestedValue (requests : List FileRecordWrite) (key : UInt16 × UInt16) : Option UInt16 :=
  requests.reverse.findSome? (·.valueAt key)

theorem requestedValue_cons (request : FileRecordWrite) (requests : List FileRecordWrite)
    (key : UInt16 × UInt16) :
    requestedValue (request :: requests) key =
      (requestedValue requests key).or (request.valueAt key) := by
  unfold requestedValue
  rw [List.reverse_cons, List.findSome?_append, List.findSome?_cons]
  cases request.valueAt key <;> rfl

def writeRecords (records : FileRecords) (requests : List FileRecordWrite) : FileRecords :=
  fun key => (requestedValue requests key).or (records key)

theorem applyFileWriteFrom_run (fileNumber recordNumber : UInt16) (values : List UInt16)
    (offset : Nat) (records : FileRecords) (h : recordNumber.toNat + offset + values.length ≤ 65536) :
    applyFileWriteFrom fileNumber recordNumber offset values records =
      (.ok (), fun key => (if fileNumber = key.1 then
          spanValue (recordNumber.toNat + offset) values key.2 else none).or (records key)) := by
  induction values generalizing offset records with
  | nil =>
    refine Prod.ext rfl (funext fun key => ?_)
    simp [spanValue, applyFileWriteFrom]
  | cons value values ih =>
    rw [List.length_cons] at h
    have hp := @toNat_add_ofNat recordNumber offset (by omega)
    unfold applyFileWriteFrom
    rw [Exec.bind_run_ok (by rw [Exec.ofExcept_run, addAddress_ok (by omega)]),
      Exec.bind_run_ok (Exec.modify_run _ _), ih (offset + 1) _ (by omega)]
    refine Prod.ext rfl (funext fun key => ?_)
    by_cases hf : fileNumber = key.1
    · -- within the file this is a write to its records
      have hw := congrFun (writeSpan_update (fun record => records (fileNumber, record))
        (recordNumber + UInt16.ofNat offset) value values) key.2
      rw [hp] at hw
      have hkey : key = (fileNumber, key.2) := Prod.ext hf.symm rfl
      simp only [if_pos hf]
      unfold writeSpan at hw
      rw [hkey]
      simp only [Function.update_apply, Prod.mk.injEq, true_and] at hw ⊢
      exact hw
    · have hne : key ≠ (fileNumber, recordNumber + UInt16.ofNat offset) := by
        rintro rfl
        exact hf rfl
      simp only [if_neg hf, Function.update_of_ne hne]

/-- The spans of all records end inside the record numbers. -/
def SpansInside (requests : List FileRecordWrite) : Prop :=
  ∀ request ∈ requests,
    0 < request.values.length ∧ request.recordNumber.toNat + request.values.length ≤ 65536

theorem applyFileWrites_run (requests : List FileRecordWrite) (records : FileRecords)
    (h : SpansInside requests) :
    applyFileWrites requests records = (.ok (), writeRecords records requests) := by
  induction requests generalizing records with
  | nil => rfl
  | cons request requests ih =>
    have hr := List.forall_mem_cons.mp h
    rw [show applyFileWrites (request :: requests) =
      (applyFileWriteFrom request.fileNumber request.recordNumber 0 request.values >>= fun _ =>
        applyFileWrites requests) from rfl]
    rw [Exec.bind_run_ok (applyFileWriteFrom_run _ _ _ 0 records (by have := hr.1.2; omega)),
      ih _ hr.2]
    refine Prod.ext rfl (funext fun key => ?_)
    change (requestedValue requests key).or ((request.valueAt key).or (records key)) =
      (requestedValue (request :: requests) key).or (records key)
    rw [requestedValue_cons, Option.or_assoc]

theorem countPrefixed_cases (payload : List UInt8) :
    (countPrefixed payload = .ok (UInt8.ofNat payload.length :: payload) ∧ payload.length ≤ 255) ∨
      (IsException (countPrefixed payload) ∧ 255 < payload.length) := by
  unfold countPrefixed
  by_cases h : payload.length > 255
  · rw [if_pos h]
    exact .inr ⟨isException_error _, h⟩
  · rw [if_neg h]
    exact .inl ⟨rfl, by omega⟩

theorem validateFileWrites_cases (requests : List FileRecordWrite) :
    (validateFileWrites requests = .ok () ∧ SpansInside requests ∧
      (requests.flatMap FileRecordWrite.encode).length ≤ 255) ∨
      IsException (validateFileWrites requests) := by
  unfold validateFileWrites encodeFileWriteEcho
  rcases forM_except (fun request : FileRecordWrite =>
      ensureSpan request.recordNumber request.values.length) requests with ⟨h, hall⟩ | ⟨x, -, e, he, h⟩
  · rw [h, ok_bind]
    rcases countPrefixed_cases (requests.flatMap FileRecordWrite.encode) with ⟨hc, hlen⟩ | ⟨hc, -⟩
    · rw [hc, ok_bind]
      refine .inl ⟨rfl, fun request hr => ?_, hlen⟩
      rcases ensureSpan_cases request.recordNumber request.values.length with ⟨-, hs⟩ | ⟨⟨code, hs⟩, -⟩
      · exact hs
      · cases (hall request hr).symm.trans hs
    · exact .inr (hc.bind _)
  · right
    rcases ensureSpan_cases x.recordNumber x.values.length with ⟨hs, -⟩ | ⟨⟨code, hs⟩, -⟩
    · cases hs.symm.trans he
    · obtain rfl := Except.error.inj (hs.symm.trans he)
      exact ⟨code, by rw [h]; rfl⟩

/-- Every record that a read request addresses exists, none beyond 65535. -/
def RecordsDefined (records : FileRecords) (requests : List FileRecordRead) : Prop :=
  ∀ request ∈ requests, ∀ offset < request.recordLength.toNat,
    request.recordNumber.toNat + offset < 65536 ∧
      ∃ value, records (request.fileNumber, request.recordNumber + UInt16.ofNat offset) = some value

theorem lookup_cases (records : FileRecords) (fileNumber recordNumber : UInt16) {offset : Nat}
    (ho : offset < 65536) :
    (∃ value, records.lookup fileNumber recordNumber (UInt16.ofNat offset) = .ok value ∧
      recordNumber.toNat + offset < 65536 ∧
      records (fileNumber, recordNumber + UInt16.ofNat offset) = some value) ∨
    (IsException (records.lookup fileNumber recordNumber (UInt16.ofNat offset)) ∧
      ¬ (recordNumber.toNat + offset < 65536 ∧
        ∃ value, records (fileNumber, recordNumber + UInt16.ofNat offset) = some value)) := by
  have hn : (UInt16.ofNat offset).toNat = offset := by
    rw [UInt16.toNat_ofNat', Nat.mod_eq_of_lt ho]
  unfold FileRecords.lookup
  rw [hn]
  by_cases h : recordNumber.toNat + offset < 65536
  · rw [if_pos h]
    cases hv : records (fileNumber, recordNumber + UInt16.ofNat offset) with
    | none => exact .inr ⟨isException_error _, by simp⟩
    | some value => exact .inl ⟨value, rfl, h, rfl⟩
  · rw [if_neg h]
    exact .inr ⟨isException_error _, fun hd => h hd.1⟩

/-- One sub-response for each record: its length, the reference type, its values. -/
def subResponse (values : List UInt16) : List UInt8 :=
  UInt8.ofNat (1 + values.length * 2) :: 0x06 :: wordsBytes values

theorem fileReadPayload_cases (records : FileRecords) (requests : List FileRecordRead) :
    (RecordsDefined records requests ∧ ∃ lists : List (List UInt16),
      fileReadPayload records requests = .ok (lists.flatMap subResponse) ∧
      lists.map List.length = requests.map (·.recordLength.toNat)) ∨
    (¬ RecordsDefined records requests ∧ IsException (fileReadPayload records requests)) := by
  induction requests with
  | nil => exact .inl ⟨by simp [RecordsDefined], [], rfl, rfl⟩
  | cons request requests ih =>
    unfold fileReadPayload
    have hlt : ∀ i ∈ List.range request.recordLength.toNat, i < 65536 := by
      intro i hi
      have := request.recordLength.toNat_lt
      rw [List.mem_range] at hi
      omega
    rcases mapM_except (fun offset =>
        records.lookup request.fileNumber request.recordNumber (UInt16.ofNat offset))
        (List.range request.recordLength.toNat) with ⟨values, h, hall⟩ | ⟨i, hi, e, he, h⟩
    · rw [h, ok_bind]
      have hone : ∀ offset < request.recordLength.toNat,
          request.recordNumber.toNat + offset < 65536 ∧ ∃ value,
            records (request.fileNumber, request.recordNumber + UInt16.ofNat offset) = some value := by
        intro offset ho
        have hlen := hall.length_eq
        rw [List.length_range] at hlen
        have hv := hall.get (i := offset) (by rw [List.length_range]; exact ho) (by omega)
        simp only [List.get_eq_getElem, List.getElem_range] at hv
        rcases lookup_cases records request.fileNumber request.recordNumber
          (hlt offset (List.mem_range.mpr ho)) with ⟨value, -, hd⟩ | ⟨⟨code, hc⟩, -⟩
        · exact ⟨hd.1, value, hd.2⟩
        · cases hc.symm.trans hv
      rcases ih with ⟨hd, lists, hp, hl⟩ | ⟨hd, hp⟩
      · refine .inl ⟨List.forall_mem_cons.mpr ⟨hone, hd⟩, values :: lists, ?_, ?_⟩
        · rw [hp]
          rfl
        · have hlen := hall.length_eq
          rw [List.length_range] at hlen
          rw [List.map_cons, List.map_cons, hl, hlen]
      · exact .inr ⟨fun hd' => hd (List.forall_mem_cons.mp hd').2, hp.bind _⟩
    · right
      rcases lookup_cases records request.fileNumber request.recordNumber (hlt i hi) with
        ⟨value, hv, -⟩ | ⟨⟨code, hc⟩, hn⟩
      · cases hv.symm.trans he
      · obtain rfl := Except.error.inj (hc.symm.trans he)
        refine ⟨fun hd => hn ((List.forall_mem_cons.mp hd).1 i (List.mem_range.mp hi)), code, ?_⟩
        rw [h]
        rfl

/-! ## Requests -/

/-- The successful runs of `executeFields`, one constructor for each kind of
request: the state, the response fields, the state after. -/
inductive Executes : ModbusRequest → ModelInner → List UInt8 → ModelInner → Prop
  | readBits {area address quantity inner} (values : List Bool) :
    values.length = quantity.toNat →
    Executes (.readBits area address quantity) inner
      (UInt8.ofNat (packBits values).length :: packBits values) inner
  | readRegisters {area address quantity inner} (values : List UInt16) :
    values.length = quantity.toNat →
    Executes (.readRegisters area address quantity) inner
      (UInt8.ofNat (values.length * 2) :: wordsBytes values) inner
  | writeSingleCoil {address value inner} :
    DefinedOn inner.addressSpace.coils.values address 1 →
    Executes (.writeSingleCoil address value) inner
      (toBeBytes address ++ toBeBytes (if value then 0xFF00 else 0x0000))
      (inner.setCoils ⟨writeSpan inner.addressSpace.coils.values address.toNat [value]⟩)
  | writeSingleRegister {address value inner} :
    DefinedOn inner.addressSpace.holdingRegisters.values address 1 →
    Executes (.writeSingleRegister address value) inner (toBeBytes address ++ toBeBytes value)
      (inner.setHoldingRegisters
        ⟨writeSpan inner.addressSpace.holdingRegisters.values address.toNat [value]⟩)
  | readExceptionStatus {inner} : Executes .readExceptionStatus inner [inner.exceptionStatus] inner
  | returnQueryData {subFunction data inner} : subFunction = 0x0000 →
    Executes (.diagnostics subFunction data) inner (toBeBytes subFunction ++ data) inner
  | clearCounters {subFunction data inner} : subFunction = 0x000A → data = [0x00, 0x00] →
    Executes (.diagnostics subFunction data) inner (toBeBytes subFunction ++ data)
      { inner with commEventCount := 0, messageCount := 0, exceptionStatus := 0 }
  | getCommEventCounter {inner} : Executes .getCommEventCounter inner
      (toBeBytes 0 ++ toBeBytes inner.commEventCount) inner
  | getCommEventLog {inner} : Executes .getCommEventLog inner
      (6 :: (toBeBytes 0 ++ toBeBytes inner.commEventCount ++ toBeBytes inner.messageCount)) inner
  | writeMultipleCoils {address values inner} :
    DefinedOn inner.addressSpace.coils.values address values.length →
    Executes (.writeMultipleCoils address values) inner
      (toBeBytes address ++ toBeBytes (UInt16.ofNat values.length))
      (inner.setCoils ⟨writeSpan inner.addressSpace.coils.values address.toNat values⟩)
  | writeMultipleRegisters {address values inner} :
    DefinedOn inner.addressSpace.holdingRegisters.values address values.length →
    Executes (.writeMultipleRegisters address values) inner
      (toBeBytes address ++ toBeBytes (UInt16.ofNat values.length))
      (inner.setHoldingRegisters
        ⟨writeSpan inner.addressSpace.holdingRegisters.values address.toNat values⟩)
  | reportServerId {inner} : Executes .reportServerId inner
      [9, 0x01, 0xFF, 0x54, 0x61, 0x75, 0x54, 0x65, 0x72, 0x6D] inner
  | readFileRecord {records inner} (lists : List (List UInt16)) :
    RecordsDefined inner.fileRecords records →
    lists.map List.length = records.map (·.recordLength.toNat) →
    (lists.flatMap subResponse).length ≤ 255 →
    Executes (.readFileRecord records) inner
      (UInt8.ofNat (lists.flatMap subResponse).length :: lists.flatMap subResponse) inner
  | writeFileRecord {records inner} : SpansInside records →
    (records.flatMap FileRecordWrite.encode).length ≤ 255 →
    Executes (.writeFileRecord records) inner
      (UInt8.ofNat (records.flatMap FileRecordWrite.encode).length ::
        records.flatMap FileRecordWrite.encode)
      (inner.setFileRecords (writeRecords inner.fileRecords records))
  | maskWriteRegister {address andMask orMask inner} (current : UInt16) :
    inner.addressSpace.holdingRegisters.values address = some current →
    DefinedOn inner.addressSpace.holdingRegisters.values address 1 →
    Executes (.maskWriteRegister address andMask orMask) inner
      (toBeBytes address ++ toBeBytes andMask ++ toBeBytes orMask)
      (inner.setHoldingRegisters ⟨writeSpan inner.addressSpace.holdingRegisters.values address.toNat
        [(current &&& andMask) ||| (orMask &&& ~~~andMask)]⟩)
  | readWriteMultipleRegisters {readAddress readQuantity writeAddress values inner}
    (read : List UInt16) :
    DefinedOn inner.addressSpace.holdingRegisters.values writeAddress values.length →
    read.length = readQuantity.toNat →
    (∀ i, (h : i < read.length) → writeSpan inner.addressSpace.holdingRegisters.values
      writeAddress.toNat values (readAddress + UInt16.ofNat i) = some read[i]) →
    Executes (.readWriteMultipleRegisters readAddress readQuantity writeAddress values) inner
      (UInt8.ofNat (read.length * 2) :: wordsBytes read)
      (inner.setHoldingRegisters
        ⟨writeSpan inner.addressSpace.holdingRegisters.values writeAddress.toNat values⟩)
  | readFifoQueue {address inner} (values : List UInt16) :
    inner.fifo address = some values → values.length ≤ 31 →
    Executes (.readFifoQueue address) inner
      (toBeBytes (UInt16.ofNat (2 + values.length * 2)) ++
        toBeBytes (UInt16.ofNat values.length) ++ wordsBytes values) inner
  | mei {meiType data inner} (fields : List UInt8) :
    encodeMeiResponse inner.deviceObjects meiType data = .ok fields →
    Executes (.mei meiType data) inner fields inner

/-- A request succeeds as `Executes` says, or answers an exception code and has
changed nothing. -/
def Outcome (request : ModbusRequest) (inner : ModelInner)
    (r : Except Abort (List UInt8) × ModelInner) : Prop :=
  (∃ fields, r.1 = .ok fields ∧ Executes request inner fields r.2) ∨ (IsException r.1 ∧ r.2 = inner)

theorem Outcome.error {request : ModbusRequest} {inner : ModelInner} {r : Except Abort (List UInt8)}
    (h : IsException r) : Outcome request inner (r, inner) := .inr ⟨h, rfl⟩

theorem Outcome.ok {request : ModbusRequest} {inner inner' : ModelInner} {fields : List UInt8}
    (h : Executes request inner fields inner') : Outcome request inner (.ok fields, inner') :=
  .inl ⟨fields, rfl, h⟩

theorem writeCoils_cases (inner : ModelInner) (address : UInt16) (values : List Bool) :
    (writeCoils address values inner =
        (.ok (), inner.setCoils ⟨writeSpan inner.addressSpace.coils.values address.toNat values⟩) ∧
      DefinedOn inner.addressSpace.coils.values address values.length) ∨
    ∃ code, writeCoils address values inner = (.error (.exception code), inner) := by
  unfold writeCoils Exec.zoom
  rcases inner.addressSpace.coils.writeExisting_cases address values with ⟨h, -, hd⟩ | ⟨code, h⟩
  · rw [h]
    exact .inl ⟨rfl, hd⟩
  · rw [h]
    exact .inr ⟨code, rfl⟩

theorem writeHoldingRegisters_cases (inner : ModelInner) (address : UInt16) (values : List UInt16) :
    (writeHoldingRegisters address values inner =
        (.ok (), inner.setHoldingRegisters
          ⟨writeSpan inner.addressSpace.holdingRegisters.values address.toNat values⟩) ∧
      DefinedOn inner.addressSpace.holdingRegisters.values address values.length) ∨
    ∃ code, writeHoldingRegisters address values inner = (.error (.exception code), inner) := by
  unfold writeHoldingRegisters Exec.zoom
  rcases inner.addressSpace.holdingRegisters.writeExisting_cases address values with
    ⟨h, -, hd⟩ | ⟨code, h⟩
  · rw [h]
    exact .inl ⟨rfl, hd⟩
  · rw [h]
    exact .inr ⟨code, rfl⟩

/-- A read is defined after a write to defined points if it was before. -/
theorem definedOn_writeSpan {α : Type} {m : UInt16 → Option α} {address writeAddress : UInt16}
    {len : Nat} {values : List α} (h : DefinedOn m address len)
    (hw : DefinedOn m writeAddress values.length) :
    DefinedOn (writeSpan m writeAddress.toNat values) address len := by
  refine ⟨h.1, fun i hi => Option.isSome_iff_exists.mp ?_⟩
  rw [isSome_writeSpan hw]
  exact Option.isSome_iff_exists.mpr (h.2 i hi)

theorem encodeMeiResponse_cases (objects : List (UInt8 × List UInt8)) (meiType : UInt8)
    (data : List UInt8) :
    (∃ fields, encodeMeiResponse objects meiType data = .ok fields) ∨
      IsException (encodeMeiResponse objects meiType data) := by
  unfold encodeMeiResponse
  split_ifs with hm
  · exact .inr (isException_error _)
  split
  · rename_i readCode start
    split_ifs with hr
    · have hs : (∃ selected, selectObjects objects readCode start = .ok selected) ∨
          IsException (selectObjects objects readCode start) := by
        unfold selectObjects
        split_ifs
        · split
          · exact .inl ⟨_, rfl⟩
          · exact .inr (isException_error _)
        · exact .inl ⟨_, rfl⟩
        · exact .inl ⟨_, rfl⟩
      rcases hs with ⟨selected, hs⟩ | hs
      · rw [hs]
        exact .inl ⟨_, rfl⟩
      · exact .inr (hs.bind _)
    · exact .inr (isException_error _)
  · exact .inr (isException_error _)

theorem executeFields_outcome (request : ModbusRequest) (inner : ModelInner) :
    Outcome request inner (executeFields request inner) := by
  cases request with
  | readBits area address quantity =>
    simp only [executeFields, Exec.bind_run_ok (Exec.get_run inner)]
    rcases (inner.bitBlock area).read_cases address quantity with ⟨values, h, hlen, -⟩ | ⟨code, h⟩
    · rw [h]
      exact .ok (.readBits values hlen)
    · rw [h]
      exact .error ⟨code, rfl⟩
  | readRegisters area address quantity =>
    simp only [executeFields, Exec.bind_run_ok (Exec.get_run inner)]
    rcases (inner.registerBlock area).read_cases address quantity with ⟨values, h, hlen, -⟩ | ⟨code, h⟩
    · rw [h]
      exact .ok (.readRegisters values hlen)
    · rw [h]
      exact .error ⟨code, rfl⟩
  | writeSingleCoil address value =>
    simp only [executeFields, Exec.bind_run]
    rcases writeCoils_cases inner address [value] with ⟨h, hd⟩ | ⟨code, h⟩
    · rw [h]
      exact .ok (.writeSingleCoil hd)
    · rw [h]
      exact .error ⟨code, rfl⟩
  | writeSingleRegister address value =>
    simp only [executeFields, Exec.bind_run]
    rcases writeHoldingRegisters_cases inner address [value] with ⟨h, hd⟩ | ⟨code, h⟩
    · rw [h]
      exact .ok (.writeSingleRegister hd)
    · rw [h]
      exact .error ⟨code, rfl⟩
  | readExceptionStatus => exact .ok .readExceptionStatus
  | diagnostics subFunction data =>
    simp only [executeFields]
    split_ifs with h0 hA
    · exact .ok (.returnQueryData h0)
    · exact .ok (.clearCounters hA.1 hA.2)
    · exact .error (isException_error _)
  | getCommEventCounter => exact .ok .getCommEventCounter
  | getCommEventLog => exact .ok .getCommEventLog
  | writeMultipleCoils address values =>
    simp only [executeFields, Exec.bind_run]
    rcases writeCoils_cases inner address values with ⟨h, hd⟩ | ⟨code, h⟩
    · rw [h]
      exact .ok (.writeMultipleCoils hd)
    · rw [h]
      exact .error ⟨code, rfl⟩
  | writeMultipleRegisters address values =>
    simp only [executeFields, Exec.bind_run]
    rcases writeHoldingRegisters_cases inner address values with ⟨h, hd⟩ | ⟨code, h⟩
    · rw [h]
      exact .ok (.writeMultipleRegisters hd)
    · rw [h]
      exact .error ⟨code, rfl⟩
  | reportServerId => exact .ok .reportServerId
  | readFileRecord records =>
    simp only [executeFields, Exec.bind_run_ok (Exec.get_run inner), encodeFileReadResponse]
    rcases fileReadPayload_cases inner.fileRecords records with ⟨hd, lists, h, hlen⟩ | ⟨-, code, h⟩
    · rw [h, ok_bind]
      rcases countPrefixed_cases (lists.flatMap subResponse) with ⟨hc, hle⟩ | ⟨⟨code, hc⟩, -⟩
      · rw [hc]
        exact .ok (.readFileRecord lists hd hlen hle)
      · rw [hc]
        exact .error ⟨code, rfl⟩
    · rw [h]
      exact .error ⟨code, rfl⟩
  | writeFileRecord records =>
    simp only [executeFields, Exec.bind_run, encodeFileWriteEcho]
    rcases validateFileWrites_cases records with ⟨h, hs, hle⟩ | ⟨code, h⟩
    · rcases countPrefixed_cases (records.flatMap FileRecordWrite.encode) with ⟨hc, -⟩ | ⟨-, hgt⟩
      · have hrun := applyFileWrites_run records inner.fileRecords hs
        simp only [Exec.ofExcept_run, h, hc, Exec.zoom, hrun]
        exact .ok (.writeFileRecord hs hle)
      · omega
    · simp only [Exec.ofExcept_run, h]
      exact .error ⟨code, rfl⟩
  | maskWriteRegister address andMask orMask =>
    simp only [executeFields, Exec.bind_run, Exec.get_run, Exec.ofExcept_run]
    rcases inner.addressSpace.holdingRegisters.get_cases address with ⟨current, hg⟩ | ⟨code, hg⟩
    · rw [hg]
      rcases writeHoldingRegisters_cases inner address
        [(current &&& andMask) ||| (orMask &&& ~~~andMask)] with ⟨h, hd⟩ | ⟨code, h⟩
      · simp only [h]
        exact .ok (.maskWriteRegister current (AddressBlock.get_eq_ok.mp hg) hd)
      · simp only [h]
        exact .error ⟨code, rfl⟩
    · rw [hg]
      exact .error ⟨code, rfl⟩
  | readWriteMultipleRegisters readAddress readQuantity writeAddress values =>
    simp only [executeFields, Exec.bind_run, Exec.get_run, Exec.ofExcept_run]
    rcases inner.addressSpace.holdingRegisters.ensureDefined_cases readAddress readQuantity.toNat with
      ⟨hr, hpos, hrd⟩ | ⟨⟨code, hr⟩, -⟩
    · rw [hr]
      rcases inner.addressSpace.holdingRegisters.ensureDefined_cases writeAddress values.length with
        ⟨hw, -, hwd⟩ | ⟨⟨code, hw⟩, -⟩
      · simp only [hw]
        rcases writeHoldingRegisters_cases inner writeAddress values with ⟨h, -⟩ | ⟨code, h⟩
        · -- the read sees the registers after the write
          have hrd' := definedOn_writeSpan hrd hwd
          obtain ⟨read, hread, hlen, hall⟩ := @AddressBlock.read_of_definedOn _
              ⟨writeSpan inner.addressSpace.holdingRegisters.values writeAddress.toNat values⟩ _ _
              (AddressBlock.ensureDefined_of_definedOn hpos hrd') hrd'
          simp only [h, ModelInner.setHoldingRegisters, hread]
          exact .ok (.readWriteMultipleRegisters read hwd hlen hall)
        · simp only [h]
          exact .error ⟨code, rfl⟩
      · simp only [hw]
        exact .error ⟨code, rfl⟩
    · rw [hr]
      exact .error ⟨code, rfl⟩
  | readFifoQueue address =>
    simp only [executeFields, Exec.bind_run_ok (Exec.get_run inner)]
    cases hf : inner.fifo address with
    | none => exact .error (isException_error _)
    | some values =>
      by_cases hlen : values.length > 31
      · simp only [if_pos hlen]
        exact .error (isException_error _)
      · simp only [if_neg hlen]
        exact .ok (.readFifoQueue values hf (by omega))
  | mei meiType data =>
    simp only [executeFields, Exec.bind_run_ok (Exec.get_run inner), Exec.ofExcept_run]
    rcases encodeMeiResponse_cases inner.deviceObjects meiType data with ⟨fields, h⟩ | h
    · rw [h]
      exact .ok (.mei fields h)
    · exact .error h
  | raw function data => exact .error (isException_error _)

/-- What `execute` does to the model, and how it answers. -/
theorem execute_cases (request : ModbusRequest) (inner : ModelInner) :
    (∃ fields inner', Executes request inner fields inner' ∧
      execute request inner = (.ok (request.function :: fields), inner'.count request true)) ∨
    ∃ code, execute request inner = (.error (.exception code), inner.count request false) := by
  unfold execute executeRequest
  rw [Exec.bind_run]
  rcases hr : executeFields request inner with ⟨r, inner'⟩
  have h := executeFields_outcome request inner
  rw [hr] at h
  rcases h with ⟨fields, hok, h⟩ | ⟨⟨code, herr⟩, hsame⟩
  · obtain rfl : r = .ok fields := hok
    exact .inl ⟨fields, inner', h, rfl⟩
  · obtain rfl : r = .error (.exception code) := herr
    obtain rfl : inner' = inner := hsame
    exact .inr ⟨code, rfl⟩

end TauTerm.Modbus
