import Mathlib
import TauTerm.Lib.Path
import TauTerm.Lib.Prog
import TauTerm.Transfer.Io
import TauTerm.Transfer.YModem

/-!
# The port under the transfer protocols

The calls of the protocols as they are made: a read or a write of the port, a question to
`cancel`, to a clock or to the file system. The functions of `transfer/io.rs` are programs of
such calls, whose `?` passes an error of the port on.
-/

namespace TauTerm.Transfer.OnPort

open Lib Lib.Proc

/-- What `read` answers: the bytes, an error of kind `TimedOut`, or any other error. -/
inductive ReadAnswer where
  | data (bytes : List UInt8)
  | timedOut
  | error (message : String)
  deriving DecidableEq

inductive PortCall where
  | read (room : Nat)
  | write (bytes : List UInt8)
  | flush
  | cancel
  /-- Whether `elapsed` is over a timeout. -/
  | expired
  | createDirAll
  | createFile (path : Path)
  | writeFile (bytes : List UInt8)
  /-- The file is created and written as a whole. -/
  | saveFile (bytes : List UInt8)
  deriving DecidableEq

def PortCall.Answer : PortCall → Type
  | .read _ => ReadAnswer
  | .cancel | .expired => Bool
  | _ => Except String Unit

def portIo : Interface := ⟨PortCall, PortCall.Answer⟩

/-- An error of the port or of the file system, or what a protocol says. -/
inductive TransferError where
  | io (message : String)
  | text (message : String)
  | ymodem (error : YModem.YModemError)
  deriving DecidableEq

abbrev Io (α : Type) : Type 1 := Proc portIo TransferError α

def read (room : Nat) : Io ReadAnswer := ask (I := portIo) (PortCall.read room)

def cancel : Io Bool := ask (I := portIo) PortCall.cancel

def expired : Io Bool := ask (I := portIo) PortCall.expired

/-- A call that is followed by `?`. -/
def must (answer : Io (Except String Unit)) : Io Unit := do
  match ← answer with
  | .ok () => pure ()
  | .error e => throw (.io e)

def writeAll (bytes : List UInt8) : Io Unit := must (ask (I := portIo) (PortCall.write bytes))

def flush : Io Unit := must (ask (I := portIo) PortCall.flush)

def createDirAll : Io Unit := must (ask (I := portIo) PortCall.createDirAll)

def writeFile (bytes : List UInt8) : Io (Except String Unit) :=
  ask (I := portIo) (PortCall.writeFile bytes)

def createFile (path : Path) : Io (Except String Unit) := ask (I := portIo) (PortCall.createFile path)

def saveFile (bytes : List UInt8) : Io (Except String Unit) :=
  ask (I := portIo) (PortCall.saveFile bytes)

/-- `write_all` and `flush`. -/
def put (bytes : List UInt8) : Io Unit := do
  writeAll bytes
  flush

/-- Each byte on its own. -/
def putEach : List UInt8 → Io Unit
  | [] => pure ()
  | b :: bytes => do
    put [b]
    putEach bytes

/-! ## `io.rs` -/

def readByteWithTimeout : Io (Option UInt8) :=
  loop (fun _ => do
    match ← read 1 with
    | .data [b] => pure (.inr (some b))
    | .error e => throw (.io e)
    | _ => do
      if ← expired then pure (.inr none) else pure (.inl ())) ()

/-- At most `n` more reads, after `emptyCount` empty ones in a row. -/
def flushReads : Nat → Nat → Io Unit
  | 0, _ => pure ()
  | n + 1, emptyCount => do
    match ← read 256 with
    | .data (_ :: _) => flushReads n 0
    | _ => if 3 ≤ emptyCount + 1 then pure () else flushReads n (emptyCount + 1)

def flushPortBuffer : Io Unit := flushReads 20 0

/-- Errors are only logged. -/
def sendCancel : Io Unit := do
  let _ ← attempt (writeAll cancelSequence)
  let _ ← attempt flush

def whenCancelled : Bool → Io Unit
  | true => do
    sendCancel
    throw (.text "传输已取消")
  | false => pure ()

/-- The check at the head of the loops. -/
def stopIfCancelled : Io Unit := do
  let cancelled ← cancel
  whenCancelled cancelled

/-! ## A dead port -/

/-- Reads and writes fail, with an error that is no timeout, and nobody cancels. -/
def Dead : (c : PortCall) → c.Answer → Prop
  | .read _, answer => ∃ e, answer = ReadAnswer.error e
  | .write _, answer => ∃ e, answer = Except.error e
  | .cancel, answer => answer = false
  | _, _ => True

section Dead

/-- Under a dead port. -/
abbrev OnDead : (c : portIo.Call) → portIo.Answer c → Prop := Dead

variable {α β : Type}

theorem must_halts {answer : Io (Except String Unit)} (h : Halts OnDead answer) :
    Halts OnDead (must answer) :=
  h.bind fun a => by cases a <;> simp

@[simp] theorem writeAll_halts (bytes : List UInt8) : Halts OnDead (writeAll bytes) :=
  must_halts (halts_ask _)

@[simp] theorem flush_halts : Halts OnDead flush := must_halts (halts_ask _)

@[simp] theorem createDirAll_halts : Halts OnDead createDirAll := must_halts (halts_ask _)

@[simp] theorem put_halts (bytes : List UInt8) : Halts OnDead (put bytes) :=
  (writeAll_halts bytes).bind fun _ => flush_halts

@[simp] theorem putEach_halts (bytes : List UInt8) : Halts OnDead (putEach bytes) := by
  induction bytes with
  | nil => exact halts_pure _
  | cons b bytes ih => exact (put_halts [b]).bind fun _ => ih

@[simp] theorem sendCancel_halts : Halts OnDead sendCancel :=
  (writeAll_halts _).attempt.bind fun _ => flush_halts.attempt.bind fun _ => halts_pure _

@[simp] theorem stopIfCancelled_halts : Halts OnDead stopIfCancelled :=
  (halts_ask _).bind fun c => by
    cases c with
    | false => exact halts_pure _
    | true => exact sendCancel_halts.bind fun _ => halts_throw _

theorem flushReads_halts (n emptyCount : Nat) : Halts OnDead (flushReads n emptyCount) := by
  induction n generalizing emptyCount with
  | zero => exact halts_pure _
  | succ n ih =>
    have hempty : Halts OnDead
        (if 3 ≤ emptyCount + 1 then pure () else flushReads n (emptyCount + 1)) := by
      split_ifs
      · exact halts_pure _
      · exact ih _
    refine (halts_ask _).bind fun answer => ?_
    match answer with
    | .data (_ :: _) => exact ih _
    | .data [] => exact hempty
    | .timedOut => exact hempty
    | .error _ => exact hempty

@[simp] theorem flushPortBuffer_halts : Halts OnDead flushPortBuffer := flushReads_halts _ _

/-- The check lets a round go on. -/
theorem Settles.afterCheck {P : α → Prop} {x : Io α} (h : Settles OnDead P x) :
    Settles OnDead P (stopIfCancelled >>= fun _ => x) := by
  refine Proc.Settles.bind (P := fun _ => True) ?_ fun _ _ => h
  refine (settles_ask (D := OnDead) PortCall.cancel).bind fun c hc => ?_
  have hfalse : c = false := hc
  subst hfalse
  exact settles_pure trivial

/-- A byte that is awaited is not read any more; the clock may still run out. -/
theorem readByte_collapses : Collapses OnDead (fun b => b = none) readByteWithTimeout := by
  have hround : Collapses OnDead (fun r => ∀ b, r = Sum.inr b → b = none)
      (do
        match ← read 1 with
        | .data [b] => pure (.inr (some b))
        | .error e => throw (.io e)
        | _ => do
          if ← expired then pure (.inr none) else pure (.inl ()) : Io (Unit ⊕ Option UInt8)) := by
    have hclock : Collapses OnDead (fun r => ∀ b, r = Sum.inr b → b = none)
        (do if ← expired then pure (.inr none) else pure (.inl ()) : Io (Unit ⊕ Option UInt8)) := by
      refine (collapses_ask (D := OnDead) PortCall.expired).bind (fun c => ?_) fun c _ => ?_
      · cases c <;> exact collapses_pure _
      · cases c <;> exact settles_pure (by simp)
    refine (collapses_ask (D := OnDead) (PortCall.read 1)).bind (fun answer => ?_) ?_
    · match answer with
      | .data [b] => exact collapses_pure _
      | .data [] => exact hclock
      | .data (_ :: _ :: _) => exact hclock
      | .timedOut => exact hclock
      | .error e => exact collapses_throw _
    · rintro answer ⟨e, rfl⟩
      exact settles_throw _
  refine collapses_loop (fun _ => hround) (fun _ => ?_) ()
  refine settles_loop ((settles_ask (D := OnDead) (PortCall.read 1)).bind ?_)
  rintro answer ⟨e, rfl⟩
  exact settles_throw _

@[simp] theorem readByte_halts : Halts OnDead readByteWithTimeout := readByte_collapses.halts

theorem readByte_fails : Fails OnDead readByteWithTimeout := by
  refine Fails.loop ((settles_ask (D := OnDead) (PortCall.read 1)).bind ?_)
  rintro answer ⟨e, rfl⟩
  exact settles_throw _

end Dead

end TauTerm.Transfer.OnPort
