import Mathlib
import TauTerm.Lib.Exec

/-!
# The files of the trust store

A trust file `stem.json`, its block marker and its quarantine copies differ only
in their extension. Each call to the disk can fail, with an error text that the
run supplies; a call that fails leaves the disk as it was, also inside
`atomic_write`, which commits by a rename.
-/

namespace TauTerm.Ssh

open Lib

inductive Extension where
  | json
  | blocked
  | invalid (index : Nat)
  deriving DecidableEq

structure TrustPath where
  stem : String
  extension : Extension
  deriving DecidableEq

def TrustPath.withExtension (path : TrustPath) (extension : Extension) : TrustPath :=
  { path with extension }

/-- The calls to the disk, each made at most once by an operation. -/
inductive DiskCall where
  | createDirs
  | probeMarker
  | readMarker
  | probeFile
  | readFile
  | markDetected
  | probeQuarantine (index : Nat)
  | moveInvalid
  | markReason
  | write
  | removeMarker
  deriving DecidableEq

/-- The error text of each call that fails. -/
abbrev Faults := DiskCall → Option String

def noFaults : Faults := fun _ => none

abbrev Disk := TrustPath → Option ByteArray

namespace Disk

/-- `Path::exists`, which answers `false` where the metadata cannot be read. -/
def pathExists (disk : Disk) (fault : Option String) (path : TrustPath) : Bool :=
  fault.isNone && (disk path).isSome

def readToString (disk : Disk) (fault : Option String) (path : TrustPath) :
    Except String String :=
  match fault, disk path with
  | some e, _ => .error e
  | none, none => .error "No such file or directory (os error 2)"
  | none, some bytes =>
    match String.fromUTF8? bytes with
    | none => .error "stream did not contain valid UTF-8"
    | some raw => .ok raw

/-- The disk with other contents at `path`. -/
def put (disk : Disk) (path : TrustPath) (contents : Option ByteArray) : Disk :=
  Function.update disk path contents

@[simp] theorem put_same (disk : Disk) (path : TrustPath) (contents : Option ByteArray) :
    disk.put path contents path = contents := Function.update_self ..

@[simp] theorem put_other {path other : TrustPath} (h : other ≠ path) (disk : Disk)
    (contents : Option ByteArray) : disk.put path contents other = disk other :=
  Function.update_of_ne h ..

theorem pathExists_iff {disk : Disk} {fault : Option String} {path : TrustPath} :
    disk.pathExists fault path = true ↔ fault = none ∧ ∃ bytes, disk path = some bytes := by
  simp [pathExists, Option.isSome_iff_exists]

theorem readToString_ok {disk : Disk} {fault : Option String} {path : TrustPath} {raw : String} :
    disk.readToString fault path = .ok raw ↔
      fault = none ∧ (disk path).bind String.fromUTF8? = some raw := by
  unfold readToString
  cases fault with
  | some e => simp
  | none =>
    cases disk path with
    | none => simp
    | some bytes => cases hraw : String.fromUTF8? bytes <;> simp [hraw]

end Disk

def atomicWrite (fault : Option String) (path : TrustPath) (contents : String) :
    Exec Disk String Unit :=
  match fault with
  | some e => Exec.throw e
  | none => Exec.modify fun disk => disk.put path (some contents.toByteArray)

def rename (fault : Option String) (source target : TrustPath) : Exec Disk String Unit :=
  match fault with
  | some e => Exec.throw e
  | none => Exec.modify fun disk => (disk.put target (disk source)).put source none

def removeFile (fault : Option String) (path : TrustPath) : Exec Disk String Unit :=
  match fault with
  | some e => Exec.throw e
  | none => Exec.modify fun disk => disk.put path none

end TauTerm.Ssh
