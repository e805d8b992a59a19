import Mathlib
import TauTerm.Sftp.DocumentSave

/-!
# The server that a document is saved on

Between two calls other clients replace what stands under the path of the document, in any way. A
call takes effect or fails without effect; an exclusive create and a rename fail where something
stands. The state keeps account of what the calls of the save itself change under that path.
-/

namespace TauTerm.Sftp.Document

open Lib Lib.Proc

/-- What stands under a name: the content, and what the server says of it. -/
structure RemoteEntry where
  data : List UInt8
  mtime : Option Nat
  permissions : Option Nat
  isDir : Bool
  deriving DecidableEq

def RemoteEntry.attributes (n : RemoteEntry) : FileAttributes :=
  ⟨some n.data.length, n.permissions, n.isDir, n.mtime⟩

def RemoteEntry.version (crc32 : List UInt8 → UInt32) (n : RemoteEntry) : RemoteDocumentVersion :=
  ⟨n.data.length, n.mtime, some (crc32 n.data)⟩

/-- A regular file. -/
def RemoteEntry.Plain (n : RemoteEntry) : Prop :=
  isRegular n.attributes = true ∧ n.attributes.entryType = .file

abbrev RemoteDisk := RemotePath → Option RemoteEntry

structure Server where
  disk : RemoteDisk
  /-- What was opened last. -/
  opened : Option RemoteEntry
  /-- The temporary file of the save. -/
  temp : Option RemotePath
  /-- The temporary file has the name of the document. -/
  committed : Bool
  /-- What the save itself changed under the path of the document, before and after. -/
  changes : List (Option RemoteEntry × Option RemoteEntry)

variable (path : RemotePath)

/-- A change of the disk, and what it is for the document. -/
def Server.change (w : Server) (disk : RemoteDisk) : Server :=
  { w with
    disk
    changes := w.changes ++ if w.disk path = disk path then [] else [(w.disk path, disk path)] }

/-- No artifact has this number in its name yet. -/
def Server.Unused (w : Server) (uuid : List Char) : Prop :=
  '/' ∉ uuid ∧ ∀ p tag, w.disk (documentArtifact p tag uuid) = none

/-- A call that has the effect `next`, or fails without effect. -/
def Acts {α : Type} (r : Except String α) (w v : Server) (next : Server → Prop) : Prop :=
  match r with
  | .ok _ => next v
  | .error _ => v = w

/-- Part of what stands behind `offset`, and all of it only where that is nothing. -/
def ReadsFrom (n : RemoteEntry) (offset room : Nat) (bytes : List UInt8) : Prop :=
  bytes <+: n.data.drop offset ∧ bytes.length ≤ room ∧
    (bytes = [] → n.data.length ≤ offset ∨ room = 0)

def documentResponds (w : Server) (e : documentIo.Event) (v : Server) : Prop :=
  match e with
  | ⟨.newV4, uuid⟩ => w.Unused uuid ∧ v = w
  | ⟨.symlinkMetadata p, .ok stat⟩ => (∃ n, w.disk p = some n ∧ stat = n.attributes) ∧ v = w
  | ⟨.openRead p, r⟩ =>
    Acts r w v fun v => ∃ n, w.disk p = some n ∧ v = { w with opened := some n }
  | ⟨.read p offset room, .ok bytes⟩ =>
    (∃ n, (w.opened = some n ∨ w.disk p = some n) ∧ ReadsFrom n offset room bytes) ∧ v = w
  | ⟨.createNew p, r⟩ =>
    Acts r w v fun v => w.disk p = none ∧ ∃ n : RemoteEntry, n.Plain ∧ n.data = [] ∧
      v = { w.change path (Function.update w.disk p (some n)) with temp := some p }
  | ⟨.writeAll p bytes, r⟩ =>
    Acts r w v fun v => ∃ n mtime, w.disk p = some n ∧
      v = w.change path (Function.update w.disk p (some { n with data := n.data ++ bytes, mtime }))
  | ⟨.setPermissions p mode, r⟩ =>
    Acts r w v fun v => ∃ n, w.disk p = some n ∧
      v = w.change path (Function.update w.disk p (some { n with permissions := some mode }))
  | ⟨.rename a b, r⟩ =>
    Acts r w v fun v => w.disk a ≠ none ∧ w.disk b = none ∧
      v = { w.change path (Function.update (Function.update w.disk a none) b (w.disk a)) with
        committed := w.committed || (w.temp = some a && b = path) }
  | ⟨.removeFile p, r⟩ =>
    Acts r w v fun v => w.disk p ≠ none ∧ v = w.change path (Function.update w.disk p none)
  | _ => v = w

def documentWorld : World documentIo Server where
  Drifts w v := (∀ p, p ≠ path → v.disk p = w.disk p) ∧ v = { w with disk := v.disk }
  Responds := documentResponds path

/-- From the commit on, nobody else replaces the document. -/
def Undisturbed (w v : Server) : Prop := w.committed = true → v.disk = w.disk

/-- From the commit on, what is asked is answered. -/
def Answered (w : Server) : documentIo.Event → Prop
  | ⟨.ensureSftp, r⟩ => w.committed = true → r = Except.ok ()
  | ⟨.symlinkMetadata p, r⟩ => w.committed = true → w.disk p ≠ none → ∃ stat, r = Except.ok stat
  | ⟨.openRead p, r⟩ => w.committed = true → w.disk p ≠ none → r = Except.ok ()
  | ⟨.read .., r⟩ => w.committed = true → ∃ bytes, r = Except.ok bytes
  | _ => True

/-- The world as long as nothing goes wrong behind a commit. -/
def calmWorld : World documentIo Server := (documentWorld path).within Undisturbed Answered

def initialServer (disk : RemoteDisk) : Server := ⟨disk, none, none, false, []⟩

end TauTerm.Sftp.Document
