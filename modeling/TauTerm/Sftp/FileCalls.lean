import Mathlib
import TauTerm.Lib.Path
import TauTerm.Lib.World

/-!
# The calls of `ssh_file_service.rs`

What the transfers ask of the local file system (`tokio::fs`), of the SFTP server, of the random
number of an artifact's name and of the cancel flag. The cached SFTP session is never closed once
it is there, so that only opening it can fail.
-/

namespace TauTerm.Sftp

open Lib Lib.Proc

/-- A path on the server. -/
abbrev RemotePath := List Char

inductive ErrorKind where
  | notFound
  | alreadyExists
  | other
  deriving DecidableEq

/-- `std::io::Error`. -/
structure IoFault where
  kind : ErrorKind
  message : String
  deriving DecidableEq

structure LocalMetadata where
  isDir : Bool
  len : Nat
  modified : Option Nat
  deriving DecidableEq

/-- The attributes of a file as the server sends them. -/
structure FileAttributes where
  size : Option Nat
  permissions : Option Nat
  isDir : Bool
  mtime : Option Nat
  deriving DecidableEq

inductive FileCall where
  | cancelled
  /-- `Uuid::new_v4`. -/
  | newV4
  | symlinkMetadata (path : Path)
  | hardLink (source target : Path)
  | removeFile (path : Path)
  | rename (source target : Path)
  | createDirAll (path : Path)
  | create (path : Path)
  /-- The local file that is open for writing. -/
  | writeAll (path : Path) (bytes : List UInt8)
  | flush (path : Path)
  | openSource (path : Path)
  | sourceMetadata (path : Path)
  | readSource (path : Path) (room : Nat)
  | ensureSftp
  | tryExists (path : RemotePath)
  | sftpSymlinkMetadata (path : RemotePath)
  | sftpRename (source target : RemotePath)
  | sftpRemoveFile (path : RemotePath)
  | sftpOpen (path : RemotePath)
  | sftpRead (path : RemotePath) (room : Nat)
  /-- `open_with_flags` with `WRITE | CREATE | EXCLUDE`. -/
  | sftpCreateNew (path : RemotePath)
  /-- The remote file that is open for writing. -/
  | sftpWriteAll (path : RemotePath) (bytes : List UInt8)
  | sftpFlush (path : RemotePath)
  | sftpMetadata (path : RemotePath)
  | sftpSetMetadata (path : RemotePath) (mtime : Nat)
  deriving DecidableEq

def FileCall.Answer : FileCall → Type
  | .cancelled => Bool
  | .newV4 => List Char
  | .symlinkMetadata _ | .sourceMetadata _ => Except IoFault LocalMetadata
  | .readSource .. => Except IoFault (List UInt8)
  | .hardLink .. | .removeFile _ | .rename .. | .createDirAll _ | .create _ | .writeAll ..
  | .flush _ | .openSource _ => Except IoFault Unit
  | .tryExists _ => Except String Bool
  | .sftpSymlinkMetadata _ | .sftpMetadata _ => Except String FileAttributes
  | .sftpRead .. => Except String (List UInt8)
  | .ensureSftp | .sftpRename .. | .sftpRemoveFile _ | .sftpOpen _ | .sftpCreateNew _
  | .sftpWriteAll .. | .sftpFlush _ | .sftpSetMetadata .. => Except String Unit

def fileIo : Interface := ⟨FileCall, FileCall.Answer⟩

instance : DecidableEq fileIo.Call := inferInstanceAs (DecidableEq FileCall)

abbrev FileProc (α : Type) : Type 1 := Proc fileIo String α

section Calls

variable (path source target : Path) (remotePath remoteSource remoteTarget : RemotePath)

def cancelled : FileProc Bool := ask (I := fileIo) FileCall.cancelled

def newV4 : FileProc (List Char) := ask (I := fileIo) FileCall.newV4

def symlinkMetadata : FileProc (Except IoFault LocalMetadata) :=
  ask (I := fileIo) (FileCall.symlinkMetadata path)

def hardLink : FileProc (Except IoFault Unit) := ask (I := fileIo) (FileCall.hardLink source target)

def removeFile : FileProc (Except IoFault Unit) := ask (I := fileIo) (FileCall.removeFile path)

def rename : FileProc (Except IoFault Unit) := ask (I := fileIo) (FileCall.rename source target)

def createDirAll : FileProc (Except IoFault Unit) := ask (I := fileIo) (FileCall.createDirAll path)

def createFile : FileProc (Except IoFault Unit) := ask (I := fileIo) (FileCall.create path)

def writeAll (bytes : List UInt8) : FileProc (Except IoFault Unit) :=
  ask (I := fileIo) (FileCall.writeAll path bytes)

def flush : FileProc (Except IoFault Unit) := ask (I := fileIo) (FileCall.flush path)

def openSource : FileProc (Except IoFault Unit) := ask (I := fileIo) (FileCall.openSource path)

def sourceMetadata : FileProc (Except IoFault LocalMetadata) :=
  ask (I := fileIo) (FileCall.sourceMetadata path)

def readSource (room : Nat) : FileProc (Except IoFault (List UInt8)) :=
  ask (I := fileIo) (FileCall.readSource path room)

def ensureSftp : FileProc (Except String Unit) := ask (I := fileIo) FileCall.ensureSftp

def tryExists : FileProc (Except String Bool) := ask (I := fileIo) (FileCall.tryExists remotePath)

def sftpSymlinkMetadata : FileProc (Except String FileAttributes) :=
  ask (I := fileIo) (FileCall.sftpSymlinkMetadata remotePath)

def sftpRename : FileProc (Except String Unit) :=
  ask (I := fileIo) (FileCall.sftpRename remoteSource remoteTarget)

def sftpRemoveFile : FileProc (Except String Unit) :=
  ask (I := fileIo) (FileCall.sftpRemoveFile remotePath)

def sftpOpen : FileProc (Except String Unit) := ask (I := fileIo) (FileCall.sftpOpen remotePath)

def sftpRead (room : Nat) : FileProc (Except String (List UInt8)) :=
  ask (I := fileIo) (FileCall.sftpRead remotePath room)

def sftpCreateNew : FileProc (Except String Unit) :=
  ask (I := fileIo) (FileCall.sftpCreateNew remotePath)

def sftpWriteAll (bytes : List UInt8) : FileProc (Except String Unit) :=
  ask (I := fileIo) (FileCall.sftpWriteAll remotePath bytes)

def sftpFlush : FileProc (Except String Unit) := ask (I := fileIo) (FileCall.sftpFlush remotePath)

def sftpMetadata : FileProc (Except String FileAttributes) :=
  ask (I := fileIo) (FileCall.sftpMetadata remotePath)

def sftpSetMetadata (mtime : Nat) : FileProc (Except String Unit) :=
  ask (I := fileIo) (FileCall.sftpSetMetadata remotePath mtime)

end Calls

/-! ## Entry types -/

inductive SftpEntryType where
  | file
  | directory
  | symlink
  | fifo
  | socket
  | blockDevice
  | charDevice
  | other
  deriving DecidableEq

def SftpEntryType.debug : SftpEntryType → String
  | .file => "File"
  | .directory => "Directory"
  | .symlink => "Symlink"
  | .fifo => "Fifo"
  | .socket => "Socket"
  | .blockDevice => "BlockDevice"
  | .charDevice => "CharDevice"
  | .other => "Other"

def entryTypeFromPermissions (perm : Option Nat) (fallbackIsDir : Bool) : SftpEntryType :=
  match perm.map (· &&& 0o170000) with
  | some 0o040000 => .directory
  | some 0o100000 => .file
  | some 0o120000 => .symlink
  | some 0o010000 => .fifo
  | some 0o140000 => .socket
  | some 0o060000 => .blockDevice
  | some 0o020000 => .charDevice
  | some 0 | none => if fallbackIsDir then .directory else .file
  | _ => .other

def FileAttributes.entryType (stat : FileAttributes) : SftpEntryType :=
  entryTypeFromPermissions stat.permissions stat.isDir

/-! ## Names -/

/-- `Path::display`. -/
def displayPath (path : Path) : String :=
  String.ofList ((if path.absolute then ['/'] else []) ++ ['/'].intercalate path.segments)

def displayRemote (path : RemotePath) : String := String.ofList path

/-- A text that quotes another one. -/
def Names (text quoted : String) : Prop := ∃ before behind, text = before ++ quoted ++ behind

/-- `parent().unwrap_or(".")`. -/
def parentOrHere (path : Path) : Path := path.parent.getD (.new ['.'])

/-- The name before and behind its last dot, unless nothing stands before it. -/
def splitExtension (name : List Char) : List Char × Option (List Char) :=
  let stem := (name.reverse.dropWhile (· ≠ '.')).tail.reverse
  if '.' ∈ name ∧ stem ≠ [] then (stem, some (name.reverse.takeWhile (· ≠ '.')).reverse)
  else (name, none)

def artifactName (name tag uuid : List Char) : List Char :=
  ['.'] ++ name ++ ".tauterm-".toList ++ tag ++ ['-'] ++ uuid

def siblingLocalArtifact (path : Path) (tag uuid : List Char) : Path :=
  (parentOrHere path).join
    ⟨false, [artifactName (path.fileName.getD "transfer".toList) tag uuid]⟩

def numbered (stem : List Char) (index : Nat) : List Char :=
  stem ++ " (".toList ++ (toString index).toList ++ [')']

def localKeepBothCandidate (path : Path) (index : Nat) : Path :=
  let (stem, ext) :=
    match path.fileName with
    | some name => splitExtension name
    | none => ("file".toList, none)
  let name :=
    match ext with
    | some ext => if ext ≠ [] then numbered stem index ++ ['.'] ++ ext else numbered stem index
    | none => numbered stem index
  (parentOrHere path).join ⟨false, [name]⟩

/-- The directory and the last name; the directory of a path with no slash is empty. -/
def remoteParts (path : RemotePath) : RemotePath × List Char :=
  ((path.reverse.dropWhile (· ≠ '/')).tail.reverse, (path.reverse.takeWhile (· ≠ '/')).reverse)

def remoteJoin (dir : RemotePath) (name : List Char) : RemotePath :=
  if dir = [] then name
  else if dir = ['/'] then '/' :: name
  else (dir.reverse.dropWhile (· = '/')).reverse ++ ['/'] ++ name

def remoteKeepBothCandidate (path : RemotePath) (index : Nat) : RemotePath :=
  let (dir, name) := remoteParts path
  remoteJoin dir <|
    match splitExtension name with
    | (stem, some ext) => numbered stem index ++ ['.'] ++ ext
    | (stem, none) => numbered stem index

def remoteSiblingArtifact (path : RemotePath) (tag uuid : List Char) : RemotePath :=
  let (dir, name) := remoteParts path
  remoteJoin dir (artifactName name tag uuid)

end TauTerm.Sftp
