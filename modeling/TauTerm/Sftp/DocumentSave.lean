import Mathlib
import TauTerm.Sftp.DocumentCodec
import TauTerm.Sftp.FileCalls

/-!
# Saving a remote document

`sftp_save_document_cmd` of `sftp_document.rs` with what it calls, `sftp_read_head` of
`ssh_file_service.rs` among it. A save writes a temporary file, moves the original away, looks at
what it has moved away, gives the temporary file its name and reads it again. The checksum of
`crc32fast` is a parameter.
-/

namespace TauTerm.Sftp

open Lib Lib.Proc

inductive DocumentCall where
  /-- `get_ssh_runtime`. -/
  | sshRuntime
  | ensureSftp
  | newV4
  | symlinkMetadata (path : RemotePath)
  | openRead (path : RemotePath)
  | read (path : RemotePath) (offset room : Nat)
  /-- `open_with_flags` with `WRITE | CREATE | EXCLUDE`. -/
  | createNew (path : RemotePath)
  | writeAll (path : RemotePath) (bytes : List UInt8)
  | flush (path : RemotePath)
  | setPermissions (path : RemotePath) (mode : Nat)
  | rename (source target : RemotePath)
  | removeFile (path : RemotePath)
  deriving DecidableEq

def DocumentCall.Answer : DocumentCall → Type
  | .newV4 => List Char
  | .symlinkMetadata _ => Except String FileAttributes
  | .read .. => Except String (List UInt8)
  | _ => Except String Unit

def documentIo : Interface := ⟨DocumentCall, DocumentCall.Answer⟩

instance : DecidableEq documentIo.Call := inferInstanceAs (DecidableEq DocumentCall)

abbrev DocumentProc (α : Type) : Type 1 := Proc documentIo String α

namespace Document

section Calls

variable (path source target : RemotePath)

def sshRuntime : DocumentProc (Except String Unit) := ask (I := documentIo) DocumentCall.sshRuntime

def ensureSftp : DocumentProc (Except String Unit) := ask (I := documentIo) DocumentCall.ensureSftp

def newV4 : DocumentProc (List Char) := ask (I := documentIo) DocumentCall.newV4

def symlinkMetadata : DocumentProc (Except String FileAttributes) :=
  ask (I := documentIo) (DocumentCall.symlinkMetadata path)

def openRead : DocumentProc (Except String Unit) :=
  ask (I := documentIo) (DocumentCall.openRead path)

def read (offset room : Nat) : DocumentProc (Except String (List UInt8)) :=
  ask (I := documentIo) (DocumentCall.read path offset room)

def createNew : DocumentProc (Except String Unit) :=
  ask (I := documentIo) (DocumentCall.createNew path)

def writeAll (bytes : List UInt8) : DocumentProc (Except String Unit) :=
  ask (I := documentIo) (DocumentCall.writeAll path bytes)

def flush : DocumentProc (Except String Unit) := ask (I := documentIo) (DocumentCall.flush path)

def setPermissions (mode : Nat) : DocumentProc (Except String Unit) :=
  ask (I := documentIo) (DocumentCall.setPermissions path mode)

def rename : DocumentProc (Except String Unit) :=
  ask (I := documentIo) (DocumentCall.rename source target)

def removeFile : DocumentProc (Except String Unit) :=
  ask (I := documentIo) (DocumentCall.removeFile path)

end Calls

/-! ## Snapshots -/

structure RemoteDocumentVersion where
  size : Nat
  modified : Option Nat
  contentCrc32 : Option UInt32
  deriving DecidableEq

structure RemoteSnapshot where
  data : List UInt8
  size : Nat
  modified : Option Nat
  permissions : Option Nat
  deriving DecidableEq

def isRegularFile (permissions : Option Nat) (fallbackIsDir : Bool) : Bool :=
  match permissions.map (· &&& 0o170000) with
  | some 0o100000 => true
  | some 0 | none => !fallbackIsDir
  | _ => false

def isRegular (stat : FileAttributes) : Bool := isRegularFile stat.permissions stat.isDir

variable (crc32 : List UInt8 → UInt32)

def RemoteSnapshot.version (snapshot : RemoteSnapshot) (complete : Bool) : RemoteDocumentVersion :=
  ⟨snapshot.size, snapshot.modified, if complete then some (crc32 snapshot.data) else none⟩

def statText (path : RemotePath) (e : String) : String :=
  "获取文件信息 '" ++ displayRemote path ++ "' 失败: " ++ e

/-- One turn of the reading of `readLen` bytes. -/
def readRound (path : RemotePath) (readLen : Nat) (data : List UInt8) :
    DocumentProc (List UInt8 ⊕ List UInt8) := do
  if data.length < readLen then
    let bytes ← orThrow (← read path data.length (readLen - data.length)) fun e =>
      "读取远程文件失败: " ++ e
    if bytes = [] then pure (.inr data) else pure (.inl (data ++ bytes))
  else pure (.inr data)

def sftpReadHead (path : RemotePath) (maxBytes : Nat) : DocumentProc (List UInt8 × Nat) := do
  orThrow (← ensureSftp) id
  let stat ← orThrow (← symlinkMetadata path) (statText path)
  if stat.entryType ≠ .file then throw ("仅支持预览普通文件，当前类型为 " ++ stat.entryType.debug)
  else
    orThrow (← openRead path) fun e => "打开远程文件 '" ++ displayRemote path ++ "' 失败: " ++ e
    let totalSize := stat.size.getD 0
    let data ← loop (readRound path (min maxBytes totalSize)) []
    pure (data, totalSize)

def changedText (path : RemotePath) : String :=
  "远程文件 '" ++ displayRemote path ++ "' 在读取期间发生变化，请重试"

/-- Whether a second look finds the file as the first one did. -/
def unchanged (size : Nat) (modified : Option Nat) : Except String FileAttributes → Bool
  | .ok stat => isRegular stat ∧ stat.size.getD 0 = size ∧ (modified = none ∨ stat.mtime = modified)
  | .error _ => false

def readSnapshot (path : RemotePath) (maxBytes : Nat) : DocumentProc RemoteSnapshot := do
  orThrow (← ensureSftp) id
  let stat ← orThrow (← symlinkMetadata path) (statText path)
  if isRegular stat = false then throw ("仅支持打开普通文件: " ++ displayRemote path)
  else
    let size := stat.size.getD 0
    let (data, observedSize) ← sftpReadHead path maxBytes
    if observedSize ≠ size then throw (changedText path)
    else
      let again ← symlinkMetadata path
      if unchanged size stat.mtime again = false ∨ (size ≤ maxBytes ∧ data.length ≠ size) then
        throw (changedText path)
      else pure ⟨data, size, stat.mtime, stat.permissions⟩

def readCompleteSnapshot (path : RemotePath) : DocumentProc RemoteSnapshot := do
  let snapshot ← readSnapshot path (DOCUMENT_EDIT_LIMIT + 1)
  if snapshot.size > DOCUMENT_EDIT_LIMIT then
    throw ("远程文件超过可编辑上限（" ++ toString snapshot.size ++ " bytes > " ++
      toString DOCUMENT_EDIT_LIMIT ++ " bytes）")
  else if snapshot.data.length ≠ snapshot.size then
    throw ("未能完整读取远程文件 '" ++ displayRemote path ++ "'")
  else pure snapshot

/-! ## The commit -/

def documentArtifact (path : RemotePath) (tag uuid : List Char) : RemotePath :=
  let (dir, name) := remoteParts path
  remoteJoin dir (['.'] ++ name ++ ".tauterm-document-".toList ++ tag ++ ['-'] ++ uuid)

inductive CommitDocumentOutcome where
  | committed
  | conflict (current : RemoteDocumentVersion)
  deriving DecidableEq

def rollbackText (backupPath : RemotePath) (e : String) : String :=
  "回滚远程原文件失败，原文件仍保留在 '" ++ displayRemote backupPath ++ "': " ++ e

/-- What a commit that does not go through ends with, once the original is back. -/
def restoreThen {α : Type} (backupPath finalPath : RemotePath) (reason : String)
    (ending : DocumentProc α) : DocumentProc α := do
  match ← rename backupPath finalPath with
  | .ok () => ending
  | .error e => throw (reason ++ "；" ++ rollbackText backupPath e)

/-- Give up, with the original back or with its backup in the text. -/
def restoreOrReport {α : Type} (backupPath finalPath : RemotePath) (reason : String) :
    DocumentProc α :=
  restoreThen backupPath finalPath reason (throw reason)

def currentRegularMetadata (path : RemotePath) : DocumentProc (Option Nat) := do
  let stat ← orThrow (← symlinkMetadata path) (statText path)
  if isRegular stat then pure stat.permissions
  else throw ("仅支持保存普通文件: " ++ displayRemote path)

/-- Behind the checks: the temporary file gets the permissions of the original and its name. -/
def commitChecked (tempPath finalPath backupPath : RemotePath) (permissions : Option Nat) :
    DocumentProc CommitDocumentOutcome := do
  let synced ←
    match permissions with
    | some mode => setPermissions tempPath (0o100000 ||| (mode &&& 0o7777))
    | none => pure (.ok ())
  match synced with
  | .error e => restoreOrReport backupPath finalPath ("同步远程文档权限失败: " ++ e)
  | .ok () =>
    match ← rename tempPath finalPath with
    | .ok () => do
      let _ ← removeFile backupPath
      pure .committed
    | .error e =>
      restoreOrReport backupPath finalPath
        ("提交远程文档 '" ++ displayRemote finalPath ++ "' 失败: " ++ e)

def commitDocumentTemp (tempPath finalPath : RemotePath) (expected : Option RemoteDocumentVersion) :
    DocumentProc CommitDocumentOutcome := do
  let backupPath := documentArtifact finalPath "backup".toList (← newV4)
  let stat ← orThrow (← symlinkMetadata finalPath) fun e =>
    "提交前获取文件信息 '" ++ displayRemote finalPath ++ "' 失败: " ++ e
  if isRegular stat = false then throw ("提交目标不再是普通文件: " ++ displayRemote finalPath)
  else
    orThrow (← rename finalPath backupPath) fun e =>
      "备份远程原文件 '" ++ displayRemote finalPath ++ "' 失败: " ++ e
    match expected with
    | some expected =>
      match ← attempt (readSnapshot backupPath (DOCUMENT_EDIT_LIMIT + 1)) with
      | .error e => restoreOrReport backupPath finalPath ("提交前校验远程原文件失败: " ++ e)
      | .ok snapshot =>
        let current := snapshot.version crc32 (snapshot.data.length = snapshot.size)
        if current ≠ expected then
          restoreThen backupPath finalPath "提交前检测到远程文件并发修改" (pure (.conflict current))
        else commitChecked tempPath finalPath backupPath snapshot.permissions
    | none =>
      match ← attempt (currentRegularMetadata backupPath) with
      | .error e => restoreOrReport backupPath finalPath ("读取远程原文件权限失败: " ++ e)
      | .ok permissions => commitChecked tempPath finalPath backupPath permissions

/-! ## The command -/

structure RemoteDocumentSaveRequest where
  remotePath : RemotePath
  text : List Char
  format : WireFormat
  expectedVersion : RemoteDocumentVersion
  force : Bool

inductive RemoteDocumentSaveResult where
  | saved (version : RemoteDocumentVersion)
  | conflict (current : RemoteDocumentVersion)
  deriving DecidableEq

/-- Write the temporary file; it is removed when that fails, as well as that goes. -/
def writeTemp (tempPath : RemotePath) (bytes : List UInt8) : DocumentProc Unit := do
  match ← writeAll tempPath bytes with
  | .error e => do
    let _ ← removeFile tempPath
    throw ("写入远程文档临时文件失败: " ++ e)
  | .ok () =>
    match ← flush tempPath with
    | .error e => do
      let _ ← removeFile tempPath
      throw ("刷新远程文档临时文件失败: " ++ e)
    | .ok () => pure ()

/-- Behind the first check of the version. -/
def saveBytes (request : RemoteDocumentSaveRequest) (bytes : List UInt8) :
    DocumentProc RemoteDocumentSaveResult := do
  let tempPath := documentArtifact request.remotePath "part".toList (← newV4)
  orThrow (← createNew tempPath) fun e =>
    "创建远程文档临时文件 '" ++ displayRemote tempPath ++ "' 失败: " ++ e
  writeTemp tempPath bytes
  let expected := if request.force then none else some request.expectedVersion
  match ← attempt (commitDocumentTemp crc32 tempPath request.remotePath expected) with
  | .ok .committed => do
    let saved ← readCompleteSnapshot request.remotePath
    pure (.saved (saved.version crc32 true))
  | .ok (.conflict current) => do
    let _ ← removeFile tempPath
    pure (.conflict current)
  | .error e => do
    let _ ← removeFile tempPath
    throw e

def sftpSaveDocument (legacy : LegacyCodecs) (request : RemoteDocumentSaveRequest) :
    DocumentProc RemoteDocumentSaveResult := do
  if request.expectedVersion.contentCrc32 = none ∧ request.force = false then
    throw "保存前必须先完整加载文档，缺少内容版本"
  else
    orThrow (← sshRuntime) id
    let bytes ← orThrow (serializeText legacy request.text request.format) id
    let before ← readCompleteSnapshot request.remotePath
    let beforeVersion := before.version crc32 true
    if request.force = false ∧ beforeVersion ≠ request.expectedVersion then
      pure (.conflict beforeVersion)
    else saveBytes crc32 request bytes

end Document

end TauTerm.Sftp
