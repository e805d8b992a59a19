import Mathlib
import TauTerm.Sftp.FileCommit

/-!
# Transfers of one file

`sftp_download` and `sftp_upload` of `ssh_file_service.rs`. Each copies into a temporary file and
looks at the source again before it commits. What they tell the progress callback and the log is
left out.
-/

namespace TauTerm.Sftp

open Lib Lib.Proc

def transferBufSize : Nat := 256 * 1024

def transferCancelledError : String := "传输已被用户取消"

inductive SftpWriteOutcome where
  | completed (bytes : Nat) (finalPath : String)
  | skipped (finalPath : String)
  deriving DecidableEq

/-- A transfer ends without a commit; the temporary file is removed, as well as that goes. -/
def giveUp {κ α : Type} (removeTemp : FileProc (Except κ Unit)) (text : String) : FileProc α := do
  let _ ← removeTemp
  throw text

/-! ## Download -/

/-- One turn of the copy, from the number of bytes copied so far. -/
def downloadRound (remotePath : RemotePath) (temp : Path) (total : Nat) : FileProc (Nat ⊕ Nat) := do
  if ← cancelled then giveUp (removeFile temp) transferCancelledError
  else
    match ← sftpRead remotePath transferBufSize with
    | .error e => giveUp (removeFile temp) ("读取远程文件失败: " ++ e)
    | .ok bytes =>
      if bytes = [] then pure (.inr total)
      else
        match ← writeAll temp bytes with
        | .error e => giveUp (removeFile temp) ("写入本地临时文件失败: " ++ e.message)
        | .ok () => pure (.inl (total + bytes.length))

def FileAttributes.unchanged (before : FileAttributes) : Except String FileAttributes → Bool
  | .ok stat => stat.entryType = .file ∧ stat.size.getD 0 = before.size.getD 0 ∧
      (before.mtime = none ∨ stat.mtime = before.mtime)
  | .error _ => false

def createParent (path : Path) : FileProc Unit :=
  match path.parent with
  | some parent => do
    orThrow (← createDirAll parent) fun e =>
      "创建本地目录 '" ++ displayPath parent ++ "' 失败: " ++ e.message
  | none => pure ()

def changedText (path : String) (size total : Nat) : String :=
  "远端源文件 '" ++ path ++ "' 在传输期间发生变化（预期 " ++ toString size ++ " bytes，实际读取 " ++
    toString total ++ " bytes），已丢弃临时文件且未提交正式目标"

/-- The copy and the checks behind it; the name of the temporary file and its size. -/
def downloadToTemp (remotePath : RemotePath) (finalPath : Path) : FileProc (Path × Nat) := do
  let stat ← orThrow (← sftpSymlinkMetadata remotePath) fun e =>
    "获取远程文件信息 '" ++ displayRemote remotePath ++ "' 失败: " ++ e
  if stat.entryType ≠ .file then
    throw ("仅支持下载普通文件，'" ++ displayRemote remotePath ++ "' 类型为 " ++ stat.entryType.debug)
  else
    orThrow (← sftpOpen remotePath) fun e =>
      "打开远程文件 '" ++ displayRemote remotePath ++ "' 失败: " ++ e
    createParent finalPath
    let temp := siblingLocalArtifact finalPath "part".toList (← newV4)
    orThrow (← createFile temp) fun e =>
      "创建本地临时文件 '" ++ displayPath temp ++ "' 失败: " ++ e.message
    let total ← loop (downloadRound remotePath temp) 0
    let again ← sftpSymlinkMetadata remotePath
    if total ≠ stat.size.getD 0 ∨ stat.unchanged again = false then
      giveUp (removeFile temp)
        (changedText (displayRemote remotePath) (stat.size.getD 0) total)
    else
      match ← flush temp with
      | .error e => giveUp (removeFile temp) ("刷新本地临时文件失败: " ++ e.message)
      | .ok () =>
        if ← cancelled then giveUp (removeFile temp) transferCancelledError
        else pure (temp, total)

def sftpDownload (remotePath : RemotePath) (localPath : List Char) (policy : OverwritePolicy) :
    FileProc SftpWriteOutcome := do
  orThrow (← ensureSftp) id
  match ← resolveLocalDestination (.new localPath) policy with
  | none => pure (.skipped (displayPath (.new localPath)))
  | some finalPath => do
    let (temp, total) ← downloadToTemp remotePath finalPath
    match ← commitLocal temp finalPath policy with
    | some path => pure (.completed total (displayPath path))
    | none => pure (.skipped (displayPath finalPath))

/-! ## Upload -/

/-- Times that are not both known count as the same. -/
def sameModifiedTime : Option Nat → Option Nat → Bool
  | some a, some b => a = b
  | _, _ => true

def LocalMetadata.unchanged (before : LocalMetadata) : Except IoFault LocalMetadata → Bool
  | .ok stat => stat.len = before.len ∧ sameModifiedTime before.modified stat.modified
  | .error _ => false

/-- Give up with a flush that may fail. -/
def giveUpFlushed {α : Type} (temp : RemotePath) (text : String) : FileProc α := do
  let _ ← sftpFlush temp
  giveUp (sftpRemoveFile temp) text

def uploadRound (localPath : Path) (temp : RemotePath) (total : Nat) : FileProc (Nat ⊕ Nat) := do
  if ← cancelled then giveUpFlushed temp transferCancelledError
  else
    match ← readSource localPath transferBufSize with
    | .error e => giveUp (sftpRemoveFile temp) ("读取本地文件失败: " ++ e.message)
    | .ok bytes =>
      if bytes = [] then pure (.inr total)
      else
        match ← sftpWriteAll temp bytes with
        | .error e => giveUp (sftpRemoveFile temp) ("写入远程临时文件失败: " ++ e)
        | .ok () => pure (.inl (total + bytes.length))

/-- A failure to set the time is only logged. -/
def syncModifiedTime (temp : RemotePath) : Option Nat → FileProc Unit
  | none => pure ()
  | some secs => do
    match ← sftpMetadata temp with
    | .ok _ => do
      let _ ← sftpSetMetadata temp (min secs (2 ^ 32 - 1))
      pure ()
    | .error _ => pure ()

def uploadChangedText (path : String) (size total : Nat) : String :=
  "本地源文件 '" ++ path ++ "' 在传输期间发生变化（预期 " ++ toString size ++ " bytes，实际读取 " ++
    toString total ++ " bytes），已清理远端临时文件且未提交正式目标"

def uploadToTemp (localPath : Path) (before : LocalMetadata) (temp : RemotePath) (mtime : Option Nat) :
    FileProc Nat := do
  let total ← loop (uploadRound localPath temp) 0
  let again ← sourceMetadata localPath
  if total ≠ before.len ∨ before.unchanged again = false then
    giveUpFlushed temp (uploadChangedText (displayPath localPath) before.len total)
  else
    match ← sftpFlush temp with
    | .error e => giveUp (sftpRemoveFile temp) ("刷新远程临时文件失败: " ++ e)
    | .ok () => do
      syncModifiedTime temp mtime
      if ← cancelled then giveUp (sftpRemoveFile temp) transferCancelledError
      else pure total

def sftpUpload (localPath : List Char) (remotePath : RemotePath) (mtime : Option Nat)
    (policy : OverwritePolicy) : FileProc SftpWriteOutcome := do
  let source := Path.new localPath
  orThrow (← ensureSftp) id
  orThrow (← openSource source) fun e =>
    "打开本地文件 '" ++ displayPath source ++ "' 失败: " ++ e.message
  let before ← orThrow (← sourceMetadata source) fun e =>
    "读取本地文件 '" ++ displayPath source ++ "' 元数据失败: " ++ e.message
  match ← resolveRemoteDestination remotePath policy with
  | none => pure (.skipped (displayRemote remotePath))
  | some finalPath => do
    let temp := remoteSiblingArtifact finalPath "part".toList (← newV4)
    orThrow (← sftpCreateNew temp) fun e =>
      "创建远程临时文件 '" ++ displayRemote temp ++ "' 失败: " ++ e
    let total ← uploadToTemp source before temp mtime
    match ← commitRemote temp finalPath policy with
    | some path => pure (.completed total (displayRemote path))
    | none => pure (.skipped (displayRemote finalPath))

end TauTerm.Sftp
