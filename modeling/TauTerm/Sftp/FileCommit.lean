import Mathlib
import TauTerm.Sftp.FileCalls

/-!
# Committing a transferred file

`commit_local_temp` and `commit_remote_temp` of `ssh_file_service.rs`, with what they call. A
transfer writes a temporary file beside its destination; the commit gives it the name of the
destination, or another one, as the policy says. Both back ends replace a file through a backup, by
the same steps (`exchange`), and try one name after the other with `firstCommitted`.
-/

namespace TauTerm.Sftp

open Lib Lib.Proc

inductive OverwritePolicy where
  | replace
  | skip
  | keepBoth
  deriving DecidableEq

/-- The candidates of `KeepBoth`, the requested name first. -/
def keepBothCandidates {P : Type} (candidate : P → Nat → P) (path : P) : List P :=
  (List.range 10000).map fun index => if index = 0 then path else candidate path index

/-- The first candidate that `tryCommit` takes. -/
def firstCommitted {P : Type} (tryCommit : P → FileProc Bool) : List P → FileProc (Option P)
  | [] => pure none
  | candidate :: rest => do
    if ← tryCommit candidate then pure (some candidate) else firstCommitted tryCommit rest

/-- What `Skip` and `KeepBoth` do with a commit that takes a free name only. -/
def commitNoreplace {P : Type} (tryCommit : P → FileProc Bool) (finalPath : P) : FileProc (Option P) := do
  if ← tryCommit finalPath then pure (some finalPath) else pure none

def commitKeepBoth {P : Type} (display : P → String) (candidate : P → Nat → P)
    (tryCommit : P → FileProc Bool) (finalPath : P) : FileProc (Option P) := do
  match ← firstCommitted tryCommit (keepBothCandidates candidate finalPath) with
  | some path => pure (some path)
  | none => throw ("无法为 '" ++ display finalPath ++ "' 生成不冲突文件名")

/-! ## Replacing through a backup -/

/-- What one back end does under a name, and how it says so. -/
structure Backend (P κ : Type) where
  display : P → String
  message : κ → String
  rename : P → P → FileProc (Except κ Unit)
  removeFile : P → FileProc (Except κ Unit)
  /-- The words for moving the original away. -/
  keeping : String
  /-- The words for committing. -/
  committing : String

section Exchange

variable {P κ : Type} (B : Backend P κ) (temp finalPath backup : P)

def Backend.commitText (e : κ) : String :=
  B.committing ++ " '" ++ B.display finalPath ++ "' 失败: " ++ B.message e

def Backend.rollbackText (commitError rollbackError : κ) : String :=
  B.commitText finalPath commitError ++ "；回滚也失败，原文件仍保留在 '" ++ B.display backup ++ "': " ++
    B.message rollbackError

/-- Move the original to the backup and the new file to its name; move the original back if that
fails. -/
def exchange : FileProc (Option P) := do
  orThrow (← B.rename finalPath backup) fun e =>
    B.keeping ++ " '" ++ B.display finalPath ++ "' 失败: " ++ B.message e
  match ← B.rename temp finalPath with
  | .ok () => do
    let _ ← B.removeFile backup
    pure (some finalPath)
  | .error commitError =>
    match ← B.rename backup finalPath with
    | .ok () => throw (B.commitText finalPath commitError)
    | .error rollbackError => throw (B.rollbackText finalPath backup commitError rollbackError)

/-- Give a temporary file a name that nothing stands under. -/
def commitAbsent : FileProc (Option P) := do
  orThrow (← B.rename temp finalPath) fun e => B.commitText finalPath e
  pure (some finalPath)

end Exchange

/-! ## The local file system -/

def localBackend : Backend Path IoFault where
  display := displayPath
  message := IoFault.message
  rename := rename
  removeFile := removeFile
  keeping := "备份原文件"
  committing := "提交下载文件"

def resolveLocalDestination (requested : Path) (policy : OverwritePolicy) :
    FileProc (Option Path) := do
  match ← symlinkMetadata requested with
  | .ok stat =>
    match policy with
    | .replace =>
      if stat.isDir then throw ("下载目标已存在且是目录: " ++ displayPath requested)
      else pure (some requested)
    | .keepBoth => pure (some requested)
    | .skip => pure none
  | .error e =>
    if e.kind = .notFound then pure (some requested)
    else throw ("检查下载目标 '" ++ displayPath requested ++ "' 失败: " ++ e.message)

/-- A failure to remove the temporary name is only logged. -/
def tryCommitLocalNoreplace (temp candidate : Path) : FileProc Bool := do
  match ← hardLink temp candidate with
  | .ok () => do
    let _ ← removeFile temp
    pure true
  | .error e =>
    if e.kind = .alreadyExists then pure false
    else throw ("无覆盖提交下载文件 '" ++ displayPath candidate ++ "' 失败: " ++ e.message)

def commitLocalTemp (temp finalPath : Path) (policy : OverwritePolicy) : FileProc (Option Path) := do
  match policy with
  | .skip => commitNoreplace (tryCommitLocalNoreplace temp) finalPath
  | .keepBoth =>
    commitKeepBoth displayPath localKeepBothCandidate (tryCommitLocalNoreplace temp) finalPath
  | .replace =>
    match ← symlinkMetadata finalPath with
    | .ok stat =>
      if stat.isDir then throw ("下载目标已存在且是目录: " ++ displayPath finalPath)
      else do
        let uuid ← newV4
        exchange localBackend temp finalPath (siblingLocalArtifact finalPath "backup".toList uuid)
    | .error e =>
      if e.kind = .notFound then commitAbsent localBackend temp finalPath
      else throw ("检查下载目标 '" ++ displayPath finalPath ++ "' 失败: " ++ e.message)

/-! ## The SFTP server -/

def remoteBackend : Backend RemotePath String where
  display := displayRemote
  message := id
  rename := sftpRename
  removeFile := sftpRemoveFile
  keeping := "备份远程原文件"
  committing := "提交远程文件"

def checkText (path : RemotePath) (e : String) : String :=
  "检查远程目标 '" ++ displayRemote path ++ "' 失败: " ++ e

def statText (path : RemotePath) (e : String) : String :=
  "获取远程目标 '" ++ displayRemote path ++ "' 信息失败: " ++ e

def resolveRemoteDestination (requested : RemotePath) (policy : OverwritePolicy) :
    FileProc (Option RemotePath) := do
  if ← orThrow (← tryExists requested) (checkText requested) then
    match policy with
    | .skip => pure none
    | .keepBoth => pure (some requested)
    | .replace => do
      let stat ← orThrow (← sftpSymlinkMetadata requested) (statText requested)
      if stat.entryType = .directory then throw ("远程目标已存在且是目录: " ++ displayRemote requested)
      else pure (some requested)
  else pure (some requested)

def tryCommitRemoteNoreplace (temp candidate : RemotePath) : FileProc Bool := do
  if ← orThrow (← tryExists candidate) (checkText candidate) then pure false
  else
    match ← sftpRename temp candidate with
    | .ok () => pure true
    | .error renameError => do
      let nowExists ← orThrow (← tryExists candidate) fun e =>
        "重新检查远程目标 '" ++ displayRemote candidate ++ "' 失败: " ++ e
      if nowExists then pure false
      else throw ("无覆盖提交远程文件 '" ++ displayRemote candidate ++ "' 失败: " ++ renameError)

def commitRemoteTemp (temp finalPath : RemotePath) (policy : OverwritePolicy) :
    FileProc (Option RemotePath) := do
  match policy with
  | .skip => commitNoreplace (tryCommitRemoteNoreplace temp) finalPath
  | .keepBoth =>
    commitKeepBoth displayRemote remoteKeepBothCandidate (tryCommitRemoteNoreplace temp) finalPath
  | .replace =>
    if ← orThrow (← tryExists finalPath) (checkText finalPath) then do
      let stat ← orThrow (← sftpSymlinkMetadata finalPath) (statText finalPath)
      if stat.entryType = .directory then throw ("远程目标已存在且是目录: " ++ displayRemote finalPath)
      else do
        let uuid ← newV4
        exchange remoteBackend temp finalPath (remoteSiblingArtifact finalPath "backup".toList uuid)
    else commitAbsent remoteBackend temp finalPath

/-! ## With the clean-up of the callers -/

/-- A temporary file that has not been committed is removed, as well as that goes. -/
def withCleanUp {P κ : Type} (removeTemp : FileProc (Except κ Unit))
    (commit : FileProc (Option P)) : FileProc (Option P) := do
  match ← attempt commit with
  | .ok (some path) => pure (some path)
  | .ok none => do
    let _ ← removeTemp
    pure none
  | .error e => do
    let _ ← removeTemp
    throw e

def commitLocal (temp finalPath : Path) (policy : OverwritePolicy) : FileProc (Option Path) :=
  withCleanUp (removeFile temp) (commitLocalTemp temp finalPath policy)

def commitRemote (temp finalPath : RemotePath) (policy : OverwritePolicy) :
    FileProc (Option RemotePath) :=
  withCleanUp (sftpRemoveFile temp) (commitRemoteTemp temp finalPath policy)

end TauTerm.Sftp
