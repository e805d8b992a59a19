import Mathlib
import TauTerm.Sftp.CommitSafety

/-!
# Commits on the two sides

The local file system and the SFTP server as back ends of a commit, and what a commit keeps on
each: at its end, and, unless it replaces, at every step of its way.
-/

namespace TauTerm.Sftp

open Lib Lib.Proc Lib.Disk
open Lib.Prog (Returns)

variable {w : Disks} {a b temp candidate finalPath : Path}
  {remoteTemp remoteCandidate remoteFinal : RemotePath} {content : List UInt8}

/-! ## The names of backups -/

theorem isNormal_artifactName (name tag uuid : List Char) : IsNormal (artifactName name tag uuid) := by
  have hlong : 10 ≤ (artifactName name tag uuid).length := by
    have htext : (".tauterm-".toList).length = 9 := rfl
    simp only [artifactName, List.length_append, List.length_singleton, htext]
    omega
  constructor
  · simp only [isVoid, Bool.or_eq_false_iff, beq_eq_false_iff_ne]
    constructor <;> intro h <;> rw [h] at hlong <;> simp at hlong
  · intro h
    rw [h] at hlong
    simp at hlong

theorem artifactName_ne (name tag uuid : List Char) : artifactName name tag uuid ≠ name := by
  intro h
  have hlength := congrArg List.length h
  simp only [artifactName, List.length_append, List.length_singleton] at hlength
  omega

theorem fileName_join_of_isNormal {path : Path} {name : List Char} (h : IsNormal name) :
    (path.join ⟨false, [name]⟩).fileName = some name := by
  have hlast : (path.join ⟨false, [name]⟩).components.getLast? = some (.normal name) := by
    show (_ ++ List.filterMap segmentComponent (path.segments ++ [name])).getLast? = _
    rw [List.filterMap_append, List.filterMap_cons_some (segmentComponent_normal h), List.filterMap_nil,
      ← List.append_assoc, List.getLast?_concat]
  rw [Path.fileName, hlast]

theorem siblingLocalArtifact_ne (path : Path) (tag uuid : List Char) :
    siblingLocalArtifact path tag uuid ≠ path := by
  intro h
  have hname : some (artifactName (path.fileName.getD "transfer".toList) tag uuid) = path.fileName := by
    rw [← fileName_join_of_isNormal (isNormal_artifactName _ _ _)]
    exact congrArg Path.fileName h
  rw [← hname] at hname
  exact artifactName_ne _ _ _ (Option.some.inj hname)

theorem remoteParts_join {dir : RemotePath} {name : List Char} (h : '/' ∉ name) :
    (remoteParts (remoteJoin dir name)).2 = name := by
  have hall : ∀ c ∈ name.reverse, (c ≠ '/' : Bool) = true := by
    intro c hc
    simp only [ne_eq, decide_not, Bool.not_eq_true', decide_eq_false_iff_not]
    rintro rfl
    exact h (List.mem_reverse.mp hc)
  have hlast : ∀ front : RemotePath, (((front ++ '/' :: name).reverse.takeWhile (· ≠ '/')).reverse) =
      name := by
    intro front
    rw [List.reverse_append, List.reverse_cons, List.append_assoc,
      List.takeWhile_append_of_pos hall]
    simp
  unfold remoteJoin remoteParts
  split_ifs
  · rw [List.takeWhile_eq_self_iff.mpr hall, List.reverse_reverse]
  · exact hlast []
  · rw [List.append_assoc]
    exact hlast _

theorem not_mem_remoteParts (path : RemotePath) : '/' ∉ (remoteParts path).2 := by
  intro hmem
  have := List.mem_takeWhile_imp (List.mem_reverse.mp hmem)
  simp at this

/-- A path with another last name is another path. -/
theorem remoteJoin_ne {dir path : RemotePath} {name : List Char} (hslash : '/' ∉ name)
    (hne : name ≠ (remoteParts path).2) : remoteJoin dir name ≠ path := by
  intro h
  have hparts := congrArg (fun p => (remoteParts p).2) h
  exact hne ((remoteParts_join hslash).symm.trans hparts)

theorem remoteSiblingArtifact_ne {path : RemotePath} {tag uuid : List Char} (htag : '/' ∉ tag)
    (huuid : '/' ∉ uuid) : remoteSiblingArtifact path tag uuid ≠ path := by
  refine remoteJoin_ne ?_ (artifactName_ne _ _ _)
  simp only [artifactName, List.mem_append, not_or]
  exact ⟨⟨⟨⟨⟨by decide, not_mem_remoteParts path⟩, by decide⟩, htag⟩, by decide⟩, huuid⟩

/-! ## The local side -/

theorem wp_symlinkMetadata {Q : Except String (Except IoFault LocalMetadata) → Disks → Prop}
    (h : ∀ r v, Grows w.localDisk v.localDisk → Q (.ok r) v) :
    Wp fileWorld (symlinkMetadata a) Q w :=
  wp_ask fun _ r _ hdrift hresponds => h r _ (hresponds ▸ hdrift.1)

theorem wp_hardLink {Q : Except String (Except IoFault Unit) → Disks → Prop}
    (h : ∀ d r v, Grows w.localDisk d →
      Effect r (d a ≠ none ∧ d b = none) d (d.link a b) v.localDisk → Q (.ok r) v) :
    Wp fileWorld (hardLink a b) Q w :=
  wp_ask fun _ r _ hdrift hresponds => h _ r _ hdrift.1 hresponds.1

theorem localBackend_lawful : localBackend.Lawful fileWorld Disks.localDisk where
  rename h := wp_ask fun _ r _ hdrift hresponds => h _ r _ hdrift.1 hresponds.1
  removeFile h := wp_ask fun _ r _ hdrift hresponds => h _ r _ hdrift.1 hresponds.1

theorem tryCommitLocalNoreplace_careful :
    Careful fileWorld Disks.localDisk content temp (tryCommitLocalNoreplace temp) := by
  intro candidate w htemp
  refine wp_bind (wp_hardLink fun d r v hgrows heffect => ?_)
  cases r with
  | ok _ =>
    obtain ⟨⟨-, hfree⟩, hv⟩ := heffect
    have hne : candidate ≠ temp := by
      rintro rfl
      rw [hgrows _ _ htemp] at hfree
      cases hfree
    refine wp_bind (localBackend_lawful.removeFile fun d' r v' hgrows' heffect' => wp_pure ?_)
    have hkeeps := keepsBut_of_remove heffect'
    refine ⟨((hgrows.keepsBut temp).trans ?_).trans ((hgrows'.keepsBut temp).trans hkeeps), ?_, nofun⟩
    · rw [hv]
      exact keepsBut_link hfree temp
    · intro _
      refine hkeeps _ _ hne (hgrows' _ _ ?_)
      rw [hv, link_target]
      exact hgrows _ _ htemp
  | error e =>
    have hv : v.localDisk = d := heffect
    have hspares : v.localDisk temp = some (.file content) := hv ▸ hgrows _ _ htemp
    have hkeeps : KeepsBut temp w.localDisk v.localDisk := hv ▸ hgrows.keepsBut temp
    refine wp_ite (fun _ => ?_) fun _ => ?_
    · exact wp_pure ⟨hkeeps, nofun, fun _ => hspares⟩
    · exact wp_throw ⟨hkeeps, nofun, fun _ => hspares⟩

theorem commitLocalTemp_spec {policy : OverwritePolicy}
    (htemp : w.localDisk temp = some (.file content)) (hne : temp ≠ finalPath) :
    Wp fileWorld (commitLocalTemp temp finalPath policy) (fun r v =>
      Committed displayPath policy content temp finalPath w.localDisk v.localDisk r) w := by
  cases policy with
  | skip => exact commitNoreplace_spec tryCommitLocalNoreplace_careful htemp
  | keepBoth => exact commitKeepBoth_spec tryCommitLocalNoreplace_careful htemp
  | replace =>
    refine wp_bind (wp_symlinkMetadata fun r v hgrows => ?_)
    have htemp' := hgrows _ _ htemp
    cases r with
    | ok stat =>
      refine wp_ite (fun _ => ?_) fun _ => ?_
      · exact wp_throw (.of_keepsBut (hgrows.keepsBut temp) nofun)
      · refine wp_ask_bind fun v' uuid v'' hdrift hresponds => ?_
        obtain ⟨⟨-, hlocal, -⟩, rfl⟩ := hresponds
        refine (exchange_spec localBackend_lawful (hdrift.1 _ _ htemp') hne
          (siblingLocalArtifact_ne _ _ _) (hlocal _ _)).imp fun r u hu => ?_
        exact hu.mono fun p o ho => hdrift.1 p o (hgrows p o ho)
    | error e =>
      refine wp_ite (fun _ => ?_) fun _ => ?_
      · exact (commitAbsent_spec localBackend_lawful htemp').imp fun r u hu => hu.mono hgrows
      · exact wp_throw (.of_keepsBut (hgrows.keepsBut temp) nofun)

theorem commitLocal_spec {policy : OverwritePolicy}
    (htemp : w.localDisk temp = some (.file content)) (hne : temp ≠ finalPath) :
    Wp fileWorld (commitLocal temp finalPath policy) (fun r v =>
      Committed displayPath policy content temp finalPath w.localDisk v.localDisk r) w := by
  refine withCleanUp_spec (fun h => ?_) (commitLocalTemp_spec htemp hne)
  refine localBackend_lawful.removeFile fun d r v hgrows heffect => h r v ?_
  exact (hgrows.keepsBut temp).trans (keepsBut_of_remove heffect)

/-! ## The server -/

theorem wp_tryExists {Q : Except String (Except String Bool) → Disks → Prop}
    (h : ∀ r v, Grows w.remoteDisk v.remoteDisk → Q (.ok r) v) :
    Wp fileWorld (tryExists remoteCandidate) Q w :=
  wp_ask fun _ r _ hdrift hresponds => h r _ (hresponds ▸ hdrift.2)

theorem wp_sftpSymlinkMetadata {Q : Except String (Except String FileAttributes) → Disks → Prop}
    (h : ∀ r v, Grows w.remoteDisk v.remoteDisk → Q (.ok r) v) :
    Wp fileWorld (sftpSymlinkMetadata remoteCandidate) Q w :=
  wp_ask fun _ r _ hdrift hresponds => h r _ (hresponds ▸ hdrift.2)

theorem wp_sftpRename {source target : RemotePath}
    {Q : Except String (Except String Unit) → Disks → Prop}
    (h : ∀ d r v, Grows w.remoteDisk d →
      Effect r (d source ≠ none ∧ d target = none) d (d.rename source target) v.remoteDisk →
        Q (.ok r) v) : Wp fileWorld (sftpRename source target) Q w :=
  wp_ask fun _ r _ hdrift hresponds => h _ r _ hdrift.2 hresponds.1

theorem remoteBackend_lawful : remoteBackend.Lawful fileWorld Disks.remoteDisk where
  rename h := wp_sftpRename fun d r v hgrows heffect => h d r v hgrows <| by
    cases r with
    | ok _ => exact ⟨heffect.1.1, heffect.2⟩
    | error _ => exact heffect
  removeFile h := wp_ask fun _ r _ hdrift hresponds => h _ r _ hdrift.2 hresponds.1

theorem tryCommitRemoteNoreplace_careful :
    Careful fileWorld Disks.remoteDisk content remoteTemp (tryCommitRemoteNoreplace remoteTemp) := by
  intro candidate w htemp
  refine wp_bind (wp_tryExists fun r v hgrows => wp_bind ?_)
  have htemp' := hgrows _ _ htemp
  have hkeeps := hgrows.keepsBut remoteTemp
  cases r with
  | error e => exact wp_throw ⟨hkeeps, nofun, fun _ => htemp'⟩
  | ok taken =>
  cases taken with
  | true => exact wp_pure (wp_pure ⟨hkeeps, nofun, fun _ => htemp'⟩)
  | false =>
  refine wp_pure (wp_bind (wp_sftpRename fun d r v' hgrows' heffect => ?_))
  cases r with
  | ok _ =>
    obtain ⟨⟨-, hfree⟩, hv⟩ := heffect
    refine wp_pure ⟨(hkeeps.trans (hgrows'.keepsBut remoteTemp)).trans ?_, fun _ => ?_, nofun⟩
    · rw [hv]
      exact keepsBut_rename hfree
    · rw [hv, rename_target]
      exact hgrows' _ _ htemp'
  | error renameError =>
    refine wp_bind (wp_tryExists fun r u hgrows'' => wp_bind ?_)
    rw [show v'.remoteDisk = d from heffect] at hgrows''
    have hspares := hgrows'' _ _ (hgrows' _ _ htemp')
    have hkept := hkeeps.trans ((hgrows'.keepsBut remoteTemp).trans (hgrows''.keepsBut remoteTemp))
    cases r with
    | error e => exact wp_throw ⟨hkept, nofun, fun _ => hspares⟩
    | ok nowExists =>
      cases nowExists with
      | true => exact wp_pure (wp_pure ⟨hkept, nofun, fun _ => hspares⟩)
      | false => exact wp_pure (wp_throw ⟨hkept, nofun, fun _ => hspares⟩)

theorem commitRemoteTemp_spec {policy : OverwritePolicy}
    (htemp : w.remoteDisk remoteTemp = some (.file content)) (hne : remoteTemp ≠ remoteFinal) :
    Wp fileWorld (commitRemoteTemp remoteTemp remoteFinal policy) (fun r v =>
      Committed displayRemote policy content remoteTemp remoteFinal w.remoteDisk v.remoteDisk r) w := by
  cases policy with
  | skip => exact commitNoreplace_spec tryCommitRemoteNoreplace_careful htemp
  | keepBoth => exact commitKeepBoth_spec tryCommitRemoteNoreplace_careful htemp
  | replace =>
    refine wp_bind (wp_tryExists fun r v hgrows => wp_bind ?_)
    have htemp' := hgrows _ _ htemp
    cases r with
    | error e => exact wp_throw (.of_keepsBut (hgrows.keepsBut remoteTemp) nofun)
    | ok taken =>
    cases taken with
    | false =>
      exact wp_pure ((commitAbsent_spec remoteBackend_lawful htemp').imp fun r u hu => hu.mono hgrows)
    | true =>
    refine wp_pure (wp_bind (wp_sftpSymlinkMetadata fun r v' hgrows' => wp_bind ?_))
    have hgrown : Grows w.remoteDisk v'.remoteDisk := fun p o ho => hgrows' p o (hgrows p o ho)
    cases r with
    | error e => exact wp_throw (.of_keepsBut (hgrown.keepsBut remoteTemp) nofun)
    | ok stat =>
    refine wp_pure ?_
    refine wp_ite (fun _ => ?_) fun _ => ?_
    · exact wp_throw (.of_keepsBut (hgrown.keepsBut remoteTemp) nofun)
    · refine wp_ask_bind fun u uuid u' hdrift hresponds => ?_
      obtain ⟨⟨hslash, -, hremote⟩, rfl⟩ := hresponds
      refine (exchange_spec remoteBackend_lawful (hdrift.2 _ _ (hgrown _ _ htemp)) hne
        (remoteSiblingArtifact_ne (by decide) hslash) (hremote _ _)).imp fun r u hu => ?_
      exact hu.mono fun p o ho => hdrift.2 p o (hgrown p o ho)

theorem commitRemote_spec {policy : OverwritePolicy}
    (htemp : w.remoteDisk remoteTemp = some (.file content)) (hne : remoteTemp ≠ remoteFinal) :
    Wp fileWorld (commitRemote remoteTemp remoteFinal policy) (fun r v =>
      Committed displayRemote policy content remoteTemp remoteFinal w.remoteDisk v.remoteDisk r) w := by
  refine withCleanUp_spec (fun h => ?_) (commitRemoteTemp_spec htemp hne)
  refine remoteBackend_lawful.removeFile fun d r v hgrows heffect => h r v ?_
  exact (hgrows.keepsBut remoteTemp).trans (keepsBut_of_remove heffect)

/-! ## The calls of a commit -/

/-- What the commit of a local file calls. -/
def FileCall.CommitsLocal (temp : Path) (policy : OverwritePolicy) : FileCall → Prop
  | .hardLink source _ => source = temp
  | .removeFile path => policy = .replace ∨ path = temp
  | .rename .. | .symlinkMetadata _ | .newV4 => policy = .replace
  | _ => False

def FileCall.CommitsRemote (temp : RemotePath) (policy : OverwritePolicy) : FileCall → Prop
  | .sftpRename source _ => policy = .replace ∨ source = temp
  | .sftpRemoveFile path => policy = .replace ∨ path = temp
  | .tryExists _ => True
  | .sftpSymlinkMetadata _ | .newV4 => policy = .replace
  | _ => False

section Commit

variable {P κ : Type} {C : FileCall → Prop}

theorem firstCommitted_calls {tryCommit : P → FileProc Bool} (h : ∀ p, Calls C (tryCommit p)) :
    ∀ candidates, Calls C (firstCommitted tryCommit candidates)
  | [] => calls_pure _
  | candidate :: rest =>
    (h candidate).bind fun _ => calls_ite (calls_pure _) (firstCommitted_calls h rest)

theorem commitNoreplace_calls {tryCommit : P → FileProc Bool} (h : ∀ p, Calls C (tryCommit p))
    (finalPath : P) : Calls C (commitNoreplace tryCommit finalPath) :=
  (h finalPath).bind fun _ => calls_ite (calls_pure _) (calls_pure _)

theorem commitKeepBoth_calls {display : P → String} {candidate : P → Nat → P}
    {tryCommit : P → FileProc Bool} (h : ∀ p, Calls C (tryCommit p)) (finalPath : P) :
    Calls C (commitKeepBoth display candidate tryCommit finalPath) :=
  (firstCommitted_calls h _).bind fun r =>
    match r with
    | some _ => calls_pure _
    | none => calls_throw _

theorem exchange_calls {B : Backend P κ} (hrename : ∀ a b, Calls C (B.rename a b))
    (hremove : ∀ a, Calls C (B.removeFile a)) (temp finalPath backup : P) :
    Calls C (exchange B temp finalPath backup) :=
  (hrename _ _).bind fun _ => (calls_orThrow _ _).bind fun _ => (hrename _ _).bind fun r =>
    match r with
    | .ok _ => (hremove _).bind fun _ => calls_pure _
    | .error _ => (hrename _ _).bind fun r =>
      match r with
      | .ok _ => calls_throw _
      | .error _ => calls_throw _

theorem commitAbsent_calls {B : Backend P κ} (hrename : ∀ a b, Calls C (B.rename a b))
    (temp finalPath : P) : Calls C (commitAbsent B temp finalPath) :=
  (hrename _ _).bind fun _ => (calls_orThrow _ _).bind fun _ => calls_pure _

theorem withCleanUp_calls {removeTemp : FileProc (Except κ Unit)} {commit : FileProc (Option P)}
    (hremove : Calls C removeTemp) (hcommit : Calls C commit) :
    Calls C (withCleanUp removeTemp commit) :=
  hcommit.attempt.bind fun r =>
    match r with
    | .ok (some _) => calls_pure _
    | .ok none => hremove.bind fun _ => calls_pure _
    | .error _ => hremove.bind fun _ => calls_throw _

theorem commitLocal_calls (temp finalPath : Path) (policy : OverwritePolicy) :
    Calls (FileCall.CommitsLocal temp policy) (commitLocal temp finalPath policy) := by
  have hlink : ∀ candidate, Calls (FileCall.CommitsLocal temp policy) (hardLink temp candidate) :=
    fun _ => calls_ask rfl
  have hremove : Calls (FileCall.CommitsLocal temp policy) (removeFile temp) := calls_ask (.inr rfl)
  have htry : ∀ candidate,
      Calls (FileCall.CommitsLocal temp policy) (tryCommitLocalNoreplace temp candidate) :=
    fun candidate => (hlink candidate).bind fun r =>
      match r with
      | .ok _ => hremove.bind fun _ => calls_pure _
      | .error _ => calls_ite (calls_pure _) (calls_throw _)
  refine withCleanUp_calls hremove ?_
  cases policy with
  | skip => exact commitNoreplace_calls htry finalPath
  | keepBoth => exact commitKeepBoth_calls htry finalPath
  | replace =>
    have hrename : ∀ a b, Calls (FileCall.CommitsLocal temp .replace) (localBackend.rename a b) :=
      fun _ _ => calls_ask rfl
    have hstat : Calls (FileCall.CommitsLocal temp .replace) (symlinkMetadata finalPath) :=
      calls_ask rfl
    have huuid : Calls (FileCall.CommitsLocal temp .replace) newV4 := calls_ask rfl
    refine hstat.bind fun r => ?_
    match r with
    | .ok stat =>
      refine calls_ite (calls_throw _) (huuid.bind fun uuid => ?_)
      exact exchange_calls hrename (fun _ => calls_ask (.inl rfl)) _ _ _
    | .error e => exact calls_ite (commitAbsent_calls hrename _ _) (calls_throw _)

theorem commitRemote_calls (temp finalPath : RemotePath) (policy : OverwritePolicy) :
    Calls (FileCall.CommitsRemote temp policy) (commitRemote temp finalPath policy) := by
  have hexists : ∀ path, Calls (FileCall.CommitsRemote temp policy) (tryExists path) :=
    fun _ => calls_ask trivial
  have hrename : ∀ candidate,
      Calls (FileCall.CommitsRemote temp policy) (sftpRename temp candidate) :=
    fun _ => calls_ask (.inr rfl)
  have htry : ∀ candidate,
      Calls (FileCall.CommitsRemote temp policy) (tryCommitRemoteNoreplace temp candidate) :=
    fun candidate => (hexists _).bind fun _ => (calls_orThrow _ _).bind fun _ =>
      calls_ite (calls_pure _) <| (hrename candidate).bind fun r =>
        match r with
        | .ok _ => calls_pure _
        | .error _ => (hexists _).bind fun _ => (calls_orThrow _ _).bind fun _ =>
          calls_ite (calls_pure _) (calls_throw _)
  refine withCleanUp_calls (calls_ask (.inr rfl)) ?_
  cases policy with
  | skip => exact commitNoreplace_calls htry finalPath
  | keepBoth => exact commitKeepBoth_calls htry finalPath
  | replace =>
    have hrename : ∀ a b, Calls (FileCall.CommitsRemote temp .replace) (remoteBackend.rename a b) :=
      fun _ _ => calls_ask (.inl rfl)
    have hstat : Calls (FileCall.CommitsRemote temp .replace) (sftpSymlinkMetadata finalPath) :=
      calls_ask rfl
    have huuid : Calls (FileCall.CommitsRemote temp .replace) newV4 := calls_ask rfl
    refine (hexists _).bind fun _ => (calls_orThrow _ _).bind fun _ => calls_ite ?_ ?_
    · refine hstat.bind fun _ => (calls_orThrow _ _).bind fun _ =>
        calls_ite (calls_throw _) (huuid.bind fun uuid => ?_)
      exact exchange_calls hrename (fun _ => calls_ask (.inl rfl)) _ _ _
    · exact commitAbsent_calls hrename _ _

end Commit

/-! ## No object is touched at any time -/

theorem commitsLocal_keeps {temp : Path} {policy : OverwritePolicy} (hpolicy : policy ≠ .replace)
    {e : fileIo.Event} (he : FileCall.CommitsLocal temp policy e.1) {w v : Disks}
    (h : fileResponds w e v) : KeepsBut temp w.localDisk v.localDisk := by
  obtain ⟨c, r⟩ := e
  cases c with
  | hardLink a b =>
    match r, h.1 with
    | .ok _, hlink =>
      rw [hlink.2]
      exact keepsBut_link hlink.1.2 temp
    | .error _, hlink =>
      rw [show v.localDisk = w.localDisk from hlink]
      exact .refl _ _
  | removeFile a =>
    obtain rfl := he.resolve_left hpolicy
    exact keepsBut_of_remove h.1
  | rename | symlinkMetadata | newV4 => exact absurd he hpolicy
  | _ => exact he.elim

theorem commitsRemote_keeps {temp : RemotePath} {policy : OverwritePolicy}
    (hpolicy : policy ≠ .replace) {e : fileIo.Event} (he : FileCall.CommitsRemote temp policy e.1)
    {w v : Disks} (h : fileResponds w e v) : KeepsBut temp w.remoteDisk v.remoteDisk := by
  obtain ⟨c, r⟩ := e
  cases c with
  | sftpRename a b =>
    obtain rfl := he.resolve_left hpolicy
    match r, h.1 with
    | .ok _, hrename =>
      rw [hrename.2]
      exact keepsBut_rename hrename.1.2
    | .error _, hrename =>
      rw [show v.remoteDisk = w.remoteDisk from hrename]
      exact .refl _ _
  | sftpRemoveFile a =>
    obtain rfl := he.resolve_left hpolicy
    exact keepsBut_of_remove h.1
  | tryExists a =>
    rw [show v = w from h]
    exact .refl _ _
  | sftpSymlinkMetadata | newV4 => exact absurd he hpolicy
  | _ => exact he.elim

/-- On every run of `x` from `w`: what a commit that came to an end has left, and, unless it
replaces, that nothing but the temporary file is touched between any two points of the run. -/
def CommitSafe {P : Type} (disk : Disks → Disk P (List UInt8)) (display : P → String)
    (policy : OverwritePolicy) (temp finalPath : P) (content : List UInt8)
    (x : FileProc (Option P)) (w : Disks) : Prop :=
  ∀ tr r w', Returns x.run tr r → fileWorld.Carries w tr w' →
    Committed display policy content temp finalPath (disk w) (disk w') r ∧
    (policy ≠ .replace → ∀ tr₁ tr₂ tr₃ u v, tr = tr₁ ++ (tr₂ ++ tr₃) →
      fileWorld.Carries w tr₁ u → fileWorld.Carries u tr₂ v → KeepsBut temp (disk u) (disk v))

theorem commitLocal_safe {w : Disks} {temp finalPath : Path} {policy : OverwritePolicy}
    {content : List UInt8} (htemp : w.localDisk temp = some (.file content))
    (hne : temp ≠ finalPath) : CommitSafe Disks.localDisk displayPath policy temp finalPath content
      (commitLocal temp finalPath policy) w := by
  refine fun tr r w' hrun hw => ⟨commitLocal_spec htemp hne tr r w' hrun hw, fun hpolicy => ?_⟩
  rintro tr₁ tr₂ tr₃ u v rfl - huv
  refine World.Carries.relates (W := fileWorld)
    (R := fun u v => KeepsBut temp u.localDisk v.localDisk) (fun _ => KeepsBut.refl _ _)
    (fun h h' => KeepsBut.trans h h') (fun h => Grows.keepsBut h.1 temp) (fun e he _ _ hr => ?_) huv
  refine commitsLocal_keeps hpolicy (commitLocal_calls temp finalPath policy _ r hrun e ?_) hr
  exact List.mem_append_right _ (List.mem_append_left _ he)

theorem commitRemote_safe {w : Disks} {temp finalPath : RemotePath} {policy : OverwritePolicy}
    {content : List UInt8} (htemp : w.remoteDisk temp = some (.file content))
    (hne : temp ≠ finalPath) : CommitSafe Disks.remoteDisk displayRemote policy temp finalPath content
      (commitRemote temp finalPath policy) w := by
  refine fun tr r w' hrun hw => ⟨commitRemote_spec htemp hne tr r w' hrun hw, fun hpolicy => ?_⟩
  rintro tr₁ tr₂ tr₃ u v rfl - huv
  refine World.Carries.relates (W := fileWorld)
    (R := fun u v => KeepsBut temp u.remoteDisk v.remoteDisk) (fun _ => KeepsBut.refl _ _)
    (fun h h' => KeepsBut.trans h h') (fun h => Grows.keepsBut h.2 temp) (fun e he _ _ hr => ?_) huv
  refine commitsRemote_keeps hpolicy (commitRemote_calls temp finalPath policy _ r hrun e ?_) hr
  exact List.mem_append_right _ (List.mem_append_left _ he)

end TauTerm.Sftp
