import Mathlib
import TauTerm.Lib.Disk
import TauTerm.Sftp.FileCommit

/-!
# What a commit keeps

The disks of both sides, on which other programs create objects between any two calls. A call takes
effect or fails without effect; a hard link, an exclusive create and an SFTP rename fail where
something stands. Nothing is asked of the answers of queries, which may follow links or not and may
be out of date.
-/

namespace TauTerm.Sftp

open Lib Lib.Proc Lib.Disk

structure Disks where
  localDisk : Disk Path (List UInt8)
  remoteDisk : Disk RemotePath (List UInt8)

/-- No artifact has this number in its name yet. -/
def Disks.Unused (w : Disks) (uuid : List Char) : Prop :=
  '/' ∉ uuid ∧ (∀ path tag, w.localDisk (siblingLocalArtifact path tag uuid) = none) ∧
    ∀ path tag, w.remoteDisk (remoteSiblingArtifact path tag uuid) = none

/-- What a call that changes the disks makes of the one that it is about. -/
def fileResponds (w : Disks) (e : fileIo.Event) (v : Disks) : Prop :=
  match e with
  | ⟨.hardLink a b, r⟩ =>
    Effect r (w.localDisk a ≠ none ∧ w.localDisk b = none) w.localDisk (w.localDisk.link a b)
      v.localDisk ∧ v.remoteDisk = w.remoteDisk
  | ⟨.rename a b, r⟩ =>
    Effect r (w.localDisk a ≠ none) w.localDisk (w.localDisk.rename a b) v.localDisk ∧
      v.remoteDisk = w.remoteDisk
  | ⟨.removeFile a, r⟩ =>
    Effect r (w.localDisk a ≠ none) w.localDisk (w.localDisk.remove a) v.localDisk ∧
      v.remoteDisk = w.remoteDisk
  | ⟨.create a, r⟩ =>
    Effect r (w.localDisk a ≠ some .dir) w.localDisk (w.localDisk.put a (.file [])) v.localDisk ∧
      v.remoteDisk = w.remoteDisk
  | ⟨.writeAll a bytes, r⟩ =>
    ∃ content, Effect r (w.localDisk a = some (.file content)) w.localDisk
      (w.localDisk.put a (.file (content ++ bytes))) v.localDisk ∧ v.remoteDisk = w.remoteDisk
  | ⟨.createDirAll _, _⟩ => Grows w.localDisk v.localDisk ∧ v.remoteDisk = w.remoteDisk
  | ⟨.sftpRename a b, r⟩ =>
    Effect r (w.remoteDisk a ≠ none ∧ w.remoteDisk b = none) w.remoteDisk (w.remoteDisk.rename a b)
      v.remoteDisk ∧ v.localDisk = w.localDisk
  | ⟨.sftpRemoveFile a, r⟩ =>
    Effect r (w.remoteDisk a ≠ none) w.remoteDisk (w.remoteDisk.remove a) v.remoteDisk ∧
      v.localDisk = w.localDisk
  | ⟨.sftpCreateNew a, r⟩ =>
    Effect r (w.remoteDisk a = none) w.remoteDisk (w.remoteDisk.put a (.file [])) v.remoteDisk ∧
      v.localDisk = w.localDisk
  | ⟨.sftpWriteAll a bytes, r⟩ =>
    ∃ content, Effect r (w.remoteDisk a = some (.file content)) w.remoteDisk
      (w.remoteDisk.put a (.file (content ++ bytes))) v.remoteDisk ∧ v.localDisk = w.localDisk
  | ⟨.newV4, uuid⟩ => w.Unused uuid ∧ v = w
  | _ => v = w

def fileWorld : World fileIo Disks where
  Drifts w v := Grows w.localDisk v.localDisk ∧ Grows w.remoteDisk v.remoteDisk
  Responds := fileResponds

section Spec

variable {P κ C : Type} {σ : Type}

/-- What a commit that came to an end has left, of what was there. -/
structure Committed (display : P → String) (policy : OverwritePolicy) (content : C)
    (temp finalPath : P) (d d' : Disk P C) (r : Except String (Option P)) : Prop where
  holds : ∀ p, r = .ok (some p) → d' p = some (.file content)
  keeps : ∀ p o, p ≠ temp → d p = some o → d' p = some o ∨
    (policy = .replace ∧ p = finalPath ∧ (r = .ok (some finalPath) ∨
      ∃ text backup, r = .error text ∧ Names text (display backup) ∧ backup ≠ temp ∧
        d' backup = some o))

/-- An attempt to commit under a free name. -/
structure Tried (content : C) (temp candidate : P) (d d' : Disk P C) (r : Except String Bool) :
    Prop where
  keeps : KeepsBut temp d d'
  holds : r = .ok true → d' candidate = some (.file content)
  spares : r ≠ .ok true → d' temp = some (.file content)

variable {display : P → String} {policy : OverwritePolicy} {content : C} {temp finalPath : P}
  {d₀ d d' : Disk P C}

theorem Committed.mono {r : Except String (Option P)} (hd : Grows d₀ d)
    (h : Committed display policy content temp finalPath d d' r) :
    Committed display policy content temp finalPath d₀ d' r :=
  ⟨h.holds, fun p o hp ho => h.keeps p o hp (hd p o ho)⟩

theorem Committed.of_keepsBut {r : Except String (Option P)} (hkeeps : KeepsBut temp d d')
    (hholds : ∀ p, r = .ok (some p) → d' p = some (.file content)) :
    Committed display policy content temp finalPath d d' r :=
  ⟨hholds, fun p o hp ho => .inl (hkeeps p o hp ho)⟩

/-- A commit that failed, and what others and the clean-up do behind it. -/
theorem Committed.cleanUp {d'' : Disk P C} {r : Except String (Option P)}
    (hr : ∀ p, r ≠ .ok (some p)) (h : Committed display policy content temp finalPath d d' r)
    (hkeeps : KeepsBut temp d' d'') : Committed display policy content temp finalPath d d'' r := by
  refine ⟨fun p hp => absurd hp (hr p), fun p o hp ho => ?_⟩
  obtain hkept | ⟨hpolicy, hfinal, hok | ⟨text, backup, htext, hnames, hne, hbackup⟩⟩ :=
    h.keeps p o hp ho
  · exact .inl (hkeeps p o hp hkept)
  · exact absurd hok (hr _)
  · exact .inr ⟨hpolicy, hfinal, .inr ⟨text, backup, htext, hnames, hne, hkeeps _ _ hne hbackup⟩⟩

/-! ## Free names -/

variable {W : World fileIo σ} {disk : σ → Disk P C} {w : σ} {tryCommit : P → FileProc Bool}

/-- Commits that take a free name only, wherever they are tried. -/
def Careful (W : World fileIo σ) (disk : σ → Disk P C) (content : C) (temp : P)
    (tryCommit : P → FileProc Bool) : Prop :=
  ∀ candidate w, disk w temp = some (.file content) →
    Wp W (tryCommit candidate) (fun r v => Tried content temp candidate (disk w) (disk v) r) w

theorem firstCommitted_spec (htry : Careful W disk content temp tryCommit) (candidates : List P)
    (htemp : disk w temp = some (.file content)) :
    Wp W (firstCommitted tryCommit candidates) (fun r v => KeepsBut temp (disk w) (disk v) ∧
      ∀ p, r = .ok (some p) → disk v p = some (.file content)) w := by
  induction candidates generalizing w with
  | nil => exact wp_pure ⟨.refl _ _, nofun⟩
  | cons candidate rest ih =>
    refine wp_bind ((htry candidate w htemp).imp fun r v hv => ?_)
    match r with
    | .error e => exact ⟨hv.keeps, nofun⟩
    | .ok true =>
      refine wp_pure ⟨hv.keeps, ?_⟩
      rintro p ⟨⟩
      exact hv.holds rfl
    | .ok false =>
      refine (ih (hv.spares nofun)).imp fun r v' hv' => ⟨hv.keeps.trans hv'.1, hv'.2⟩

theorem commitNoreplace_spec (htry : Careful W disk content temp tryCommit)
    (htemp : disk w temp = some (.file content)) :
    Wp W (commitNoreplace tryCommit finalPath) (fun r v =>
      Committed display policy content temp finalPath (disk w) (disk v) r) w := by
  refine wp_bind ((htry finalPath w htemp).imp fun r v hv => ?_)
  match r with
  | .error e => exact .of_keepsBut hv.keeps nofun
  | .ok true =>
    refine wp_pure (.of_keepsBut hv.keeps ?_)
    rintro p ⟨⟩
    exact hv.holds rfl
  | .ok false => exact wp_pure (.of_keepsBut hv.keeps nofun)

theorem commitKeepBoth_spec {candidate : P → Nat → P} (htry : Careful W disk content temp tryCommit)
    (htemp : disk w temp = some (.file content)) :
    Wp W (commitKeepBoth display candidate tryCommit finalPath) (fun r v =>
      Committed display policy content temp finalPath (disk w) (disk v) r) w := by
  refine wp_bind ((firstCommitted_spec htry _ htemp).imp fun r v hv => ?_)
  match r with
  | .error e => exact .of_keepsBut hv.1 nofun
  | .ok none => exact wp_throw (.of_keepsBut hv.1 nofun)
  | .ok (some path) =>
    refine wp_pure (.of_keepsBut hv.1 ?_)
    rintro p ⟨⟩
    exact hv.2 _ rfl

/-- The clean-up takes nothing but the temporary file. -/
theorem withCleanUp_spec {removeTemp : FileProc (Except κ Unit)} {commit : FileProc (Option P)}
    (hremove : ∀ {w} {Q : Except String (Except κ Unit) → σ → Prop},
      (∀ r v, KeepsBut temp (disk w) (disk v) → Q (.ok r) v) → Wp W removeTemp Q w)
    (hcommit : Wp W commit (fun r v =>
      Committed display policy content temp finalPath (disk w) (disk v) r) w) :
    Wp W (withCleanUp removeTemp commit) (fun r v =>
      Committed display policy content temp finalPath (disk w) (disk v) r) w := by
  refine wp_bind (wp_attempt (hcommit.imp fun r v hv => ?_))
  match r with
  | .ok (some path) => exact wp_pure hv
  | .ok none =>
    exact wp_bind (hremove fun r v' hkeeps => wp_pure (hv.cleanUp nofun hkeeps))
  | .error e =>
    exact wp_bind (hremove fun r v' hkeeps => wp_throw (hv.cleanUp nofun hkeeps))

/-! ## The chain through a backup -/

variable {B : Backend P κ} {backup : P}

theorem names_rollbackText (commitError rollbackError : κ) :
    Names (B.rollbackText finalPath backup commitError rollbackError) (B.display backup) :=
  ⟨_, _, String.append_assoc⟩

variable [DecidableEq P]

/-- The calls of a back end act on a disk that others let grow. -/
structure Backend.Lawful (B : Backend P κ) (W : World fileIo σ) (disk : σ → Disk P C) : Prop where
  rename : ∀ {a b w} {Q : Except String (Except κ Unit) → σ → Prop},
    (∀ d r v, Grows (disk w) d → Effect r (d a ≠ none) d (d.rename a b) (disk v) → Q (.ok r) v) →
      Wp W (B.rename a b) Q w
  removeFile : ∀ {a w} {Q : Except String (Except κ Unit) → σ → Prop},
    (∀ d r v, Grows (disk w) d → Effect r (d a ≠ none) d (d.remove a) (disk v) → Q (.ok r) v) →
      Wp W (B.removeFile a) Q w

theorem keepsBut_of_remove {r : Except κ Unit} {a : P} (h : Effect r (d a ≠ none) d (d.remove a) d') :
    KeepsBut a d d' := by
  cases r with
  | ok _ =>
    rw [h.2]
    exact keepsBut_remove
  | error _ =>
    rw [h]
    exact .refl _ _

theorem commitAbsent_spec (hB : B.Lawful W disk) (htemp : disk w temp = some (.file content)) :
    Wp W (commitAbsent B temp finalPath) (fun r v =>
      Committed B.display .replace content temp finalPath (disk w) (disk v) r) w := by
  refine wp_bind (hB.rename fun d r v hgrows heffect => wp_bind ?_)
  cases r with
  | error e =>
    refine wp_throw (.of_keepsBut ?_ nofun)
    rw [heffect]
    exact hgrows.keepsBut temp
  | ok _ =>
    obtain ⟨-, hv⟩ := heffect
    refine wp_pure (wp_pure ⟨?_, fun p o hp ho => ?_⟩)
    · rintro p ⟨⟩
      rw [hv, rename_target]
      exact hgrows _ _ htemp
    · by_cases hfinal : p = finalPath
      · exact .inr ⟨rfl, hfinal, .inl rfl⟩
      · rw [hv, rename_of_ne hp hfinal]
        exact .inl (hgrows p o ho)

/-- The original is under its name or under the backup's until the new file has its name. -/
theorem exchange_spec (hB : B.Lawful W disk) (htemp : disk w temp = some (.file content))
    (hne : temp ≠ finalPath) (hself : backup ≠ finalPath) (hfresh : disk w backup = none) :
    Wp W (exchange B temp finalPath backup) (fun r v =>
      Committed B.display .replace content temp finalPath (disk w) (disk v) r) w := by
  have hbackup : backup ≠ temp := by
    rintro rfl
    rw [hfresh] at htemp
    cases htemp
  refine wp_bind (hB.rename fun d₁ r₁ v₁ hgrows₁ heffect₁ => wp_bind ?_)
  cases r₁ with
  | error e =>
    refine wp_throw (.of_keepsBut ?_ nofun)
    rw [heffect₁]
    exact hgrows₁.keepsBut temp
  | ok _ =>
  obtain ⟨-, hv₁⟩ := heffect₁
  have htemp₁ : disk v₁ temp = some (.file content) := by
    rw [hv₁, rename_of_ne hne hbackup.symm]
    exact hgrows₁ _ _ htemp
  have hrest₁ : ∀ p o, p ≠ finalPath → disk w p = some o → disk v₁ p = some o := by
    intro p o hp ho
    rw [hv₁, rename_of_ne hp]
    · exact hgrows₁ p o ho
    · rintro rfl
      rw [hfresh] at ho
      cases ho
  have horiginal₁ : ∀ o, disk w finalPath = some o → disk v₁ backup = some o := by
    intro o ho
    rw [hv₁, rename_target]
    exact hgrows₁ _ _ ho
  refine wp_pure (wp_bind (hB.rename fun d₂ r₂ v₂ hgrows₂ heffect₂ => ?_))
  cases r₂ with
  | ok _ =>
    obtain ⟨-, hv₂⟩ := heffect₂
    refine wp_bind (hB.removeFile fun d₃ r₃ v₃ hgrows₃ heffect₃ => wp_pure ?_)
    have hkeeps := keepsBut_of_remove heffect₃
    refine ⟨?_, fun p o hp ho => ?_⟩
    · rintro p ⟨⟩
      refine hkeeps _ _ hself.symm (hgrows₃ _ _ ?_)
      rw [hv₂, rename_target]
      exact hgrows₂ _ _ htemp₁
    · by_cases hfinal : p = finalPath
      · exact .inr ⟨rfl, hfinal, .inl rfl⟩
      · have hback : p ≠ backup := by
          rintro rfl
          rw [hfresh] at ho
          cases ho
        refine .inl (hkeeps _ _ hback (hgrows₃ _ _ ?_))
        rw [hv₂, rename_of_ne hp hfinal]
        exact hgrows₂ _ _ (hrest₁ p o hfinal ho)
  | error commitError =>
    refine wp_bind (hB.rename fun d₃ r₃ v₃ hgrows₃ heffect₃ => ?_)
    rw [show disk v₂ = d₂ from heffect₂] at hgrows₃
    cases r₃ with
    | ok _ =>
      obtain ⟨-, hv₃⟩ := heffect₃
      refine wp_throw (.of_keepsBut (fun p o _ ho => ?_) nofun)
      rw [hv₃]
      by_cases hfinal : p = finalPath
      · subst hfinal
        rw [rename_target]
        exact hgrows₃ _ _ (hgrows₂ _ _ (horiginal₁ o ho))
      · rw [rename_of_ne _ hfinal]
        · exact hgrows₃ _ _ (hgrows₂ _ _ (hrest₁ p o hfinal ho))
        · rintro rfl
          rw [hfresh] at ho
          cases ho
    | error rollbackError =>
      refine wp_throw ⟨nofun, fun p o _ ho => ?_⟩
      rw [show disk v₃ = d₃ from heffect₃]
      by_cases hfinal : p = finalPath
      · subst hfinal
        exact .inr ⟨rfl, rfl, .inr ⟨_, backup, rfl, names_rollbackText _ _, hbackup,
          hgrows₃ _ _ (hgrows₂ _ _ (horiginal₁ o ho))⟩⟩
      · exact .inl (hgrows₃ _ _ (hgrows₂ _ _ (hrest₁ p o hfinal ho)))

end Spec

end TauTerm.Sftp
