import Mathlib
import TauTerm.Sftp.SaveSteps

/-!
# Saves are atomic

What a run of `sftp_save_document_cmd` leaves under the path of the document, whatever other
clients do and whatever fails, up to the commit.
-/

namespace TauTerm.Sftp.Document

open Lib Lib.Proc
open Lib.Prog (Returns)

variable {path temp backup : RemotePath} {w v : Server} {old : RemoteEntry} {bytes : List UInt8}

/-- The save has changed nothing under the path, and has written its temporary file. -/
structure Staged (path temp : RemotePath) (bytes : List UInt8) (w : Server) : Prop where
  ne : temp ≠ path
  own : w.temp = some temp
  staged : ∃ t, w.disk temp = some t ∧ t.Plain ∧ t.data = bytes
  committed : w.committed = false
  changes : w.changes = []

/-- The save has moved the original to its backup. -/
structure Moved (path temp backup : RemotePath) (old : RemoteEntry) (bytes : List UInt8)
    (w : Server) : Prop where
  ne : temp ≠ path
  backup_ne : backup ≠ path
  backup_ne_temp : backup ≠ temp
  own : w.temp = some temp
  staged : ∃ t, w.disk temp = some t ∧ t.Plain ∧ t.data = bytes
  backup : w.disk backup = some old
  committed : w.committed = false
  changes : w.changes = [(some old, none)]

/-- The original is under the path again, or under the backup that the text names. -/
def Preserved (path temp : RemotePath) (text : String) (v : Server) : Prop :=
  v.changes = [] ∨ (∃ old, v.changes = [(some old, none), (none, some old)]) ∨
    ∃ old backup, v.changes = [(some old, none)] ∧ backup ≠ path ∧ backup ≠ temp ∧
      v.disk backup = some old ∧ Names text (displayRemote backup)

/-- The new content is under the path. -/
structure Replaced (path : RemotePath) (old : RemoteEntry) (bytes : List UInt8) (v : Server) :
    Prop where
  committed : v.committed = true
  changed : ∃ new, v.changes = [(some old, none), (none, some new)] ∧ v.disk path = some new ∧
    new.Plain ∧ new.data = bytes

theorem Staged.mono (h : Staged path temp bytes w) (hsame : SameBut path w v) :
    Staged path temp bytes v where
  ne := h.ne
  own := hsame.temp.trans h.own
  staged := by
    rw [hsame.others temp h.ne]
    exact h.staged
  committed := hsame.committed.trans h.committed
  changes := hsame.changes.trans h.changes

theorem Moved.mono (h : Moved path temp backup old bytes w) (hsame : SameBut path w v) :
    Moved path temp backup old bytes v where
  ne := h.ne
  backup_ne := h.backup_ne
  backup_ne_temp := h.backup_ne_temp
  own := hsame.temp.trans h.own
  staged := by
    rw [hsame.others temp h.ne]
    exact h.staged
  backup := by
    rw [hsame.others backup h.backup_ne]
    exact h.backup
  committed := hsame.committed.trans h.committed
  changes := hsame.changes.trans h.changes

theorem Replaced.mono (h : Replaced path old bytes w) (hsame : SameBut path w v) :
    Replaced path old bytes v where
  committed := hsame.committed.trans h.committed
  changed := by
    rw [hsame.calm h.committed, hsame.changes]
    exact h.changed

/-! ## Back to the original -/

theorem names_append {text quoted : String} (front : String) (h : Names text quoted) :
    Names (front ++ text) quoted := by
  obtain ⟨before, behind, rfl⟩ := h
  exact ⟨front ++ before, behind, by rw [String.append_assoc, String.append_assoc, String.append_assoc]⟩

theorem names_rollbackText (reason e : String) :
    Names (reason ++ "；" ++ rollbackText backup e) (displayRemote backup) :=
  names_append _ ⟨_, _, String.append_assoc⟩

theorem restoreThen_spec {α : Type} {reason : String} {ending : DocumentProc α}
    {Q : Except String α → Server → Prop} (h : Moved path temp backup old bytes w)
    (hback : ∀ v, v.changes = [(some old, none), (none, some old)] →
      Wp (calmWorld path) ending Q v)
    (hgone : ∀ text v, Preserved path temp text v → Q (.error text) v) :
    Wp (calmWorld path) (restoreThen backup path reason ending) Q w := by
  refine wp_ask_bind fun u r v hdrift hresponds => ?_
  have hmoved := h.mono (sameBut_of_drifts hdrift)
  match r with
  | .error e =>
    rw [show v = u from hresponds.1]
    exact wp_throw (hgone _ _ (.inr (.inr ⟨old, backup, hmoved.changes, h.backup_ne,
      h.backup_ne_temp, hmoved.backup, names_rollbackText reason e⟩)))
  | .ok () =>
    obtain ⟨⟨-, hfree, hv⟩, -⟩ := hresponds
    refine hback v ?_
    rw [hv]
    show u.changes ++ _ = _
    rw [hmoved.changes, Function.update_self, hfree, hmoved.backup, if_neg nofun]
    rfl

theorem restoreOrReport_spec {α : Type} {reason : String} {Q : Except String α → Server → Prop}
    (h : Moved path temp backup old bytes w) (hgone : ∀ text v, Preserved path temp text v → Q (.error text) v) :
    Wp (calmWorld path) (restoreOrReport backup path reason) Q w :=
  restoreThen_spec h (fun v hv => wp_throw (hgone _ v (.inr (.inl ⟨old, hv⟩)))) hgone

/-! ## The commit -/

theorem plain_permissions {n : RemoteEntry} (mode : Nat) :
    RemoteEntry.Plain { n with permissions := some (0o100000 ||| (mode &&& 0o7777)) } := by
  have hmask : (0o100000 ||| (mode &&& 0o7777)) &&& 0o170000 = 0o100000 := by
    rw [Nat.and_or_distrib_right, Nat.and_assoc]
    simp
  constructor
  · simp only [isRegular, isRegularFile, RemoteEntry.attributes, Option.map_some, hmask]
  · simp only [FileAttributes.entryType, entryTypeFromPermissions, RemoteEntry.attributes,
      Option.map_some, hmask]

/-- What is in the way of `commitChecked` is in its text, or the document is replaced. -/
def CommitsDocument (path temp : RemotePath) (old : RemoteEntry) (bytes : List UInt8)
    (r : Except String CommitDocumentOutcome) (v : Server) : Prop :=
  match r with
  | .ok .committed => Replaced path old bytes v
  | .ok (.conflict _) => ∃ old, v.changes = [(some old, none), (none, some old)]
  | .error text => Preserved path temp text v

theorem commitNamed_spec (h : Moved path temp backup old bytes w) :
    Wp (calmWorld path) (do
      match ← rename temp path with
      | .ok () => do
        let _ ← removeFile backup
        pure CommitDocumentOutcome.committed
      | .error e =>
        restoreOrReport backup path ("提交远程文档 '" ++ displayRemote path ++ "' 失败: " ++ e))
      (CommitsDocument path temp old bytes) w := by
  refine wp_ask_bind fun u r v hdrift hresponds => ?_
  have hmoved := h.mono (sameBut_of_drifts hdrift)
  match r with
  | .error e =>
    rw [show v = u from hresponds.1]
    exact restoreOrReport_spec hmoved fun _ _ hgone => hgone
  | .ok () =>
    obtain ⟨⟨-, hfree, hv⟩, -⟩ := hresponds
    obtain ⟨t, ht, hplain, hdata⟩ := hmoved.staged
    have hreplaced : Replaced path old bytes v := by
      rw [hv]
      refine ⟨by simp [hmoved.own], t, ?_, ?_, hplain, hdata⟩
      · show u.changes ++ _ = _
        rw [hmoved.changes, Function.update_self, hfree, ht, if_neg nofun]
        rfl
      · show Function.update _ _ _ _ = _
        rw [Function.update_self, ht]
    refine wp_ask_bind fun u' r v' hdrift' hresponds' => wp_pure ?_
    have hafter := hreplaced.mono (sameBut_of_drifts hdrift')
    match r with
    | .error e =>
      rw [show v' = u' from hresponds'.1]
      exact hafter
    | .ok () =>
      rw [hresponds'.1.2, change_of_ne h.backup_ne]
      refine ⟨hafter.committed, ?_⟩
      obtain ⟨new, hchanges, hdisk, hnew⟩ := hafter.changed
      refine ⟨new, hchanges, ?_, hnew⟩
      show Function.update _ _ _ _ = _
      rw [Function.update_of_ne h.backup_ne.symm, hdisk]

theorem commitChecked_spec (h : Moved path temp backup old bytes w) (permissions : Option Nat) :
    Wp (calmWorld path) (commitChecked temp path backup permissions)
      (CommitsDocument path temp old bytes) w := by
  cases permissions with
  | none => exact wp_bind (wp_pure (commitNamed_spec h))
  | some mode =>
    refine wp_ask_bind fun u r v hdrift hresponds => ?_
    have hmoved := h.mono (sameBut_of_drifts hdrift)
    match r with
    | .error e =>
      rw [show v = u from hresponds.1]
      exact restoreOrReport_spec hmoved fun _ _ hgone => hgone
    | .ok () =>
      obtain ⟨n, hn, hv⟩ := hresponds.1
      rw [change_of_ne h.ne] at hv
      obtain ⟨t, ht, -, hdata⟩ := hmoved.staged
      obtain rfl : n = t := Option.some.inj (hn.symm.trans ht)
      rw [hv]
      refine commitNamed_spec ⟨h.ne, h.backup_ne, h.backup_ne_temp, hmoved.own, ?_, ?_,
        hmoved.committed, hmoved.changes⟩
      · exact ⟨_, Function.update_self _ _ _, plain_permissions mode, hdata⟩
      · show Function.update _ _ _ _ = _
        rw [Function.update_of_ne h.backup_ne_temp, hmoved.backup]

theorem documentArtifact_ne {tag uuid : List Char} (htag : '/' ∉ tag) (huuid : '/' ∉ uuid) :
    documentArtifact path tag uuid ≠ path := by
  have hne : ['.'] ++ (remoteParts path).2 ++ ".tauterm-document-".toList ++ tag ++ ['-'] ++ uuid ≠
      (remoteParts path).2 := by
    intro h
    have hlength := congrArg List.length h
    simp only [List.length_append, List.length_singleton] at hlength
    omega
  refine remoteJoin_ne ?_ hne
  simp only [List.mem_append, not_or]
  exact ⟨⟨⟨⟨⟨by decide, not_mem_remoteParts path⟩, by decide⟩, htag⟩, by decide⟩, huuid⟩

variable {crc32 : List UInt8 → UInt32} {expected : Option RemoteDocumentVersion}

/-- A commit that has been checked against a version replaces that version only. -/
def CommitsVersion (crc32 : List UInt8 → UInt32) (path temp : RemotePath) (bytes : List UInt8)
    (expected : Option RemoteDocumentVersion) (r : Except String CommitDocumentOutcome)
    (v : Server) : Prop :=
  ∃ old, CommitsDocument path temp old bytes r v ∧ (r = .ok .committed → ∀ version,
    expected = some version → version.contentCrc32 ≠ none → old.version crc32 = version)

theorem commitsVersion_of_error {text : String} (h : Preserved path temp text v) :
    CommitsVersion crc32 path temp bytes expected (.error text) v :=
  ⟨⟨[], none, none, false⟩, h, nofun⟩

/-- Behind the backup. -/
theorem commitMoved_spec (h : Moved path temp backup old bytes w) :
    Wp (calmWorld path) (match expected with
      | some expected => do
        match ← attempt (readSnapshot backup (DOCUMENT_EDIT_LIMIT + 1)) with
        | .error e => restoreOrReport backup path ("提交前校验远程原文件失败: " ++ e)
        | .ok snapshot =>
          let current := snapshot.version crc32 (snapshot.data.length = snapshot.size)
          if current ≠ expected then
            restoreThen backup path "提交前检测到远程文件并发修改" (pure (.conflict current))
          else commitChecked temp path backup snapshot.permissions
      | none => do
        match ← attempt (currentRegularMetadata backup) with
        | .error e => restoreOrReport backup path ("读取远程原文件权限失败: " ++ e)
        | .ok permissions => commitChecked temp path backup permissions)
      (CommitsVersion crc32 path temp bytes expected) w := by
  have hgone : ∀ text v, Preserved path temp text v →
      CommitsVersion crc32 path temp bytes expected (.error text) v :=
    fun _ _ => commitsVersion_of_error
  cases expected with
  | some expected =>
    refine wp_bind (wp_attempt ((readSnapshot_spec (.inl h.backup_ne) h.backup).imp
      fun r v hv => ?_))
    obtain ⟨hsame, hdescribes, -⟩ := hv
    have hmoved := h.mono hsame
    match r with
    | .error e => exact restoreOrReport_spec hmoved hgone
    | .ok snapshot =>
      have hsnapshot := hdescribes snapshot rfl
      refine wp_ite (fun _ => restoreThen_spec hmoved (fun v hv => wp_pure ?_) hgone) fun hversion => ?_
      · exact ⟨old, ⟨old, hv⟩, nofun⟩
      · refine (commitChecked_spec hmoved _).imp fun r v hv => ⟨old, hv, ?_⟩
        rintro - _ ⟨⟩ hcrc
        have hversion := not_not.mp hversion
        rw [← hversion] at hcrc ⊢
        have hcomplete : snapshot.data.length = snapshot.size := by
          by_contra hne
          simp [RemoteSnapshot.version, hne] at hcrc
        simp only [RemoteEntry.version, RemoteSnapshot.version, decide_true, if_true, hsnapshot.size,
          hsnapshot.modified, hsnapshot.data hcomplete]
  | none =>
    refine wp_bind (wp_attempt (wp_bind (wp_stat fun r v hsame _ _ _ => wp_bind (wp_orThrow ?_ ?_))))
    · intro stat _
      refine wp_ite (fun _ => wp_pure ?_) fun _ => wp_throw ?_
      · exact (commitChecked_spec (h.mono hsame) _).imp fun r v hv => ⟨old, hv, fun _ _ => nofun⟩
      · exact restoreOrReport_spec (h.mono hsame) hgone
    · exact fun e _ => restoreOrReport_spec (h.mono hsame) hgone

theorem commitDocumentTemp_spec (h : Staged path temp bytes w) :
    Wp (calmWorld path) (commitDocumentTemp crc32 temp path expected)
      (CommitsVersion crc32 path temp bytes expected) w := by
  refine wp_ask_bind fun u uuid v hdrift hresponds => ?_
  obtain ⟨⟨⟨hslash, hunused⟩, hv⟩, -⟩ := hresponds
  rw [show v = u from hv]
  have hstaged := h.mono (sameBut_of_drifts hdrift)
  have hbackup_ne : documentArtifact path "backup".toList uuid ≠ path :=
    documentArtifact_ne (by decide) hslash
  have hbackup_temp : documentArtifact path "backup".toList uuid ≠ temp := by
    intro heq
    obtain ⟨t, ht, -⟩ := hstaged.staged
    rw [← heq, hunused] at ht
    cases ht
  refine wp_bind (wp_stat fun r₁ v₁ hsame₁ _ _ _ => wp_bind (wp_orThrow (fun stat _ => ?_)
    fun e _ => commitsVersion_of_error (.inl (hstaged.mono hsame₁).changes)))
  refine wp_ite (fun _ => wp_throw (commitsVersion_of_error (.inl (hstaged.mono hsame₁).changes)))
    fun _ => ?_
  refine wp_ask_bind fun u₂ r v₂ hdrift₂ hresponds₂ => wp_bind ?_
  have hstaged₂ := (hstaged.mono hsame₁).mono (sameBut_of_drifts hdrift₂)
  match r with
  | .error e =>
    rw [show v₂ = u₂ from hresponds₂.1]
    exact wp_throw (commitsVersion_of_error (.inl hstaged₂.changes))
  | .ok () =>
    obtain ⟨⟨hthere, hfree, hv₂⟩, -⟩ := hresponds₂
    obtain ⟨old, hold⟩ := Option.ne_none_iff_exists'.mp hthere
    have hdisk : v₂.disk = Function.update (Function.update u₂.disk path none)
        (documentArtifact path "backup".toList uuid) (some old) := by
      rw [hv₂, ← hold]
      rfl
    have hmoved : Moved path temp (documentArtifact path "backup".toList uuid) old bytes v₂ := by
      refine ⟨h.ne, hbackup_ne, hbackup_temp, ?_, ?_, ?_, ?_, ?_⟩
      · rw [hv₂]
        exact hstaged₂.own
      · rw [hdisk, Function.update_of_ne hbackup_temp.symm, Function.update_of_ne h.ne]
        exact hstaged₂.staged
      · rw [hdisk, Function.update_self]
      · rw [hv₂]
        have hown : temp ≠ path := h.ne
        simp [hstaged₂.committed, hstaged₂.own, hown]
      · rw [hv₂]
        show u₂.changes ++ _ = _
        rw [hstaged₂.changes, Function.update_of_ne hbackup_ne.symm, Function.update_self, hold,
          if_neg nofun]
        rfl
    exact wp_pure (commitMoved_spec hmoved)

/-! ## The command -/

/-- Calls that change nothing on the server. -/
def Query : DocumentCall → Prop
  | .sshRuntime | .ensureSftp | .symlinkMetadata _ | .openRead _ | .read .. | .flush _ => True
  | _ => False

theorem sameBut_of_query {e : documentIo.Event} (he : Query e.1)
    (h : (calmWorld path).Responds w e v) : SameBut path w v := by
  obtain ⟨c, r⟩ := e
  have hv := h.1
  cases c with
  | sshRuntime | ensureSftp | flush =>
    rw [show v = w from hv]
    exact .refl w
  | symlinkMetadata p =>
    match r with
    | .ok _ => exact hv.2 ▸ .refl v
    | .error _ => exact (show v = w from hv) ▸ .refl v
  | read p offset room =>
    match r with
    | .ok _ => exact hv.2 ▸ .refl v
    | .error _ => exact (show v = w from hv) ▸ .refl v
  | openRead p =>
    match r with
    | .ok _ =>
      obtain ⟨n, -, rfl⟩ := hv
      exact ⟨fun _ _ => rfl, fun _ => rfl, rfl, rfl, rfl⟩
    | .error _ => exact (show v = w from hv) ▸ .refl v
  | _ => exact he.elim

theorem wp_query {α : Type} {x : DocumentProc α} (hx : Calls Query x) :
    Wp (calmWorld path) x (fun _ v => SameBut path w v) w :=
  hx.wp (fun _ => .refl _) (fun h h' => h.trans h') sameBut_of_drifts fun he h => sameBut_of_query he h

theorem readCompleteSnapshot_query (p : RemotePath) : Calls Query (readCompleteSnapshot p) := by
  have hsftp : Calls Query ensureSftp := calls_ask trivial
  have hstat : ∀ p, Calls Query (symlinkMetadata p) := fun _ => calls_ask trivial
  have hopen : ∀ p, Calls Query (openRead p) := fun _ => calls_ask trivial
  have hread : ∀ p offset room, Calls Query (read p offset room) := fun _ _ _ => calls_ask trivial
  have hround : ∀ readLen data, Calls Query (readRound p readLen data) := fun _ _ =>
    calls_ite ((hread _ _ _).bind fun _ => (calls_orThrow _ _).bind fun _ =>
      calls_ite (calls_pure _) (calls_pure _)) (calls_pure _)
  have hhead : ∀ maxBytes, Calls Query (sftpReadHead p maxBytes) := fun _ =>
    hsftp.bind fun _ => (calls_orThrow _ _).bind fun _ => (hstat p).bind fun _ =>
      (calls_orThrow _ _).bind fun _ => calls_ite (calls_throw _) <| (hopen p).bind fun _ =>
        (calls_orThrow _ _).bind fun _ => (calls_loop (hround _) _).bind fun _ => calls_pure _
  have hsnapshot : Calls Query (readSnapshot p (DOCUMENT_EDIT_LIMIT + 1)) :=
    hsftp.bind fun _ => (calls_orThrow _ _).bind fun _ => (hstat p).bind fun _ =>
      (calls_orThrow _ _).bind fun _ => calls_ite (calls_throw _) <| (hhead _).bind fun _ =>
        calls_ite (calls_throw _) <| (hstat p).bind fun _ => calls_ite (calls_throw _) (calls_pure _)
  exact hsnapshot.bind fun _ => calls_ite (calls_throw _) (calls_ite (calls_throw _) (calls_pure _))

/-- Behind a commit nothing is in the way of the answer. -/
theorem readBack_spec {new : RemoteEntry} (hcommitted : w.committed = true)
    (hdisk : w.disk path = some new) (hplain : new.Plain)
    (hlimit : new.data.length ≤ DOCUMENT_EDIT_LIMIT) :
    Wp (calmWorld path) (readCompleteSnapshot path) (fun r v => SameBut path w v ∧
      ∃ snapshot, r = .ok snapshot) w := by
  refine wp_bind ((readSnapshot_spec (.inr hcommitted) hdisk).imp fun r v hv => ?_)
  obtain ⟨hsame, hdescribes, hanswer⟩ := hv
  obtain ⟨snapshot, rfl, hdata⟩ := hanswer hcommitted hplain (Nat.le_succ_of_le hlimit)
  have hsize := (hdescribes snapshot rfl).size
  refine wp_ite (fun hlong => ?_) fun _ => wp_ite (fun hshort => ?_) fun _ =>
    wp_pure ⟨hsame, snapshot, rfl⟩
  · omega
  · exact absurd ((congrArg List.length hdata).trans hsize.symm) hshort

/-- A save has done what its result says: the version it expects is replaced by the text, or
the original is left, or the text of the error names it. -/
def SaveKept (crc32 : List UInt8 → UInt32) (legacy : LegacyCodecs)
    (request : RemoteDocumentSaveRequest) (r : Except String RemoteDocumentSaveResult) (v : Server) :
    Prop :=
  match r with
  | .ok (.saved _) => ∃ old new, v.changes = [(some old, none), (none, some new)] ∧
      (request.force = false → old.version crc32 = request.expectedVersion) ∧
      v.disk request.remotePath = some new ∧
      serializeText legacy request.text request.format = .ok new.data
  | .ok (.conflict _) =>
      v.changes = [] ∨ ∃ old, v.changes = [(some old, none), (none, some old)]
  | .error text =>
      v.changes = [] ∨ (∃ old, v.changes = [(some old, none), (none, some old)]) ∨
        ∃ old backup, v.changes = [(some old, none)] ∧ v.disk backup = some old ∧
          Names text (displayRemote backup)

theorem Preserved.saveKept {legacy : LegacyCodecs} {request : RemoteDocumentSaveRequest}
    {text : String} (h : Preserved path temp text v) :
    SaveKept crc32 legacy request (.error text) v := by
  obtain h | h | ⟨old, backup, hchanges, -, -, hdisk, hnames⟩ := h
  · exact .inl h
  · exact .inr (.inl h)
  · exact .inr (.inr ⟨old, backup, hchanges, hdisk, hnames⟩)

/-- The clean-up is none of the document and of its backup. -/
theorem wp_removeTemp {Q : Except String (Except String Unit) → Server → Prop} (hne : temp ≠ path)
    (h : ∀ r v, v.changes = w.changes → (∀ p, p ≠ path → p ≠ temp → v.disk p = w.disk p) →
      Q (.ok r) v) : Wp (calmWorld path) (removeFile temp) Q w := by
  refine wp_ask fun u r v hdrift hresponds => ?_
  have hsame := sameBut_of_drifts hdrift
  match r with
  | .error e =>
    rw [show v = u from hresponds.1]
    exact h _ u hsame.changes fun p hp _ => hsame.others p hp
  | .ok () =>
    rw [hresponds.1.2, change_of_ne hne]
    refine h _ _ hsame.changes fun p hp htemp => ?_
    show Function.update _ _ _ _ = _
    rw [Function.update_of_ne htemp]
    exact hsame.others p hp

theorem Preserved.mono {text : String} (h : Preserved path temp text w)
    (hchanges : v.changes = w.changes)
    (hdisk : ∀ p, p ≠ path → p ≠ temp → v.disk p = w.disk p) : Preserved path temp text v := by
  unfold Preserved
  rw [hchanges]
  refine h.imp id (Or.imp id ?_)
  rintro ⟨old, backup, hold, hpath, htemp, hbackup, hnames⟩
  exact ⟨old, backup, hold, hpath, htemp, (hdisk backup hpath htemp).trans hbackup, hnames⟩

variable {legacy : LegacyCodecs} {request : RemoteDocumentSaveRequest}

theorem writeTemp_spec (h : Staged path temp [] w) :
    Wp (calmWorld path) (writeTemp temp bytes) (fun r v =>
      match r with
      | .ok _ => Staged path temp bytes v
      | .error _ => v.changes = []) w := by
  refine wp_ask_bind fun u r v hdrift hresponds => ?_
  have hstaged := h.mono (sameBut_of_drifts hdrift)
  match r with
  | .error e =>
    rw [show v = u from hresponds.1]
    exact wp_bind (wp_removeTemp h.ne fun _ _ hchanges _ => wp_throw (hchanges.trans hstaged.changes))
  | .ok () =>
    obtain ⟨n, mtime, hn, hv⟩ := hresponds.1
    rw [change_of_ne h.ne] at hv
    obtain ⟨t, ht, hplain, hdata⟩ := hstaged.staged
    obtain rfl : n = t := Option.some.inj (hn.symm.trans ht)
    have hwritten : Staged path temp bytes v := by
      rw [hv]
      refine ⟨h.ne, hstaged.own, ⟨_, Function.update_self _ _ _, hplain, ?_⟩, hstaged.committed,
        hstaged.changes⟩
      show n.data ++ bytes = bytes
      rw [hdata, List.nil_append]
    refine wp_ask_bind fun u' r v' hdrift' hresponds' => ?_
    rw [show v' = u' from hresponds'.1]
    have hflushed := hwritten.mono (sameBut_of_drifts hdrift')
    match r with
    | .error e =>
      exact wp_bind (wp_removeTemp h.ne fun _ _ hchanges _ =>
        wp_throw (hchanges.trans hflushed.changes))
    | .ok () => exact wp_pure hflushed

theorem saveBytes_spec (hbytes : serializeText legacy request.text request.format = .ok bytes)
    (hlimit : bytes.length ≤ DOCUMENT_EDIT_LIMIT)
    (hversion : request.force = false → request.expectedVersion.contentCrc32 ≠ none)
    (hcommitted : w.committed = false) (hchanges : w.changes = []) :
    Wp (calmWorld request.remotePath) (saveBytes crc32 request bytes)
      (SaveKept crc32 legacy request) w := by
  refine wp_ask_bind fun u uuid v hdrift hresponds => ?_
  obtain ⟨⟨⟨hslash, hunused⟩, hv⟩, -⟩ := hresponds
  rw [show v = u from hv]
  have hsame := sameBut_of_drifts hdrift
  have hne : documentArtifact request.remotePath "part".toList uuid ≠ request.remotePath :=
    documentArtifact_ne (by decide) hslash
  refine wp_ask_bind fun u₁ r v₁ hdrift₁ hresponds₁ => wp_bind ?_
  have hsame₁ := hsame.trans (sameBut_of_drifts hdrift₁)
  match r with
  | .error e =>
    rw [show v₁ = u₁ from hresponds₁.1]
    exact wp_throw (.inl (hsame₁.changes.trans hchanges))
  | .ok () =>
  obtain ⟨⟨-, n, hplain, hdata, hv₁⟩, -⟩ := hresponds₁
  rw [change_of_ne hne] at hv₁
  have hstaged : Staged request.remotePath (documentArtifact request.remotePath "part".toList uuid) []
      v₁ := by
    rw [hv₁]
    exact ⟨hne, rfl, ⟨n, Function.update_self _ _ _, hplain, hdata⟩,
      hsame₁.committed.trans hcommitted, hsame₁.changes.trans hchanges⟩
  refine wp_pure (wp_bind ((writeTemp_spec hstaged).imp fun r v₂ hv₂ => ?_))
  match r with
  | .error e => exact .inl hv₂
  | .ok _ =>
  refine wp_bind (wp_attempt ((commitDocumentTemp_spec hv₂).imp fun r v₃ hv₃ => ?_))
  obtain ⟨old, hcommit, hold⟩ := hv₃
  match r with
  | .error text =>
    refine wp_bind (wp_removeTemp hne fun _ v₄ hchanges₄ hdisk₄ => wp_throw ?_)
    exact (hcommit.mono hchanges₄ hdisk₄).saveKept
  | .ok (.conflict current) =>
    refine wp_bind (wp_removeTemp hne fun _ v₄ hchanges₄ _ => wp_pure (.inr ?_))
    obtain ⟨old', hold'⟩ := hcommit
    exact ⟨old', hchanges₄.trans hold'⟩
  | .ok .committed =>
    obtain ⟨new, -, hdisk, hplain, hnew⟩ := hcommit.changed
    refine wp_bind ((readBack_spec hcommit.committed hdisk hplain (hnew ▸ hlimit)).imp
      fun r v₄ hv₄ => ?_)
    obtain ⟨hsame₄, snapshot, rfl⟩ := hv₄
    obtain ⟨new, hchanges₄, hdisk₄, -, hnew₄⟩ := (hcommit.mono hsame₄).changed
    refine wp_pure ⟨old, new, hchanges₄, fun hforce => ?_, hdisk₄, hnew₄ ▸ hbytes⟩
    refine hold rfl _ ?_ (hversion hforce)
    rw [hforce]
    rfl

theorem length_of_serializeText {text : List Char} {format : WireFormat}
    (h : serializeText legacy text format = .ok bytes) : bytes.length ≤ DOCUMENT_EDIT_LIMIT := by
  unfold serializeText at h
  cases hending : writeLineEndings (normalizeLineEndings text) format.lineEnding with
  | error e =>
    rw [hending] at h
    cases h
  | ok normalized =>
    rw [hending] at h
    cases hencoded : encodeText legacy format.encoding format.bom normalized with
    | error e =>
      replace h : Except.bind (encodeText legacy format.encoding format.bom normalized) _ = _ := h
      rw [hencoded] at h
      cases h
    | ok output =>
      replace h : Except.bind (encodeText legacy format.encoding format.bom normalized) _ = _ := h
      rw [hencoded] at h
      dsimp only [Except.bind] at h
      split_ifs at h with _ hlong
      all_goals
        cases h
        omega

theorem sftpSaveDocument_spec (hcommitted : w.committed = false) (hchanges : w.changes = []) :
    Wp (calmWorld request.remotePath) (sftpSaveDocument crc32 legacy request)
      (SaveKept crc32 legacy request) w := by
  refine wp_ite (fun _ => wp_throw (.inl hchanges)) fun hversion => ?_
  have hruntime : Calls Query sshRuntime := calls_ask trivial
  refine wp_bind ((wp_query hruntime).imp fun r v hsame => ?_)
  match r with
  | .error e => exact .inl (hsame.changes.trans hchanges)
  | .ok r =>
  refine wp_bind (wp_orThrow (fun _ _ => ?_) fun e _ => .inl (hsame.changes.trans hchanges))
  refine wp_bind (wp_orThrow (fun bytes hbytes => ?_) fun e _ => .inl (hsame.changes.trans hchanges))
  refine wp_bind ((wp_query (readCompleteSnapshot_query _)).imp fun r v' hsame' => ?_)
  have htotal := hsame.trans hsame'
  match r with
  | .error e => exact .inl (htotal.changes.trans hchanges)
  | .ok before =>
    refine wp_ite (fun _ => wp_pure (.inl (htotal.changes.trans hchanges))) fun _ => ?_
    refine saveBytes_spec hbytes (length_of_serializeText hbytes) (fun hforce hcrc => ?_)
      (htotal.committed.trans hcommitted) (htotal.changes.trans hchanges)
    exact hversion ⟨hcrc, hforce⟩

/-- As long as nobody replaces the document behind the commit and what is asked behind it is
answered, a save does what its result says. -/
theorem save_kept {disk : RemoteDisk} {tr : List documentIo.Event}
    {r : Except String RemoteDocumentSaveResult}
    (hrun : Returns (sftpSaveDocument crc32 legacy request).run tr r)
    (hsteps : ((documentWorld request.remotePath).within Undisturbed Answered).Carries
      (initialServer disk) tr v) : SaveKept crc32 legacy request r v :=
  sftpSaveDocument_spec rfl rfl tr r v hrun hsteps

/-! ### A save whose answer is lost -/

section Lost

/-- CRC-32 of the two contents. -/
def crcOfLetter (data : List UInt8) : UInt32 :=
  if data = [97] then 0xE8B7BE43 else if data = [98] then 0x71BEEFF9 else 0

def noLegacy : LegacyCodecs := ⟨fun _ _ => none, fun _ _ => none⟩

def letterA : RemoteEntry := ⟨[97], some 5, none, false⟩

def letterB : RemoteEntry := ⟨[98], some 6, none, false⟩

def saveLetter : RemoteDocumentSaveRequest where
  remotePath := ['d']
  text := ['b']
  format := ⟨"utf-8", "lf", false⟩
  expectedVersion := ⟨1, some 5, some 0xE8B7BE43⟩
  force := false

def partPath : RemotePath := documentArtifact ['d'] "part".toList ['u']

def backupPath : RemotePath := documentArtifact ['d'] "backup".toList ['v']

/-- What a snapshot of the first version is answered. -/
def snapshotEvents (path : RemotePath) (n : RemoteEntry) : List documentIo.Event :=
  [⟨.ensureSftp, Except.ok ()⟩, ⟨.symlinkMetadata path, Except.ok n.attributes⟩,
    ⟨.ensureSftp, Except.ok ()⟩, ⟨.symlinkMetadata path, Except.ok n.attributes⟩,
    ⟨.openRead path, Except.ok ()⟩, ⟨.read path 0 1, Except.ok n.data⟩,
    ⟨.symlinkMetadata path, Except.ok n.attributes⟩]

/-- The calls up to the commit and the removal of the backup. -/
def commitEvents : List documentIo.Event :=
  [⟨.sshRuntime, Except.ok ()⟩] ++ (snapshotEvents ['d'] letterA ++
    ([⟨.newV4, ['u']⟩, ⟨.createNew partPath, Except.ok ()⟩, ⟨.writeAll partPath [98], Except.ok ()⟩,
      ⟨.flush partPath, Except.ok ()⟩, ⟨.newV4, ['v']⟩,
      ⟨.symlinkMetadata ['d'], Except.ok letterA.attributes⟩,
      ⟨.rename ['d'] backupPath, Except.ok ()⟩] ++ (snapshotEvents backupPath letterA ++
    [⟨.rename partPath ['d'], Except.ok ()⟩, ⟨.removeFile backupPath, Except.ok ()⟩])))

def letterServer : Server :=
  initialServer fun path => if path = ['d'] then some letterA else none

theorem calm_stay (w : Server) : (calmWorld path).Drifts w w :=
  ⟨⟨fun _ _ => rfl, rfl⟩, fun _ => rfl⟩

theorem snapshot_carries {p : RemotePath} {n : RemoteEntry} (hdisk : w.disk p = some n)
    (hlength : n.data.length = 1) :
    (calmWorld path).Carries w (snapshotEvents p n) { w with opened := some n } := by
  have hread : ReadsFrom n 0 1 n.data :=
    ⟨List.prefix_rfl, hlength.le, fun hnil => absurd hlength (by rw [hnil]; nofun)⟩
  exact .cons (calm_stay w) ⟨rfl, fun _ => rfl⟩
    (.cons (calm_stay w) ⟨⟨⟨n, hdisk, rfl⟩, rfl⟩, fun _ _ => ⟨_, rfl⟩⟩
    (.cons (calm_stay w) ⟨rfl, fun _ => rfl⟩
    (.cons (calm_stay w) ⟨⟨⟨n, hdisk, rfl⟩, rfl⟩, fun _ _ => ⟨_, rfl⟩⟩
    (.cons (calm_stay w) ⟨⟨n, hdisk, rfl⟩, fun _ _ => rfl⟩
    (.cons (calm_stay _) ⟨⟨⟨n, .inl rfl, hread⟩, rfl⟩, fun _ => ⟨_, rfl⟩⟩
    (.cons (calm_stay _) ⟨⟨⟨n, hdisk, rfl⟩, rfl⟩, fun _ _ => ⟨_, rfl⟩⟩ (.nil _)))))))

theorem suffix_documentArtifact (p : RemotePath) (tag uuid : List Char) :
    uuid <:+ documentArtifact p tag uuid := by
  unfold documentArtifact remoteJoin
  dsimp only
  split_ifs
  · exact List.suffix_append _ _
  · exact (List.suffix_append _ _).trans (List.suffix_cons _ _)
  · exact (List.suffix_append _ _).trans (List.suffix_append _ _)

/-- An artifact is none of the paths that do not end in its number. -/
theorem documentArtifact_ne_of_last {p q : RemotePath} {tag : List Char} {c : Char}
    (h : q.getLast? ≠ some c) : documentArtifact p tag [c] ≠ q := by
  rintro rfl
  obtain ⟨front, hfront⟩ := suffix_documentArtifact p tag [c]
  rw [← hfront, List.getLast?_concat] at h
  exact h rfl

/-- The first half: the temporary file, and the original under its backup. -/
def letterMoved : Server where
  disk := Function.update (Function.update (Function.update (Function.update letterServer.disk partPath
    (some ⟨[], some 6, none, false⟩)) partPath (some letterB)) ['d'] none) backupPath (some letterA)
  opened := some letterA
  temp := some partPath
  committed := false
  changes := [(some letterA, none)]

def letterCommitted : Server where
  disk := Function.update (Function.update (Function.update letterMoved.disk partPath none) ['d']
    (some letterB)) backupPath none
  opened := some letterA
  temp := some partPath
  committed := true
  changes := [(some letterA, none), (none, some letterB)]

theorem unused_first : Server.Unused { letterServer with opened := some letterA } ['u'] := by
  refine ⟨by decide, fun p tag => ?_⟩
  show (if _ then _ else _) = none
  rw [if_neg (documentArtifact_ne_of_last (by decide))]

theorem letter_moves : (calmWorld ['d']).Carries { letterServer with opened := some letterA }
    [⟨.newV4, ['u']⟩, ⟨.createNew partPath, Except.ok ()⟩, ⟨.writeAll partPath [98], Except.ok ()⟩,
      ⟨.flush partPath, Except.ok ()⟩, ⟨.newV4, ['v']⟩,
      ⟨.symlinkMetadata ['d'], Except.ok letterA.attributes⟩,
      ⟨.rename ['d'] backupPath, Except.ok ()⟩] letterMoved := by
  have hunused : ∀ w : Server, w.disk = Function.update (Function.update letterServer.disk partPath
      (some ⟨[], some 6, none, false⟩)) partPath (some letterB) → w.Unused ['v'] := by
    intro w hw
    refine ⟨by decide, fun p tag => ?_⟩
    have hpart : documentArtifact p tag ['v'] ≠ partPath := documentArtifact_ne_of_last (by decide)
    have hd : documentArtifact p tag ['v'] ≠ ['d'] := documentArtifact_ne_of_last (by decide)
    rw [hw, Function.update_of_ne hpart, Function.update_of_ne hpart]
    exact if_neg hd
  have hplain : RemoteEntry.Plain ⟨[], some 6, none, false⟩ := ⟨rfl, rfl⟩
  refine .cons (calm_stay _) ⟨⟨unused_first, rfl⟩, trivial⟩ ?_
  refine .cons (calm_stay _) ⟨⟨rfl, _, hplain, rfl, rfl⟩, trivial⟩ ?_
  refine .cons (calm_stay _) ⟨⟨_, some 6, rfl, rfl⟩, trivial⟩ ?_
  refine .cons (calm_stay _) ⟨rfl, trivial⟩ ?_
  refine .cons (calm_stay _) ⟨⟨hunused _ rfl, rfl⟩, trivial⟩ ?_
  refine .cons (calm_stay _) ⟨⟨⟨letterA, rfl, rfl⟩, rfl⟩, fun h => ?_⟩ ?_
  · cases h
  refine .cons (calm_stay _) ⟨⟨by decide, rfl, rfl⟩, trivial⟩ ?_
  exact .nil _

theorem letter_commits : (calmWorld ['d']).Carries letterServer commitEvents letterCommitted := by
  refine .cons (calm_stay _) ⟨rfl, trivial⟩ ?_
  show (calmWorld ['d']).Carries _ (snapshotEvents ['d'] letterA ++ _) _
  refine World.Carries.append_iff.mpr ⟨_, snapshot_carries rfl rfl, ?_⟩
  refine World.Carries.append_iff.mpr ⟨_, letter_moves, ?_⟩
  refine World.Carries.append_iff.mpr ⟨_, snapshot_carries rfl rfl, ?_⟩
  refine .cons (calm_stay _) ⟨⟨by decide, rfl, rfl⟩, trivial⟩ ?_
  refine .cons (calm_stay _) ⟨⟨by decide, rfl⟩, trivial⟩ ?_
  exact .nil _

theorem returns_of_letter {tr : List documentIo.Event} {r : Except String RemoteDocumentSaveResult}
    (h : Prog.follow 60 (sftpSaveDocument crcOfLetter noLegacy saveLetter).run tr = some (r, [])) :
    Returns (sftpSaveDocument crcOfLetter noLegacy saveLetter).run tr r := by
  obtain ⟨used, heq, hused⟩ := Prog.returns_of_follow h
  rw [List.append_nil] at heq
  rw [heq]
  exact hused

theorem save_kept_letter : ∃ tr v,
    Returns (sftpSaveDocument crcOfLetter noLegacy saveLetter).run tr
      (.ok (.saved ⟨1, some 6, some 0x71BEEFF9⟩)) ∧
    SaveKept crcOfLetter noLegacy saveLetter (.ok (.saved ⟨1, some 6, some 0x71BEEFF9⟩)) v := by
  have hrun : Returns (sftpSaveDocument crcOfLetter noLegacy saveLetter).run
      (commitEvents ++ snapshotEvents ['d'] letterB) (.ok (.saved ⟨1, some 6, some 0x71BEEFF9⟩)) :=
    returns_of_letter rfl
  have hcarries := World.Carries.append_iff.mpr ⟨_, letter_commits,
    snapshot_carries (p := ['d']) (n := letterB) rfl rfl⟩
  exact ⟨_, _, hrun, save_kept hrun hcarries⟩

/-- The connection is lost behind the commit: the save is reported as failed, the document is
replaced, and its former content is nowhere. -/
theorem save_reported_lost : ∃ tr v,
    Returns (sftpSaveDocument crcOfLetter noLegacy saveLetter).run tr
      (.error (statText ['d'] "EOF")) ∧
    (documentWorld ['d']).Carries letterServer tr v ∧ letterServer.disk ['d'] = some letterA ∧
    v.disk ['d'] = some letterB ∧ ∀ path, v.disk path ≠ some letterA := by
  have hrun : Returns (sftpSaveDocument crcOfLetter noLegacy saveLetter).run
      (commitEvents ++ [⟨.ensureSftp, Except.ok ()⟩, ⟨.symlinkMetadata ['d'], Except.error "EOF"⟩])
      (.error (statText ['d'] "EOF")) := returns_of_letter rfl
  have hstay : ∀ w, (documentWorld ['d']).Drifts w w := fun _ => ⟨fun _ _ => rfl, rfl⟩
  have hlost : (documentWorld ['d']).Carries letterCommitted
      [⟨.ensureSftp, Except.ok ()⟩, ⟨.symlinkMetadata ['d'], Except.error "EOF"⟩] letterCommitted :=
    .cons (hstay _) rfl (.cons (hstay _) rfl (.nil _))
  have hcarries := World.Carries.append_iff.mpr ⟨_, letter_commits.of_within, hlost⟩
  refine ⟨_, _, hrun, hcarries, rfl, rfl, fun path => ?_⟩
  simp only [letterCommitted, letterMoved, letterServer, initialServer, Function.update_apply]
  split_ifs <;> decide

end Lost

end TauTerm.Sftp.Document
