import Mathlib
import TauTerm.Sftp.CommitRuns
import TauTerm.Sftp.FileTransfer

/-!
# Commits never lose data

The claim of the module comment of `sftp_download`: what is committed has the size of its source,
before and after the copy. With `CommitRuns` this is all of what a transfer does to files.
-/

namespace TauTerm.Sftp

open Lib Lib.Proc Lib.Disk
open Lib.Prog (Returns)

/-! ## What is committed is whole -/

/-- The calls that give a file its final name. -/
def FileCall.Commits : FileCall → Prop
  | .hardLink .. | .rename .. | .sftpRename .. => True
  | _ => False

/-- What an event tells of the source of a transfer: the sizes that are observed, the bytes that are
copied. -/
structure Gauge where
  sizes : fileIo.Event → List Nat
  bytes : fileIo.Event → List UInt8

def downloadGauge (remotePath : RemotePath) : Gauge where
  sizes
    | ⟨.sftpSymlinkMetadata path, .ok stat⟩ => if path = remotePath then [stat.size.getD 0] else []
    | _ => []
  bytes
    | ⟨.writeAll _ bytes, .ok ()⟩ => bytes
    | _ => []

def uploadGauge (localPath : Path) : Gauge where
  sizes
    | ⟨.sourceMetadata path, .ok stat⟩ => if path = localPath then [stat.len] else []
    | _ => []
  bytes
    | ⟨.sftpWriteAll _ bytes, .ok ()⟩ => bytes
    | _ => []

namespace Gauge

variable (G : Gauge)

/-- The sizes that are observed, each with the number of bytes that have been copied by then. -/
def looks : Nat → List fileIo.Event → List (Nat × Nat)
  | _, [] => []
  | copied, e :: tr => (G.sizes e).map (·, copied) ++ looks (copied + (G.bytes e).length) tr

/-- The source was looked at before anything was copied and behind all that was copied, and had the
size of what was copied both times. -/
def Whole (tr : List fileIo.Event) : Prop :=
  ∃ n, G.looks 0 tr = [(n, 0), (n, n)] ∧ (tr.flatMap G.bytes).length = n

/-- Nothing is committed before it is whole. -/
def CommitsWhole {α : Type} (x : FileProc α) : Prop :=
  ∀ tr r, Returns x.run tr r → ∀ tr₁ e tr₂, tr = tr₁ ++ e :: tr₂ → e.1.Commits → G.Whole tr₁

def Silent (c : FileCall) : Prop := ∀ x, G.sizes ⟨c, x⟩ = [] ∧ G.bytes ⟨c, x⟩ = []

def Quiet (c : FileCall) : Prop := G.Silent c ∧ ¬c.Commits

/-- What has been told so far, and whether all commits so far were of a whole file. -/
structure Record where
  looks : List (Nat × Nat)
  copied : Nat
  whole : Prop

def Record.Ready (w : Record) : Prop := w.looks = [(w.copied, 0), (w.copied, w.copied)] ∧ w.whole

def record (w : Record) (e : fileIo.Event) : Record where
  looks := w.looks ++ (G.sizes e).map (·, w.copied)
  copied := w.copied + (G.bytes e).length
  whole := w.whole ∧ (e.1.Commits → w.looks = [(w.copied, 0), (w.copied, w.copied)])

def world : World fileIo Record where
  Drifts w v := v = w
  Responds w e v := v = G.record w e

variable {G} {α β κ : Type} {w v : Record} {c : FileCall} {tr : List fileIo.Event}

theorem carries_foldl (w : Record) (tr : List fileIo.Event) :
    G.world.Carries w tr (tr.foldl G.record w) := by
  induction tr generalizing w with
  | nil => exact .nil w
  | cons e tr ih => exact .cons rfl rfl (ih _)

theorem looks_foldl : (tr.foldl G.record w).looks = w.looks ++ G.looks w.copied tr := by
  induction tr generalizing w with
  | nil => exact (List.append_nil _).symm
  | cons e tr ih =>
    rw [List.foldl_cons, ih, looks, ← List.append_assoc]
    rfl

theorem copied_foldl : (tr.foldl G.record w).copied = w.copied + (tr.flatMap G.bytes).length := by
  induction tr generalizing w with
  | nil => rfl
  | cons e tr ih =>
    rw [List.foldl_cons, ih, List.flatMap_cons, List.length_append, ← Nat.add_assoc]
    rfl

theorem whole_of_foldl (h : (tr.foldl G.record w).whole) : w.whole := by
  induction tr generalizing w with
  | nil => exact h
  | cons e tr ih => exact (ih h).1

theorem commitsWhole_of_wp {x : FileProc α} (h : Wp G.world x (fun _ v => v.whole) ⟨[], 0, True⟩) :
    G.CommitsWhole x := by
  rintro tr r hrun tr₁ e tr₂ rfl hcommits
  have hwhole := h _ r _ hrun (carries_foldl _ _)
  rw [List.foldl_append, List.foldl_cons] at hwhole
  have hlooks := (whole_of_foldl hwhole).2 hcommits
  rw [looks_foldl, copied_foldl, Nat.zero_add] at hlooks
  exact ⟨_, hlooks, rfl⟩

theorem record_quiet (h : G.Quiet c) (x : fileIo.Answer c) : G.record w ⟨c, x⟩ = w := by
  obtain ⟨hsizes, hbytes⟩ := h.1 x
  simp only [record, hsizes, hbytes, List.map_nil, List.append_nil, List.length_nil, Nat.add_zero, h.2,
    false_implies, and_true]

theorem wp_quiet {x : FileProc α} {Q : Except String α → Record → Prop} (hx : Calls G.Quiet x)
    (h : ∀ r, Q r w) : Wp G.world x Q w := by
  refine (hx.wp (R := fun w v => v = w) (fun _ => rfl) (fun huv hvw => hvw.trans huv) (fun h => h)
    fun {e v v'} he hr => ?_).imp fun r v hv => ?_
  · exact Eq.trans hr (record_quiet he e.2)
  · rw [hv]
    exact h r

theorem wp_quiet_bind {x : FileProc α} {f : α → FileProc β} {Q : Except String β → Record → Prop}
    (hx : Calls G.Quiet x) (herror : ∀ e, Q (.error e) w) (h : ∀ a, Wp G.world (f a) Q w) :
    Wp G.world (x >>= f) Q w :=
  wp_bind <| wp_quiet hx fun r =>
    match r with
    | .ok a => h a
    | .error e => herror e

theorem wp_giveUp {removeTemp : FileProc (Except κ Unit)} {text : String}
    {Q : Except String α → Record → Prop} (hx : Calls G.Quiet removeTemp)
    (herror : ∀ e, Q (.error e) w) : Wp G.world (giveUp removeTemp text) Q w :=
  wp_quiet_bind hx herror fun _ => wp_throw (herror text)

/-- A commit that is silent keeps what is ready. -/
theorem wp_commit {x : FileProc α} (hx : Calls G.Silent x) (h : w.Ready) :
    Wp G.world x (fun _ v => v.Ready) w := by
  refine (hx.wp (R := fun w v => w.Ready → v.Ready) (fun _ h => h)
    (fun huv hvw hu => hvw (huv hu)) (fun hdrift hw => ?_) fun {e v v'} he hr hv => ?_).imp
    fun r v hv => hv h
  · rw [show _ = _ from hdrift]
    exact hw
  · rw [show v' = _ from hr]
    obtain ⟨hsizes, hbytes⟩ := he e.2
    refine ⟨?_, hv.2, fun _ => hv.1⟩
    show v.looks ++ (G.sizes e).map (·, v.copied) =
      [(v.copied + (G.bytes e).length, 0),
        (v.copied + (G.bytes e).length, v.copied + (G.bytes e).length)]
    rw [hsizes, hbytes, List.map_nil, List.append_nil]
    exact hv.1

end Gauge

/-! ### Download -/

section Download

variable {remotePath : RemotePath} {w : Gauge.Record}

theorem commitLocal_silent (temp finalPath : Path) (policy : OverwritePolicy) :
    Calls (downloadGauge remotePath).Silent (commitLocal temp finalPath policy) :=
  (commitLocal_calls temp finalPath policy).imp fun c hc => by
    cases c with
    | hardLink | removeFile | rename | symlinkMetadata | newV4 => exact fun _ => ⟨rfl, rfl⟩
    | _ => exact hc.elim

theorem resolveLocalDestination_quiet (requested : Path) (policy : OverwritePolicy) :
    Calls (downloadGauge remotePath).Quiet (resolveLocalDestination requested policy) := by
  have hstat : Calls (downloadGauge remotePath).Quiet (symlinkMetadata requested) :=
    calls_ask ⟨fun _ => ⟨rfl, rfl⟩, id⟩
  refine hstat.bind fun r => ?_
  match r, policy with
  | .ok _, .replace => exact calls_ite (calls_throw _) (calls_pure _)
  | .ok _, .keepBoth => exact calls_pure _
  | .ok _, .skip => exact calls_pure _
  | .error _, _ => exact calls_ite (calls_pure _) (calls_throw _)

theorem removeFile_quiet (path : Path) :
    Calls (downloadGauge remotePath).Quiet (removeFile path) :=
  calls_ask ⟨fun _ => ⟨rfl, rfl⟩, id⟩

theorem createParent_quiet (path : Path) :
    Calls (downloadGauge remotePath).Quiet (createParent path) := by
  unfold createParent
  split
  · have hcreate : ∀ parent, Calls (downloadGauge remotePath).Quiet (createDirAll parent) :=
      fun _ => calls_ask ⟨fun _ => ⟨rfl, rfl⟩, id⟩
    exact (hcreate _).bind fun _ => calls_orThrow _ _
  · exact calls_pure _

/-- One turn adds what it reads to what has been copied. -/
theorem downloadRound_spec {temp : Path} {n total : Nat} :
    Wp (downloadGauge remotePath).world (downloadRound remotePath temp total) (fun r v =>
      match r with
      | .ok (.inl total') => v = ⟨[(n, 0)], total', True⟩
      | .ok (.inr total') => v = ⟨[(n, 0)], total', True⟩
      | .error _ => v.whole) ⟨[(n, 0)], total, True⟩ := by
  have hcancelled : Calls (downloadGauge remotePath).Quiet cancelled :=
    calls_ask ⟨fun _ => ⟨rfl, rfl⟩, id⟩
  have hread : ∀ room, Calls (downloadGauge remotePath).Quiet (sftpRead remotePath room) :=
    fun _ => calls_ask ⟨fun _ => ⟨rfl, rfl⟩, id⟩
  refine Gauge.wp_quiet_bind hcancelled (fun _ => trivial) fun _ => wp_ite (fun _ => ?_) fun _ => ?_
  · exact Gauge.wp_giveUp (removeFile_quiet _) fun _ => trivial
  refine Gauge.wp_quiet_bind (hread _) (fun _ => trivial) fun r => ?_
  match r with
  | .error e => exact Gauge.wp_giveUp (removeFile_quiet _) fun _ => trivial
  | .ok bytes =>
  refine wp_ite (fun _ => wp_pure rfl) fun _ => wp_ask_bind fun v r v' hdrift hresponds => ?_
  obtain rfl : v = _ := hdrift
  match r with
  | .error e =>
    refine Gauge.wp_giveUp (removeFile_quiet _) fun _ => ?_
    rw [show v' = _ from hresponds]
    exact ⟨trivial, fun h => h.elim⟩
  | .ok () =>
    refine wp_pure ?_
    rw [show v' = _ from hresponds]
    simp [Gauge.record, downloadGauge, FileCall.Commits]

/-- The size that a look at the source observes. -/
def observed : Except String FileAttributes → List Nat
  | .ok stat => [stat.size.getD 0]
  | .error _ => []

theorem wp_look {looks : List (Nat × Nat)} {copied : Nat}
    {Q : Except String (Except String FileAttributes) → Gauge.Record → Prop}
    (h : ∀ r, Q (.ok r) ⟨looks ++ (observed r).map (·, copied), copied, True⟩) :
    Wp (downloadGauge remotePath).world (sftpSymlinkMetadata remotePath) Q ⟨looks, copied, True⟩ := by
  refine wp_ask fun v r v' hdrift hresponds => ?_
  obtain rfl : v = _ := hdrift
  have hrecord : v' = ⟨looks ++ (observed r).map (·, copied), copied, True⟩ := by
    rw [show v' = _ from hresponds]
    match r with
    | .ok stat => simp [Gauge.record, downloadGauge, FileCall.Commits, observed]
    | .error e => simp [Gauge.record, downloadGauge, FileCall.Commits, observed]
  rw [hrecord]
  exact h r

theorem ready_of_unchanged {stat : FileAttributes} {again : Except String FileAttributes} {total : Nat}
    (h : ¬(total ≠ stat.size.getD 0 ∨ stat.unchanged again = false)) :
    Gauge.Record.Ready ⟨[(stat.size.getD 0, 0)] ++ (observed again).map (·, total), total, True⟩ := by
  push Not at h
  obtain ⟨rfl, hunchanged⟩ := h
  cases again with
  | error e => exact absurd rfl hunchanged
  | ok stat' =>
    simp only [FileAttributes.unchanged, ne_eq, decide_eq_false_iff_not, not_not] at hunchanged
    refine ⟨?_, trivial⟩
    show [(stat.size.getD 0, 0), (stat'.size.getD 0, stat.size.getD 0)] = _
    rw [hunchanged.2.1]

theorem downloadToTemp_spec (finalPath : Path) :
    Wp (downloadGauge remotePath).world (downloadToTemp remotePath finalPath) (fun r v =>
      match r with
      | .ok _ => v.Ready
      | .error _ => v.whole) ⟨[], 0, True⟩ := by
  have hopen : Calls (downloadGauge remotePath).Quiet (sftpOpen remotePath) :=
    calls_ask ⟨fun _ => ⟨rfl, rfl⟩, id⟩
  have huuid : Calls (downloadGauge remotePath).Quiet newV4 := calls_ask ⟨fun _ => ⟨rfl, rfl⟩, id⟩
  have hcreate : ∀ temp, Calls (downloadGauge remotePath).Quiet (createFile temp) :=
    fun _ => calls_ask ⟨fun _ => ⟨rfl, rfl⟩, id⟩
  have hflush : ∀ temp, Calls (downloadGauge remotePath).Quiet (flush temp) :=
    fun _ => calls_ask ⟨fun _ => ⟨rfl, rfl⟩, id⟩
  have hcancelled : Calls (downloadGauge remotePath).Quiet cancelled :=
    calls_ask ⟨fun _ => ⟨rfl, rfl⟩, id⟩
  refine wp_bind (wp_look fun r => wp_bind (wp_orThrow ?_ fun _ _ => trivial))
  rintro stat rfl
  refine wp_ite (fun _ => wp_throw trivial) fun _ => ?_
  refine Gauge.wp_quiet_bind hopen (fun _ => trivial) fun r => ?_
  refine Gauge.wp_quiet_bind (calls_orThrow _ _) (fun _ => trivial) fun _ => ?_
  refine Gauge.wp_quiet_bind (createParent_quiet _) (fun _ => trivial) fun _ => ?_
  refine Gauge.wp_quiet_bind huuid (fun _ => trivial) fun uuid => ?_
  refine Gauge.wp_quiet_bind (hcreate _) (fun _ => trivial) fun r => ?_
  refine Gauge.wp_quiet_bind (calls_orThrow _ _) (fun _ => trivial) fun _ => ?_
  -- the copy, from the first look to the second
  refine wp_bind (wp_loop (fun total v => v = ⟨[(stat.size.getD 0, 0)], total, True⟩) rfl ?_)
  rintro total _ rfl
  refine downloadRound_spec.imp fun r v hv => ?_
  match r with
  | .error e => exact hv
  | .ok (.inl total') => exact hv
  | .ok (.inr total') =>
  subst hv
  refine wp_bind (wp_look fun again => wp_ite (fun _ => ?_) fun hchecked => ?_)
  · exact Gauge.wp_giveUp (removeFile_quiet _) fun _ => trivial
  have hready := ready_of_unchanged hchecked
  refine Gauge.wp_quiet_bind (hflush _) (fun _ => trivial) fun r => ?_
  match r with
  | .error e => exact Gauge.wp_giveUp (removeFile_quiet _) fun _ => trivial
  | .ok _ =>
  refine Gauge.wp_quiet_bind hcancelled (fun _ => trivial) fun _ => wp_ite (fun _ => ?_) fun _ => ?_
  · exact Gauge.wp_giveUp (removeFile_quiet _) fun _ => trivial
  · exact wp_pure hready

theorem sftpDownload_wp (localPath : List Char) (policy : OverwritePolicy) :
    Wp (downloadGauge remotePath).world (sftpDownload remotePath localPath policy)
      (fun _ v => v.whole) ⟨[], 0, True⟩ := by
  have hsftp : Calls (downloadGauge remotePath).Quiet ensureSftp :=
    calls_ask ⟨fun _ => ⟨rfl, rfl⟩, id⟩
  refine Gauge.wp_quiet_bind hsftp (fun _ => trivial) fun r => ?_
  refine Gauge.wp_quiet_bind (calls_orThrow r id) (fun _ => trivial) fun _ => ?_
  refine Gauge.wp_quiet_bind (resolveLocalDestination_quiet _ _) (fun _ => trivial) fun r => ?_
  match r with
  | none => exact wp_pure trivial
  | some finalPath =>
    refine wp_bind ((downloadToTemp_spec finalPath).imp fun r v hv => ?_)
    match r with
    | .error e => exact hv
    | .ok (temp, total) =>
      refine wp_bind ((Gauge.wp_commit (commitLocal_silent temp finalPath policy) hv).imp
        fun r v' hv' => ?_)
      match r with
      | .error e => exact hv'.2
      | .ok none => exact wp_pure hv'.2
      | .ok (some path) => exact wp_pure hv'.2

end Download

/-! ### Upload -/

section Upload

variable {source : Path} {temp : RemotePath}

theorem commitRemote_silent (finalPath : RemotePath) (policy : OverwritePolicy) :
    Calls (uploadGauge source).Silent (commitRemote temp finalPath policy) :=
  (commitRemote_calls temp finalPath policy).imp fun c hc => by
    cases c with
    | sftpRename | sftpRemoveFile | tryExists | sftpSymlinkMetadata | newV4 =>
      exact fun _ => ⟨rfl, rfl⟩
    | _ => exact hc.elim

theorem resolveRemoteDestination_quiet (requested : RemotePath) (policy : OverwritePolicy) :
    Calls (uploadGauge source).Quiet (resolveRemoteDestination requested policy) := by
  have hexists : Calls (uploadGauge source).Quiet (tryExists requested) :=
    calls_ask ⟨fun _ => ⟨rfl, rfl⟩, id⟩
  have hstat : Calls (uploadGauge source).Quiet (sftpSymlinkMetadata requested) :=
    calls_ask ⟨fun _ => ⟨rfl, rfl⟩, id⟩
  refine hexists.bind fun _ => (calls_orThrow _ _).bind fun _ => calls_ite ?_ (calls_pure _)
  cases policy with
  | skip => exact calls_pure _
  | keepBoth => exact calls_pure _
  | replace =>
    exact hstat.bind fun _ => (calls_orThrow _ _).bind fun _ => calls_ite (calls_throw _) (calls_pure _)

theorem sftpRemoveFile_quiet (path : RemotePath) :
    Calls (uploadGauge source).Quiet (sftpRemoveFile path) :=
  calls_ask ⟨fun _ => ⟨rfl, rfl⟩, id⟩

theorem sftpFlush_quiet (path : RemotePath) : Calls (uploadGauge source).Quiet (sftpFlush path) :=
  calls_ask ⟨fun _ => ⟨rfl, rfl⟩, id⟩

theorem syncModifiedTime_quiet (mtime : Option Nat) :
    Calls (uploadGauge source).Quiet (syncModifiedTime temp mtime) := by
  have hstat : Calls (uploadGauge source).Quiet (sftpMetadata temp) :=
    calls_ask ⟨fun _ => ⟨rfl, rfl⟩, id⟩
  have hset : ∀ mtime, Calls (uploadGauge source).Quiet (sftpSetMetadata temp mtime) :=
    fun _ => calls_ask ⟨fun _ => ⟨rfl, rfl⟩, id⟩
  cases mtime with
  | none => exact calls_pure _
  | some secs =>
    refine hstat.bind fun r => ?_
    match r with
    | .ok _ => exact (hset _).bind fun _ => calls_pure _
    | .error _ => exact calls_pure _

theorem wp_giveUpFlushed {α : Type} {text : String} {w : Gauge.Record}
    {Q : Except String α → Gauge.Record → Prop} (herror : ∀ e, Q (.error e) w) :
    Wp (uploadGauge source).world (giveUpFlushed temp text) Q w :=
  Gauge.wp_quiet_bind (sftpFlush_quiet _) herror fun _ =>
    Gauge.wp_giveUp (sftpRemoveFile_quiet _) herror

def observedLocal : Except IoFault LocalMetadata → List Nat
  | .ok stat => [stat.len]
  | .error _ => []

theorem wp_lookLocal {looks : List (Nat × Nat)} {copied : Nat}
    {Q : Except String (Except IoFault LocalMetadata) → Gauge.Record → Prop}
    (h : ∀ r, Q (.ok r) ⟨looks ++ (observedLocal r).map (·, copied), copied, True⟩) :
    Wp (uploadGauge source).world (sourceMetadata source) Q ⟨looks, copied, True⟩ := by
  refine wp_ask fun v r v' hdrift hresponds => ?_
  obtain rfl : v = _ := hdrift
  have hrecord : v' = ⟨looks ++ (observedLocal r).map (·, copied), copied, True⟩ := by
    rw [show v' = _ from hresponds]
    match r with
    | .ok stat => simp [Gauge.record, uploadGauge, FileCall.Commits, observedLocal]
    | .error e => simp [Gauge.record, uploadGauge, FileCall.Commits, observedLocal]
  rw [hrecord]
  exact h r

theorem ready_of_unchangedLocal {stat : LocalMetadata} {again : Except IoFault LocalMetadata}
    {total : Nat} (h : ¬(total ≠ stat.len ∨ stat.unchanged again = false)) :
    Gauge.Record.Ready ⟨[(stat.len, 0)] ++ (observedLocal again).map (·, total), total, True⟩ := by
  push Not at h
  obtain ⟨rfl, hunchanged⟩ := h
  cases again with
  | error e => exact absurd rfl hunchanged
  | ok stat' =>
    simp only [LocalMetadata.unchanged, ne_eq, decide_eq_false_iff_not, not_not] at hunchanged
    refine ⟨?_, trivial⟩
    show [(stat.len, 0), (stat'.len, stat.len)] = _
    rw [hunchanged.1]

theorem uploadRound_spec {n total : Nat} :
    Wp (uploadGauge source).world (uploadRound source temp total) (fun r v =>
      match r with
      | .ok (.inl total') => v = ⟨[(n, 0)], total', True⟩
      | .ok (.inr total') => v = ⟨[(n, 0)], total', True⟩
      | .error _ => v.whole) ⟨[(n, 0)], total, True⟩ := by
  have hcancelled : Calls (uploadGauge source).Quiet cancelled :=
    calls_ask ⟨fun _ => ⟨rfl, rfl⟩, id⟩
  have hread : ∀ room, Calls (uploadGauge source).Quiet (readSource source room) :=
    fun _ => calls_ask ⟨fun _ => ⟨rfl, rfl⟩, id⟩
  refine Gauge.wp_quiet_bind hcancelled (fun _ => trivial) fun _ => wp_ite (fun _ => ?_) fun _ => ?_
  · exact wp_giveUpFlushed fun _ => trivial
  refine Gauge.wp_quiet_bind (hread _) (fun _ => trivial) fun r => ?_
  match r with
  | .error e => exact Gauge.wp_giveUp (sftpRemoveFile_quiet _) fun _ => trivial
  | .ok bytes =>
  refine wp_ite (fun _ => wp_pure rfl) fun _ => wp_ask_bind fun v r v' hdrift hresponds => ?_
  obtain rfl : v = _ := hdrift
  match r with
  | .error e =>
    refine Gauge.wp_giveUp (sftpRemoveFile_quiet _) fun _ => ?_
    rw [show v' = _ from hresponds]
    exact ⟨trivial, fun h => h.elim⟩
  | .ok () =>
    refine wp_pure ?_
    rw [show v' = _ from hresponds]
    simp [Gauge.record, uploadGauge, FileCall.Commits]

theorem uploadToTemp_spec (before : LocalMetadata) (mtime : Option Nat) :
    Wp (uploadGauge source).world (uploadToTemp source before temp mtime) (fun r v =>
      match r with
      | .ok _ => v.Ready
      | .error _ => v.whole) ⟨[(before.len, 0)], 0, True⟩ := by
  have hcancelled : Calls (uploadGauge source).Quiet cancelled :=
    calls_ask ⟨fun _ => ⟨rfl, rfl⟩, id⟩
  refine wp_bind (wp_loop (fun total v => v = ⟨[(before.len, 0)], total, True⟩) rfl ?_)
  rintro total _ rfl
  refine uploadRound_spec.imp fun r v hv => ?_
  match r with
  | .error e => exact hv
  | .ok (.inl total') => exact hv
  | .ok (.inr total') =>
  subst hv
  refine wp_bind (wp_lookLocal fun again => wp_ite (fun _ => ?_) fun hchecked => ?_)
  · exact wp_giveUpFlushed fun _ => trivial
  have hready := ready_of_unchangedLocal hchecked
  refine Gauge.wp_quiet_bind (sftpFlush_quiet _) (fun _ => trivial) fun r => ?_
  match r with
  | .error e => exact Gauge.wp_giveUp (sftpRemoveFile_quiet _) fun _ => trivial
  | .ok _ =>
  refine Gauge.wp_quiet_bind (syncModifiedTime_quiet _) (fun _ => trivial) fun _ => ?_
  refine Gauge.wp_quiet_bind hcancelled (fun _ => trivial) fun _ => wp_ite (fun _ => ?_) fun _ => ?_
  · exact Gauge.wp_giveUp (sftpRemoveFile_quiet _) fun _ => trivial
  · exact wp_pure hready

theorem sftpUpload_wp (localPath : List Char) (remotePath : RemotePath) (mtime : Option Nat)
    (policy : OverwritePolicy) :
    Wp (uploadGauge (.new localPath)).world (sftpUpload localPath remotePath mtime policy)
      (fun _ v => v.whole) ⟨[], 0, True⟩ := by
  have hsftp : Calls (uploadGauge (.new localPath)).Quiet ensureSftp :=
    calls_ask ⟨fun _ => ⟨rfl, rfl⟩, id⟩
  have hopen : Calls (uploadGauge (.new localPath)).Quiet (openSource (.new localPath)) :=
    calls_ask ⟨fun _ => ⟨rfl, rfl⟩, id⟩
  have huuid : Calls (uploadGauge (.new localPath)).Quiet newV4 :=
    calls_ask ⟨fun _ => ⟨rfl, rfl⟩, id⟩
  have hcreate : ∀ temp, Calls (uploadGauge (.new localPath)).Quiet (sftpCreateNew temp) :=
    fun _ => calls_ask ⟨fun _ => ⟨rfl, rfl⟩, id⟩
  refine Gauge.wp_quiet_bind hsftp (fun _ => trivial) fun _ => ?_
  refine Gauge.wp_quiet_bind (calls_orThrow _ _) (fun _ => trivial) fun _ => ?_
  refine Gauge.wp_quiet_bind hopen (fun _ => trivial) fun _ => ?_
  refine Gauge.wp_quiet_bind (calls_orThrow _ _) (fun _ => trivial) fun _ => ?_
  refine wp_bind (wp_lookLocal fun r => wp_bind (wp_orThrow ?_ fun _ _ => trivial))
  rintro before rfl
  refine Gauge.wp_quiet_bind (resolveRemoteDestination_quiet _ _) (fun _ => trivial) fun r => ?_
  match r with
  | none => exact wp_pure trivial
  | some finalPath =>
    refine Gauge.wp_quiet_bind huuid (fun _ => trivial) fun _ => ?_
    refine Gauge.wp_quiet_bind (hcreate _) (fun _ => trivial) fun _ => ?_
    refine Gauge.wp_quiet_bind (calls_orThrow _ _) (fun _ => trivial) fun _ => ?_
    refine wp_bind ((uploadToTemp_spec before mtime).imp fun r v hv => ?_)
    match r with
    | .error e => exact hv
    | .ok total =>
      refine wp_bind ((Gauge.wp_commit (commitRemote_silent finalPath policy) hv).imp
        fun r v' hv' => ?_)
      match r with
      | .error e => exact hv'.2
      | .ok none => exact wp_pure hv'.2
      | .ok (some path) => exact wp_pure hv'.2

end Upload

/-! ## The whole -/

/-- Committing loses no data, on either side, and transfers commit whole files only. -/
theorem file_commit_safe :
    (∀ (w : Disks) (temp finalPath : Path) (policy : OverwritePolicy) (content : List UInt8),
      w.localDisk temp = some (.file content) → temp ≠ finalPath →
        CommitSafe Disks.localDisk displayPath policy temp finalPath content
          (commitLocal temp finalPath policy) w) ∧
    (∀ (w : Disks) (temp finalPath : RemotePath) (policy : OverwritePolicy) (content : List UInt8),
      w.remoteDisk temp = some (.file content) → temp ≠ finalPath →
        CommitSafe Disks.remoteDisk displayRemote policy temp finalPath content
          (commitRemote temp finalPath policy) w) ∧
    (∀ remotePath localPath policy,
      (downloadGauge remotePath).CommitsWhole (sftpDownload remotePath localPath policy)) ∧
    ∀ localPath remotePath mtime policy,
      (uploadGauge (.new localPath)).CommitsWhole (sftpUpload localPath remotePath mtime policy) :=
  ⟨fun _ _ _ _ _ => commitLocal_safe, fun _ _ _ _ _ => commitRemote_safe,
    fun _ localPath policy => Gauge.commitsWhole_of_wp (sftpDownload_wp localPath policy),
    fun localPath remotePath mtime policy =>
      Gauge.commitsWhole_of_wp (sftpUpload_wp localPath remotePath mtime policy)⟩

def newFile : Path := .new ['t']

def oldFile : Path := .new ['f']

/-- A disk with a new file, which is to replace the old one. -/
def beforeReplace : Disks where
  localDisk path :=
    if path = newFile then some (.file [1]) else if path = oldFile then some (.file [9]) else none
  remoteDisk _ := none

def backupFile : Path := siblingLocalArtifact oldFile "backup".toList ['7']

def failure : IoFault := ⟨.other, "EIO"⟩

/-- The old file is moved away, the new one does not get its name, and the old one does not get it
back. -/
def failedRollback : List fileIo.Event :=
  [⟨.symlinkMetadata oldFile, Except.ok ⟨false, 1, none⟩⟩, ⟨.newV4, ['7']⟩,
    ⟨.rename oldFile backupFile, Except.ok ()⟩, ⟨.rename newFile oldFile, Except.error failure⟩,
    ⟨.rename backupFile oldFile, Except.error failure⟩, ⟨.removeFile newFile, Except.ok ()⟩]

theorem unused_beforeReplace : beforeReplace.Unused ['7'] := by
  have hne : ∀ path tag name, name.length < 10 →
      siblingLocalArtifact path tag ['7'] ≠ ⟨false, [name]⟩ := by
    intro path tag name hlt h
    have hsegments := congrArg (fun p => p.segments.getLast?) h
    simp only [siblingLocalArtifact, Path.join, Bool.false_eq_true, if_false,
      List.getLast?_concat, List.getLast?_singleton, Option.some.injEq] at hsegments
    have htext : (".tauterm-".toList).length = 9 := rfl
    rw [← hsegments] at hlt
    simp only [artifactName, List.length_append, List.length_singleton, htext] at hlt
    omega
  refine ⟨by decide, fun path tag => ?_, fun _ _ => rfl⟩
  have hnew := hne path tag ['t'] (by decide)
  have hold := hne path tag ['f'] (by decide)
  exact (if_neg hnew).trans (if_neg hold)

theorem file_commit_safe_rollback : ∃ text w',
    Returns (commitLocal newFile oldFile .replace).run failedRollback (.error text) ∧
    fileWorld.Carries beforeReplace failedRollback w' ∧ w'.localDisk oldFile = none ∧
    ∃ backup, Names text (displayPath backup) ∧ w'.localDisk backup = some (.file [9]) := by
  let moved : Disks := ⟨beforeReplace.localDisk.rename oldFile backupFile, beforeReplace.remoteDisk⟩
  let done : Disks := ⟨moved.localDisk.remove newFile, beforeReplace.remoteDisk⟩
  have hrun : Returns (commitLocal newFile oldFile .replace).run failedRollback
      (.error (localBackend.rollbackText oldFile backupFile failure failure)) := by
    have hfollow : Prog.follow 9 (commitLocal newFile oldFile .replace).run failedRollback =
      some (.error (localBackend.rollbackText oldFile backupFile failure failure), []) := rfl
    obtain ⟨used, heq, hused⟩ := Prog.returns_of_follow hfollow
    rw [List.append_nil] at heq
    rw [heq]
    exact hused
  have hstay : ∀ w, fileWorld.Drifts w w := fun _ => ⟨fun _ _ h => h, fun _ _ h => h⟩
  have hmove : fileWorld.Responds beforeReplace ⟨.rename oldFile backupFile, Except.ok ()⟩ moved :=
    ⟨⟨by decide, rfl⟩, rfl⟩
  have hremove : fileWorld.Responds moved ⟨.removeFile newFile, Except.ok ()⟩ done :=
    ⟨⟨by decide, rfl⟩, rfl⟩
  have hcarries : fileWorld.Carries beforeReplace failedRollback done :=
    .cons (hstay _) rfl <| .cons (hstay _) ⟨unused_beforeReplace, rfl⟩ <|
      .cons (hstay _) hmove <| .cons (hstay _) ⟨rfl, rfl⟩ <| .cons (hstay _) ⟨rfl, rfl⟩ <|
      .cons (hstay _) hremove (.nil _)
  have hgone : done.localDisk oldFile = none := by decide
  have hsafe := file_commit_safe.1 beforeReplace newFile oldFile .replace [1] rfl (by decide) _ _ _
    hrun hcarries
  refine ⟨_, done, hrun, hcarries, hgone, ?_⟩
  obtain hkept | ⟨-, -, hok | ⟨text, backup, htext, hnames, -, hbackup⟩⟩ :=
    hsafe.1.keeps oldFile (.file [9]) (by decide) rfl
  · rw [hgone] at hkept
    cases hkept
  · cases hok
  · obtain rfl := Except.error.inj htext
    exact ⟨backup, hnames, hbackup⟩

end TauTerm.Sftp
