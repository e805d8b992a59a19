import Mathlib
import TauTerm.Lib.Run
import TauTerm.Ssh.TrustOperations

/-!
# Runs of the trust store

A ledger beside the store says what it is for: which keys are trusted now, and
which trust files were found corrupt and have not been reset since. The store is
secure if its verdicts follow the ledger.
-/

namespace TauTerm.Ssh

open Lib Lib.Rust

structure TrustLedger where
  trusted : Set HostKey
  corrupt : Set String

namespace TrustLedger

def trust (ledger : TrustLedger) (k : HostKey) : TrustLedger :=
  { ledger with trusted := insert k ledger.trusted }

def replace (ledger : TrustLedger) (k : HostKey) : TrustLedger :=
  { ledger with
    trusted := insert k
      ({other ∈ ledger.trusted | ¬ (other.At k.host k.port ∧ other.algorithm = k.algorithm)}) }

def forget (ledger : TrustLedger) (host : String) (port : UInt16) : TrustLedger :=
  { ledger with trusted := {k ∈ ledger.trusted | ¬ k.At host port} }

/-- Every key is forgotten, and one trust file is in order again. -/
def reset (ledger : TrustLedger) (path : Option TrustPath) : TrustLedger where
  trusted := ∅
  corrupt := {stem ∈ ledger.corrupt | path ≠ some ⟨stem, .json⟩}

end TrustLedger

/-- The operations, with their arguments. A configuration finds what others have left at the trust
file; a `restart` is a new process. -/
inductive TrustAction where
  | configure (stem : String) (contents : Option ByteArray)
  | trust (host : String) (port : UInt16) (algorithm fingerprint : String) (now : UInt64)
  | replaceIfMatches (host : String) (port : UInt16) (algorithm : String)
      (expectedFingerprints : List String) (fingerprint : String) (now : UInt64)
  | touch (host : String) (port : UInt16) (algorithm fingerprint : String) (now : UInt64)
  | forget (host : String) (port : UInt16)
  | reset
  | restart

def TrustAction.reports : TrustAction → Bool
  | .touch .. | .restart => false
  | _ => true

def TrustAction.perform (platform : Platform) (faults : Faults) :
    TrustAction → Exec World String Unit
  | .configure stem contents => do
    Exec.modify fun w => { w with disk := w.disk.put ⟨stem, .json⟩ contents }
    Ssh.configure platform faults ⟨stem, .json⟩
  | .trust host port algorithm fingerprint now =>
    Ssh.trust platform faults host port algorithm fingerprint now
  | .replaceIfMatches host port algorithm expectedFingerprints fingerprint now =>
    Ssh.replaceIfMatches platform faults host port algorithm expectedFingerprints fingerprint now
  | .touch host port algorithm fingerprint now =>
    Ssh.touch platform faults host port algorithm fingerprint now
  | .forget host port => do
    let _ ← Ssh.forget platform faults host port
  | .reset => Ssh.reset platform faults
  | .restart => Exec.modify fun w => { w with store := .new }

/-- What an operation that succeeds means for the ledger. -/
def TrustLedger.record (platform : Platform) (w : World) (ledger : TrustLedger) :
    TrustAction → TrustLedger
  | .configure _ contents =>
    { ledger with trusted :=
        {k | ∃ hosts, hostsIn platform.codec contents = some hosts ∧ k ∈ keysOf platform hosts} }
  | .trust host port algorithm fingerprint _ =>
    ledger.trust ⟨normalizedHost platform host, port, algorithm, fingerprint⟩
  | .replaceIfMatches host port algorithm _ fingerprint _ =>
    ledger.replace ⟨normalizedHost platform host, port, algorithm, fingerprint⟩
  | .touch .. => ledger
  | .forget host port => ledger.forget (normalizedHost platform host) port
  | .reset => ledger.reset w.store.path
  | .restart => { ledger with trusted := ∅ }

/-- Configuring a corrupt file condemns it, whatever comes of the configuration. -/
def TrustLedger.condemn (platform : Platform) (ledger : TrustLedger) :
    TrustAction → TrustLedger
  | .configure stem contents =>
    { ledger with corrupt :=
        {s | s ∈ ledger.corrupt ∨ s = stem ∧ hostsIn platform.codec contents = none} }
  | _ => ledger

structure Audit where
  world : World
  ledger : TrustLedger

def Audit.start (disk : Disk) : Audit where
  world := { store := .new, disk }
  ledger := { trusted := ∅, corrupt := ∅ }

def auditStep (platform : Platform) (s : Audit) (a : TrustAction × Faults) : Audit where
  world := (a.1.perform platform a.2 s.world).2
  ledger :=
    match (a.1.perform platform a.2 s.world).1 with
    | .ok _ => (s.ledger.condemn platform a.1).record platform s.world a.1
    | .error _ => s.ledger.condemn platform a.1

/-! ## Security -/

/-- The verdicts follow the ledger, and the trust file holds the records that are served. -/
structure Secure (platform : Platform) (s : Audit) : Prop where
  trusted : ∀ host port algorithm fingerprint,
    evaluate platform s.world.store host port algorithm fingerprint = .trusted →
    ⟨normalizedHost platform host, port, algorithm, fingerprint⟩ ∈ s.ledger.trusted
  firstSeen : ∀ host port algorithm fingerprint,
    evaluate platform s.world.store host port algorithm fingerprint = .firstSeen →
    ¬ HasRecord platform s.world.store.hosts (normalizedHost platform host) port ∧
    ∃ path, s.world.store.path = some path ∧
      ∀ hosts, hostsIn platform.codec (s.world.disk path) = some hosts →
        ¬ HasRecord platform hosts (normalizedHost platform host) port
  refuses : ∀ stem ∈ s.ledger.corrupt, s.world.store.path = some ⟨stem, .json⟩ →
    ∀ host port algorithm fingerprint, ∃ reason,
      evaluate platform s.world.store host port algorithm fingerprint = .unavailable reason
  fresh : s.world.store.available = true → ∃ path, s.world.store.path = some path ∧
    load platform noFaults path s.world.disk = (.ok s.world.store.hosts, s.world.disk)

/-- A failure leaves the records in memory, and a configuration that fails serves nothing; after a
success a fresh load of the file yields the records in memory. -/
structure MutationSafe (platform : Platform) (s : Audit) (a : TrustAction × Faults) : Prop where
  error : ∀ e, (a.1.perform platform a.2 s.world).1 = .error e →
    (auditStep platform s a).world.store.hosts = s.world.store.hosts
  shut : ∀ stem contents e, a.1 = .configure stem contents →
    (a.1.perform platform a.2 s.world).1 = .error e →
    (auditStep platform s a).world.store.available = false
  ok : a.1.reports = true → (a.1.perform platform a.2 s.world).1 = .ok () →
    ∃ path, (auditStep platform s a).world.store.path = some path ∧
      load platform noFaults path (auditStep platform s a).world.disk =
        (.ok (auditStep platform s a).world.store.hosts, (auditStep platform s a).world.disk)

/-- The marker of a corrupt file is there, or will be: the file is text that can be read, and the
marker can be written. -/
def Condemns (disk : Disk) (faults : Faults) (stem : String) (contents : Option ByteArray) : Prop :=
  (disk ⟨stem, .blocked⟩).isSome ∨
  ((contents.bind String.fromUTF8?).isSome ∧ faults .createDirs = none ∧
    faults .readFile = none ∧ faults .markDetected = none)

/-- The conditions under which the store is fail-closed: what is on the disk is seen, a corrupt
file gets its marker, the records of a valid file are filed under their own endpoints, and so is a
new record, for its host is not normalised any further by the queries that come later. -/
def Regular (platform : Platform) (s : Audit) (a : TrustAction × Faults) : Prop :=
  match a.1 with
  | .configure stem contents =>
    ((s.world.disk ⟨stem, .blocked⟩).isSome → a.2 .probeMarker = none) ∧
    (contents.isSome → a.2 .probeFile = none) ∧
    (hostsIn platform.codec contents = none → Condemns s.world.disk a.2 stem contents) ∧
    ∀ hosts, hostsIn platform.codec contents = some hosts → WellKeyed platform hosts
  | .trust host port .. => s.world.store.hosts[key platform host port]? = none →
    normalizedHost platform (normalizedHost platform host) = normalizedHost platform host
  | .reset => ∀ path, s.world.store.path = some path →
    (s.world.disk (blockedPath path)).isSome → a.2 .probeMarker = none
  | _ => True

/-! ## The invariant -/

/-- The store serves the records of a trust file that is not marked. -/
structure Serving (platform : Platform) (s : Audit) (stem : String) : Prop where
  path : s.world.store.path = some ⟨stem, .json⟩
  unmarked : s.world.disk ⟨stem, .blocked⟩ = none
  onDisk : hostsIn platform.codec (s.world.disk ⟨stem, .json⟩) = some s.world.store.hosts
  keyed : WellKeyed platform s.world.store.hosts
  ledger : s.ledger.trusted = keysOf platform s.world.store.hosts

structure Sound (platform : Platform) (s : Audit) : Prop where
  json : ∀ path, s.world.store.path = some path → path.extension = .json
  marked : ∀ stem ∈ s.ledger.corrupt, (s.world.disk ⟨stem, .blocked⟩).isSome
  serving : s.world.store.available = true → ∃ stem, Serving platform s stem

section

variable {platform : Platform} {s : Audit}

theorem sound_start (platform : Platform) (disk : Disk) : Sound platform (.start disk) where
  json := by rintro path ⟨⟩
  marked := by rintro stem ⟨⟩
  serving := by rintro ⟨⟩

theorem Sound.secure (h : Sound platform s) : Secure platform s where
  trusted host port algorithm fingerprint htrusted := by
    cases havailable : s.world.store.available with
    | false => rw [evaluate_unavailable platform havailable] at htrusted; cases htrusted
    | true =>
      obtain ⟨stem, hserving⟩ := h.serving havailable
      rw [hserving.ledger]
      exact evaluate_trusted hserving.keyed htrusted
  firstSeen host port algorithm fingerprint hfirst := by
    cases havailable : s.world.store.available with
    | false => rw [evaluate_unavailable platform havailable] at hfirst; cases hfirst
    | true =>
      obtain ⟨stem, hserving⟩ := h.serving havailable
      have hnone := evaluate_firstSeen hserving.keyed hfirst
      refine ⟨hnone, _, hserving.path, fun hosts hhosts => ?_⟩
      obtain rfl := Option.some.inj (hhosts.symm.trans hserving.onDisk)
      exact hnone
  refuses stem hcorrupt hpath host port algorithm fingerprint := by
    cases havailable : s.world.store.available with
    | false => exact ⟨_, evaluate_unavailable platform havailable ..⟩
    | true =>
      obtain ⟨stem', hserving⟩ := h.serving havailable
      obtain rfl := congrArg TrustPath.stem (Option.some.inj (hpath.symm.trans hserving.path))
      have hmarked := h.marked _ hcorrupt
      rw [hserving.unmarked] at hmarked
      cases hmarked
  fresh havailable := by
    obtain ⟨stem, hserving⟩ := h.serving havailable
    exact ⟨_, hserving.path, load_noFaults hserving.onDisk⟩

/-- Saving the records keeps the store sound, with the ledger that matches them. -/
theorem Sound.saved (lawful : platform.codec.Lawful) (h : Sound platform s) {hosts : Hosts}
    {after : World} (hsaved : Saved platform s.world hosts after) (hkeyed : WellKeyed platform hosts)
    {trusted : Set HostKey} (htrusted : trusted = keysOf platform hosts) :
    Sound platform ⟨after, { s.ledger with trusted }⟩ := by
  obtain ⟨path, text, havailable, hpath, htext, rfl⟩ := hsaved
  obtain ⟨stem, hserving⟩ := h.serving havailable
  obtain rfl := Option.some.inj (hpath.symm.trans hserving.path)
  have hother (stem' : String) := blocked_ne_json stem' stem
  refine ⟨h.json, fun stem' hcorrupt => ?_, fun _ => ⟨stem, hserving.path, ?_, ?_, hkeyed, htrusted⟩⟩
  · simpa only [Disk.put_other (hother stem')] using h.marked stem' hcorrupt
  · simpa only [Disk.put_other (hother stem)] using hserving.unmarked
  · simpa only [Disk.put_same] using hostsIn_written lawful htext

/-! ## Steps -/

/-- A failure that leaves the store as it was. -/
theorem auditStep_error (action : TrustAction) (faults : Faults) {e : String}
    (h : action.perform platform faults s.world = (.error e, s.world)) :
    auditStep platform s (action, faults) = ⟨s.world, s.ledger.condemn platform action⟩ := by
  simp only [auditStep, h]

theorem auditStep_ok (action : TrustAction) (faults : Faults) {after : World}
    (h : action.perform platform faults s.world = (.ok (), after)) :
    auditStep platform s (action, faults) =
      ⟨after, (s.ledger.condemn platform action).record platform s.world action⟩ := by
  simp only [auditStep, h]

/-- An operation that saves or fails keeps the store sound, if what it saves matches the ledger. -/
theorem Sound.savesOrFails (lawful : platform.codec.Lawful) (h : Sound platform s)
    {action : TrustAction} {faults : Faults} {hosts : Hosts}
    (hcases : SavesOrFails platform s.world hosts (action.perform platform faults s.world))
    (hcondemn : s.ledger.condemn platform action = s.ledger)
    (hledger : ∀ stem, Serving platform s stem → WellKeyed platform hosts ∧
      s.ledger.record platform s.world action = { s.ledger with trusted := keysOf platform hosts }) :
    Sound platform (auditStep platform s (action, faults)) := by
  rcases hcases with ⟨e, he⟩ | ⟨after, hafter, hsaved⟩
  · rwa [auditStep_error action faults he, hcondemn]
  · obtain ⟨stem, hserving⟩ := h.serving (by obtain ⟨_, _, havailable, -⟩ := hsaved; exact havailable)
    obtain ⟨hkeyed, hrecord⟩ := hledger stem hserving
    rw [auditStep_ok action faults hafter, hcondemn, hrecord]
    exact h.saved lawful hsaved hkeyed rfl

/-- The record of an endpoint lists the keys that are trusted there. -/
theorem Serving.recordAt {stem : String} (h : Serving platform s stem) {host : String}
    {port : UInt16} (hstable : s.world.store.hosts[key platform host port]? = none →
      normalizedHost platform (normalizedHost platform host) = normalizedHost platform host) :
    (recordAt platform s.world.store.hosts host port).endpointHost platform =
      normalizedHost platform host ∧
    (recordAt platform s.world.store.hosts host port).port = port ∧
    ∀ k : HostKey, k.At (normalizedHost platform host) port →
      ((recordAt platform s.world.store.hosts host port).Lists k.algorithm k.fingerprint ↔
        k ∈ s.ledger.trusted) := by
  rw [h.ledger]
  unfold Ssh.recordAt
  cases hrecord : s.world.store.hosts[key platform host port]? with
  | none =>
    refine ⟨hstable hrecord, rfl, fun k hk => iff_of_false (by rintro ⟨⟩) fun hmem => ?_⟩
    obtain ⟨record, hfound, -⟩ := h.keyed.mem_keysOf.mp hmem
    rw [hk.1, hk.2] at hfound
    cases hfound.symm.trans hrecord
  | some record =>
    obtain ⟨hhost, hport⟩ := h.keyed.host_port hrecord
    refine ⟨hhost, hport, fun k hk => ?_⟩
    rw [h.keyed.mem_keysOf, hk.1, hk.2]
    constructor
    · exact fun hlists => ⟨record, hrecord, hlists⟩
    · rintro ⟨found, hfound, hlists⟩
      obtain rfl := Option.some.inj (hfound.symm.trans hrecord)
      exact hlists

theorem sound_trust (lawful : platform.codec.Lawful) (h : Sound platform s) {faults : Faults}
    {host : String} {port : UInt16} {algorithm fingerprint : String} {now : UInt64}
    (hregular : Regular platform s (.trust host port algorithm fingerprint now, faults)) :
    Sound platform (auditStep platform s
      (.trust host port algorithm fingerprint now, faults)) := by
  refine h.savesOrFails lawful (trust_cases ..) rfl fun stem hserving => ?_
  obtain ⟨hhost, hport, hlists⟩ := hserving.recordAt hregular
  refine ⟨hserving.keyed.insert hhost hport, ?_⟩
  simp only [TrustLedger.record, TrustLedger.trust, TrustLedger.mk.injEq, and_true]
  ext k
  refine Iff.trans ?_ (hserving.keyed.mem_keysOf_insert hhost hport _).symm
  rw [← hserving.ledger, Set.mem_insert_iff, mem_trust_keys, HostKey.ext_iff]
  by_cases hat : k.At (normalizedHost platform host) port
  · rw [← hlists k hat, KnownHostRecord.Lists]
    simp [hat, hat.1, hat.2]
  · have hne : ¬ (k.host = normalizedHost platform host ∧ k.port = port) := hat
    simp only [hat, false_and, not_false_eq_true, true_and, false_or]
    exact or_iff_right fun heq => hne ⟨heq.1, heq.2.1⟩

theorem sound_replaceIfMatches (lawful : platform.codec.Lawful) (h : Sound platform s)
    (faults : Faults) (host : String) (port : UInt16) (algorithm : String)
    (expectedFingerprints : List String) (fingerprint : String) (now : UInt64) :
    Sound platform (auditStep platform s
      (.replaceIfMatches host port algorithm expectedFingerprints fingerprint now, faults)) := by
  rcases replaceIfMatches_cases platform faults host port algorithm expectedFingerprints fingerprint
    now s.world with ⟨e, he⟩ | ⟨record, hrecord, hcases⟩
  · exact auditStep_error (.replaceIfMatches ..) faults he ▸ h
  refine h.savesOrFails lawful hcases rfl fun stem hserving => ?_
  obtain ⟨hhost, hport⟩ := hserving.keyed.host_port hrecord
  refine ⟨hserving.keyed.insert hhost hport, ?_⟩
  simp only [TrustLedger.record, TrustLedger.replace, TrustLedger.mk.injEq, and_true]
  ext k
  refine Iff.trans ?_ (hserving.keyed.mem_keysOf_insert hhost hport _).symm
  rw [hserving.ledger, Set.mem_insert_iff, Set.mem_sep_iff, mem_replace_keys, HostKey.ext_iff]
  by_cases hat : k.At (normalizedHost platform host) port
  · have hlists : k ∈ keysOf platform s.world.store.hosts ↔ record.Lists k.algorithm k.fingerprint := by
      rw [hserving.keyed.mem_keysOf, hat.1, hat.2]
      constructor
      · rintro ⟨found, hfound, hlists⟩
        obtain rfl := Option.some.inj (hfound.symm.trans hrecord)
        exact hlists
      · exact fun hlists => ⟨record, hrecord, hlists⟩
    rw [hlists, KnownHostRecord.Lists]
    simp only [hat, hat.1, hat.2, true_and, not_true_eq_false, false_and, or_false, Prod.mk.injEq]
    exact or_congr_right and_comm
  · have hne : ¬ (k.host = normalizedHost platform host ∧ k.port = port) := hat
    simp only [hat, false_and, not_false_eq_true, true_and, false_or, and_true]
    exact or_iff_right fun heq => hne ⟨heq.1, heq.2.1⟩

theorem sound_touch (lawful : platform.codec.Lawful) (h : Sound platform s) (faults : Faults)
    (host : String) (port : UInt16) (algorithm fingerprint : String) (now : UInt64) :
    Sound platform (auditStep platform s
      (.touch host port algorithm fingerprint now, faults)) := by
  rcases touch_cases platform faults host port algorithm fingerprint now s.world with
    hsame | ⟨record, keys, after, hrecord, htouch, hafter, hsaved⟩
  · exact auditStep_ok (.touch ..) faults hsame ▸ h
  obtain ⟨stem, hserving⟩ := h.serving (by obtain ⟨_, _, havailable, -⟩ := hsaved; exact havailable)
  obtain ⟨hhost, hport⟩ := hserving.keyed.host_port hrecord
  rw [auditStep_ok (.touch ..) faults hafter]
  refine h.saved lawful hsaved (hserving.keyed.insert hhost hport) ?_
  ext k
  refine Iff.trans ?_ (hserving.keyed.mem_keysOf_insert hhost hport _).symm
  change k ∈ s.ledger.trusted ↔ _
  rw [hserving.ledger, map_identity_touchKey htouch, hserving.keyed.mem_keysOf]
  by_cases hat : k.At (normalizedHost platform host) port
  · simp only [hat, true_and, not_true_eq_false, false_and, or_false]
    rw [hat.1, hat.2]
    constructor
    · rintro ⟨found, hfound, hlists⟩
      obtain rfl := Option.some.inj (hfound.symm.trans hrecord)
      exact hlists
    · exact fun hlists => ⟨record, hrecord, hlists⟩
  · simp [hat]

theorem sound_forget (lawful : platform.codec.Lawful) (h : Sound platform s) (faults : Faults)
    (host : String) (port : UInt16) :
    Sound platform (auditStep platform s (.forget host port, faults)) := by
  have hledger (stem : String) (hserving : Serving platform s stem) :
      {k ∈ s.ledger.trusted | ¬ k.At (normalizedHost platform host) port} =
        keysOf platform (s.world.store.hosts.erase (key platform host port)) := by
    ext k
    rw [key, hserving.keyed.mem_keysOf_erase, ← hserving.ledger, Set.mem_sep_iff]
    exact and_comm
  rcases forget_cases platform faults host port s.world with
    ⟨e, he⟩ | ⟨hfalse, havailable, hnone⟩ | ⟨after, hafter, hsaved⟩
  · exact auditStep_error (.forget ..) faults (Exec.bind_run_error he _) ▸ h
  · obtain ⟨stem, hserving⟩ := h.serving havailable
    rw [auditStep_ok (.forget ..) faults (Exec.bind_run_ok hfalse _)]
    have hsame : {k ∈ s.ledger.trusted | ¬ k.At (normalizedHost platform host) port} =
        s.ledger.trusted := by
      refine Set.sep_eq_self_iff_mem_true.mpr fun k hk hat => ?_
      rw [hserving.ledger, hserving.keyed.mem_keysOf, hat.1, hat.2] at hk
      obtain ⟨record, hrecord, -⟩ := hk
      cases hrecord.symm.trans hnone
    simp only [TrustLedger.record, TrustLedger.condemn, TrustLedger.forget, hsame]
    exact h
  · obtain ⟨stem, hserving⟩ := h.serving (by obtain ⟨_, _, havailable, -⟩ := hsaved; exact havailable)
    rw [auditStep_ok (.forget ..) faults (Exec.bind_run_ok hafter _)]
    exact h.saved lawful hsaved (hserving.keyed.erase _) (hledger stem hserving)

/-- What a configuration comes to, after others have left `contents` at the trust file. -/
theorem configureAction_cases {stem : String} {contents : Option ByteArray} {faults : Faults}
    (hmarker : (s.world.disk ⟨stem, .blocked⟩).isSome → faults .probeMarker = none)
    (hprobe : contents.isSome → faults .probeFile = none) :
    (∃ hosts, s.world.disk ⟨stem, .blocked⟩ = none ∧ hostsIn platform.codec contents = some hosts ∧
      (TrustAction.configure stem contents).perform platform faults s.world =
        (.ok (), ⟨{ path := some ⟨stem, .json⟩, hosts, available := true },
          s.world.disk.put ⟨stem, .json⟩ contents⟩)) ∨
    (∃ e path disk, (TrustAction.configure stem contents).perform platform faults s.world =
        (.error e, ⟨{ s.world.store.shut with path }, disk⟩) ∧
      (path = s.world.store.path ∨ path = some ⟨stem, .json⟩) ∧
      KeepsMarkers s.world.disk disk) := by
  have hput : KeepsMarkers s.world.disk (s.world.disk.put ⟨stem, .json⟩ contents) :=
    keepsMarkers_put nofun
  have hblocked : s.world.disk.put ⟨stem, .json⟩ contents ⟨stem, .blocked⟩ =
      s.world.disk ⟨stem, .blocked⟩ := Disk.put_other (blocked_ne_json _ _) _ _
  have hcases := @configure_cases platform faults ⟨stem, .json⟩
      ⟨s.world.store, s.world.disk.put ⟨stem, .json⟩ contents⟩ rfl
      (by simpa only [blockedPath, TrustPath.withExtension, hblocked] using hmarker)
      (by simpa only [Disk.put_same] using hprobe)
  rcases hcases with ⟨hosts, hnone, hhosts, hrun⟩ | ⟨e, path, disk, hrun, hpath, hkeeps⟩
  · refine .inl ⟨hosts, hblocked ▸ hnone, ?_, hrun⟩
    simpa only [Disk.put_same] using hhosts
  · exact .inr ⟨e, path, disk, hrun, hpath, IsTrans.trans _ _ _ hput hkeeps⟩

theorem sound_configure (h : Sound platform s) {stem : String} {contents : Option ByteArray}
    {faults : Faults} (hregular : Regular platform s (.configure stem contents, faults)) :
    Sound platform (auditStep platform s (.configure stem contents, faults)) := by
  obtain ⟨hmarker, hprobe, hcondemns, hkeyed⟩ := hregular
  rcases @configureAction_cases platform s _ _ _ hmarker hprobe with
    ⟨hosts, hnone, hhosts, hrun⟩ | ⟨e, path, disk, hrun, hpath, hkeeps⟩
  · rw [auditStep_ok _ _ hrun]
    have hother (stem' : String) := blocked_ne_json stem' stem
    refine ⟨fun path hpath => ?_, fun stem' hcorrupt => ?_, fun _ => ⟨stem, rfl, ?_, ?_,
      hkeyed hosts hhosts, ?_⟩⟩
    · obtain rfl := Option.some.inj hpath
      rfl
    · obtain hold | ⟨-, hcorrupt⟩ := hcorrupt
      · simpa only [Disk.put_other (hother stem')] using h.marked stem' hold
      · cases hhosts.symm.trans hcorrupt
    · simpa only [Disk.put_other (hother stem)] using hnone
    · simpa only [Disk.put_same] using hhosts
    · ext k
      exact ⟨fun ⟨hosts', hhosts', hk⟩ => Option.some.inj (hhosts'.symm.trans hhosts) ▸ hk,
        fun hk => ⟨hosts, hhosts, hk⟩⟩
  · have hstep : auditStep platform s (.configure stem contents, faults) =
        ⟨⟨{ s.world.store.shut with path }, disk⟩,
          s.ledger.condemn platform (.configure stem contents)⟩ := by
      simp only [auditStep, hrun]
    rw [hstep]
    refine ⟨fun path' hpath' => ?_, fun stem' hcorrupt => ?_, nofun⟩
    · rcases hpath with rfl | rfl
      · exact h.json path' hpath'
      · exact Option.some.inj hpath' ▸ rfl
    · obtain hold | ⟨rfl, hcorrupt⟩ := hcorrupt
      · exact hkeeps _ rfl (h.marked stem' hold)
      · rcases hcondemns hcorrupt with hmarked | ⟨htext, hdirs, hread, hmark⟩
        · exact hkeeps _ rfl hmarked
        · obtain ⟨raw, hraw⟩ := Option.isSome_iff_exists.mp htext
          obtain ⟨bytes, rfl, hutf8⟩ := Option.bind_eq_some_iff.mp hraw
          cases hdisk : s.world.disk ⟨stem', .blocked⟩ with
          | some marker => exact hkeeps _ rfl (by rw [hdisk]; rfl)
          | none =>
            have hreads : readHosts platform.codec raw = none := by
              rwa [hostsIn, hutf8, Option.bind_some] at hcorrupt
            have hmarks := @configure_marks platform _ _
                ⟨s.world.store, s.world.disk.put ⟨stem', .json⟩ (some bytes)⟩ _ _ rfl
                ((Disk.put_other (blocked_ne_json _ _) _ _).trans hdisk) hdirs (Disk.put_same ..)
                hutf8 hreads (hprobe rfl) hread hmark
            exact congrArg (fun out : Except String Unit × World =>
              (out.2.disk ⟨stem', .blocked⟩).isSome) hrun ▸ hmarks

theorem sound_reset (lawful : platform.codec.Lawful) (h : Sound platform s) {faults : Faults}
    (hregular : Regular platform s (.reset, faults)) :
    Sound platform (auditStep platform s (.reset, faults)) := by
  rcases reset_cases platform faults s.world hregular h.json with
    ⟨e, disk, hrun, hkeeps, hdisk⟩ | ⟨path, text, hpath, htext, hrun⟩
  · have hstep : auditStep platform s (.reset, faults) = ⟨⟨s.world.store, disk⟩, s.ledger⟩ := by
      simp only [auditStep, TrustAction.perform, hrun, TrustLedger.condemn]
    rw [hstep]
    refine ⟨h.json, fun stem hcorrupt => hkeeps _ rfl (h.marked stem hcorrupt), fun havailable => ?_⟩
    obtain ⟨stem, hserving⟩ := h.serving havailable
    rcases hdisk with rfl | ⟨path, hpath, hmarked⟩
    · exact ⟨stem, { hserving with }⟩
    · obtain rfl := Option.some.inj (hpath.symm.trans hserving.path)
      have hunmarked := hserving.unmarked
      rw [← blockedPath_json] at hunmarked
      rw [hunmarked] at hmarked
      cases hmarked
  · obtain ⟨stem, extension⟩ := path
    obtain rfl : extension = .json := h.json _ hpath
    rw [auditStep_ok (.reset) faults hrun]
    refine ⟨h.json, fun stem' hcorrupt => ?_, fun _ => ⟨stem, hpath, ?_, ?_, wellKeyed_empty, ?_⟩⟩
    · obtain ⟨hold, hne⟩ := hcorrupt
      have hstem : stem' ≠ stem := fun heq => hne (heq ▸ hpath)
      have hblocked : (⟨stem', .blocked⟩ : TrustPath) ≠ blockedPath ⟨stem, .json⟩ :=
        fun heq => hstem (congrArg TrustPath.stem heq)
      simpa only [Disk.put_other hblocked, Disk.put_other (blocked_ne_json stem' stem)] using h.marked stem' hold
    · exact Disk.put_same ..
    · have hjson : (⟨stem, .json⟩ : TrustPath) ≠ blockedPath ⟨stem, .json⟩ := nofun
      simpa only [Disk.put_other hjson, Disk.put_same] using hostsIn_written lawful htext
    · exact keysOf_empty.symm

theorem sound_step (lawful : platform.codec.Lawful) (h : Sound platform s)
    {a : TrustAction × Faults} (hregular : Regular platform s a) :
    Sound platform (auditStep platform s a) := by
  obtain ⟨action, faults⟩ := a
  cases action with
  | configure stem contents => exact sound_configure h hregular
  | trust host port algorithm fingerprint now => exact sound_trust lawful h hregular
  | replaceIfMatches host port algorithm expectedFingerprints fingerprint now =>
    exact sound_replaceIfMatches lawful h faults host port algorithm expectedFingerprints
      fingerprint now
  | touch host port algorithm fingerprint now =>
    exact sound_touch lawful h faults host port algorithm fingerprint now
  | forget host port => exact sound_forget lawful h faults host port
  | reset => exact sound_reset lawful h hregular
  | restart => exact ⟨nofun, h.marked, nofun⟩

/-! ## Runs -/

/-- An operation fails and keeps the records, or succeeds and serves them. -/
theorem perform_cases (h : Sound platform s) {action : TrustAction} {faults : Faults}
    (hregular : Regular platform s (action, faults)) :
    (∃ e after, action.perform platform faults s.world = (.error e, after) ∧
      after.store.hosts = s.world.store.hosts ∧
      ∀ stem contents, action = .configure stem contents → after.store.available = false) ∨
    ∃ after, action.perform platform faults s.world = (.ok (), after) ∧
      (action.reports = true → after.store.available = true) := by
  have hsaves {hosts : Hosts} (hcases : SavesOrFails platform s.world hosts
      (action.perform platform faults s.world)) (hne : ∀ stem contents,
        action ≠ .configure stem contents) :
      (∃ e after, action.perform platform faults s.world = (.error e, after) ∧
        after.store.hosts = s.world.store.hosts ∧
        ∀ stem contents, action = .configure stem contents → after.store.available = false) ∨
      ∃ after, action.perform platform faults s.world = (.ok (), after) ∧
        (action.reports = true → after.store.available = true) := by
    rcases hcases with ⟨e, he⟩ | ⟨after, hafter, path, text, havailable, -, -, rfl⟩
    · exact .inl ⟨e, _, he, rfl, fun stem contents heq => absurd heq (hne stem contents)⟩
    · exact .inr ⟨_, hafter, fun _ => havailable⟩
  cases action with
  | configure stem contents =>
    obtain ⟨hmarker, hprobe, -⟩ := hregular
    rcases @configureAction_cases platform s _ _ _ hmarker hprobe with
      ⟨hosts, -, -, hrun⟩ | ⟨e, path, disk, hrun, -⟩
    · exact .inr ⟨_, hrun, fun _ => rfl⟩
    · exact .inl ⟨e, _, hrun, rfl, fun _ _ _ => rfl⟩
  | trust => exact hsaves (trust_cases ..) nofun
  | replaceIfMatches host port algorithm expectedFingerprints fingerprint now =>
    rcases replaceIfMatches_cases platform faults host port algorithm expectedFingerprints
      fingerprint now s.world with ⟨e, he⟩ | ⟨record, -, hcases⟩
    · exact .inl ⟨e, _, he, rfl, nofun⟩
    · exact hsaves hcases nofun
  | touch host port algorithm fingerprint now =>
    rcases touch_cases platform faults host port algorithm fingerprint now s.world with
      hsame | ⟨record, keys, after, -, -, hafter, -⟩
    · exact .inr ⟨_, hsame, nofun⟩
    · exact .inr ⟨_, hafter, nofun⟩
  | forget host port =>
    rcases forget_cases platform faults host port s.world with
      ⟨e, he⟩ | ⟨hfalse, havailable, -⟩ | ⟨after, hafter, path, text, havailable, -, -, rfl⟩
    · exact .inl ⟨e, _, Exec.bind_run_error he _, rfl, nofun⟩
    · exact .inr ⟨_, Exec.bind_run_ok hfalse _, fun _ => havailable⟩
    · exact .inr ⟨_, Exec.bind_run_ok hafter _, fun _ => havailable⟩
  | reset =>
    rcases reset_cases platform faults s.world hregular h.json with
      ⟨e, disk, hrun, -⟩ | ⟨path, text, -, -, hrun⟩
    · exact .inl ⟨e, _, hrun, rfl, nofun⟩
    · exact .inr ⟨_, hrun, fun _ => rfl⟩
  | restart => exact .inr ⟨_, rfl, nofun⟩

theorem mutationSafe_step (lawful : platform.codec.Lawful) (h : Sound platform s)
    {a : TrustAction × Faults} (hregular : Regular platform s a) : MutationSafe platform s a := by
  have hfresh := (sound_step lawful h hregular).secure.fresh
  rcases perform_cases h hregular with ⟨e, after, hrun, hhosts, hshut⟩ | ⟨after, hrun, havailable⟩
  · refine ⟨fun _ _ => ?_, fun stem contents _ heq _ => ?_, fun _ hok => ?_⟩
    · simpa only [auditStep, hrun] using hhosts
    · simpa only [auditStep, hrun] using hshut stem contents heq
    · cases (congrArg Prod.fst hrun).symm.trans hok
  · refine ⟨fun e he => ?_, fun _ _ e _ he => ?_, fun hreports _ => hfresh ?_⟩
    · cases (congrArg Prod.fst hrun).symm.trans he
    · cases (congrArg Prod.fst hrun).symm.trans he
    · simpa only [auditStep, hrun] using havailable hreports

end

/-- While the store sees what is on the disk, can mark a corrupt file and finds records under their
own endpoints, its verdicts follow the ledger, and no operation leaves memory and file apart. -/
theorem host_trust_fail_closed (platform : Platform) (lawful : platform.codec.Lawful) (disk : Disk)
    (actions : List (TrustAction × Faults))
    (h : EachStep (auditStep platform) (Regular platform) (.start disk) actions) :
    Always (auditStep platform) (Secure platform) (.start disk) actions ∧
    EachStep (auditStep platform) (MutationSafe platform) (.start disk) actions := by
  have hstep (s : Audit) (a : TrustAction × Faults) (hs : Sound platform s)
      (ha : Regular platform s a) : Sound platform (auditStep platform s a) :=
    sound_step lawful hs ha
  exact ⟨h.always (fun s hs => hs.secure) hstep (sound_start platform disk),
    h.imp (fun s a hs ha => mutationSafe_step lawful hs ha) hstep (sound_start platform disk)⟩

/-! ### A run that trusts, forgets and resets

`serde_json` on the two trust files that the run writes. -/

def exampleRecord : KnownHostRecord where
  host := "example.test"
  port := 22
  keys := [newKey "ssh-ed25519" "SHA256:first" 1]

def exampleHosts : Hosts := (∅ : Hosts).insert "example.test|22" exampleRecord

def emptyText : String := "\x7b\n  \"version\": 2,\n  \"hosts\": \x7b\x7d\n\x7d"

def exampleText : String :=
  "\x7b\n  \"version\": 2,\n  \"hosts\": \x7b\n    \"example.test|22\": \x7b\n" ++
  "      \"host\": \"example.test\",\n      \"port\": 22,\n      \"keys\": [\n        \x7b\n" ++
  "          \"algorithm\": \"ssh-ed25519\",\n          \"fingerprint\": \"SHA256:first\",\n" ++
  "          \"first_seen_ms\": 1,\n          \"last_seen_ms\": 1\n        \x7d\n      ]\n" ++
  "    \x7d\n  \x7d\n\x7d"

def exampleCodec : Codec where
  versionFromStr raw :=
    if raw = emptyText ∨ raw = exampleText then .ok knownHostsVersion
    else .error "expected value at line 1 column 1"
  fileFromStr raw :=
    if raw = emptyText then .ok { version := knownHostsVersion, hosts := ∅ }
    else if raw = exampleText then .ok { version := knownHostsVersion, hosts := exampleHosts }
    else .error "expected value at line 1 column 1"
  toStringPretty file :=
    if file.version = knownHostsVersion ∧ file.hosts.toList = [] then .ok emptyText
    else if file.version = knownHostsVersion ∧
        file.hosts.toList = [("example.test|22", exampleRecord)] then .ok exampleText
    else .error "not a file of the example"

theorem exampleCodec_cases {file : KnownHostsFile} {text : String}
    (h : exampleCodec.toStringPretty file = .ok text) :
    (file = ⟨knownHostsVersion, ∅⟩ ∧ text = emptyText) ∨
    (file = ⟨knownHostsVersion, exampleHosts⟩ ∧ text = exampleText) := by
  obtain ⟨version, hosts⟩ := file
  simp only [exampleCodec] at h
  split_ifs at h with hempty hexample
  · refine .inl ⟨?_, (Except.ok.inj h).symm⟩
    obtain ⟨rfl, hlist⟩ := hempty
    have hnone : hosts = ∅ := Std.ExtTreeMap.ext_toList (by rw [hlist]; simp)
    rw [hnone]
  · refine .inr ⟨?_, (Except.ok.inj h).symm⟩
    obtain ⟨rfl, hlist⟩ := hexample
    have hsome : hosts = exampleHosts := by
      refine Std.ExtTreeMap.ext_getElem? fun name => Option.ext fun record => ?_
      rw [← Std.ExtTreeMap.mem_toList_iff_getElem?_eq_some, hlist, exampleHosts, getElem?_insert_eq]
      by_cases hname : "example.test|22" = name
      · subst hname
        simp [eq_comm]
      · simp [hname, Ne.symm hname]
    rw [hsome]

theorem brace_mem_exampleText : '\x7b' ∈ exampleText.toList := by
  have hfirst : '\x7b' ∈
      ("\x7b\n  \"version\": 2,\n  \"hosts\": \x7b\n    \"example.test|22\": \x7b\n" : String).toList := by
    simp
  unfold exampleText
  iterate 4 rw [String.toList_append]
  iterate 4 refine List.mem_append_left _ ?_
  exact hfirst

theorem exampleText_ne_emptyText : exampleText ≠ emptyText := by decide

theorem exampleCodec_lawful : exampleCodec.Lawful where
  version file text h := by
    rcases exampleCodec_cases h with ⟨rfl, rfl⟩ | ⟨rfl, rfl⟩
    · simp [exampleCodec]
    · simp [exampleCodec]
  file file text h := by
    rcases exampleCodec_cases h with ⟨rfl, rfl⟩ | ⟨rfl, rfl⟩
    · simp [exampleCodec]
    · simp [exampleCodec, exampleText_ne_emptyText]
  notBlank file text h := by
    rcases exampleCodec_cases h with ⟨rfl, rfl⟩ | ⟨rfl, rfl⟩
    · exact @trim_ne_nil '\x7b' _ (by decide) (by simp [emptyText])
    · exact @trim_ne_nil '\x7b' _ (by decide) brace_mem_exampleText

def examplePlatform : Platform where
  codec := exampleCodec
  ipText _ := none
  debugPath path := s!"{path.stem}"

def exampleActions : List (TrustAction × Faults) :=
  [(.configure "known_hosts" none, noFaults),
    (.trust "Example.test." 22 "ssh-ed25519" "SHA256:first" 1, noFaults),
    (.forget "example.test" 22, noFaults), (.reset, noFaults)]

theorem host_trust_fail_closed_forget :
    Always (auditStep examplePlatform) (Secure examplePlatform) (.start fun _ => none)
      exampleActions ∧
    EachStep (auditStep examplePlatform) (MutationSafe examplePlatform) (.start fun _ => none)
      exampleActions := by
  refine host_trust_fail_closed examplePlatform exampleCodec_lawful (fun _ => none)
    exampleActions ⟨⟨fun _ => rfl, nofun, nofun, fun hosts hhosts => ?_⟩, fun _ => by decide, trivial,
      fun _ _ _ => rfl, trivial⟩
  exact Option.some.inj hhosts ▸ wellKeyed_empty

/-- The bytes of this file are no text: a configuration fails without marking it. -/
def corruptActions : List (TrustAction × Faults) :=
  [(.configure "known_hosts" (some ⟨#[0xff]⟩), noFaults),
    (.configure "known_hosts" none, noFaults)]

/-- After a corrupt file, the next configuration serves an empty store without a reset. -/
theorem corrupt_file_forgotten : ¬ Always (auditStep examplePlatform) (Secure examplePlatform)
    (.start fun _ => none) corruptActions := by
  intro h
  obtain ⟨-, -, hsecure⟩ := h
  have hcorrupt : "known_hosts" ∈
      (auditStep examplePlatform (auditStep examplePlatform (.start fun _ => none)
      (.configure "known_hosts" (some ⟨#[0xff]⟩), noFaults))
      (.configure "known_hosts" none, noFaults)).ledger.corrupt :=
    .inl (.inr ⟨rfl, rfl⟩)
  obtain ⟨reason, hreason⟩ := hsecure.refuses _ hcorrupt rfl "" 22 "" ""
  have hfirst : evaluate examplePlatform ⟨some ⟨"known_hosts", .json⟩, ∅, true⟩ "" 22 "" "" =
      .firstSeen := by
    simp [evaluate]
  cases hfirst.symm.trans hreason

end TauTerm.Ssh
