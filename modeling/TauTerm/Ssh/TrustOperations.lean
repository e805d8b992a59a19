import Mathlib
import TauTerm.Ssh.TrustedKeys

/-!
# What the operations of the trust store do

What a trust file holds is read by `hostsIn`. A load that refuses a file leaves
the block marker behind it; records are saved before they are taken over.
-/

namespace TauTerm.Ssh

open Lib Lib.Rust

/-- What serializing promises: the text reads as what it was made from. -/
structure Codec.Lawful (codec : Codec) : Prop where
  version : ∀ file text, codec.toStringPretty file = .ok text →
    codec.versionFromStr text = .ok file.version
  file : ∀ file text, codec.toStringPretty file = .ok text → codec.fileFromStr text = .ok file
  notBlank : ∀ file text, codec.toStringPretty file = .ok text → trim text.toList ≠ []

/-- The records of a valid trust file. -/
def readHosts (codec : Codec) (raw : String) : Option Hosts :=
  if trim raw.toList = [] then none
  else if codec.versionFromStr raw = .ok knownHostsVersion then
    (codec.fileFromStr raw).toOption.map (·.hosts)
  else none

/-- The records of a path with these contents, if they are valid. -/
def hostsIn (codec : Codec) : Option ByteArray → Option Hosts
  | none => some ∅
  | some bytes => (String.fromUTF8? bytes).bind (readHosts codec)

def KeepsMarkers (before after : Disk) : Prop :=
  ∀ path : TrustPath, path.extension = .blocked → (before path).isSome → (after path).isSome

instance : IsTrans Disk KeepsMarkers where
  trans _ _ _ h₁ h₂ path hpath h := h₂ path hpath (h₁ path hpath h)

theorem KeepsMarkers.refl (disk : Disk) : KeepsMarkers disk disk := fun _ _ h => h

theorem keepsMarkers_put {disk : Disk} {path : TrustPath} {contents : Option ByteArray}
    (h : path.extension = .blocked → contents.isSome) : KeepsMarkers disk (disk.put path contents) := by
  intro other hother hsome
  by_cases heq : other = path
  · subst heq
    rw [Disk.put_same]
    exact h hother
  · rwa [Disk.put_other heq]

theorem atomicWrite_keepsMarkers (fault : Option String) (path : TrustPath) (contents : String) :
    Exec.Relates KeepsMarkers (atomicWrite fault path contents) := by
  intro disk
  unfold atomicWrite
  cases fault with
  | some e => exact .refl disk
  | none => exact keepsMarkers_put fun _ => rfl

theorem rename_keepsMarkers (fault : Option String) {source target : TrustPath}
    (hsource : source.extension ≠ .blocked) (htarget : target.extension ≠ .blocked) :
    Exec.Relates KeepsMarkers (rename fault source target) := by
  intro disk
  unfold rename
  cases fault with
  | some e => exact .refl disk
  | none =>
    exact IsTrans.trans _ _ _ (keepsMarkers_put fun h => absurd h htarget)
      (keepsMarkers_put fun h => absurd h hsource)

/-! ## Loading -/

theorem quarantineInvalid_keepsMarkers (faults : Faults) {path : TrustPath}
    (hpath : path.extension = .json) :
    Exec.Relates KeepsMarkers (quarantineInvalid faults path) := by
  intro disk
  unfold quarantineInvalid
  split
  · exact .refl disk
  · have hsource : path.extension ≠ .blocked := hpath ▸ nofun
    have htarget (index : Nat) : (path.withExtension (.invalid index)).extension ≠ .blocked := nofun
    exact (rename_keepsMarkers _ hsource (htarget _)).bind (fun _ disk => .refl disk) disk

theorem refuse_keepsMarkers (platform : Platform) (faults : Faults) {path : TrustPath}
    (hpath : path.extension = .json) (detected moved advice : String) :
    Exec.Relates KeepsMarkers (refuse platform faults path detected moved advice) :=
  .bind (atomicWrite_keepsMarkers _ _ _) fun _ =>
    .bind (quarantineInvalid_keepsMarkers faults hpath) fun _ =>
      .bind (atomicWrite_keepsMarkers _ _ _) fun _ disk => .refl disk

theorem refuse_error (platform : Platform) (faults : Faults) (path : TrustPath)
    (detected moved advice : String) (disk : Disk) :
    ∃ e, (refuse platform faults path detected moved advice disk).1 = .error e := by
  unfold refuse
  rw [Exec.bind_run]
  split
  · rw [Exec.bind_run]
    split
    · rw [Exec.bind_run]
      split
      · exact ⟨_, rfl⟩
      · exact ⟨_, rfl⟩
    · exact ⟨_, rfl⟩
  · exact ⟨_, rfl⟩

/-- The marker is written first, and everything after it leaves it there. -/
theorem refuse_marks (platform : Platform) {faults : Faults} {path : TrustPath}
    (hpath : path.extension = .json) (hfault : faults .markDetected = none)
    (detected moved advice : String) (disk : Disk) :
    ((refuse platform faults path detected moved advice disk).2 (blockedPath path)).isSome := by
  unfold refuse
  have hmark : markBlocked (faults .markDetected) path detected disk =
      (.ok (), disk.put (blockedPath path) (some detected.toByteArray)) := by
    rw [markBlocked, hfault]
    rfl
  rw [Exec.bind_run_ok hmark]
  have hrest : Exec.Relates KeepsMarkers (do
      let quarantine ← quarantineInvalid faults path
      let reason := s!"{detected}；{moved}已隔离至 {platform.debugPath quarantine}"
      markBlocked (faults .markReason) path reason
      Exec.throw s!"{reason}，{advice}" : Exec Disk String Hosts) :=
    .bind (quarantineInvalid_keepsMarkers faults hpath) fun _ =>
      .bind (atomicWrite_keepsMarkers _ _ _) fun _ disk => .refl disk
  exact hrest _ (blockedPath path) rfl (by simp)

theorem loadRaw_of_some {platform : Platform} {raw : String} {hosts : Hosts}
    (h : readHosts platform.codec raw = some hosts) (faults : Faults) (path : TrustPath) :
    loadRaw platform faults path raw = pure hosts := by
  unfold readHosts at h
  unfold loadRaw
  by_cases hblank : trim raw.toList = []
  · simp [hblank] at h
  · by_cases hversion : platform.codec.versionFromStr raw = .ok knownHostsVersion
    · cases hfile : platform.codec.fileFromStr raw with
      | error error => simp [hblank, hversion, hfile, Except.toOption] at h
      | ok file =>
        simp only [hblank, hversion, hfile, Except.toOption, if_false, if_true, Option.map_some,
          Option.some.injEq] at h
        simp [hblank, hversion, h]
    · simp [hblank, hversion] at h

theorem loadRaw_of_none {platform : Platform} {raw : String}
    (h : readHosts platform.codec raw = none) (faults : Faults) (path : TrustPath) :
    ∃ detected moved advice,
      loadRaw platform faults path raw = refuse platform faults path detected moved advice := by
  unfold readHosts at h
  unfold loadRaw
  by_cases hblank : trim raw.toList = []
  · exact ⟨_, _, _, if_pos hblank⟩
  rw [if_neg hblank] at h ⊢
  cases hversion : platform.codec.versionFromStr raw with
  | error error => exact ⟨_, _, _, rfl⟩
  | ok version =>
    by_cases hne : version ≠ knownHostsVersion
    · exact ⟨_, _, _, if_pos hne⟩
    · cases hfile : platform.codec.fileFromStr raw with
      | error error =>
        dsimp only
        rw [if_neg hne]
        exact ⟨_, _, _, rfl⟩
      | ok file =>
        obtain rfl := not_not.mp hne
        simp [hversion, hfile, Except.toOption] at h

/-- A load either yields the records of the path and changes nothing, or fails. -/
theorem load_cases (platform : Platform) {faults : Faults} {path : TrustPath} {disk : Disk}
    (hpath : path.extension = .json) (hprobe : (disk path).isSome → faults .probeFile = none) :
    (∃ hosts, hostsIn platform.codec (disk path) = some hosts ∧
      load platform faults path disk = (.ok hosts, disk)) ∨
    (∃ e after, load platform faults path disk = (.error e, after) ∧ KeepsMarkers disk after) := by
  unfold load
  cases hdisk : disk path with
  | none =>
    refine .inl ⟨∅, rfl, if_neg ?_⟩
    simp [Disk.pathExists, hdisk]
  | some bytes =>
    rw [if_pos (Disk.pathExists_iff.mpr ⟨hprobe (by rw [hdisk]; rfl), bytes, hdisk⟩)]
    cases hread : disk.readToString (faults .readFile) path with
    | error e => exact .inr ⟨_, disk, rfl, .refl disk⟩
    | ok raw =>
      obtain ⟨-, hraw⟩ := Disk.readToString_ok.mp hread
      rw [hdisk, Option.bind_some] at hraw
      cases hhosts : readHosts platform.codec raw with
      | some hosts =>
        refine .inl ⟨hosts, ?_, ?_⟩
        · rw [hostsIn, hraw, Option.bind_some, hhosts]
        · simp only [loadRaw_of_some hhosts, Exec.pure_run]
      | none =>
        obtain ⟨detected, moved, advice, hrefuse⟩ := loadRaw_of_none hhosts faults path
        obtain ⟨e, he⟩ := refuse_error platform faults path detected moved advice disk
        refine .inr ⟨e, _, ?_, refuse_keepsMarkers platform faults hpath detected moved advice disk⟩
        simp only [hrefuse]
        exact Prod.ext he rfl

theorem load_noFaults {platform : Platform} {path : TrustPath} {disk : Disk} {hosts : Hosts}
    (h : hostsIn platform.codec (disk path) = some hosts) :
    load platform noFaults path disk = (.ok hosts, disk) := by
  unfold load
  cases hdisk : disk path with
  | none =>
    rw [hdisk] at h
    obtain rfl := Option.some.inj h
    exact if_neg (by simp [Disk.pathExists, hdisk])
  | some bytes =>
    rw [hdisk] at h
    obtain ⟨raw, hraw, hhosts⟩ := Option.bind_eq_some_iff.mp h
    have hread : disk.readToString (noFaults .readFile) path = .ok raw :=
      Disk.readToString_ok.mpr ⟨rfl, by rw [hdisk, Option.bind_some, hraw]⟩
    refine (if_pos (Disk.pathExists_iff.mpr ⟨rfl, bytes, hdisk⟩)).trans ?_
    simp only [hread, loadRaw_of_some hhosts, Exec.pure_run]

/-- A corrupt text file that can be read and marked is refused, and marked. -/
theorem load_marks {platform : Platform} {faults : Faults} {path : TrustPath} {disk : Disk}
    {bytes : ByteArray} {raw : String} (hpath : path.extension = .json)
    (hdisk : disk path = some bytes) (hraw : String.fromUTF8? bytes = some raw)
    (hcorrupt : readHosts platform.codec raw = none) (hprobe : faults .probeFile = none)
    (hread : faults .readFile = none) (hmark : faults .markDetected = none) :
    ((load platform faults path disk).2 (blockedPath path)).isSome := by
  have hreads : disk.readToString (faults .readFile) path = .ok raw :=
    Disk.readToString_ok.mpr ⟨hread, by rw [hdisk, Option.bind_some, hraw]⟩
  obtain ⟨detected, moved, advice, hrefuse⟩ := loadRaw_of_none hcorrupt faults path
  unfold load
  rw [if_pos (Disk.pathExists_iff.mpr ⟨hprobe, bytes, hdisk⟩), hreads]
  simp only [hrefuse]
  exact refuse_marks platform hpath hmark detected moved advice disk

/-! ## Configuring -/

theorem onDisk_run {α : Type} {x : Exec Disk String α} {w : World} {result : Except String α}
    {disk : Disk} (h : x w.disk = (result, disk)) :
    onDisk x w = (result, { w with disk }) := by
  change ((x w.disk).1, { w with disk := (x w.disk).2 }) = _
  rw [h]

def KnownHostStore.shut (store : KnownHostStore) : KnownHostStore :=
  { store with available := false }

/-- A configuration serves the records of the path, unless it fails and serves nothing. -/
theorem configure_cases (platform : Platform) {faults : Faults} {path : TrustPath} {w : World}
    (hpath : path.extension = .json)
    (hmarker : (w.disk (blockedPath path)).isSome → faults .probeMarker = none)
    (hprobe : (w.disk path).isSome → faults .probeFile = none) :
    (∃ hosts, w.disk (blockedPath path) = none ∧ hostsIn platform.codec (w.disk path) = some hosts ∧
      configure platform faults path w =
        (.ok (), ⟨{ path := some path, hosts, available := true }, w.disk⟩)) ∨
    (∃ e path' disk, configure platform faults path w =
        (.error e, ⟨{ w.store.shut with path := path' }, disk⟩) ∧
      (path' = w.store.path ∨ path' = some path) ∧ KeepsMarkers w.disk disk) := by
  unfold configure
  rw [Exec.bind_run_ok (Exec.modify_run _ _)]
  cases hdirs : createDirAll (faults .createDirs) with
  | error e =>
    exact .inr ⟨e, w.store.path, w.disk,
      Exec.bind_run_error (Exec.ofExcept_run _ _) _, .inl rfl, .refl _⟩
  | ok _ =>
    rw [Exec.bind_run_ok (Exec.ofExcept_run _ _), Exec.bind_run_ok (Exec.modify_run _ _),
      Exec.bind_run_ok (Exec.get_run _)]
    cases hdisk : w.disk (blockedPath path) with
    | some bytes =>
      obtain ⟨e, he⟩ : ∃ e, checkMarker faults w.disk path = .error e := by
        unfold checkMarker
        rw [if_pos (Disk.pathExists_iff.mpr ⟨hmarker (by rw [hdisk]; rfl), bytes, hdisk⟩)]
        split <;> exact ⟨_, rfl⟩
      refine .inr ⟨e, some path, w.disk, ?_, .inr rfl, .refl _⟩
      dsimp only
      rw [he]
      exact Exec.bind_run_error (Exec.ofExcept_run _ _) _
    | none =>
      have hcheck : checkMarker faults w.disk path = .ok () :=
        if_neg (by simp [Disk.pathExists, hdisk])
      dsimp only
      rw [hcheck, Exec.bind_run_ok (Exec.ofExcept_run _ _)]
      rcases @load_cases platform faults _ w.disk hpath hprobe with
        ⟨hosts, hhosts, hload⟩ | ⟨e, after, hload, hkeeps⟩
      · refine .inl ⟨hosts, rfl, hhosts, ?_⟩
        exact Exec.bind_run_ok (onDisk_run (w := ⟨{ w.store.shut with path := some path }, w.disk⟩) hload) _
      · refine .inr ⟨e, some path, after, ?_, .inr rfl, hkeeps⟩
        exact Exec.bind_run_error (onDisk_run (w := ⟨{ w.store.shut with path := some path }, w.disk⟩) hload) _

/-- A configuration that finds a corrupt text file leaves it marked. -/
theorem configure_marks {platform : Platform} {faults : Faults} {path : TrustPath} {w : World}
    {bytes : ByteArray} {raw : String} (hpath : path.extension = .json)
    (habsent : w.disk (blockedPath path) = none) (hdirs : faults .createDirs = none)
    (hdisk : w.disk path = some bytes) (hraw : String.fromUTF8? bytes = some raw)
    (hcorrupt : readHosts platform.codec raw = none) (hprobe : faults .probeFile = none)
    (hread : faults .readFile = none) (hmark : faults .markDetected = none) :
    ((configure platform faults path w).2.disk (blockedPath path)).isSome := by
  have hmarked := load_marks hpath hdisk hraw hcorrupt hprobe hread hmark
  have hcreate : createDirAll (faults .createDirs) = .ok () := by rw [hdirs]; rfl
  have hcheck : checkMarker faults w.disk path = .ok () :=
    if_neg (by simp [Disk.pathExists, habsent])
  unfold configure
  rw [Exec.bind_run_ok (Exec.modify_run _ _), hcreate, Exec.bind_run_ok (Exec.ofExcept_run _ _),
    Exec.bind_run_ok (Exec.modify_run _ _), Exec.bind_run_ok (Exec.get_run _)]
  dsimp only
  rw [hcheck, Exec.bind_run_ok (Exec.ofExcept_run _ _)]
  cases hload : load platform faults path w.disk with
  | mk result after =>
    rw [hload] at hmarked
    have hrun := onDisk_run (w := ⟨{ w.store.shut with path := some path }, w.disk⟩) hload
    let marked (out : Except String Unit × World) : Bool := (out.2.disk (blockedPath path)).isSome
    cases result with
    | ok hosts => exact (congrArg marked (Exec.bind_run_ok hrun _)).trans hmarked
    | error e => exact (congrArg marked (Exec.bind_run_error hrun _)).trans hmarked

/-! ## Saving -/

/-- The text of these records is at `path`, and reads as them. -/
theorem hostsIn_written {codec : Codec} (lawful : codec.Lawful) {hosts : Hosts} {text : String}
    (h : codec.toStringPretty { version := knownHostsVersion, hosts } = .ok text) :
    hostsIn codec (some text.toByteArray) = some hosts := by
  have hraw : String.fromUTF8? text.toByteArray = some text := by
    simp only [String.fromUTF8?, text.isValidUTF8, dite_true]
    rfl
  rw [hostsIn, hraw, Option.bind_some, readHosts, if_neg (lawful.notBlank _ _ h),
    if_pos (lawful.version _ _ h), lawful.file _ _ h]
  rfl

theorem persistSnapshotTo_cases (platform : Platform) (faults : Faults) (path : TrustPath)
    (hosts : Hosts) (disk : Disk) :
    (∃ e, persistSnapshotTo platform faults path hosts disk = (.error e, disk)) ∨
    ∃ text, platform.codec.toStringPretty { version := knownHostsVersion, hosts } = .ok text ∧
      persistSnapshotTo platform faults path hosts disk =
        (.ok (), disk.put path (some text.toByteArray)) := by
  unfold persistSnapshotTo
  cases platform.codec.toStringPretty { version := knownHostsVersion, hosts } with
  | error e => exact .inl ⟨_, rfl⟩
  | ok text =>
    cases hfault : faults .write with
    | some e => exact .inl ⟨_, rfl⟩
    | none => exact .inr ⟨text, rfl, rfl⟩

/-- `hosts` has been written to the store's path, and then taken over. -/
def Saved (platform : Platform) (w : World) (hosts : Hosts) (after : World) : Prop :=
  ∃ path text, w.store.available = true ∧ w.store.path = some path ∧
    platform.codec.toStringPretty { version := knownHostsVersion, hosts } = .ok text ∧
    after = ⟨{ w.store with hosts }, w.disk.put path (some text.toByteArray)⟩

theorem saveHosts_cases (platform : Platform) (faults : Faults) (hosts : Hosts) (w : World) :
    (∃ e, saveHosts platform faults hosts w = (.error e, w)) ∨
    ∃ after, saveHosts platform faults hosts w = (.ok (), after) ∧ Saved platform w hosts after := by
  unfold saveHosts
  by_cases havailable : w.store.available = true
  · cases hpath : w.store.path with
    | none =>
      have hpersist : persistSnapshot platform faults hosts w =
          (.error "SSH known-host 存储尚未初始化", w) := by
        simp [persistSnapshot, havailable, hpath]
      exact .inl ⟨_, Exec.bind_run_error hpersist _⟩
    | some path =>
      have hpersist : persistSnapshot platform faults hosts w =
          onDisk (persistSnapshotTo platform faults path hosts) w := by
        simp [persistSnapshot, havailable, hpath]
      rcases persistSnapshotTo_cases platform faults path hosts w.disk with
        ⟨e, he⟩ | ⟨text, htext, hrun⟩
      · exact .inl ⟨e, Exec.bind_run_error (hpersist.trans (onDisk_run he)) _⟩
      · exact .inr ⟨_, Exec.bind_run_ok (hpersist.trans (onDisk_run hrun)) _,
          path, text, havailable, hpath, htext, rfl⟩
  · have hpersist : persistSnapshot platform faults hosts w =
        (.error "SSH known-host 存储不可用", w) := by
      simp [persistSnapshot, havailable]
    exact .inl ⟨_, Exec.bind_run_error hpersist _⟩

/-- The record of an endpoint, or a new one. -/
def recordAt (platform : Platform) (hosts : Hosts) (host : String) (port : UInt16) :
    KnownHostRecord :=
  (hosts[key platform host port]?).getD { host := normalizedHost platform host, port, keys := [] }

/-- The operation fails and changes nothing, or saves `hosts`. -/
def SavesOrFails (platform : Platform) (w : World) (hosts : Hosts)
    (out : Except String Unit × World) : Prop :=
  (∃ e, out = (.error e, w)) ∨ ∃ after, out = (.ok (), after) ∧ Saved platform w hosts after

theorem trust_cases (platform : Platform) (faults : Faults) (host : String) (port : UInt16)
    (algorithm fingerprint : String) (now : UInt64) (w : World) :
    SavesOrFails platform w (w.store.hosts.insert (key platform host port)
      { recordAt platform w.store.hosts host port with
        keys := ((touchKey (recordAt platform w.store.hosts host port).keys algorithm fingerprint
            now).getD ((recordAt platform w.store.hosts host port).keys ++
              [newKey algorithm fingerprint now])).mergeSort keyLe })
      (trust platform faults host port algorithm fingerprint now w) := by
  unfold trust mutateRecord
  by_cases havailable : w.store.available = true
  · rw [if_pos havailable]
    exact saveHosts_cases ..
  · exact .inl ⟨_, if_neg havailable⟩

theorem replaceIfMatches_cases (platform : Platform) (faults : Faults) (host : String)
    (port : UInt16) (algorithm : String) (expectedFingerprints : List String)
    (fingerprint : String) (now : UInt64) (w : World) :
    (∃ e, replaceIfMatches platform faults host port algorithm expectedFingerprints fingerprint
      now w = (.error e, w)) ∨
    ∃ record, w.store.hosts[key platform host port]? = some record ∧
      SavesOrFails platform w (w.store.hosts.insert (key platform host port)
        { record with keys := ((record.keys.filter fun known => known.algorithm ≠ algorithm) ++
            [newKey algorithm fingerprint now]).mergeSort keyLe })
        (replaceIfMatches platform faults host port algorithm expectedFingerprints fingerprint
          now w) := by
  unfold replaceIfMatches
  by_cases havailable : w.store.available = true
  · rw [if_pos havailable]
    cases hrecord : w.store.hosts[key platform host port]? with
    | none => exact .inl ⟨_, rfl⟩
    | some record =>
      dsimp only
      by_cases hmatch : sortDedup (fingerprintsOf record algorithm) = sortDedup expectedFingerprints
      · rw [if_pos hmatch]
        exact .inr ⟨record, rfl, saveHosts_cases ..⟩
      · exact .inl ⟨_, if_neg hmatch⟩
  · exact .inl ⟨_, if_neg havailable⟩

/-- `touch` reports nothing: it changes nothing, or saves the touched record. -/
theorem touch_cases (platform : Platform) (faults : Faults) (host : String) (port : UInt16)
    (algorithm fingerprint : String) (now : UInt64) (w : World) :
    touch platform faults host port algorithm fingerprint now w = (.ok (), w) ∨
    ∃ record keys after, w.store.hosts[key platform host port]? = some record ∧
      touchKey record.keys algorithm fingerprint now = some keys ∧
      touch platform faults host port algorithm fingerprint now w = (.ok (), after) ∧
      Saved platform w (w.store.hosts.insert (key platform host port) { record with keys }) after := by
  unfold touch
  by_cases havailable : w.store.available = true
  · rw [if_pos havailable]
    cases hrecord : w.store.hosts[key platform host port]? with
    | none => exact .inl rfl
    | some record =>
      dsimp only
      cases htouch : touchKey record.keys algorithm fingerprint now with
      | none => exact .inl rfl
      | some keys =>
        dsimp only
        rcases saveHosts_cases platform faults
          (w.store.hosts.insert (key platform host port) { record with keys }) w with
          ⟨e, he⟩ | ⟨after, hafter, hsaved⟩
        · exact .inl (by rw [he])
        · exact .inr ⟨record, keys, after, rfl, htouch, by rw [hafter], hsaved⟩
  · exact .inl (if_neg havailable)

theorem forget_cases (platform : Platform) (faults : Faults) (host : String) (port : UInt16)
    (w : World) :
    (∃ e, forget platform faults host port w = (.error e, w)) ∨
    (forget platform faults host port w = (.ok false, w) ∧ w.store.available = true ∧
      w.store.hosts[key platform host port]? = none) ∨
    ∃ after, forget platform faults host port w = (.ok true, after) ∧
      Saved platform w (w.store.hosts.erase (key platform host port)) after := by
  unfold forget
  by_cases havailable : w.store.available = true
  · rw [if_pos havailable]
    by_cases hrecord : (w.store.hosts[key platform host port]?).isSome
    · rw [if_pos hrecord]
      rcases saveHosts_cases platform faults (w.store.hosts.erase (key platform host port)) w with
        ⟨e, he⟩ | ⟨after, hafter, hsaved⟩
      · exact .inl ⟨e, Exec.bind_run_error he _⟩
      · exact .inr (.inr ⟨after, Exec.bind_run_ok hafter _, hsaved⟩)
    · exact .inr (.inl ⟨if_neg hrecord, havailable, by simpa using hrecord⟩)
  · exact .inl ⟨_, if_neg havailable⟩

/-- A reset that fails leaves the records in memory, and the marker. -/
theorem reset_cases (platform : Platform) (faults : Faults) (w : World)
    (hmarker : ∀ path, w.store.path = some path →
      (w.disk (blockedPath path)).isSome → faults .probeMarker = none)
    (hjson : ∀ path, w.store.path = some path → path.extension = .json) :
    (∃ e disk, reset platform faults w = (.error e, ⟨w.store, disk⟩) ∧
      KeepsMarkers w.disk disk ∧ (disk = w.disk ∨ ∃ path, w.store.path = some path ∧
        (w.disk (blockedPath path)).isSome)) ∨
    ∃ path text, w.store.path = some path ∧
      platform.codec.toStringPretty { version := knownHostsVersion, hosts := ∅ } = .ok text ∧
      reset platform faults w = (.ok (), ⟨{ w.store with hosts := ∅, available := true },
        (w.disk.put path (some text.toByteArray)).put (blockedPath path) none⟩) := by
  unfold reset
  cases hpath : w.store.path with
  | none => exact .inl ⟨_, w.disk, rfl, .refl _, .inl rfl⟩
  | some path =>
    dsimp only
    rcases persistSnapshotTo_cases platform faults path ∅ w.disk with ⟨e, he⟩ | ⟨text, htext, hrun⟩
    · exact .inl ⟨e, w.disk, Exec.bind_run_error (onDisk_run he) _, .refl _, .inl rfl⟩
    have hother : blockedPath path ≠ path := fun h => by
      have hblocked := congrArg TrustPath.extension h
      rw [hjson path hpath] at hblocked
      cases hblocked
    let written := w.disk.put path (some text.toByteArray)
    have hwritten : written (blockedPath path) = w.disk (blockedPath path) := Disk.put_other hother ..
    rw [Exec.bind_run_ok (onDisk_run hrun), Exec.bind_run_ok (Exec.get_run _)]
    change (∃ e disk, (onDisk (if written.pathExists (faults .probeMarker) (blockedPath path) then _
      else _) >>= _) (⟨w.store, written⟩ : World) = _ ∧ _) ∨ _
    cases hmarked : w.disk (blockedPath path) with
    | some bytes =>
      rw [hmarked] at hwritten
      rw [if_pos (Disk.pathExists_iff.mpr ⟨hmarker path hpath (by rw [hmarked]; rfl), bytes, hwritten⟩)]
      cases hremove : faults .removeMarker with
      | some e =>
        have hfail : onDisk (removeFile ((some e).map fun e =>
              s!"清理 SSH known-host 阻止标记失败: {e}") (blockedPath path)) ⟨w.store, written⟩ =
            (.error s!"清理 SSH known-host 阻止标记失败: {e}", ⟨w.store, written⟩) := rfl
        exact .inl ⟨_, written, Exec.bind_run_error hfail _, keepsMarkers_put fun _ => rfl,
          .inr ⟨path, rfl, by rw [hmarked]; rfl⟩⟩
      | none =>
        have hdone : onDisk (removeFile (none : Option String) (blockedPath path)) ⟨w.store, written⟩ =
            (.ok (), ⟨w.store, written.put (blockedPath path) none⟩) := rfl
        exact .inr ⟨path, text, rfl, htext, Exec.bind_run_ok hdone _⟩
    | none =>
      rw [hmarked] at hwritten
      rw [if_neg (by simp [Disk.pathExists, hwritten])]
      have hsame : written.put (blockedPath path) none = written :=
        Function.update_eq_self_iff.mpr hwritten.symm
      have hdone : onDisk (pure () : Exec Disk String Unit) ⟨w.store, written⟩ =
          (.ok (), ⟨w.store, written.put (blockedPath path) none⟩) := by
        rw [hsame]
        rfl
      exact .inr ⟨path, text, rfl, htext, Exec.bind_run_ok hdone _⟩

end TauTerm.Ssh
