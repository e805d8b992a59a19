import Mathlib
import TauTerm.Lib.RustText
import TauTerm.Ssh.TrustDisk

/-!
# Trusted host keys

The persistent trust store: its records, the operations that change them and the
verdict on a host key. What the store takes from its surroundings is a `Platform`:
the JSON codec, the text of an IP address, the `Debug` text of a path. Its locks
are never poisoned.
-/

namespace TauTerm.Ssh

open Lib Lib.Rust

def knownHostsVersion : UInt32 := 2

structure KnownHostKeyRecord where
  algorithm : String
  fingerprint : String
  firstSeenMs : UInt64
  lastSeenMs : UInt64
  deriving DecidableEq

structure KnownHostRecord where
  host : String
  port : UInt16
  keys : List KnownHostKeyRecord
  deriving DecidableEq

abbrev Hosts := Std.ExtTreeMap String KnownHostRecord

structure KnownHostsFile where
  version : UInt32
  hosts : Hosts

inductive HostTrustDecision where
  | trusted
  | firstSeen
  | additionalKey (knownAlgorithms : List String)
  | changed (algorithm : String) (expectedFingerprints : List String)
  | unavailable (reason : String)
  deriving DecidableEq

structure KnownHostStore where
  path : Option TrustPath
  hosts : Hosts
  available : Bool

def KnownHostStore.new : KnownHostStore where
  path := none
  hosts := ∅
  available := false

/-- `serde_json` at the types of the trust file. -/
structure Codec where
  versionFromStr : String → Except String UInt32
  fileFromStr : String → Except String KnownHostsFile
  toStringPretty : KnownHostsFile → Except String String

structure Platform where
  codec : Codec
  /-- The text of the IP address that a string denotes. -/
  ipText : String → Option String
  debugPath : TrustPath → String

structure World where
  store : KnownHostStore
  disk : Disk

def onDisk {α : Type} (x : Exec Disk String α) : Exec World String α :=
  Exec.zoom World.disk (fun disk w => { w with disk }) x

/-! ## Endpoints -/

def stripBrackets : List Char → List Char
  | '[' :: rest => if rest.getLast? = some ']' then rest.dropLast else '[' :: rest
  | text => text

def normalizedHost (platform : Platform) (host : String) : String :=
  let unbracketed := stripBrackets (trim host.toList)
  match platform.ipText (String.ofList unbracketed) with
  | some ip => ip
  | none => String.ofList ((unbracketed.rdropWhile (· == '.')).map Char.toLower)

/-- The key of an endpoint whose host is normalised. -/
def endpointKey (host : String) (port : UInt16) : String := s!"{host}|{port}"

def key (platform : Platform) (host : String) (port : UInt16) : String :=
  endpointKey (normalizedHost platform host) port

/-! ## Loading -/

def blockedPath (path : TrustPath) : TrustPath := path.withExtension .blocked

theorem blocked_ne_json (stem stem' : String) :
    (⟨stem, .blocked⟩ : TrustPath) ≠ ⟨stem', .json⟩ := nofun

theorem blockedPath_json (stem : String) : blockedPath ⟨stem, .json⟩ = ⟨stem, .blocked⟩ := rfl

def markBlocked (fault : Option String) (path : TrustPath) (reason : String) :
    Exec Disk String Unit :=
  atomicWrite (fault.map fun e => s!"写入 SSH known-host 阻止标记失败: {e}") (blockedPath path) reason

/-- The first index from `index` on, among `indices` of them, without a quarantine copy. -/
def freeQuarantine (faults : Faults) (disk : Disk) (path : TrustPath) : Nat → Nat → Option Nat
  | 0, _ => none
  | indices + 1, index =>
    if disk.pathExists (faults (.probeQuarantine index)) (path.withExtension (.invalid index)) then
      freeQuarantine faults disk path indices (index + 1)
    else some index

def quarantineInvalid (faults : Faults) (path : TrustPath) : Exec Disk String TrustPath := fun disk =>
  match freeQuarantine faults disk path (2 ^ 32) 0 with
  | none => (.error "生成 SSH known-host 隔离文件名失败", disk)
  | some index =>
    (rename ((faults .moveInvalid).map fun e => s!"隔离无效 SSH known-host 文件失败: {e}") path
      (path.withExtension (.invalid index)) >>= fun _ =>
      pure (path.withExtension (.invalid index))) disk

/-- Mark, move away and report a trust file that was `detected` to be invalid. -/
def refuse (platform : Platform) (faults : Faults) (path : TrustPath)
    (detected moved advice : String) : Exec Disk String Hosts := do
  markBlocked (faults .markDetected) path detected
  let quarantine ← quarantineInvalid faults path
  let reason := s!"{detected}；{moved}已隔离至 {platform.debugPath quarantine}"
  markBlocked (faults .markReason) path reason
  Exec.throw s!"{reason}，{advice}"

def loadRaw (platform : Platform) (faults : Faults) (path : TrustPath) (raw : String) :
    Exec Disk String Hosts :=
  if trim raw.toList = [] then
    refuse platform faults path "SSH known-host 文件为空，拒绝把现有信任库静默降级为 fresh TOFU"
      "原文件" "必须显式重置信任后才能继续"
  else
    match platform.codec.versionFromStr raw with
    | .error error =>
      refuse platform faults path s!"SSH known-host 文件损坏: {error}"
        "原文件" "必须显式重置信任后才能继续"
    | .ok version =>
      if version ≠ knownHostsVersion then
        refuse platform faults path
          s!"SSH known-host schema v{version} 不受支持（expected v{knownHostsVersion}）"
          "旧文件" "不会自动降级为新的 TOFU 信任库；必须显式重置"
      else
        match platform.codec.fileFromStr raw with
        | .ok file => pure file.hosts
        | .error error =>
          refuse platform faults path
            s!"SSH known-host schema v{knownHostsVersion} 文件损坏: {error}"
            "原文件" "必须显式重置信任后才能继续"

def load (platform : Platform) (faults : Faults) (path : TrustPath) : Exec Disk String Hosts := fun disk =>
  if disk.pathExists (faults .probeFile) path then
    match disk.readToString (faults .readFile) path with
    | .error e => (.error s!"无法读取 SSH known-host 文件: {e}", disk)
    | .ok raw => loadRaw platform faults path raw disk
  else (.ok ∅, disk)

def createDirAll (fault : Option String) : Except String Unit :=
  match fault with
  | some e => .error s!"无法创建 SSH 信任目录: {e}"
  | none => .ok ()

def checkMarker (faults : Faults) (disk : Disk) (path : TrustPath) : Except String Unit :=
  if disk.pathExists (faults .probeMarker) (blockedPath path) then
    match disk.readToString (faults .readMarker) (blockedPath path) with
    | .ok reason =>
      .error s!"SSH 主机信任库处于阻止状态：{reason}。请在 TauTerm 中显式重置信任库后重试"
    | .error _ =>
      .error ("SSH 主机信任库处于阻止状态：SSH 主机信任库此前检测到损坏或不兼容版本。" ++
        "请在 TauTerm 中显式重置信任库后重试")
  else .ok ()

def configure (platform : Platform) (faults : Faults) (path : TrustPath) :
    Exec World String Unit := do
  Exec.modify fun w => { w with store := { w.store with available := false } }
  Exec.ofExcept (createDirAll (faults .createDirs))
  Exec.modify fun w => { w with store := { w.store with path := some path } }
  let w ← Exec.get
  Exec.ofExcept (checkMarker faults w.disk path)
  let hosts ← onDisk (load platform faults path)
  Exec.modify fun w => { w with store := { w.store with hosts, available := true } }

/-! ## Saving -/

def persistSnapshotTo (platform : Platform) (faults : Faults) (path : TrustPath) (hosts : Hosts) :
    Exec Disk String Unit :=
  match platform.codec.toStringPretty { version := knownHostsVersion, hosts } with
  | .error e => Exec.throw s!"序列化 SSH known-host 失败: {e}"
  | .ok json =>
    atomicWrite ((faults .write).map fun e => s!"写入 SSH known-host 失败: {e}") path json

def persistSnapshot (platform : Platform) (faults : Faults) (hosts : Hosts) :
    Exec World String Unit := fun w =>
  if w.store.available then
    match w.store.path with
    | none => (.error "SSH known-host 存储尚未初始化", w)
    | some path => onDisk (persistSnapshotTo platform faults path hosts) w
  else (.error "SSH known-host 存储不可用", w)

/-- Persist the records, and only then take them over. -/
def saveHosts (platform : Platform) (faults : Faults) (hosts : Hosts) : Exec World String Unit := do
  persistSnapshot platform faults hosts
  Exec.modify fun w => { w with store := { w.store with hosts } }

def reset (platform : Platform) (faults : Faults) : Exec World String Unit := fun w =>
  match w.store.path with
  | none => (.error "SSH known-host 存储尚未初始化", w)
  | some path =>
    (do
      onDisk (persistSnapshotTo platform faults path ∅)
      let w ← Exec.get
      onDisk (if w.disk.pathExists (faults .probeMarker) (blockedPath path) then
        removeFile ((faults .removeMarker).map fun e => s!"清理 SSH known-host 阻止标记失败: {e}")
          (blockedPath path)
      else pure ())
      Exec.modify fun w => { w with store := { w.store with hosts := ∅, available := true } }
      : Exec World String Unit) w

/-! ## The verdict -/

def sortDedup (texts : List String) : List String :=
  (texts.mergeSort fun a b => decide (a ≤ b)).destutter (· ≠ ·)

def fingerprintsOf (record : KnownHostRecord) (algorithm : String) : List String :=
  (record.keys.filter fun known => known.algorithm = algorithm).map (·.fingerprint)

def judge (record : KnownHostRecord) (algorithm fingerprint : String) : HostTrustDecision :=
  if record.keys.any fun known => known.algorithm = algorithm ∧ known.fingerprint = fingerprint then
    .trusted
  else if fingerprintsOf record algorithm = [] then
    .additionalKey (sortDedup (record.keys.map (·.algorithm)))
  else .changed algorithm (fingerprintsOf record algorithm)

def evaluate (platform : Platform) (store : KnownHostStore) (host : String) (port : UInt16)
    (algorithm fingerprint : String) : HostTrustDecision :=
  if store.available then
    if store.path.isSome then
      match store.hosts[key platform host port]? with
      | none => .firstSeen
      | some record => judge record algorithm fingerprint
    else .unavailable "SSH known-host 存储尚未初始化"
  else .unavailable "SSH known-host 存储不可用或配置未完成"

/-! ## Changing the records -/

/-- The keys with `last_seen_ms` set in the first one that matches. -/
def touchKey (keys : List KnownHostKeyRecord) (algorithm fingerprint : String) (now : UInt64) :
    Option (List KnownHostKeyRecord) :=
  (keys.findIdx? fun known => known.algorithm = algorithm ∧ known.fingerprint = fingerprint).map
    fun i => keys.modify i fun known => { known with lastSeenMs := now }

def touch (platform : Platform) (faults : Faults) (host : String) (port : UInt16)
    (algorithm fingerprint : String) (now : UInt64) : Exec World String Unit := fun w =>
  if w.store.available then
    match w.store.hosts[key platform host port]? with
    | none => (.ok (), w)
    | some record =>
      match touchKey record.keys algorithm fingerprint now with
      | none => (.ok (), w)
      | some keys =>
        -- a failure to persist is only logged
        (.ok (), (saveHosts platform faults
          (w.store.hosts.insert (key platform host port) { record with keys }) w).2)
  else (.ok (), w)

def keyLe (left right : KnownHostKeyRecord) : Bool :=
  ((compare left.algorithm right.algorithm).then (compare left.fingerprint right.fingerprint)).isLE

def newKey (algorithm fingerprint : String) (now : UInt64) : KnownHostKeyRecord where
  algorithm
  fingerprint
  firstSeenMs := now
  lastSeenMs := now

def mutateRecord (platform : Platform) (faults : Faults) (host : String) (port : UInt16)
    (mutator : List KnownHostKeyRecord → List KnownHostKeyRecord) : Exec World String Unit := fun w =>
  if w.store.available then
    let record := (w.store.hosts[key platform host port]?).getD
      { host := normalizedHost platform host, port, keys := [] }
    saveHosts platform faults (w.store.hosts.insert (key platform host port)
      { record with keys := (mutator record.keys).mergeSort keyLe }) w
  else (.error "SSH known-host 存储不可用，不能修改主机信任", w)

def trust (platform : Platform) (faults : Faults) (host : String) (port : UInt16)
    (algorithm fingerprint : String) (now : UInt64) : Exec World String Unit :=
  mutateRecord platform faults host port fun keys =>
    (touchKey keys algorithm fingerprint now).getD (keys ++ [newKey algorithm fingerprint now])

def replaceIfMatches (platform : Platform) (faults : Faults) (host : String) (port : UInt16)
    (algorithm : String) (expectedFingerprints : List String) (fingerprint : String)
    (now : UInt64) : Exec World String Unit := fun w =>
  if w.store.available then
    match w.store.hosts[key platform host port]? with
    | none => (.error "SSH 主机信任已在确认期间变化，请重新连接并重新验证", w)
    | some record =>
      if sortDedup (fingerprintsOf record algorithm) = sortDedup expectedFingerprints then
        saveHosts platform faults (w.store.hosts.insert (key platform host port)
          { record with keys :=
              ((record.keys.filter fun known => known.algorithm ≠ algorithm) ++
                [newKey algorithm fingerprint now]).mergeSort keyLe }) w
      else (.error "SSH 主机信任已在确认期间变化，请重新连接并重新验证", w)
  else (.error "SSH known-host 存储不可用，不能修改主机信任", w)

def forget (platform : Platform) (faults : Faults) (host : String) (port : UInt16) :
    Exec World String Bool := fun w =>
  if w.store.available then
    if (w.store.hosts[key platform host port]?).isSome then
      (saveHosts platform faults (w.store.hosts.erase (key platform host port)) >>= fun _ =>
        pure true) w
    else (.ok false, w)
  else (.error "SSH known-host 存储不可用", w)

end TauTerm.Ssh
