import Mathlib
import TauTerm.Ssh.KnownHosts

/-!
# The keys that a store trusts

The records stand for a set of host keys. While every record is filed under the
key of its own endpoint, each change of the records is a change of that set, and
the verdict on a key is membership in it.
-/

namespace TauTerm.Ssh

open Lib

@[ext]
structure HostKey where
  host : String
  port : UInt16
  algorithm : String
  fingerprint : String

/-- `k` is a key of this endpoint. -/
def HostKey.At (k : HostKey) (host : String) (port : UInt16) : Prop :=
  k.host = host ∧ k.port = port

def KnownHostKeyRecord.identity (known : KnownHostKeyRecord) : String × String :=
  (known.algorithm, known.fingerprint)

def KnownHostRecord.Lists (record : KnownHostRecord) (algorithm fingerprint : String) : Prop :=
  (algorithm, fingerprint) ∈ record.keys.map (·.identity)

/-- The host that a record is for. Records keep the host of the file, queries are normalised. -/
def KnownHostRecord.endpointHost (platform : Platform) (record : KnownHostRecord) : String :=
  normalizedHost platform record.host

def keysOf (platform : Platform) (hosts : Hosts) : Set HostKey :=
  {k | ∃ (name : String) (record : KnownHostRecord), hosts[name]? = some record ∧
    k.At (record.endpointHost platform) record.port ∧ record.Lists k.algorithm k.fingerprint}

/-- Every record is filed under the key of its own endpoint. -/
def WellKeyed (platform : Platform) (hosts : Hosts) : Prop :=
  ∀ (name : String) (record : KnownHostRecord), hosts[name]? = some record →
    name = endpointKey (record.endpointHost platform) record.port

/-- The endpoint of a normalised host has a record, wherever it is filed. -/
def HasRecord (platform : Platform) (hosts : Hosts) (host : String) (port : UInt16) : Prop :=
  ∃ (name : String) (record : KnownHostRecord), hosts[name]? = some record ∧
    record.endpointHost platform = host ∧ record.port = port

/-! ## Endpoint keys -/

theorem toString_port_inj {p q : UInt16} (h : toString p = toString q) : p = q := by
  have hdigits : Nat.toDigits 10 p.toNat = Nat.toDigits 10 q.toNat := String.ofList_injective h
  rw [← UInt16.toNat_inj, ← Nat.ofDigitChars_ten_toDigits (n := p.toNat), hdigits,
    Nat.ofDigitChars_ten_toDigits]

theorem bar_notMem_port (p : UInt16) : '|' ∉ (toString p).toList := by
  have htext : (toString p).toList = Nat.toDigits 10 p.toNat := String.toList_ofList
  rw [htext]
  intro hmem
  have hdigit := Nat.isDigit_of_mem_toDigits (by decide) (by decide) hmem
  exact absurd hdigit (by decide)

/-- The last bar separates the port. -/
theorem append_bar_inj {a b d e : List Char} (hd : '|' ∉ d) (he : '|' ∉ e)
    (h : a ++ '|' :: d = b ++ '|' :: e) : a = b ∧ d = e := by
  have hrev : d.reverse ++ '|' :: a.reverse = e.reverse ++ '|' :: b.reverse := by
    simpa using congrArg List.reverse h
  rw [List.append_eq_append_iff] at hrev
  rcases hrev with ⟨c, he', hc⟩ | ⟨c, hd', hc⟩
  · cases c with
    | nil => simp_all
    | cons x c =>
      obtain rfl := (List.cons.inj hc).1
      exact absurd (List.mem_reverse.mp (he' ▸ by simp)) he
  · cases c with
    | nil => simp_all
    | cons x c =>
      obtain rfl := (List.cons.inj hc).1
      exact absurd (List.mem_reverse.mp (hd' ▸ by simp)) hd

theorem endpointKey_inj {host host' : String} {port port' : UInt16} :
    endpointKey host port = endpointKey host' port' ↔ host = host' ∧ port = port' := by
  constructor
  · intro h
    have hlist : host.toList ++ '|' :: (toString port).toList =
        host'.toList ++ '|' :: (toString port').toList := by
      simpa using congrArg String.toList
        (show host ++ "|" ++ toString port = host' ++ "|" ++ toString port' from h)
    obtain ⟨hhost, hport⟩ := append_bar_inj (bar_notMem_port _) (bar_notMem_port _) hlist
    exact ⟨String.toList_injective hhost, toString_port_inj (String.toList_injective hport)⟩
  · rintro ⟨rfl, rfl⟩
    rfl

/-! ## Records and keys -/

section Records

variable {platform : Platform} {hosts : Hosts}

theorem wellKeyed_empty : WellKeyed platform ∅ := by
  intro name record h
  simp at h

theorem keysOf_empty : keysOf platform ∅ = ∅ := by
  ext k
  simp [keysOf]

theorem getElem?_insert_eq {name other : String} {record : KnownHostRecord} :
    (hosts.insert name record)[other]? = if name = other then some record else hosts[other]? := by
  simp [Std.ExtTreeMap.getElem?_insert]

theorem getElem?_erase_eq {name other : String} :
    (hosts.erase name)[other]? = if name = other then none else hosts[other]? := by
  simp [Std.ExtTreeMap.getElem?_erase]

theorem WellKeyed.insert (h : WellKeyed platform hosts) {record : KnownHostRecord}
    {host : String} {port : UInt16} (hhost : record.endpointHost platform = host)
    (hport : record.port = port) :
    WellKeyed platform (hosts.insert (endpointKey host port) record) := by
  intro name found hfound
  rw [getElem?_insert_eq] at hfound
  by_cases hname : endpointKey host port = name
  · rw [if_pos hname, Option.some.injEq] at hfound
    rw [← hfound, hhost, hport, hname]
  · rw [if_neg hname] at hfound
    exact h name found hfound

theorem WellKeyed.erase (h : WellKeyed platform hosts) (name : String) :
    WellKeyed platform (hosts.erase name) := by
  intro other found hfound
  rw [getElem?_erase_eq] at hfound
  split_ifs at hfound
  exact h other found hfound

theorem WellKeyed.host_port (h : WellKeyed platform hosts) {host : String} {port : UInt16}
    {record : KnownHostRecord} (hrecord : hosts[endpointKey host port]? = some record) :
    record.endpointHost platform = host ∧ record.port = port := by
  obtain ⟨hhost, hport⟩ := endpointKey_inj.mp (h _ _ hrecord)
  exact ⟨hhost.symm, hport.symm⟩

theorem WellKeyed.hasRecord_iff (h : WellKeyed platform hosts) {host : String}
    {port : UInt16} : HasRecord platform hosts host port ↔ (hosts[endpointKey host port]?).isSome := by
  constructor
  · rintro ⟨name, record, hrecord, rfl, rfl⟩
    rw [← h name record hrecord, hrecord]
    rfl
  · intro hsome
    obtain ⟨record, hrecord⟩ := Option.isSome_iff_exists.mp hsome
    exact ⟨_, record, hrecord, h.host_port hrecord⟩

theorem WellKeyed.mem_keysOf (h : WellKeyed platform hosts) {k : HostKey} :
    k ∈ keysOf platform hosts ↔ ∃ record : KnownHostRecord,
      hosts[endpointKey k.host k.port]? = some record ∧
      record.Lists k.algorithm k.fingerprint := by
  constructor
  · rintro ⟨name, record, hrecord, ⟨hhost, hport⟩, hlists⟩
    refine ⟨record, ?_, hlists⟩
    rw [hhost, hport, ← h name record hrecord, hrecord]
  · rintro ⟨record, hrecord, hlists⟩
    obtain ⟨hhost, hport⟩ := h.host_port hrecord
    exact ⟨_, record, hrecord, ⟨hhost.symm, hport.symm⟩, hlists⟩

/-- Filing a record replaces the keys of its endpoint, and no others. -/
theorem WellKeyed.mem_keysOf_insert (h : WellKeyed platform hosts) {k : HostKey}
    {record : KnownHostRecord} {host : String} {port : UInt16}
    (hhost : record.endpointHost platform = host) (hport : record.port = port)
    (keys : List KnownHostKeyRecord) :
    k ∈ keysOf platform (hosts.insert (endpointKey host port) { record with keys }) ↔
      (k.At host port ∧ (k.algorithm, k.fingerprint) ∈ keys.map (·.identity)) ∨
      (¬ k.At host port ∧ k ∈ keysOf platform hosts) := by
  have hfiled : WellKeyed platform (hosts.insert (endpointKey host port) { record with keys }) :=
    h.insert hhost hport
  rw [hfiled.mem_keysOf, h.mem_keysOf]
  simp only [getElem?_insert_eq, endpointKey_inj]
  by_cases hat : k.At host port
  · obtain ⟨hkhost, hkport⟩ := hat
    simp [HostKey.At, hkhost, hkport, KnownHostRecord.Lists]
  · have hne : ¬ (host = k.host ∧ port = k.port) := fun heq => hat ⟨heq.1.symm, heq.2.symm⟩
    simp [hat, hne]

theorem WellKeyed.mem_keysOf_erase (h : WellKeyed platform hosts) {k : HostKey}
    {host : String} {port : UInt16} :
    k ∈ keysOf platform (hosts.erase (endpointKey host port)) ↔
      ¬ k.At host port ∧ k ∈ keysOf platform hosts := by
  rw [(h.erase _).mem_keysOf, h.mem_keysOf]
  simp only [getElem?_erase_eq, endpointKey_inj]
  by_cases hat : k.At host port
  · obtain ⟨hhost, hport⟩ := hat
    simp [HostKey.At, hhost, hport]
  · have hne : ¬ (host = k.host ∧ port = k.port) := fun heq => hat ⟨heq.1.symm, heq.2.symm⟩
    simp [hat, hne]

end Records

/-! ## The verdict -/

theorem judge_trusted_iff {record : KnownHostRecord} {algorithm fingerprint : String} :
    judge record algorithm fingerprint = .trusted ↔ record.Lists algorithm fingerprint := by
  unfold judge
  simp only [List.any_eq_true, decide_eq_true_eq, KnownHostRecord.Lists, List.mem_map,
    KnownHostKeyRecord.identity, Prod.mk.injEq]
  split_ifs with htrusted hnone
  · exact iff_of_true rfl htrusted
  · exact iff_of_false nofun htrusted
  · exact iff_of_false nofun htrusted

theorem judge_ne_firstSeen (record : KnownHostRecord) (algorithm fingerprint : String) :
    judge record algorithm fingerprint ≠ .firstSeen := by
  unfold judge
  split_ifs <;> nofun

theorem evaluate_unavailable (platform : Platform) {store : KnownHostStore}
    (h : store.available = false) (host : String) (port : UInt16) (algorithm fingerprint : String) :
    evaluate platform store host port algorithm fingerprint =
      .unavailable "SSH known-host 存储不可用或配置未完成" := by
  simp [evaluate, h]

/-- A trusted key is one of the keys of the records. -/
theorem evaluate_trusted {platform : Platform} {store : KnownHostStore} {host : String}
    {port : UInt16} {algorithm fingerprint : String} (hkeyed : WellKeyed platform store.hosts)
    (h : evaluate platform store host port algorithm fingerprint = .trusted) :
    ⟨normalizedHost platform host, port, algorithm, fingerprint⟩ ∈ keysOf platform store.hosts := by
  unfold evaluate at h
  split_ifs at h
  cases hrecord : store.hosts[key platform host port]? with
  | none => rw [hrecord] at h; cases h
  | some record =>
    rw [hrecord] at h
    exact hkeyed.mem_keysOf.mpr ⟨record, hrecord, judge_trusted_iff.mp h⟩

theorem evaluate_firstSeen {platform : Platform} {store : KnownHostStore} {host : String}
    {port : UInt16} {algorithm fingerprint : String} (hkeyed : WellKeyed platform store.hosts)
    (h : evaluate platform store host port algorithm fingerprint = .firstSeen) :
    ¬ HasRecord platform store.hosts (normalizedHost platform host) port := by
  unfold evaluate at h
  split_ifs at h
  cases hrecord : store.hosts[key platform host port]? with
  | none =>
    rw [hkeyed.hasRecord_iff]
    unfold key at hrecord
    simp [hrecord]
  | some record =>
    rw [hrecord] at h
    exact absurd h (judge_ne_firstSeen record algorithm fingerprint)

/-! ## Changes -/

theorem map_identity_touchKey {keys touched : List KnownHostKeyRecord}
    {algorithm fingerprint : String} {now : UInt64}
    (h : touchKey keys algorithm fingerprint now = some touched) :
    touched.map (·.identity) = keys.map (·.identity) := by
  obtain ⟨i, -, rfl⟩ := Option.map_eq_some_iff.mp h
  apply List.ext_getElem?
  intro j
  simp only [List.getElem?_map, List.getElem?_modify]
  cases keys[j]? with
  | none => split_ifs <;> rfl
  | some known => split_ifs <;> rfl

theorem identity_mem_touchKey {keys touched : List KnownHostKeyRecord}
    {algorithm fingerprint : String} {now : UInt64}
    (h : touchKey keys algorithm fingerprint now = some touched) :
    (algorithm, fingerprint) ∈ keys.map (·.identity) := by
  obtain ⟨i, hi, -⟩ := Option.map_eq_some_iff.mp h
  obtain ⟨hlt, hmatch, -⟩ := List.findIdx?_eq_some_iff_getElem.mp hi
  obtain ⟨halgorithm, hfingerprint⟩ := of_decide_eq_true hmatch
  exact List.mem_map.mpr ⟨keys[i], List.getElem_mem hlt,
    Prod.ext halgorithm hfingerprint⟩

/-- The keys of a record after `trust`. -/
theorem mem_trust_keys {keys : List KnownHostKeyRecord} {algorithm fingerprint : String}
    {now : UInt64} {identity : String × String} :
    identity ∈ (((touchKey keys algorithm fingerprint now).getD
        (keys ++ [newKey algorithm fingerprint now])).mergeSort keyLe).map (·.identity) ↔
      identity = (algorithm, fingerprint) ∨ identity ∈ keys.map (·.identity) := by
  have hsort : ∀ l : List KnownHostKeyRecord, identity ∈ (l.mergeSort keyLe).map (·.identity) ↔
      identity ∈ l.map (·.identity) := fun l => by simp [List.mem_map]
  rw [hsort]
  cases htouch : touchKey keys algorithm fingerprint now with
  | some touched =>
    rw [Option.getD_some, map_identity_touchKey htouch]
    refine ⟨.inr, ?_⟩
    rintro (rfl | hmem)
    · exact identity_mem_touchKey htouch
    · exact hmem
  | none =>
    rw [Option.getD_none, List.map_append, List.mem_append]
    exact Or.comm.trans (or_congr_left List.mem_singleton)

/-- The keys of a record after a replacement. -/
theorem mem_replace_keys {keys : List KnownHostKeyRecord} {algorithm fingerprint : String}
    {now : UInt64} {identity : String × String} :
    identity ∈ (((keys.filter fun known => known.algorithm ≠ algorithm) ++
        [newKey algorithm fingerprint now]).mergeSort keyLe).map (·.identity) ↔
      identity = (algorithm, fingerprint) ∨
      (identity.1 ≠ algorithm ∧ identity ∈ keys.map (·.identity)) := by
  obtain ⟨first, second⟩ := identity
  simp only [List.mem_map, List.mem_mergeSort, List.mem_append, List.mem_filter,
    decide_eq_true_eq, List.mem_singleton, KnownHostKeyRecord.identity, Prod.mk.injEq]
  constructor
  · rintro ⟨known, ⟨hmem, hne⟩ | rfl, rfl, rfl⟩
    · exact .inr ⟨hne, known, hmem, rfl, rfl⟩
    · exact .inl ⟨rfl, rfl⟩
  · rintro (⟨rfl, rfl⟩ | ⟨hne, known, hmem, rfl, rfl⟩)
    · exact ⟨newKey first second now, .inr rfl, rfl, rfl⟩
    · exact ⟨known, .inl ⟨hmem, hne⟩, rfl, rfl⟩

end TauTerm.Ssh
