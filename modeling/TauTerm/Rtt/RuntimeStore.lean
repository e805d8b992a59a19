import Mathlib
import TauTerm.Lib.Window

/-!
# The RTT store of the WebView

What the store keeps of one session: the chunks of each channel, in bounded number, and what the
SystemView observers have said. Batches come as events; histories come as replies to requests, which
the store applies if it still follows the same generation.
-/

namespace TauTerm.Rtt.RuntimeStore

open Lib

def CLIENT_HISTORY_BYTES_PER_CHANNEL : Nat := 512 * 1024

def CLIENT_HISTORY_BYTES_PER_SESSION : Nat := 2 * 1024 * 1024

/-! ## Chunks -/

structure RttChunk where
  generation : Nat
  sequence : Nat
  channelIndex : Nat
  dataB64 : String
  deriving DecidableEq

def base64ByteLength (value : String) : Nat :=
  let padding :=
    if "==".toList.isSuffixOf value.toList then 2
    else if "=".toList.isSuffixOf value.toList then 1
    else 0
  value.length * 3 / 4 - padding

def RttChunk.byteLength (c : RttChunk) : Nat := base64ByteLength c.dataB64

def trimChunks (chunks : List RttChunk) : List RttChunk :=
  trimFront RttChunk.byteLength CLIENT_HISTORY_BYTES_PER_CHANNEL (weigh RttChunk.byteLength chunks)
    chunks

def mergeHistory (currentChunks history : List RttChunk) : List RttChunk :=
  if currentChunks = [] then trimChunks history
  else if history = [] then currentChunks
  else trimChunks (mergeByKey RttChunk.sequence history currentChunks)

/-! ## The buffers of the channels -/

/-- The entries of an object with channels for keys, which are in ascending order. -/
structure Buffers where
  entries : List (Nat × List RttChunk)
  ascending : (entries.map Prod.fst).Pairwise (· < ·)

namespace Buffers

def empty : Buffers := ⟨[], .nil⟩

/-- `buffers[channel] ?? []`. -/
def get (b : Buffers) (channel : Nat) : List RttChunk := (b.entries.lookup channel).getD []

def setEntry (channel : Nat) (chunks : List RttChunk) :
    List (Nat × List RttChunk) → List (Nat × List RttChunk)
  | [] => [(channel, chunks)]
  | e :: es =>
    if channel < e.1 then (channel, chunks) :: e :: es
    else if channel = e.1 then (channel, chunks) :: es
    else e :: setEntry channel chunks es

theorem mem_setEntry {channel : Nat} {chunks : List RttChunk} {es : List (Nat × List RttChunk)}
    {e : Nat × List RttChunk} (h : e ∈ setEntry channel chunks es) :
    e = (channel, chunks) ∨ e ∈ es := by
  induction es with
  | nil => exact .inl (List.mem_singleton.mp h)
  | cons e' es ih =>
    unfold setEntry at h
    split at h
    · exact List.mem_cons.mp h
    · split at h
      · exact (List.mem_cons.mp h).imp_right (List.mem_cons_of_mem _)
      · obtain rfl | h := List.mem_cons.mp h
        · exact .inr List.mem_cons_self
        · exact (ih h).imp_right (List.mem_cons_of_mem _)

theorem setEntry_ascending {es : List (Nat × List RttChunk)} (channel : Nat)
    (chunks : List RttChunk) (h : (es.map Prod.fst).Pairwise (· < ·)) :
    ((setEntry channel chunks es).map Prod.fst).Pairwise (· < ·) := by
  induction es with
  | nil => exact List.pairwise_singleton _ _
  | cons e es ih =>
    rw [List.map_cons, List.pairwise_cons] at h
    unfold setEntry
    split
    · rename_i hlt
      refine List.pairwise_cons.mpr ⟨fun k hk => ?_, List.pairwise_cons.mpr h⟩
      obtain rfl | hk := List.mem_cons.mp hk
      · exact hlt
      · exact hlt.trans (h.1 k hk)
    · split
      · rename_i heq
        subst heq
        exact List.pairwise_cons.mpr h
      · refine List.pairwise_cons.mpr ⟨fun k hk => ?_, ih h.2⟩
        obtain ⟨e', he', rfl⟩ := List.mem_map.mp hk
        obtain rfl | he' := mem_setEntry he'
        · change e.1 < channel
          omega
        · exact h.1 _ (List.mem_map_of_mem he')

def set (b : Buffers) (channel : Nat) (chunks : List RttChunk) : Buffers :=
  ⟨setEntry channel chunks b.entries, setEntry_ascending channel chunks b.ascending⟩

/-- The first chunk of a channel goes. -/
def dropFirst (b : Buffers) (channel : Nat) : Buffers where
  entries := b.entries.map fun e => if e.1 = channel then (e.1, e.2.tail) else e
  ascending := by
    rw [List.map_map]
    convert b.ascending using 2
    funext e
    simp only [Function.comp_apply]
    split <;> rfl

def total (b : Buffers) : Nat := (b.entries.map fun e => weigh RttChunk.byteLength e.2).sum

def count (b : Buffers) : Nat := (b.entries.map fun e => e.2.length).sum

end Buffers

/-- The older one of the best first chunk so far and that of an entry. -/
def older (best : Option (Nat × RttChunk)) (e : Nat × List RttChunk) : Option (Nat × RttChunk) :=
  match e.2, best with
  | [], _ => best
  | first :: _, none => some (e.1, first)
  | first :: _, some (channel, chunk) =>
    if first.sequence < chunk.sequence then some (e.1, first) else some (channel, chunk)

/-- The channel whose first chunk is the oldest one. -/
def oldest (pool : List (Nat × List RttChunk)) : Option (Nat × RttChunk) := pool.foldl older none

/-- The channel that the next chunk is taken from: the preferred one only if no other has any. -/
def victim (b : Buffers) (preferredChannel : Option Nat) : Option (Nat × RttChunk) :=
  let candidates := b.entries.filter fun e => e.2 ≠ [] ∧ some e.1 ≠ preferredChannel
  oldest (if candidates ≠ [] then candidates else b.entries)

/-- The loop of `trimBuffers`, which takes one chunk in each turn. -/
def trimLoop (preferredChannel : Option Nat) : Nat → Nat → Buffers → Buffers
  | 0, _, b => b
  | chunks + 1, total, b =>
    if CLIENT_HISTORY_BYTES_PER_SESSION < total then
      match victim b preferredChannel with
      | none => b
      | some (channel, first) =>
        trimLoop preferredChannel chunks (total - first.byteLength) (b.dropFirst channel)
    else b

def trimBuffers (b : Buffers) (preferredChannel : Option Nat) : Buffers :=
  trimLoop preferredChannel b.count b.total b

/-! ### Rules of the buffers -/

theorem trimChunks_drop (chunks : List RttChunk) : ∃ n, trimChunks chunks = chunks.drop n :=
  trimFront_drop _ chunks

theorem weigh_trimChunks (chunks : List RttChunk) :
    weigh RttChunk.byteLength (trimChunks chunks) ≤ CLIENT_HISTORY_BYTES_PER_CHANNEL :=
  weigh_trimFront chunks

namespace Buffers

variable {b : Buffers} {channel other : Nat} {chunks : List RttChunk} {first : RttChunk}

@[simp] theorem get_empty (channel : Nat) : Buffers.empty.get channel = [] := rfl

theorem lookup_setEntry (channel other : Nat) (chunks : List RttChunk)
    (es : List (Nat × List RttChunk)) (h : (es.map Prod.fst).Pairwise (· < ·)) :
    (setEntry channel chunks es).lookup other =
      if other = channel then some chunks else es.lookup other := by
  induction es with
  | nil =>
    rw [setEntry, List.lookup_cons, List.lookup_nil]
    by_cases heq : other = channel
    · rw [heq, beq_self_eq_true, if_pos rfl]
    · rw [beq_false_of_ne heq, if_neg heq]
  | cons e es ih =>
    rw [List.map_cons, List.pairwise_cons] at h
    unfold setEntry
    by_cases hlt : channel < e.1
    · rw [if_pos hlt, List.lookup_cons]
      by_cases heq : other = channel
      · rw [heq, beq_self_eq_true, if_pos rfl]
      · rw [beq_false_of_ne heq, if_neg heq]
    · rw [if_neg hlt]
      by_cases hch : channel = e.1
      · rw [if_pos hch, List.lookup_cons]
        by_cases heq : other = channel
        · rw [heq, beq_self_eq_true, if_pos rfl]
        · rw [beq_false_of_ne heq, if_neg heq, List.lookup_cons, beq_false_of_ne (hch ▸ heq)]
      · rw [if_neg hch, List.lookup_cons, ih h.2, List.lookup_cons]
        by_cases he : other = e.1
        · simp [he, Ne.symm hch]
        · rw [beq_false_of_ne he]

@[simp] theorem get_set (b : Buffers) (channel : Nat) (chunks : List RttChunk) (other : Nat) :
    (b.set channel chunks).get other = if other = channel then chunks else b.get other := by
  unfold get set
  rw [lookup_setEntry channel other chunks b.entries b.ascending]
  split <;> rfl

theorem get_of_mem (h : (channel, chunks) ∈ b.entries) : b.get channel = chunks := by
  obtain ⟨entries, hasc⟩ := b
  unfold get
  dsimp only at h ⊢
  induction entries with
  | nil => cases h
  | cons e es ih =>
    rw [List.map_cons, List.pairwise_cons] at hasc
    obtain rfl | h := List.mem_cons.mp h
    · rw [List.lookup_cons, beq_self_eq_true, Option.getD_some]
    · have hlt := hasc.1 channel (List.mem_map_of_mem h)
      rw [List.lookup_cons, beq_false_of_ne (by omega)]
      exact ih hasc.2 h

theorem mem_of_get (h : b.get channel ≠ []) : (channel, b.get channel) ∈ b.entries := by
  unfold get at h ⊢
  cases hlookup : b.entries.lookup channel with
  | none =>
    rw [hlookup] at h
    exact absurd rfl h
  | some chunks =>
    obtain ⟨l₁, l₂, heq, -⟩ := List.lookup_eq_some_iff.mp hlookup
    rw [heq]
    exact List.mem_append_right _ List.mem_cons_self

theorem get_dropFirst (b : Buffers) (channel other : Nat) :
    (b.dropFirst channel).get other =
      if other = channel then (b.get other).tail else b.get other := by
  obtain ⟨entries, hasc⟩ := b
  unfold get dropFirst
  dsimp only
  induction entries with
  | nil => split <;> rfl
  | cons e es ih =>
    rw [List.map_cons, List.pairwise_cons] at hasc
    rw [List.map_cons, List.lookup_cons, List.lookup_cons]
    by_cases he : other = e.1
    · subst he
      by_cases hch : e.1 = channel
      · simp [hch]
      · simp [hch]
    · have hfst : (if e.1 = channel then (e.1, e.2.tail) else e).1 = e.1 := by split <;> rfl
      rw [hfst, beq_false_of_ne he]
      exact ih hasc.2

/-- A measure of the entries goes down by what the first chunk of the channel adds to it. -/
theorem sum_dropFirst {f : List RttChunk → Nat} {g : RttChunk → Nat}
    (hf : ∀ x l, f (x :: l) = g x + f l) (h : b.get channel = first :: chunks) :
    (b.entries.map fun e => f e.2).sum =
      g first + ((b.dropFirst channel).entries.map fun e => f e.2).sum := by
  have hmem : (channel, first :: chunks) ∈ b.entries := h ▸ mem_of_get (by rw [h]; simp)
  obtain ⟨entries, hasc⟩ := b
  unfold dropFirst
  dsimp only at hmem ⊢
  clear h
  induction entries with
  | nil => cases hmem
  | cons e es ih =>
    rw [List.map_cons, List.pairwise_cons] at hasc
    rw [List.map_cons, List.map_cons, List.map_cons, List.sum_cons, List.sum_cons]
    obtain rfl | hmem := List.mem_cons.mp hmem
    · have hrest : (es.map fun e => if e.1 = channel then (e.1, e.2.tail) else e) = es := by
        refine (List.map_congr_left fun e he => ?_).trans (List.map_id es)
        have hlt := hasc.1 e.1 (List.mem_map_of_mem he)
        rw [if_neg (Nat.ne_of_gt hlt), id]
      rw [hrest, if_pos rfl, List.tail_cons, hf, Nat.add_assoc]
    · have hlt := hasc.1 channel (List.mem_map_of_mem hmem)
      rw [if_neg (Nat.ne_of_lt hlt), ih hasc.2 hmem]
      omega

end Buffers

theorem older_some {best : Option (Nat × RttChunk)} {e : Nat × List RttChunk} {p : Nat × RttChunk}
    (h : older best e = some p) : best = some p ∨ ∃ l, e = (p.1, p.2 :: l) := by
  obtain ⟨channel, chunks⟩ := e
  unfold older at h
  cases chunks with
  | nil => exact .inl h
  | cons first l =>
    cases best with
    | none =>
      cases h
      exact .inr ⟨l, rfl⟩
    | some best =>
      dsimp only at h
      split at h
      · cases h
        exact .inr ⟨l, rfl⟩
      · exact .inl h

/-- A channel is chosen for its first chunk. -/
theorem oldest_some {pool : List (Nat × List RttChunk)} {p : Nat × RttChunk}
    (h : oldest pool = some p) : ∃ l, (p.1, p.2 :: l) ∈ pool := by
  have hfold : ∀ rest : List (Nat × List RttChunk), (∀ e ∈ rest, e ∈ pool) →
      ∀ best, (∀ p, best = some p → ∃ l, (p.1, p.2 :: l) ∈ pool) →
      ∀ p, rest.foldl older best = some p → ∃ l, (p.1, p.2 :: l) ∈ pool := by
    intro rest hrest
    induction rest with
    | nil => exact fun best hbest => hbest
    | cons e rest ih =>
      intro best hbest
      refine ih (fun e he => hrest e (List.mem_cons_of_mem _ he)) _ fun p hp => ?_
      obtain hp | ⟨l, rfl⟩ := older_some hp
      · exact hbest p hp
      · exact ⟨l, hrest _ List.mem_cons_self⟩
  exact hfold pool (fun _ h => h) none (fun _ h => nomatch h) p h

theorem foldl_older_isSome (pool : List (Nat × List RttChunk)) {best : Option (Nat × RttChunk)}
    (h : best.isSome ∨ ∃ e ∈ pool, e.2 ≠ []) : (pool.foldl older best).isSome := by
  induction pool generalizing best with
  | nil => exact h.resolve_right fun ⟨_, he, _⟩ => nomatch he
  | cons e pool ih =>
    have hkeep : best.isSome → (older best e).isSome := by
      intro hbest
      obtain ⟨p, rfl⟩ := Option.isSome_iff_exists.mp hbest
      unfold older
      split <;> simp_all
      split <;> rfl
    refine ih ?_
    obtain hbest | ⟨e', he', hne⟩ := h
    · exact .inl (hkeep hbest)
    · obtain rfl | he' := List.mem_cons.mp he'
      · left
        obtain ⟨channel, chunks⟩ := e'
        cases chunks with
        | nil => exact absurd rfl hne
        | cons first l =>
          cases best with
          | none => rfl
          | some best => exact hkeep rfl
      · exact .inr ⟨e', he', hne⟩

theorem victim_some {b : Buffers} {preferred : Option Nat} {p : Nat × RttChunk}
    (h : victim b preferred = some p) : ∃ l, b.get p.1 = p.2 :: l := by
  obtain ⟨l, hl⟩ := oldest_some h
  refine ⟨l, Buffers.get_of_mem ?_⟩
  split at hl
  · exact (List.mem_filter.mp hl).1
  · exact hl

/-- There is a victim as long as there is a chunk. -/
theorem victim_isSome {b : Buffers} (preferred : Option Nat) (h : ∃ e ∈ b.entries, e.2 ≠ []) :
    (victim b preferred).isSome := by
  unfold victim oldest
  refine foldl_older_isSome _ (.inr ?_)
  split
  · rename_i hne
    obtain ⟨e, he⟩ := List.exists_mem_of_ne_nil _ hne
    exact ⟨e, he, (of_decide_eq_true (List.mem_filter.mp he).2).1⟩
  · exact h

theorem trimLoop_get (preferred : Option Nat) (chunks total : Nat) (b : Buffers) (channel : Nat) :
    ∃ n, (trimLoop preferred chunks total b).get channel = (b.get channel).drop n := by
  induction chunks generalizing total b with
  | zero => exact ⟨0, rfl⟩
  | succ chunks ih =>
    unfold trimLoop
    split
    · cases victim b preferred with
      | none => exact ⟨0, rfl⟩
      | some p =>
        obtain ⟨n, hn⟩ := ih (total - p.2.byteLength) (b.dropFirst p.1)
        rw [Buffers.get_dropFirst] at hn
        split at hn
        · exact ⟨n + 1, by rw [hn, List.drop_tail]⟩
        · exact ⟨n, hn⟩
    · exact ⟨0, rfl⟩

theorem Buffers.total_eq_zero {b : Buffers} (h : ¬ ∃ e ∈ b.entries, e.2 ≠ []) : b.total = 0 := by
  push Not at h
  refine List.sum_eq_zero fun n hn => ?_
  obtain ⟨e, he, rfl⟩ := List.mem_map.mp hn
  rw [h e he, weigh_nil]

theorem trimLoop_total (preferred : Option Nat) {chunks : Nat} {b : Buffers}
    (h : b.count ≤ chunks) :
    (trimLoop preferred chunks b.total b).total ≤ CLIENT_HISTORY_BYTES_PER_SESSION := by
  induction chunks generalizing b with
  | zero =>
    have hzero : b.total = 0 := Buffers.total_eq_zero fun ⟨e, he, hne⟩ => by
      have hle := List.le_sum_of_mem (List.mem_map_of_mem (f := fun e => e.2.length) he)
      have hpos := List.length_pos_iff.mpr hne
      unfold Buffers.count at h
      omega
    rw [trimLoop, hzero]
    exact Nat.zero_le _
  | succ chunks ih =>
    unfold trimLoop
    split
    · cases hvictim : victim b preferred with
      | none =>
        have hzero : b.total = 0 := Buffers.total_eq_zero fun hsome => by
          have := victim_isSome preferred hsome
          rw [hvictim] at this
          cases this
        dsimp only
        rw [hzero]
        exact Nat.zero_le _
      | some p =>
        obtain ⟨l, hl⟩ := victim_some hvictim
        have htotal : b.total = p.2.byteLength + (b.dropFirst p.1).total :=
          Buffers.sum_dropFirst weigh_cons hl
        have hcount : b.count = 1 + (b.dropFirst p.1).count :=
          Buffers.sum_dropFirst (g := fun _ => 1) (fun _ _ => Nat.add_comm _ _) hl
        dsimp only
        rw [htotal, Nat.add_sub_cancel_left]
        exact ih (by omega)
    · omega

theorem trimBuffers_of_le {b : Buffers} (h : b.total ≤ CLIENT_HISTORY_BYTES_PER_SESSION)
    (preferred : Option Nat) : trimBuffers b preferred = b := by
  unfold trimBuffers
  cases b.count with
  | zero => rfl
  | succ chunks => rw [trimLoop, if_neg (by omega)]

theorem trimBuffers_get (b : Buffers) (preferred : Option Nat) (channel : Nat) :
    ∃ n, (trimBuffers b preferred).get channel = (b.get channel).drop n :=
  trimLoop_get preferred b.count b.total b channel

theorem total_trimBuffers (b : Buffers) (preferred : Option Nat) :
    (trimBuffers b preferred).total ≤ CLIENT_HISTORY_BYTES_PER_SESSION :=
  trimLoop_total preferred le_rfl

/-! ## SystemView -/

def CLIENT_SYSTEMVIEW_EVENTS_PER_CHANNEL : Nat := 8192

structure SystemViewTaskSnapshot where
  name : Option String
  priority : Option Nat
  deriving DecidableEq

/-- `moment` tells when the server made it; the store does not read it. -/
structure SystemViewSnapshot where
  moment : Nat
  generation : Nat
  controlAvailable : Bool
  metadataSyncAttempts : Nat
  metadataSyncMaxAttempts : Nat
  presentationDroppedEvents : Nat
  clearedThroughSequence : Nat
  tasks : List SystemViewTaskSnapshot
  deriving DecidableEq

structure SystemViewEvent where
  sequence : Nat
  eventId : Nat
  deriving DecidableEq

inductive SystemViewMetadataSyncPhase where
  | idle
  | syncing
  | incomplete
  | unavailable
  deriving DecidableEq

structure SystemViewMetadataSyncState where
  phase : SystemViewMetadataSyncPhase
  unresolvedTasks : Nat
  attempts : Nat
  maxAttempts : Nat
  deriving DecidableEq

inductive SystemViewPresentationRecoveryPhase where
  | ok
  | recovering
  | incomplete
  deriving DecidableEq

structure SystemViewPresentationRecoveryState where
  phase : SystemViewPresentationRecoveryPhase
  historicalDroppedEvents : Nat
  unresolvedEvents : Nat
  deriving DecidableEq

structure RttSystemViewChannelState where
  snapshot : Option SystemViewSnapshot
  events : List SystemViewEvent
  loaded : Bool
  error : Option String
  metadataSync : SystemViewMetadataSyncState
  presentationRecovery : SystemViewPresentationRecoveryState
  deriving DecidableEq

def EMPTY_METADATA_SYNC : SystemViewMetadataSyncState := ⟨.idle, 0, 0, 0⟩

def EMPTY_PRESENTATION_RECOVERY : SystemViewPresentationRecoveryState := ⟨.ok, 0, 0⟩

/-- A channel that nothing is known of. -/
def RttSystemViewChannelState.new : RttSystemViewChannelState where
  snapshot := none
  events := []
  loaded := false
  error := none
  metadataSync := EMPTY_METADATA_SYNC
  presentationRecovery := EMPTY_PRESENTATION_RECOVERY

def metadataSyncState (snapshot : SystemViewSnapshot) : SystemViewMetadataSyncState :=
  let unresolved := snapshot.tasks.countP fun task => task.name.getD "" = "" || task.priority.isNone
  let attempts := snapshot.metadataSyncAttempts
  let maxAttempts := snapshot.metadataSyncMaxAttempts
  if unresolved = 0 then ⟨.idle, 0, attempts, maxAttempts⟩
  else if !snapshot.controlAvailable then ⟨.unavailable, unresolved, attempts, maxAttempts⟩
  else
    ⟨if 0 < maxAttempts ∧ maxAttempts ≤ attempts then .incomplete else .syncing, unresolved,
      attempts, maxAttempts⟩

def mergeSystemViewEvents (currentEvents incoming : List SystemViewEvent) : List SystemViewEvent :=
  let merged := mergeByKey SystemViewEvent.sequence currentEvents incoming
  merged.drop (merged.length - CLIENT_SYSTEMVIEW_EVENTS_PER_CHANNEL)

def countSystemViewSequenceGaps : List SystemViewEvent → Nat
  | previous :: current :: events =>
    current.sequence - previous.sequence - 1 + countSystemViewSequenceGaps (current :: events)
  | _ => 0

def presentationRecoveryState (snapshot : SystemViewSnapshot) (events : List SystemViewEvent)
    (recovering : Bool) : SystemViewPresentationRecoveryState :=
  let unresolved := countSystemViewSequenceGaps events
  ⟨if recovering then .recovering else if 0 < unresolved then .incomplete else .ok,
    snapshot.presentationDroppedEvents, unresolved⟩

def hasSystemViewSequenceGap (previous incoming : List SystemViewEvent) : Bool :=
  match previous.getLast?, incoming.head? with
  | some previousLast, some incomingFirst => previousLast.sequence + 1 < incomingFirst.sequence
  | _, _ => false

/-- The events that the clearing left. -/
def visible (snapshot : SystemViewSnapshot) (events : List SystemViewEvent) : List SystemViewEvent :=
  events.filter fun event => snapshot.clearedThroughSequence < event.sequence

/-! ## The store -/

structure RttChannelInfo where
  index : Nat
  upUsable : Bool
  deriving DecidableEq

structure RttSnapshot where
  generation : Nat
  channels : List RttChannelInfo
  lastError : Option String
  deriving DecidableEq

structure RttRuntimeSnapshot where
  snapshot : Option RttSnapshot
  selectedChannel : Option Nat
  buffers : Buffers
  systemview : Nat → Option RttSystemViewChannelState
  error : Option String

def EMPTY : RttRuntimeSnapshot where
  snapshot := none
  selectedChannel := none
  buffers := .empty
  systemview := fun _ => none
  error := none

/-- What is kept of one session. `scope` is the identity of its query scope, which it has as long as
it is followed; `recoveries` has a key for each generation and channel. -/
structure Store where
  scope : Option Nat
  scopes : Nat
  runtime : RttRuntimeSnapshot
  loadedChannels : List Nat
  recoveries : Nat → Nat → Option Bool

namespace Store

def initial : Store := ⟨none, 0, EMPTY, [], fun _ _ => none⟩

def publish (s : Store) (next : RttRuntimeSnapshot) : Store :=
  if s.scope.isSome then { s with runtime := next } else s

def generation (s : Store) : Option Nat := s.runtime.snapshot.map (·.generation)

/-- What `captureRuntime` remembers. -/
structure Capture where
  scope : Option Nat
  generation : Option Nat
  deriving DecidableEq

def captureRuntime (s : Store) : Capture := ⟨s.scope, s.generation⟩

def isCurrent (s : Store) (c : Capture) : Bool :=
  c.scope.isSome ∧ s.scope = c.scope ∧ s.generation = c.generation

/-- The begin of `refreshRttRuntime`: the session gets a scope if it has none. -/
def follow (s : Store) : Store :=
  if s.scope.isSome then s else { s with scope := some s.scopes, scopes := s.scopes + 1 }

def release (s : Store) : Store :=
  { s with scope := none, loadedChannels := [], recoveries := fun _ _ => none, runtime := EMPTY }

def chooseViewChannel (snapshot : RttSnapshot) (previous : Option Nat) : Option Nat :=
  if previous.isSome ∧ ∃ channel ∈ snapshot.channels, some channel.index = previous then previous
  else ((snapshot.channels.find? (·.upUsable)).or snapshot.channels.head?).map (·.index)

def applySnapshot (s : Store) (snapshot : RttSnapshot) : Store :=
  let prev := s.runtime
  if prev.snapshot.any fun p => snapshot.generation < p.generation then s
  else
    let generationChanged := s.generation ≠ some snapshot.generation
    let s := if generationChanged then { s with loadedChannels := [] } else s
    s.publish
      { snapshot := some snapshot
        selectedChannel :=
          chooseViewChannel snapshot (if generationChanged then none else prev.selectedChannel)
        buffers := if generationChanged then .empty else prev.buffers
        systemview := if generationChanged then fun _ => none else prev.systemview
        error := snapshot.lastError }

/-- What one channel gets of a batch. -/
def appendChannel (incoming : List RttChunk) (b : Buffers) (channel : Nat) : Buffers :=
  let existing := b.get channel
  let lastSequence := (existing.getLast?.map (·.sequence)).getD 0
  let appendable :=
    (incoming.filter fun chunk => chunk.channelIndex = channel).filter fun chunk =>
      lastSequence < chunk.sequence
  if appendable = [] then b else b.set channel (trimChunks (existing ++ appendable))

def appendBatch (s : Store) (generation : Nat) (chunks : List RttChunk) : Store :=
  if chunks = [] ∨ s.generation ≠ some generation then s
  else
    let incoming := chunks.filter fun chunk => chunk.generation = generation
    let channels := (incoming.map RttChunk.channelIndex).eraseDups
    let nextBuffers := channels.foldl (appendChannel incoming) s.runtime.buffers
    s.publish { s.runtime with buffers := trimBuffers nextBuffers s.runtime.selectedChannel }

structure RttHistoryResponse where
  generation : Nat
  chunks : List RttChunk
  deriving DecidableEq

/-- `ensureRttHistory` up to its query, which it makes for a channel that is not loaded. -/
def askRttHistory (s : Store) (channelIndex : Nat) : Store × Option Capture :=
  let capture := s.captureRuntime
  if s.isCurrent capture ∧ channelIndex ∉ s.loadedChannels then
    ({ s with loadedChannels := channelIndex :: s.loadedChannels }, some capture)
  else (s, none)

def unload (s : Store) (channelIndex : Nat) : Store :=
  { s with loadedChannels := s.loadedChannels.filter (· ≠ channelIndex) }

/-- The rest of `ensureRttHistory`. -/
def rttHistory (s : Store) (capture : Capture) (channelIndex : Nat) (history : RttHistoryResponse) :
    Store :=
  if !s.isCurrent capture then s
  else if s.generation ≠ some history.generation then s.unload channelIndex
  else
    let prev := s.runtime
    let nextBuffers :=
      prev.buffers.set channelIndex (mergeHistory (prev.buffers.get channelIndex) history.chunks)
    s.publish { prev with buffers := trimBuffers nextBuffers prev.selectedChannel }

def rttHistoryFailed (s : Store) (capture : Capture) (channelIndex : Nat) (cause : String) : Store :=
  if !s.isCurrent capture then s
  else (s.unload channelIndex).publish { s.runtime with error := some cause }

def selectRttChannel (s : Store) (channelIndex : Nat) : Store :=
  if ∃ snapshot ∈ s.runtime.snapshot, ∃ channel ∈ snapshot.channels, channel.index = channelIndex then
    if s.runtime.selectedChannel ≠ some channelIndex then
      s.publish { s.runtime with selectedChannel := some channelIndex, error := none }
    else s
  else s

/-! ### SystemView -/

def setSystemView (r : RttRuntimeSnapshot) (channelIndex : Nat) (state : RttSystemViewChannelState) :
    RttRuntimeSnapshot :=
  { r with systemview := Function.update r.systemview channelIndex (some state) }

@[simp] theorem systemview_setSystemView (r : RttRuntimeSnapshot) (channelIndex : Nat)
    (state : RttSystemViewChannelState) :
    (setSystemView r channelIndex state).systemview =
      Function.update r.systemview channelIndex (some state) := rfl

structure SystemViewHistoryResponse where
  generation : Nat
  events : List SystemViewEvent
  deriving DecidableEq

/-- An event about a channel: a batch has events, a snapshot has none. -/
structure SystemViewRuntimeEvent where
  generation : Nat
  channelIndex : Nat
  events : Option (List SystemViewEvent)
  snapshot : SystemViewSnapshot
  deriving DecidableEq

/-- The begin of `recoverSystemViewHistory`: it asks for the history, unless another one that asked
has not done with it yet. -/
def recoverSystemViewHistory (s : Store) (channelIndex generation : Nat) : Store × Option Capture :=
  let mark (value : Bool) : Store :=
    { s with
      recoveries := Function.update s.recoveries generation
        (Function.update (s.recoveries generation) channelIndex (some value)) }
  if (s.recoveries generation channelIndex).isSome then (mark true, none)
  else (mark false, some s.captureRuntime)

/-- What `recoverSystemViewHistory` does with the reply. -/
def mergeRecovered (s : Store) (capture : Capture) (channelIndex generation : Nat)
    (history : SystemViewHistoryResponse) : Store :=
  if !s.isCurrent capture ∨ history.generation ≠ generation then s
  else
    match s.runtime.systemview channelIndex with
    | none => s
    | some channel =>
      match channel.snapshot with
      | none => s
      | some snapshot =>
        if snapshot.generation ≠ generation then s
        else
          let events :=
            mergeSystemViewEvents (visible snapshot channel.events) (visible snapshot history.events)
          s.publish (setSystemView s.runtime channelIndex
            { channel with
              events
              loaded := true
              error := none
              presentationRecovery := presentationRecoveryState snapshot events false })

/-- The end of `recoverSystemViewHistory`, with the query of another one if that was asked for. -/
def recovered (s : Store) (capture : Capture) (channelIndex generation : Nat) :
    Store × Option Capture :=
  let rerun := s.recoveries generation channelIndex = some true
  let s := { s with
    recoveries := Function.update s.recoveries generation
      (Function.update (s.recoveries generation) channelIndex none) }
  if rerun ∧ s.isCurrent capture then s.recoverSystemViewHistory channelIndex generation
  else (s, none)

def applySystemViewEvent (s : Store) (payload : SystemViewRuntimeEvent) : Store × Option Capture :=
  if s.generation ≠ some payload.generation then (s, none)
  else
    let previous := (s.runtime.systemview payload.channelIndex).getD .new
    let visibleEvents := visible payload.snapshot (payload.events.getD [])
    let retainedPrevious := visible payload.snapshot previous.events
    let sequenceGap :=
      payload.events.isSome && hasSystemViewSequenceGap retainedPrevious visibleEvents
    let presentationLossAdvanced :=
      (previous.snapshot.map (·.presentationDroppedEvents)).getD 0 <
        payload.snapshot.presentationDroppedEvents
    let events :=
      if payload.events.isSome then mergeSystemViewEvents retainedPrevious visibleEvents
      else retainedPrevious
    let needsPresentationRecovery := sequenceGap || presentationLossAdvanced
    let s := s.publish (setSystemView s.runtime payload.channelIndex
      { snapshot := some payload.snapshot
        events
        loaded := previous.loaded
        error := none
        metadataSync := metadataSyncState payload.snapshot
        presentationRecovery :=
          presentationRecoveryState payload.snapshot events needsPresentationRecovery })
    if needsPresentationRecovery then
      s.recoverSystemViewHistory payload.channelIndex payload.generation
    else (s, none)

/-- `ensureSystemViewHistory` up to its queries. -/
def askSystemViewHistory (s : Store) (channelIndex : Nat) : Option Capture :=
  let capture := s.captureRuntime
  if s.isCurrent capture ∧ ¬ (s.runtime.systemview channelIndex).any (·.loaded) then some capture
  else none

/-- The rest of `ensureSystemViewHistory`. -/
def systemViewHistory (s : Store) (capture : Capture) (channelIndex : Nat)
    (snapshot : SystemViewSnapshot) (history : SystemViewHistoryResponse) : Store :=
  if !s.isCurrent capture ∨ s.generation ≠ some snapshot.generation then s
  else
    let previous := s.runtime.systemview channelIndex
    let events :=
      mergeSystemViewEvents (visible snapshot ((previous.map (·.events)).getD []))
        (visible snapshot history.events)
    s.publish (setSystemView s.runtime channelIndex
      { snapshot := some snapshot
        events
        loaded := true
        error := none
        metadataSync := metadataSyncState snapshot
        presentationRecovery := presentationRecoveryState snapshot events false })

def systemViewHistoryFailed (s : Store) (capture : Capture) (channelIndex : Nat) (cause : String) :
    Store :=
  if !s.isCurrent capture then s
  else
    let previous := (s.runtime.systemview channelIndex).getD .new
    s.publish (setSystemView s.runtime channelIndex
      { previous with loaded := false, error := some cause })

/-- `clearSystemView`, when the server has cleared. -/
def clearSystemView (s : Store) (capture : Capture) (channelIndex : Nat) : Store :=
  if !s.isCurrent capture then s
  else
    let previous := (s.runtime.systemview channelIndex).getD .new
    s.publish (setSystemView s.runtime channelIndex
      { previous with
        events := []
        loaded := false
        error := none
        presentationRecovery := EMPTY_PRESENTATION_RECOVERY })

def clearFailed (s : Store) (capture : Capture) (cause : String) : Store :=
  if !s.isCurrent capture then s else s.publish { s.runtime with error := some cause }

/-! ### Sessions that are not followed -/

variable {s : Store}

/-- Nothing is known of a session that is not followed. -/
def Released (s : Store) : Prop := s.scope = none → s.runtime = EMPTY

theorem publish_of_followed (h : s.scope.isSome) (next : RttRuntimeSnapshot) :
    (s.publish next).runtime = next := by
  rw [publish, if_pos h]

theorem publish_scope (s : Store) (next : RttRuntimeSnapshot) : (s.publish next).scope = s.scope := by
  unfold publish
  split <;> rfl

theorem followed_of_generation (h : s.Released) {g : Nat} (hg : s.generation = some g) :
    s.scope.isSome := by
  cases hscope : s.scope with
  | some scope => rfl
  | none =>
    rw [generation, h hscope] at hg
    cases hg

theorem Released.publish (h : s.Released) (next : RttRuntimeSnapshot) :
    (s.publish next).Released := by
  intro hscope
  rw [publish_scope] at hscope
  rw [Store.publish, hscope]
  exact h hscope

theorem Released.follow (h : s.Released) : s.follow.Released := by
  unfold Store.follow
  split
  · exact h
  · exact fun hscope => nomatch hscope

theorem Released.applySnapshot (h : s.Released) (snapshot : RttSnapshot) :
    (s.applySnapshot snapshot).Released := by
  unfold Store.applySnapshot
  dsimp only
  split
  · exact h
  · split
    · exact Released.publish (s := { s with loadedChannels := [] }) h _
    · exact h.publish _

theorem Released.selectRttChannel (h : s.Released) (channelIndex : Nat) :
    (s.selectRttChannel channelIndex).Released := by
  unfold Store.selectRttChannel
  split
  · split
    · exact h.publish _
    · exact h
  · exact h

theorem Released.askRttHistory (h : s.Released) (channelIndex : Nat) :
    (s.askRttHistory channelIndex).1.Released := by
  unfold Store.askRttHistory
  dsimp only
  split <;> exact h

theorem Released.appendBatch (h : s.Released) (g : Nat) (chunks : List RttChunk) :
    (s.appendBatch g chunks).Released := by
  unfold Store.appendBatch
  split
  · exact h
  · exact h.publish _

theorem Released.rttHistory (h : s.Released) (capture : Capture) (channelIndex : Nat)
    (history : RttHistoryResponse) : (s.rttHistory capture channelIndex history).Released := by
  unfold Store.rttHistory
  split
  · exact h
  · split
    · exact h
    · exact h.publish _

theorem Released.rttHistoryFailed (h : s.Released) (capture : Capture) (channelIndex : Nat)
    (cause : String) : (s.rttHistoryFailed capture channelIndex cause).Released := by
  unfold Store.rttHistoryFailed
  split
  · exact h
  · exact Released.publish (s := s.unload channelIndex) h _

end Store

end TauTerm.Rtt.RuntimeStore
