import Mathlib
import TauTerm.Lib.Paging
import TauTerm.Lib.Run
import TauTerm.Lib.Tally
import TauTerm.Rtt.HistoryStore

/-!
# The accounts of the history

What is kept of a channel is the end of what was recorded for it, within the limits; the counters say
how much that is and how much is gone. A reader that goes from page to page gets what is kept all the
time.
-/

namespace TauTerm.Rtt.History

open Lib

abbrev bytesOf (chunks : List StoredRttChunk) : Nat := weigh StoredRttChunk.length chunks

def ofChannel (recorded : List StoredRttChunk) (channel : Nat) : List StoredRttChunk :=
  recorded.filter fun chunk => chunk.channelIndex = channel

theorem ofChannel_append (recorded : List StoredRttChunk) (chunk : StoredRttChunk) (channel : Nat) :
    ofChannel (recorded ++ [chunk]) channel =
      ofChannel recorded channel ++ if chunk.channelIndex = channel then [chunk] else [] := by
  rw [ofChannel, List.filter_append, ofChannel]
  congr 1
  split
  · rename_i h
    simp [h]
  · rename_i h
    simp [h]

theorem saturatingAdd_eq {a b : Nat} (h : a + b < 2 ^ 64) : saturatingAdd a b = a + b := by
  unfold saturatingAdd U64_MAX
  omega

theorem bytesOf_filter_le (recorded : List StoredRttChunk) (channel : Nat) :
    bytesOf (ofChannel recorded channel) ≤ bytesOf recorded := by
  induction recorded with
  | nil => exact le_rfl
  | cons chunk recorded ih =>
    unfold ofChannel at ih ⊢
    rw [List.filter_cons]
    split
    · rw [bytesOf, weigh_cons, bytesOf, weigh_cons]
      exact Nat.add_le_add_left ih _
    · rw [bytesOf, bytesOf, weigh_cons]
      exact ih.trans (Nat.le_add_left _ _)

/-! ## A channel -/

/-- The history of a channel for which these chunks have been recorded. -/
structure ChannelSound (own : List StoredRttChunk) (h : ChannelHistory) : Prop where
  suffix : h.chunks <:+ own
  bytes : h.bytes = bytesOf h.chunks
  chunks : h.droppedChunks + h.chunks.length = own.length
  dropped : h.droppedBytes + h.bytes = bytesOf own

/-- No counter can saturate. -/
structure Fits (recorded : List StoredRttChunk) : Prop where
  chunks : recorded.length < 2 ^ 64
  bytes : bytesOf recorded < 2 ^ 64

theorem Fits.ofChannel {recorded : List StoredRttChunk} (h : Fits recorded) (channel : Nat) :
    Fits (ofChannel recorded channel) where
  chunks := (List.length_filter_le _ _).trans_lt h.chunks
  bytes := (bytesOf_filter_le _ _).trans_lt h.bytes

variable {own recorded : List StoredRttChunk} {h : ChannelHistory} {s : HistoryStore}
  {chunk : StoredRttChunk} {channel : Nat}

/-- A chunk that is dropped is counted. -/
theorem ChannelHistory.dropFront_eq (hs : ChannelSound own h) (hfits : Fits own)
    {chunks : List StoredRttChunk} (hchunks : h.chunks = chunk :: chunks) :
    h.dropFront = ⟨chunks, h.bytes - chunk.length, h.droppedChunks + 1,
      h.droppedBytes + chunk.length⟩ := by
  have hcount := hs.chunks
  have hbytes := hs.bytes
  have hdropped := hs.dropped
  rw [hchunks, List.length_cons] at hcount
  rw [hchunks, bytesOf, weigh_cons] at hbytes
  rw [ChannelHistory.dropFront, hchunks]
  dsimp only
  rw [saturatingAdd_eq, saturatingAdd_eq]
  · have := hfits.bytes
    omega
  · have := hfits.chunks
    omega

theorem ChannelSound.dropFront (hs : ChannelSound own h) (hfits : Fits own) :
    ChannelSound own h.dropFront := by
  cases hchunks : h.chunks with
  | nil => rwa [ChannelHistory.dropFront, hchunks]
  | cons chunk chunks =>
    obtain ⟨hsuffix, hbytes, hcount, hdropped⟩ := hs
    rw [h.dropFront_eq ⟨hsuffix, hbytes, hcount, hdropped⟩ hfits hchunks]
    rw [hchunks] at hsuffix hcount hbytes
    rw [bytesOf, weigh_cons] at hbytes
    rw [List.length_cons] at hcount
    refine ⟨(List.suffix_cons chunk chunks).trans hsuffix, ?_, ?_, ?_⟩
    · exact Nat.sub_eq_of_eq_add (by rw [hbytes, Nat.add_comm])
    · dsimp only
      omega
    · dsimp only
      omega

/-! ## The store -/

structure StoreSound (recorded : List StoredRttChunk) (s : HistoryStore) : Prop where
  channel : ∀ channel, ChannelSound (ofChannel recorded channel) (s.get channel)
  total : s.totalBytes = tally ChannelHistory.bytes s.channels
  chunks : tally ChannelHistory.droppedChunks s.channels +
    tally (fun h => h.chunks.length) s.channels = recorded.length
  dropped : tally ChannelHistory.droppedBytes s.channels +
    tally ChannelHistory.bytes s.channels = bytesOf recorded

namespace HistoryStore

theorem get_of_lookup (h' : s.channels.lookup channel = some h) : s.get channel = h := by
  rw [get, h', Option.getD_some]

theorem get_insert (c : Nat) (total : Nat) :
    get ⟨s.channels.insert channel h, total⟩ c = if c = channel then h else s.get c := by
  unfold get
  split
  · rename_i heq
    rw [heq, AList.lookup_insert, Option.getD_some]
  · rename_i hne
    rw [AList.lookup_insert_ne hne]

theorem dropFront_none (hlookup : s.channels.lookup channel = none) : s.dropFront channel = s := by
  rw [dropFront, hlookup]

theorem dropFront_nil (hlookup : s.channels.lookup channel = some h) (hchunks : h.chunks = []) :
    s.dropFront channel = s := by
  simp only [dropFront, hlookup, hchunks]

theorem dropFront_cons {chunks : List StoredRttChunk} (hlookup : s.channels.lookup channel = some h)
    (hchunks : h.chunks = chunk :: chunks) : s.dropFront channel =
      ⟨s.channels.insert channel h.dropFront, s.totalBytes - chunk.length⟩ := by
  simp only [dropFront, hlookup, hchunks]

theorem get_dropFront (s : HistoryStore) (channel c : Nat) :
    (s.dropFront channel).get c = if c = channel then (s.get c).dropFront else s.get c := by
  cases hlookup : s.channels.lookup channel with
  | none =>
    rw [dropFront_none hlookup]
    by_cases heq : c = channel
    · rw [if_pos heq, heq, get, hlookup]
      rfl
    · rw [if_neg heq]
  | some history =>
    have hget := get_of_lookup hlookup
    cases hchunks : history.chunks with
    | nil =>
      rw [dropFront_nil hlookup hchunks]
      by_cases heq : c = channel
      · rw [if_pos heq, heq, hget, ChannelHistory.dropFront, hchunks]
      · rw [if_neg heq]
    | cons chunk chunks =>
      rw [dropFront_cons hlookup hchunks, get_insert]
      by_cases heq : c = channel
      · rw [if_pos heq, if_pos heq, heq, hget]
      · rw [if_neg heq, if_neg heq]

end HistoryStore

theorem StoreSound.dropFront (hs : StoreSound recorded s) (hfits : Fits recorded) (channel : Nat) :
    StoreSound recorded (s.dropFront channel) := by
  have hchannel : ∀ c, ChannelSound (ofChannel recorded c) ((s.dropFront channel).get c) := by
    intro c
    rw [s.get_dropFront channel c]
    split
    · exact (hs.channel c).dropFront (hfits.ofChannel c)
    · exact hs.channel c
  cases hlookup : s.channels.lookup channel with
  | none =>
    rw [HistoryStore.dropFront_none hlookup]
    exact hs
  | some history =>
    have hsound := hs.channel channel
    rw [HistoryStore.get_of_lookup hlookup] at hsound
    cases hchunks : history.chunks with
    | nil =>
      rw [HistoryStore.dropFront_nil hlookup hchunks]
      exact hs
    | cons chunk chunks =>
      have hdrop := history.dropFront_eq hsound (hfits.ofChannel channel) hchunks
      have hbytes := hsound.bytes
      rw [hchunks, bytesOf, weigh_cons] at hbytes
      have htotal := hs.total
      have hcount := hs.chunks
      have hdropped := hs.dropped
      have hinsert (f : ChannelHistory → Nat) :=
        @tally_insert _ _ _ f _ _ _ history.dropFront hlookup
      have hb := hinsert ChannelHistory.bytes
      have hd := hinsert ChannelHistory.droppedBytes
      have hc := hinsert ChannelHistory.droppedChunks
      have hl := hinsert fun h => h.chunks.length
      simp only [hdrop, hchunks, List.length_cons] at hb hd hc hl
      rw [HistoryStore.dropFront_cons hlookup hchunks, hdrop] at hchannel ⊢
      refine ⟨hchannel, ?_, ?_, ?_⟩
      · dsimp only
        omega
      · dsimp only
        omega
      · dsimp only
        omega

theorem StoreSound.add (hs : StoreSound recorded s) (chunk : StoredRttChunk) :
    StoreSound (recorded ++ [chunk]) (s.add chunk) := by
  have hweigh (chunks : List StoredRttChunk) :
      bytesOf (chunks ++ [chunk]) = bytesOf chunks + chunk.length := by
    rw [bytesOf, weigh_append, weigh_cons, weigh_nil, Nat.add_zero]
  have htally (f : ChannelHistory → Nat) (hf : f {} = 0) (history : ChannelHistory) :
      tally f (s.channels.insert chunk.channelIndex history) + f (s.get chunk.channelIndex) =
        tally f s.channels + f history := by
    cases hlookup : s.channels.lookup chunk.channelIndex with
    | none => rw [tally_insert_new hlookup, HistoryStore.get, hlookup, Option.getD_none, hf, Nat.add_zero]
    | some history' => rw [HistoryStore.get_of_lookup hlookup, tally_insert hlookup]
  have htotal := hs.total
  have hcount := hs.chunks
  have hdropped := hs.dropped
  refine ⟨fun c => ?_, ?_, ?_, ?_⟩
  · rw [HistoryStore.add, HistoryStore.get_insert, ofChannel_append]
    obtain ⟨hsuffix, hbytes, hchunks, hlost⟩ := hs.channel c
    split
    · rename_i heq
      subst heq
      rw [if_pos rfl]
      obtain ⟨front, hfront⟩ := hsuffix
      refine ⟨⟨front, by rw [← hfront, List.append_assoc]; rfl⟩, ?_, ?_, ?_⟩
      · dsimp only [ChannelHistory.pushBack]
        rw [hweigh, hbytes]
      · simp only [ChannelHistory.pushBack, List.length_append, List.length_singleton]
        omega
      · dsimp only [ChannelHistory.pushBack]
        rw [hweigh]
        omega
    · rename_i hne
      rw [if_neg (Ne.symm hne), List.append_nil]
      exact ⟨hsuffix, hbytes, hchunks, hlost⟩
  · have hb := htally ChannelHistory.bytes rfl ((s.get chunk.channelIndex).pushBack chunk)
    dsimp only [HistoryStore.add, ChannelHistory.pushBack] at hb ⊢
    omega
  · have hc := htally ChannelHistory.droppedChunks rfl ((s.get chunk.channelIndex).pushBack chunk)
    have hl := htally (fun h => h.chunks.length) rfl ((s.get chunk.channelIndex).pushBack chunk)
    simp only [List.length_append, List.length_singleton, HistoryStore.add,
      ChannelHistory.pushBack] at hc hl ⊢
    omega
  · have hb := htally ChannelHistory.bytes rfl ((s.get chunk.channelIndex).pushBack chunk)
    have hd := htally ChannelHistory.droppedBytes rfl ((s.get chunk.channelIndex).pushBack chunk)
    rw [hweigh]
    dsimp only [HistoryStore.add, ChannelHistory.pushBack] at hb hd ⊢
    omega

/-! ## The loops -/

/-- What a loop makes of a store: it drops chunks. -/
structure Trimmed (recorded : List StoredRttChunk) (s s' : HistoryStore) : Prop where
  sound : StoreSound recorded s'
  suffix : ∀ c, (s'.get c).chunks <:+ (s.get c).chunks
  bytes : ∀ c, (s'.get c).bytes ≤ (s.get c).bytes

theorem Trimmed.refl (hs : StoreSound recorded s) : Trimmed recorded s s :=
  ⟨hs, fun _ => List.suffix_refl _, fun _ => le_rfl⟩

theorem Trimmed.trans {s' s'' : HistoryStore} (h : Trimmed recorded s s')
    (h' : Trimmed recorded s' s'') : Trimmed recorded s s'' :=
  ⟨h'.sound, fun c => (h'.suffix c).trans (h.suffix c), fun c => (h'.bytes c).trans (h.bytes c)⟩

theorem dropFront_suffix (h : ChannelHistory) : h.dropFront.chunks <:+ h.chunks := by
  unfold ChannelHistory.dropFront
  split
  · exact List.suffix_refl _
  · rename_i chunk chunks hchunks
    rw [hchunks]
    exact List.suffix_cons _ _

theorem dropFront_bytes_le (h : ChannelHistory) : h.dropFront.bytes ≤ h.bytes := by
  unfold ChannelHistory.dropFront
  split
  · exact le_rfl
  · exact Nat.sub_le _ _

theorem length_dropFront (h : ChannelHistory) : h.dropFront.chunks.length = h.chunks.length - 1 := by
  unfold ChannelHistory.dropFront
  split
  · rename_i hchunks
    rw [hchunks]
    rfl
  · rename_i hchunks
    rw [hchunks]
    rfl

theorem trimmed_dropFront (hs : StoreSound recorded s) (hfits : Fits recorded) (channel : Nat) :
    Trimmed recorded s (s.dropFront channel) where
  sound := hs.dropFront hfits channel
  suffix c := by
    rw [s.get_dropFront channel c]
    split
    · exact dropFront_suffix _
    · exact List.suffix_refl _
  bytes c := by
    rw [s.get_dropFront channel c]
    split
    · exact dropFront_bytes_le _
    · exact le_rfl

theorem trimmed_trimChannel (hs : StoreSound recorded s) (hfits : Fits recorded) (channel turns : Nat) :
    Trimmed recorded s (s.trimChannel channel turns) := by
  induction turns generalizing s with
  | zero => exact .refl hs
  | succ turns ih =>
    rw [HistoryStore.trimChannel]
    split
    · have hdrop := trimmed_dropFront hs hfits channel
      exact hdrop.trans (ih hdrop.sound)
    · exact .refl hs

/-- The first loop ends with the channel inside its limit. -/
theorem bytes_trimChannel (hs : StoreSound recorded s) (hfits : Fits recorded) {turns : Nat}
    (hturns : (s.get channel).chunks.length ≤ turns) :
    ((s.trimChannel channel turns).get channel).bytes ≤ HISTORY_PER_CHANNEL_BYTES := by
  induction turns generalizing s with
  | zero =>
    have hnil := List.length_eq_zero_iff.mp (Nat.le_zero.mp hturns)
    rw [HistoryStore.trimChannel, (hs.channel channel).bytes, hnil]
    exact Nat.zero_le _
  | succ turns ih =>
    rw [HistoryStore.trimChannel]
    split
    · refine ih (hs.dropFront hfits channel) ?_
      rw [s.get_dropFront, if_pos rfl, length_dropFront]
      omega
    · exact Nat.le_of_not_lt ‹_›

theorem length_le_chunkCount (s : HistoryStore) (channel : Nat) :
    (s.get channel).chunks.length ≤ s.chunkCount := by
  cases hlookup : s.channels.lookup channel with
  | none =>
    rw [HistoryStore.get, hlookup]
    exact Nat.zero_le _
  | some history =>
    rw [HistoryStore.get_of_lookup hlookup]
    exact le_tally (f := fun h => h.chunks.length) hlookup

theorem lookup_of_mem {e : Sigma fun _ : Nat => ChannelHistory} (he : e ∈ s.channels.entries) :
    s.channels.lookup e.1 = some e.2 :=
  AList.mem_lookup_iff.mpr he

/-- The channel that the second loop chooses has a chunk. -/
theorem oldestChannel_spec (s : HistoryStore) : match s.oldestChannel with
    | none => ∀ c, (s.get c).chunks = []
    | some channel => ∃ h, s.channels.lookup channel = some h ∧ h.chunks ≠ [] := by
  unfold HistoryStore.oldestChannel
  generalize hfronts : (s.channels.entries.filterMap fun e =>
    e.2.chunks.head?.map fun chunk => (e.1, chunk.sequence)) = fronts
  cases hmin : fronts.argmin Prod.snd with
  | none =>
    rw [List.argmin_eq_none] at hmin
    subst hmin
    intro c
    cases hlookup : s.channels.lookup c with
    | none => rw [HistoryStore.get, hlookup]; rfl
    | some history =>
      rw [HistoryStore.get_of_lookup hlookup]
      have := List.filterMap_eq_nil_iff.mp hfronts ⟨c, history⟩ (AList.mem_lookup_iff.mp hlookup)
      simpa using this
  | some front =>
    have hmem := List.argmin_mem hmin
    rw [← hfronts] at hmem
    obtain ⟨e, he, hfront⟩ := List.mem_filterMap.mp hmem
    obtain ⟨chunk, hhead, rfl⟩ := Option.map_eq_some_iff.mp hfront
    refine ⟨e.2, lookup_of_mem he, fun hnil => ?_⟩
    rw [hnil] at hhead
    cases hhead

theorem chunkCount_dropFront (hlookup : s.channels.lookup channel = some h) (hne : h.chunks ≠ []) :
    (s.dropFront channel).chunkCount + 1 = s.chunkCount := by
  obtain ⟨chunk, chunks, hchunks⟩ := List.exists_cons_of_ne_nil hne
  rw [HistoryStore.dropFront_cons hlookup hchunks]
  have hinsert := @tally_insert _ _ _ (fun h => h.chunks.length) _ _ _ h.dropFront hlookup
  rw [length_dropFront, hchunks, List.length_cons] at hinsert
  change tally (fun h => h.chunks.length) (s.channels.insert channel h.dropFront) + 1 =
    tally (fun h => h.chunks.length) s.channels
  omega

theorem total_eq_zero (hs : StoreSound recorded s) (hnil : ∀ c, (s.get c).chunks = []) :
    s.totalBytes = 0 := by
  rw [hs.total]
  refine tally_eq_zero fun e he => ?_
  have hget := HistoryStore.get_of_lookup (lookup_of_mem he)
  rw [← hget, (hs.channel e.1).bytes, hnil]
  rfl

theorem trimmed_trimSession (hs : StoreSound recorded s) (hfits : Fits recorded) (turns : Nat) :
    Trimmed recorded s (s.trimSession turns) := by
  induction turns generalizing s with
  | zero => exact .refl hs
  | succ turns ih =>
    rw [HistoryStore.trimSession]
    split
    · split
      · exact .refl hs
      · rename_i channel _
        have hdrop := trimmed_dropFront hs hfits channel
        exact hdrop.trans (ih hdrop.sound)
    · exact .refl hs

/-- The second loop ends with the session inside its limit. -/
theorem total_trimSession (hs : StoreSound recorded s) (hfits : Fits recorded) {turns : Nat}
    (hturns : s.chunkCount ≤ turns) :
    (s.trimSession turns).totalBytes ≤ HISTORY_PER_SESSION_BYTES := by
  induction turns generalizing s with
  | zero =>
    have hnil (c : Nat) : (s.get c).chunks = [] :=
      List.length_eq_zero_iff.mp (by have := length_le_chunkCount s c; omega)
    rw [HistoryStore.trimSession, total_eq_zero hs hnil]
    exact Nat.zero_le _
  | succ turns ih =>
    have holdest := oldestChannel_spec s
    rw [HistoryStore.trimSession]
    split
    · split
      · rename_i hnone
        rw [hnone] at holdest
        rw [total_eq_zero hs holdest]
        exact Nat.zero_le _
      · rename_i channel hsome
        rw [hsome] at holdest
        obtain ⟨h, hlookup, hne⟩ := holdest
        have := chunkCount_dropFront hlookup hne
        exact ih (hs.dropFront hfits channel) (by omega)
    · exact Nat.le_of_not_lt ‹_›

/-! ## Pushing -/

structure InLimits (s : HistoryStore) : Prop where
  channel : ∀ c, (s.get c).bytes ≤ HISTORY_PER_CHANNEL_BYTES
  session : s.totalBytes ≤ HISTORY_PER_SESSION_BYTES

theorem push_spec (hs : StoreSound recorded s) (hlimits : InLimits s) (chunk : StoredRttChunk)
    (hfits : Fits (recorded ++ [chunk])) :
    Trimmed (recorded ++ [chunk]) (s.add chunk) (s.push chunk) ∧ InLimits (s.push chunk) := by
  have hadd := hs.add chunk
  have hfirst := trimmed_trimChannel hadd hfits chunk.channelIndex (s.add chunk).chunkCount
  have hown := bytes_trimChannel hadd hfits (length_le_chunkCount _ chunk.channelIndex)
  have hsecond := trimmed_trimSession hfirst.sound hfits
    ((s.add chunk).trimChannel chunk.channelIndex (s.add chunk).chunkCount).chunkCount
  refine ⟨hfirst.trans hsecond, fun c => ?_, total_trimSession hfirst.sound hfits le_rfl⟩
  refine (hsecond.bytes c).trans ?_
  by_cases heq : c = chunk.channelIndex
  · rw [heq]
    exact hown
  · refine (hfirst.bytes c).trans ?_
    rw [HistoryStore.add, HistoryStore.get_insert, if_neg heq]
    exact hlimits.channel c

theorem lossTotals_eq (hs : StoreSound recorded s) (hfits : Fits recorded) :
    s.lossTotals = (tally ChannelHistory.droppedChunks s.channels,
      tally ChannelHistory.droppedBytes s.channels) := by
  have hchunks := hs.chunks
  have hdropped := hs.dropped
  have hfits₁ := hfits.chunks
  have hfits₂ := hfits.bytes
  have hfold : ∀ (es : List (Sigma fun _ : Nat => ChannelHistory)) (total : Nat × Nat),
      total.1 + (es.map fun e => e.2.droppedChunks).sum < 2 ^ 64 →
      total.2 + (es.map fun e => e.2.droppedBytes).sum < 2 ^ 64 →
      es.foldl (fun total e => (saturatingAdd total.1 e.2.droppedChunks,
        saturatingAdd total.2 e.2.droppedBytes)) total =
      (total.1 + (es.map fun e => e.2.droppedChunks).sum,
        total.2 + (es.map fun e => e.2.droppedBytes).sum) := by
    intro es
    induction es with
    | nil => exact fun _ _ _ => rfl
    | cons e es ih =>
      intro total h₁ h₂
      rw [List.map_cons, List.sum_cons] at h₁ h₂
      rw [List.foldl_cons, saturatingAdd_eq (by omega), saturatingAdd_eq (by omega),
        ih _ (by dsimp only; omega) (by dsimp only; omega), List.map_cons, List.map_cons,
        List.sum_cons, List.sum_cons, Nat.add_assoc, Nat.add_assoc]
  unfold tally at hchunks hdropped ⊢
  rw [HistoryStore.lossTotals, hfold _ (0, 0) (by dsimp only; omega) (by dsimp only; omega),
    Nat.zero_add, Nat.zero_add]

/-! ## The accounts of a session -/

/-- A session, what has been recorded in it, and what a reader of one channel has received. -/
structure World where
  shared : RttShared
  recorded : List StoredRttChunk
  received : List RttChunkDto
  after : Option Nat

inductive Action where
  | record (timestampMs channelIndex : Nat) (data : List UInt8)
  | ask
  deriving DecidableEq

namespace World

def start (generation : Nat) (after : Option Nat) : World := ⟨.new generation, [], [], after⟩

/-- The reader asks with the last sequence number it has received. -/
def step (encode : List UInt8 → String) (channel : Nat) (w : World) : Action → World
  | .record timestampMs channelIndex data =>
    { w with
      shared := w.shared.recordRx timestampMs channelIndex data
      recorded := w.recorded ++ [w.shared.stamp timestampMs channelIndex data] }
  | .ask =>
    let response := w.shared.history.response encode w.shared.generation channel w.after
    { w with
      received := w.received ++ response.chunks
      after := (response.chunks.getLast?.map RttChunkDto.sequence).or w.after }

def retained (w : World) (channel : Nat) : List StoredRttChunk := (w.shared.history.get channel).chunks

/-- What the counters say of the chunks. -/
structure Accounts (w : World) : Prop where
  suffix : ∀ channel, w.retained channel <:+ ofChannel w.recorded channel
  bytes : ∀ channel, (w.shared.history.get channel).bytes = bytesOf (w.retained channel)
  total : w.shared.history.totalBytes = tally (fun h => bytesOf h.chunks) w.shared.history.channels
  limits : InLimits w.shared.history
  rxBytes : w.shared.snapshot.rxBytes =
    w.shared.history.totalBytes + w.shared.snapshot.evictedHistoryBytes
  chunks : w.recorded.length =
    w.shared.history.chunkCount + w.shared.snapshot.evictedHistoryChunks
  offsets : ∀ channel, (ofChannel w.recorded channel).IsChain fun chunk next =>
    chunk.channelOffset + chunk.length = next.channelOffset

/-- Fewer than 2^64 chunks and bytes are recorded. -/
def Room (w : World) : Action → Prop
  | .record _ _ data => w.recorded.length + 1 < 2 ^ 64 ∧ bytesOf w.recorded + data.length < 2 ^ 64
  | .ask => True

structure Sound (w : World) : Prop where
  store : StoreSound w.recorded w.shared.history
  limits : InLimits w.shared.history
  rxBytes : w.shared.snapshot.rxBytes = bytesOf w.recorded
  losses : (w.shared.snapshot.evictedHistoryChunks, w.shared.snapshot.evictedHistoryBytes) =
    w.shared.history.lossTotals
  fits : Fits w.recorded
  offset : ∀ channel, w.shared.channelOffsets channel = bytesOf (ofChannel w.recorded channel)
  chain : ∀ channel, (ofChannel w.recorded channel).IsChain fun chunk next =>
    chunk.channelOffset + chunk.length = next.channelOffset
  last : ∀ channel, ∀ chunk ∈ (ofChannel w.recorded channel).getLast?,
    chunk.channelOffset + chunk.length = w.shared.channelOffsets channel
  next : w.shared.nextSequence = (w.recorded.length + 1) % 2 ^ 64
  ascending : Ascending StoredRttChunk.sequence w.recorded
  numbered : ∀ chunk ∈ w.recorded, chunk.sequence ≤ w.recorded.length

theorem sound_start (generation : Nat) (after : Option Nat) : Sound (start generation after) where
  store :=
    { channel := fun _ => ⟨List.suffix_refl _, rfl, rfl, rfl⟩
      total := rfl
      chunks := rfl
      dropped := rfl }
  limits := ⟨fun _ => Nat.zero_le _, Nat.zero_le _⟩
  rxBytes := rfl
  losses := rfl
  fits := ⟨Nat.two_pow_pos 64, Nat.two_pow_pos 64⟩
  offset := fun _ => rfl
  chain := fun _ => .nil
  last := fun _ _ h => nomatch h
  next := rfl
  ascending := .nil
  numbered := fun _ h => nomatch h

variable {w : World}

theorem Sound.accounts (h : Sound w) : Accounts w where
  suffix channel := (h.store.channel channel).suffix
  bytes channel := (h.store.channel channel).bytes
  total := by
    rw [h.store.total, tally, tally]
    congr 1
    refine List.map_congr_left fun e he => ?_
    rw [← HistoryStore.get_of_lookup (lookup_of_mem he)]
    exact (h.store.channel e.1).bytes
  limits := h.limits
  rxBytes := by
    have hlosses := h.losses
    rw [lossTotals_eq h.store h.fits, Prod.mk.injEq] at hlosses
    rw [h.rxBytes, hlosses.2, h.store.total, ← h.store.dropped, Nat.add_comm]
  chunks := by
    have hlosses := h.losses
    rw [lossTotals_eq h.store h.fits, Prod.mk.injEq] at hlosses
    rw [hlosses.1, ← h.store.chunks, Nat.add_comm]
    rfl
  offsets := h.chain

theorem bytesOf_append (chunks : List StoredRttChunk) (chunk : StoredRttChunk) :
    bytesOf (chunks ++ [chunk]) = bytesOf chunks + chunk.length := by
  rw [bytesOf, weigh_append, weigh_cons, weigh_nil, Nat.add_zero]

theorem Sound.stamp_sequence (h : Sound w) (hroom : w.recorded.length + 1 < 2 ^ 64)
    (timestampMs channelIndex : Nat) (data : List UInt8) :
    (w.shared.stamp timestampMs channelIndex data).sequence = w.recorded.length + 1 :=
  h.next.trans (Nat.mod_eq_of_lt hroom)

theorem Sound.record (h : Sound w) {encode : List UInt8 → String} {channel timestampMs channelIndex : Nat}
    {data : List UInt8} (hroom : Room w (.record timestampMs channelIndex data)) :
    Sound (w.step encode channel (.record timestampMs channelIndex data)) := by
  have hsequence := h.stamp_sequence hroom.1 timestampMs channelIndex data
  obtain ⟨hcount, hbytes⟩ := hroom
  have hfits : Fits (w.recorded ++ [w.shared.stamp timestampMs channelIndex data]) :=
    ⟨by rwa [List.length_append], by rwa [bytesOf_append]⟩
  obtain ⟨htrimmed, hlimits⟩ := push_spec h.store h.limits _ hfits
  have hof (c : Nat) : ofChannel (w.recorded ++ [w.shared.stamp timestampMs channelIndex data]) c =
      ofChannel w.recorded c ++
        if channelIndex = c then [w.shared.stamp timestampMs channelIndex data] else [] :=
    ofChannel_append ..
  have hown := (hfits.ofChannel channelIndex).bytes
  rw [hof, if_pos rfl, bytesOf_append] at hown
  have hoffset : saturatingAdd (w.shared.channelOffsets channelIndex) data.length =
      w.shared.channelOffsets channelIndex + data.length := by
    refine saturatingAdd_eq ?_
    rw [h.offset channelIndex]
    exact hown
  exact
    { store := htrimmed.sound
      limits := hlimits
      rxBytes := by
        change saturatingAdd w.shared.snapshot.rxBytes data.length = _
        rw [h.rxBytes, saturatingAdd_eq hbytes]
        exact (bytesOf_append w.recorded (w.shared.stamp timestampMs channelIndex data)).symm
      losses := rfl
      fits := hfits
      offset := fun c => by
        change Function.update w.shared.channelOffsets channelIndex _ c =
          bytesOf (ofChannel (w.recorded ++ [_]) c)
        rw [hof]
        by_cases hc : c = channelIndex
        · subst hc
          rw [Function.update_self, hoffset, if_pos rfl, bytesOf_append, h.offset]
          rfl
        · rw [Function.update_of_ne hc, if_neg (Ne.symm hc), List.append_nil, h.offset]
      chain := fun c => by
        change (ofChannel (w.recorded ++ [_]) c).IsChain _
        rw [hof]
        by_cases hc : c = channelIndex
        · subst hc
          rw [if_pos rfl, List.isChain_append]
          refine ⟨h.chain c, .singleton _, fun chunk hchunk next hnext => ?_⟩
          obtain rfl := Option.mem_some_iff.mp hnext
          exact h.last c chunk hchunk
        · rw [if_neg (Ne.symm hc), List.append_nil]
          exact h.chain c
      last := fun c chunk hchunk => by
        change chunk ∈ (ofChannel (w.recorded ++ [_]) c).getLast? at hchunk
        rw [hof] at hchunk
        change _ = Function.update w.shared.channelOffsets channelIndex _ c
        by_cases hc : c = channelIndex
        · subst hc
          rw [if_pos rfl, List.getLast?_concat] at hchunk
          obtain rfl := Option.mem_some_iff.mp hchunk
          rw [Function.update_self, hoffset]
          rfl
        · rw [if_neg (Ne.symm hc), List.append_nil] at hchunk
          rw [Function.update_of_ne hc]
          exact h.last c chunk hchunk
      next := by
        change (w.shared.nextSequence + 1) % 2 ^ 64 = ((w.recorded ++ [_]).length + 1) % 2 ^ 64
        rw [h.next, List.length_append, List.length_singleton, Nat.mod_add_mod]
      ascending := by
        refine List.pairwise_append.mpr ⟨h.ascending, List.pairwise_singleton _ _, ?_⟩
        intro chunk hchunk next hnext
        obtain rfl := List.mem_singleton.mp hnext
        have := h.numbered chunk hchunk
        rw [hsequence]
        omega
      numbered := fun chunk hchunk => by
        change chunk.sequence ≤ (w.recorded ++ [_]).length
        rw [List.length_append, List.length_singleton]
        obtain hold | hnew := List.mem_append.mp hchunk
        · have := h.numbered chunk hold
          omega
        · obtain rfl := List.mem_singleton.mp hnew
          exact hsequence.le }

theorem Sound.step (h : Sound w) {encode : List UInt8 → String} {channel : Nat} {action : Action}
    (hroom : Room w action) : Sound (w.step encode channel action) := by
  cases action with
  | record timestampMs channelIndex data => exact h.record hroom
  | ask =>
    exact
      { store := h.store
        limits := h.limits
        rxBytes := h.rxBytes
        losses := h.losses
        fits := h.fits
        offset := h.offset
        chain := h.chain
        last := h.last
        next := h.next
        ascending := h.ascending
        numbered := h.numbered }

end World

end TauTerm.Rtt.History
