import Mathlib

/-!
# The history of the RTT runtime

`HistoryStore` keeps the last chunks of each channel within two limits, one for a channel and one for
the session. `record_rx` stamps a chunk, puts it into the history and updates the snapshot.
-/

namespace TauTerm.Rtt.History

def HISTORY_PER_CHANNEL_BYTES : Nat := 256 * 1024

def HISTORY_PER_SESSION_BYTES : Nat := 2 * 1024 * 1024

def MAX_HISTORY_RESPONSE_CHUNKS : Nat := 512

def U64_MAX : Nat := 2 ^ 64 - 1

/-- `saturating_add` of `u64`. -/
def saturatingAdd (a b : Nat) : Nat := min (a + b) U64_MAX

structure StoredRttChunk where
  generation : Nat
  sequence : Nat
  timestampMs : Nat
  channelIndex : Nat
  channelOffset : Nat
  data : List UInt8
  deriving DecidableEq

def StoredRttChunk.length (c : StoredRttChunk) : Nat := c.data.length

structure ChannelHistory where
  chunks : List StoredRttChunk := []
  bytes : Nat := 0
  droppedChunks : Nat := 0
  droppedBytes : Nat := 0
  deriving DecidableEq

structure HistoryStore where
  channels : AList fun _ : Nat => ChannelHistory
  totalBytes : Nat

/-- A chunk as it is sent to the WebView. -/
structure RttChunkDto where
  generation : Nat
  sequence : Nat
  timestampMs : Nat
  channelIndex : Nat
  channelOffset : Nat
  dataB64 : String
  deriving DecidableEq

/-- `encode` is the standard Base64 of a library. -/
def RttChunkDto.fromStored (encode : List UInt8 → String) (chunk : StoredRttChunk) : RttChunkDto where
  generation := chunk.generation
  sequence := chunk.sequence
  timestampMs := chunk.timestampMs
  channelIndex := chunk.channelIndex
  channelOffset := chunk.channelOffset
  dataB64 := encode chunk.data

structure RttHistoryResponse where
  generation : Nat
  chunks : List RttChunkDto
  oldestSequence : Option Nat
  newestSequence : Option Nat
  droppedChunks : Nat
  droppedBytes : Nat
  deriving DecidableEq

namespace ChannelHistory

def dropFront (h : ChannelHistory) : ChannelHistory :=
  match h.chunks with
  | [] => h
  | chunk :: chunks =>
    { chunks
      bytes := h.bytes - chunk.length
      droppedChunks := saturatingAdd h.droppedChunks 1
      droppedBytes := saturatingAdd h.droppedBytes chunk.length }

def pushBack (h : ChannelHistory) (chunk : StoredRttChunk) : ChannelHistory :=
  { h with
    bytes := h.bytes + chunk.length
    chunks := h.chunks ++ [chunk] }

end ChannelHistory

namespace HistoryStore

def empty : HistoryStore := ⟨∅, 0⟩

/-- What is known of a channel; nothing of one that is not in the table. -/
def get (s : HistoryStore) (channel : Nat) : ChannelHistory := (s.channels.lookup channel).getD {}

def dropFront (s : HistoryStore) (channel : Nat) : HistoryStore :=
  match s.channels.lookup channel with
  | none => s
  | some history =>
    match history.chunks with
    | [] => s
    | chunk :: _ =>
      { channels := s.channels.insert channel history.dropFront
        totalBytes := s.totalBytes - chunk.length }

/-- The first loop of `push`. Each turn takes a chunk, so there are as many turns as chunks at most. -/
def trimChannel (channel : Nat) : Nat → HistoryStore → HistoryStore
  | 0, s => s
  | turns + 1, s =>
    if HISTORY_PER_CHANNEL_BYTES < (s.get channel).bytes then
      trimChannel channel turns (s.dropFront channel)
    else s

/-- The channel whose first chunk is the oldest of all. -/
def oldestChannel (s : HistoryStore) : Option Nat :=
  ((s.channels.entries.filterMap fun e => e.2.chunks.head?.map fun chunk =>
    (e.1, chunk.sequence)).argmin Prod.snd).map Prod.fst

/-- The second loop of `push`. -/
def trimSession : Nat → HistoryStore → HistoryStore
  | 0, s => s
  | turns + 1, s =>
    if HISTORY_PER_SESSION_BYTES < s.totalBytes then
      match s.oldestChannel with
      | none => s
      | some channel => trimSession turns (s.dropFront channel)
    else s

def chunkCount (s : HistoryStore) : Nat :=
  (s.channels.entries.map fun e => e.2.chunks.length).sum

def lossTotals (s : HistoryStore) : Nat × Nat :=
  s.channels.entries.foldl (fun total e =>
    (saturatingAdd total.1 e.2.droppedChunks, saturatingAdd total.2 e.2.droppedBytes)) (0, 0)

def add (s : HistoryStore) (chunk : StoredRttChunk) : HistoryStore :=
  { channels := s.channels.insert chunk.channelIndex ((s.get chunk.channelIndex).pushBack chunk)
    totalBytes := s.totalBytes + chunk.length }

/-- The history with the chunk in it; `push` also gives its `lossTotals`. -/
def push (s : HistoryStore) (chunk : StoredRttChunk) : HistoryStore :=
  let s := s.add chunk
  let s := trimChannel chunk.channelIndex s.chunkCount s
  trimSession s.chunkCount s

def responseChunks (s : HistoryStore) (channelIndex : Nat) (afterSequence : Option Nat) :
    List StoredRttChunk :=
  match s.channels.lookup channelIndex, afterSequence with
  | some history, some sequence =>
    (history.chunks.filter fun chunk => sequence < chunk.sequence).take MAX_HISTORY_RESPONSE_CHUNKS
  | some history, none => history.chunks.drop (history.chunks.length - MAX_HISTORY_RESPONSE_CHUNKS)
  | none, _ => []

def response (encode : List UInt8 → String) (s : HistoryStore) (generation channelIndex : Nat)
    (afterSequence : Option Nat) : RttHistoryResponse :=
  let history := s.channels.lookup channelIndex
  { generation
    chunks := (s.responseChunks channelIndex afterSequence).map (RttChunkDto.fromStored encode)
    oldestSequence := history.bind fun history => history.chunks.head?.map (·.sequence)
    newestSequence := history.bind fun history => history.chunks.getLast?.map (·.sequence)
    droppedChunks := (history.map (·.droppedChunks)).getD 0
    droppedBytes := (history.map (·.droppedBytes)).getD 0 }

end HistoryStore

/-! ## The shared state -/

/-- The counters of the snapshot that `record_rx` updates. -/
structure RttSnapshot where
  rxBytes : Nat
  evictedHistoryChunks : Nat
  evictedHistoryBytes : Nat
  deriving DecidableEq

structure RttShared where
  generation : Nat
  nextSequence : Nat
  channelOffsets : Nat → Nat
  history : HistoryStore
  snapshot : RttSnapshot

namespace RttShared

def new (generation : Nat) : RttShared :=
  ⟨generation, 1, fun _ => 0, .empty, ⟨0, 0, 0⟩⟩

/-- What `record_rx` stores and returns. -/
def stamp (s : RttShared) (timestampMs channelIndex : Nat) (data : List UInt8) : StoredRttChunk where
  generation := s.generation
  sequence := s.nextSequence
  timestampMs
  channelIndex
  channelOffset := s.channelOffsets channelIndex
  data

def recordRx (s : RttShared) (timestampMs channelIndex : Nat) (data : List UInt8) : RttShared :=
  let chunk := s.stamp timestampMs channelIndex data
  let history := s.history.push chunk
  { s with
    -- `fetch_add` wraps
    nextSequence := (s.nextSequence + 1) % 2 ^ 64
    channelOffsets := Function.update s.channelOffsets channelIndex
      (saturatingAdd (s.channelOffsets channelIndex) data.length)
    history
    snapshot :=
      { rxBytes := saturatingAdd s.snapshot.rxBytes chunk.length
        evictedHistoryChunks := history.lossTotals.1
        evictedHistoryBytes := history.lossTotals.2 } }

end RttShared

end TauTerm.Rtt.History
