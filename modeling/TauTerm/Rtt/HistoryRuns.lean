import Mathlib
import TauTerm.Lib.Run
import TauTerm.Rtt.RuntimeStore

/-!
# The byte history of the RTT store

A `World` has the chunks that the server has recorded, those whose batches have come, and the history
requests that are open. A reply has the last chunks recorded up to some moment, and comes when it
comes. The store keeps a window of what is recorded as long as every reply meets what it keeps.
-/

namespace TauTerm.Rtt.RuntimeStore

open Lib Store

/-! ## Chunks of one channel -/

def ofChannel (generation channel : Nat) (chunks : List RttChunk) : List RttChunk :=
  chunks.filter fun c => c.generation = generation ∧ c.channelIndex = channel

theorem ofChannel_append (generation channel : Nat) (chunks chunks' : List RttChunk) :
    ofChannel generation channel (chunks ++ chunks') =
      ofChannel generation channel chunks ++ ofChannel generation channel chunks' :=
  List.filter_append ..

/-- What a channel has after a batch. -/
def appended (existing incoming : List RttChunk) : List RttChunk :=
  let lastSequence := (existing.getLast?.map (·.sequence)).getD 0
  let appendable := incoming.filter fun chunk => lastSequence < chunk.sequence
  if appendable = [] then existing else trimChunks (existing ++ appendable)

theorem appended_nil (existing : List RttChunk) : appended existing [] = existing := by
  rw [appended, List.filter_nil, if_pos rfl]

theorem get_appendChannel (incoming : List RttChunk) (b : Buffers) (channel other : Nat) :
    (appendChannel incoming b channel).get other =
      if other = channel then
        appended (b.get channel) (incoming.filter fun c => c.channelIndex = channel)
      else b.get other := by
  unfold appendChannel appended
  dsimp only
  by_cases hnone : ((incoming.filter fun c => c.channelIndex = channel).filter fun chunk =>
      ((b.get channel).getLast?.map (·.sequence)).getD 0 < chunk.sequence) = []
  · rw [if_pos hnone, if_pos hnone]
    split
    · rename_i heq
      rw [heq]
    · rfl
  · rw [if_neg hnone, if_neg hnone, Buffers.get_set]

theorem get_foldl_appendChannel (incoming : List RttChunk) {channels : List Nat}
    (h : channels.Nodup) (b : Buffers) (channel : Nat) :
    (channels.foldl (appendChannel incoming) b).get channel =
      if channel ∈ channels then
        appended (b.get channel) (incoming.filter fun c => c.channelIndex = channel)
      else b.get channel := by
  induction channels generalizing b with
  | nil => simp
  | cons first channels ih =>
    rw [List.nodup_cons] at h
    rw [List.foldl_cons, ih h.2, get_appendChannel]
    by_cases heq : channel = first
    · subst heq
      rw [if_neg h.1, if_pos rfl, if_pos List.mem_cons_self]
    · rw [if_neg heq]
      exact if_congr (by simp [heq]) rfl rfl

theorem nodup_eraseDups (channels : List Nat) : channels.eraseDups.Nodup := by
  induction hn : channels.length using Nat.strong_induction_on generalizing channels with
  | h n ih =>
    cases channels with
    | nil => exact List.nodup_nil
    | cons first channels =>
      rw [List.eraseDups_cons, List.nodup_cons]
      refine ⟨fun hmem => ?_, ih _ ?_ _ rfl⟩
      · rw [List.mem_eraseDups, List.mem_filter] at hmem
        simp at hmem
      · have := List.length_filter_le (fun b => !b == first) channels
        rw [List.length_cons] at hn
        omega

/-- Each channel gets what is its own. -/
theorem get_nextBuffers (incoming : List RttChunk) (b : Buffers) (channel : Nat) :
    ((incoming.map RttChunk.channelIndex).eraseDups.foldl (appendChannel incoming) b).get channel =
      appended (b.get channel) (incoming.filter fun c => c.channelIndex = channel) := by
  rw [get_foldl_appendChannel incoming (nodup_eraseDups _)]
  split
  · rfl
  · rename_i hnot
    rw [List.filter_eq_nil_iff.mpr, appended_nil]
    intro c hc hchannel
    refine hnot (List.mem_eraseDups.mpr (List.mem_map.mpr ⟨c, hc, ?_⟩))
    exact of_decide_eq_true hchannel

/-! ## What one channel keeps -/

section Channel

variable {log seen : Set RttChunk} {existing incoming : List RttChunk}

/-- A batch goes on where the one before has ended. -/
theorem window_appended (h : Window RttChunk.sequence log existing)
    (hc : Complete RttChunk.sequence seen existing) (hn : Next RttChunk.sequence log seen incoming)
    (hpos : ∀ c ∈ incoming, 0 < c.sequence) :
    Window RttChunk.sequence log (appended existing incoming) ∧
      Complete RttChunk.sequence (seen ∪ {c | c ∈ incoming}) (appended existing incoming) := by
  have hextend : Window RttChunk.sequence log (existing ++ incoming.filter fun chunk =>
        (existing.getLast?.map (·.sequence)).getD 0 < chunk.sequence) ∧
      Complete RttChunk.sequence (seen ∪ {c | c ∈ incoming}) (existing ++ incoming.filter fun chunk =>
        (existing.getLast?.map (·.sequence)).getD 0 < chunk.sequence) := by
    cases hlast : existing.getLast? with
    | none =>
      have hall : (incoming.filter fun chunk =>
          ((none : Option RttChunk).map (·.sequence)).getD 0 < chunk.sequence) = incoming :=
        List.filter_eq_self.mpr fun c hc => decide_eq_true (hpos c hc)
      rw [List.getLast?_eq_none_iff.mp hlast, List.nil_append, hall]
      exact ⟨hn.window, hn.complete⟩
    | some e =>
      obtain ⟨front, rfl⟩ := List.getLast?_eq_some_iff.mp hlast
      have he : e ∈ front ++ [e] := List.mem_append_right _ List.mem_cons_self
      have hmax : ∀ c ∈ front ++ [e], c.sequence ≤ e.sequence := by
        intro c hc
        obtain hc | hc := List.mem_append.mp hc
        · exact ((List.pairwise_append.mp h.ascending).2.2 c hc e List.mem_cons_self).le
        · rw [List.mem_singleton.mp hc]
      exact ⟨h.extend hc hn he hmax, hc.extend h hn he⟩
  unfold appended
  dsimp only
  split
  · rename_i hnone
    rwa [hnone, List.append_nil] at hextend
  · obtain ⟨n, hn⟩ := trimChunks_drop (existing ++ incoming.filter fun chunk =>
      (existing.getLast?.map (·.sequence)).getD 0 < chunk.sequence)
    rw [hn]
    exact ⟨hextend.1.drop n, hextend.2.drop hextend.1.ascending n⟩

/-- A history that meets what is kept is merged with it. -/
theorem window_mergeHistory {history : List RttChunk}
    (hkey : ∀ c ∈ log, ∀ c' ∈ log, c.sequence = c'.sequence → c = c') (hseen : seen ⊆ log)
    (h : Window RttChunk.sequence log existing) (hc : Complete RttChunk.sequence seen existing)
    (hhistory : Window RttChunk.sequence log history)
    (hmeets : Joins RttChunk.sequence log seen existing history) :
    Window RttChunk.sequence log (mergeHistory existing history) ∧
      Complete RttChunk.sequence seen (mergeHistory existing history) := by
  unfold mergeHistory
  by_cases hnil : existing = []
  · rw [if_pos hnil]
    obtain ⟨n, hn⟩ := trimChunks_drop history
    rw [hn]
    exact ⟨hhistory.drop n, (hmeets.complete hseen hhistory hnil).drop hhistory.ascending n⟩
  · rw [if_neg hnil]
    by_cases hempty : history = []
    · rw [if_pos hempty]
      exact ⟨h, hc⟩
    · rw [if_neg hempty]
      obtain ⟨n, hn⟩ := trimChunks_drop (mergeByKey RttChunk.sequence history existing)
      have hmerged := h.merge hkey hhistory hmeets
      rw [hn]
      exact ⟨hmerged.drop n,
        (Complete.merge hkey hseen h hhistory hmeets hc hnil).drop hmerged.ascending n⟩

theorem weigh_appended
    (h : weigh RttChunk.byteLength existing ≤ CLIENT_HISTORY_BYTES_PER_CHANNEL) :
    weigh RttChunk.byteLength (appended existing incoming) ≤ CLIENT_HISTORY_BYTES_PER_CHANNEL := by
  unfold appended
  dsimp only
  split
  · exact h
  · exact weigh_trimChunks _

theorem weigh_mergeHistory {history : List RttChunk}
    (h : weigh RttChunk.byteLength existing ≤ CLIENT_HISTORY_BYTES_PER_CHANNEL) :
    weigh RttChunk.byteLength (mergeHistory existing history) ≤
      CLIENT_HISTORY_BYTES_PER_CHANNEL := by
  unfold mergeHistory
  split
  · exact weigh_trimChunks _
  · split
    · exact h
    · exact weigh_trimChunks _

end Channel

/-! ## What the operations do to the buffers -/

namespace Store

def kept (s : Store) (channel : Nat) : List RttChunk := s.runtime.buffers.get channel

variable {s : Store}

/-- Of a store, as far as its buffers are concerned, either nothing has changed or all is new. -/
def Fresh (s s' : Store) : Prop :=
  (s'.generation = s.generation ∧ s'.runtime.buffers = s.runtime.buffers) ∨ s'.runtime.buffers = .empty

theorem follow_fresh (s : Store) : s.Fresh s.follow := by
  unfold follow
  split <;> exact .inl ⟨rfl, rfl⟩

theorem applySnapshot_fresh (s : Store) (snapshot : RttSnapshot) : s.Fresh (s.applySnapshot snapshot) := by
  unfold applySnapshot
  dsimp only
  split
  · exact .inl ⟨rfl, rfl⟩
  · by_cases hchanged : s.generation ≠ some snapshot.generation
    · simp only [if_pos hchanged]
      unfold publish
      split
      · exact .inr rfl
      · exact .inl ⟨rfl, rfl⟩
    · simp only [if_neg hchanged]
      unfold publish
      split
      · exact .inl ⟨(not_not.mp hchanged).symm, rfl⟩
      · exact .inl ⟨rfl, rfl⟩

theorem selectRttChannel_fresh (s : Store) (channelIndex : Nat) :
    s.Fresh (s.selectRttChannel channelIndex) := by
  unfold selectRttChannel publish
  split
  · split
    · split <;> exact .inl ⟨rfl, rfl⟩
    · exact .inl ⟨rfl, rfl⟩
  · exact .inl ⟨rfl, rfl⟩

theorem askRttHistory_fresh (s : Store) (channelIndex : Nat) :
    s.Fresh (s.askRttHistory channelIndex).1 := by
  unfold askRttHistory
  dsimp only
  split <;> exact .inl ⟨rfl, rfl⟩

theorem rttHistoryFailed_fresh (s : Store) (capture : Capture) (channelIndex : Nat)
    (cause : String) : s.Fresh (s.rttHistoryFailed capture channelIndex cause) := by
  unfold rttHistoryFailed publish unload
  split
  · exact .inl ⟨rfl, rfl⟩
  · split <;> exact .inl ⟨rfl, rfl⟩

theorem appendBatch_generation (s : Store) (g : Nat) (chunks : List RttChunk) :
    (s.appendBatch g chunks).generation = s.generation := by
  unfold appendBatch publish generation
  split
  · rfl
  · dsimp only
    split <;> rfl

theorem rttHistory_generation (s : Store) (capture : Capture) (channelIndex : Nat)
    (history : RttHistoryResponse) :
    (s.rttHistory capture channelIndex history).generation = s.generation := by
  unfold rttHistory publish generation unload
  split
  · rfl
  · split
    · rfl
    · dsimp only
      split <;> rfl

/-- A reply that is merged. -/
def Applies (s : Store) (capture : Capture) (history : RttHistoryResponse) : Prop :=
  s.isCurrent capture = true ∧ s.generation = some history.generation

theorem rttHistory_of_not_applies {capture : Capture} {history : RttHistoryResponse}
    (h : ¬ s.Applies capture history) (channelIndex : Nat) :
    (s.rttHistory capture channelIndex history).runtime = s.runtime := by
  unfold rttHistory
  by_cases hcurrent : s.isCurrent capture = true
  · rw [hcurrent, Bool.not_true, if_neg Bool.false_ne_true, if_pos fun heq => h ⟨hcurrent, heq⟩]
    rfl
  · rw [eq_false_of_ne_true hcurrent, Bool.not_false, if_pos rfl]

theorem kept_rttHistory (hs : s.Released) {capture : Capture} {history : RttHistoryResponse}
    (h : s.Applies capture history) (channelIndex channel : Nat) :
    ∃ n, (s.rttHistory capture channelIndex history).kept channel =
      (if channel = channelIndex then mergeHistory (s.kept channelIndex) history.chunks
        else s.kept channel).drop n := by
  unfold rttHistory
  rw [h.1, Bool.not_true, if_neg Bool.false_ne_true, if_neg (not_not.mpr h.2)]
  obtain ⟨n, hn⟩ := trimBuffers_get
    (s.runtime.buffers.set channelIndex
      (mergeHistory (s.runtime.buffers.get channelIndex) history.chunks))
    s.runtime.selectedChannel channel
  refine ⟨n, ?_⟩
  dsimp only
  rw [kept, publish_of_followed (followed_of_generation hs h.2), hn, Buffers.get_set]
  rfl

theorem kept_rttHistory_of_fit (hs : s.Released) {capture : Capture} {history : RttHistoryResponse}
    (h : s.Applies capture history) {channelIndex : Nat}
    (hfit : (s.runtime.buffers.set channelIndex
      (mergeHistory (s.kept channelIndex) history.chunks)).total ≤ CLIENT_HISTORY_BYTES_PER_SESSION) :
    (s.rttHistory capture channelIndex history).kept channelIndex =
      mergeHistory (s.kept channelIndex) history.chunks := by
  unfold rttHistory
  rw [h.1, Bool.not_true, if_neg Bool.false_ne_true, if_neg (not_not.mpr h.2)]
  dsimp only
  rw [kept, publish_of_followed (followed_of_generation hs h.2)]
  change (trimBuffers (s.runtime.buffers.set channelIndex
    (mergeHistory (s.kept channelIndex) history.chunks)) _).get channelIndex = _
  rw [trimBuffers_of_le hfit, Buffers.get_set, if_pos rfl]

theorem appendBatch_of_ne {g : Nat} (h : s.generation ≠ some g) (chunks : List RttChunk) :
    s.appendBatch g chunks = s := if_pos (.inr h)

theorem kept_appendBatch (hs : s.Released) {g : Nat} (h : s.generation = some g)
    (chunks : List RttChunk) (channel : Nat) :
    ∃ n, (s.appendBatch g chunks).kept channel =
      (appended (s.kept channel) (ofChannel g channel chunks)).drop n := by
  unfold appendBatch
  by_cases hnil : chunks = []
  · subst hnil
    rw [if_pos (.inl rfl)]
    exact ⟨0, (appended_nil _).symm⟩
  · rw [if_neg (by simp [hnil, h])]
    obtain ⟨n, hn⟩ := trimBuffers_get
      (((chunks.filter fun c => c.generation = g).map RttChunk.channelIndex).eraseDups.foldl
        (appendChannel (chunks.filter fun c => c.generation = g)) s.runtime.buffers)
      s.runtime.selectedChannel channel
    refine ⟨n, ?_⟩
    dsimp only
    rw [kept, publish_of_followed (followed_of_generation hs h), hn, get_nextBuffers,
      List.filter_filter]
    congr 2
    refine List.filter_congr fun c _ => ?_
    rw [Bool.decide_and, Bool.and_comm]

end Store

/-! ## The world -/

structure Request where
  capture : Capture
  channelIndex : Nat
  deriving DecidableEq

structure World where
  recorded : List RttChunk
  delivered : List RttChunk
  asked : List Request
  answered : List (Request × RttHistoryResponse)
  store : Store

inductive Action where
  | follow
  | release
  | snapshot (snapshot : RttSnapshot)
  | select (channelIndex : Nat)
  | record (chunk : RttChunk)
  | batch (generation : Nat) (chunks : List RttChunk)
  | ask (channelIndex : Nat)
  /-- All but some of the chunks that there are now are put into the reply. -/
  | answer (request : Request) (generation dropped : Nat)
  | reply (request : Request) (history : RttHistoryResponse)
  | fail (request : Request) (cause : String)

namespace World

def start : World := ⟨[], [], [], [], .initial⟩

def step (w : World) : Action → World
  | .follow => { w with store := w.store.follow }
  | .release => { w with store := w.store.release }
  | .snapshot snapshot => { w with store := w.store.applySnapshot snapshot }
  | .select channelIndex => { w with store := w.store.selectRttChannel channelIndex }
  | .record chunk => { w with recorded := w.recorded ++ [chunk] }
  | .batch generation chunks =>
    { w with
      delivered := w.delivered ++ chunks
      store := w.store.appendBatch generation chunks }
  | .ask channelIndex =>
    let (store, capture) := w.store.askRttHistory channelIndex
    { w with asked := w.asked ++ capture.toList.map (⟨·, channelIndex⟩), store }
  | .answer request generation dropped =>
    { w with
      asked := w.asked.erase request
      answered := w.answered ++ [(request,
        ⟨generation, (ofChannel generation request.channelIndex w.recorded).drop dropped⟩)] }
  | .reply request history =>
    { w with
      answered := w.answered.erase (request, history)
      store := w.store.rttHistory request.capture request.channelIndex history }
  | .fail request cause =>
    { w with
      asked := w.asked.erase request
      store := w.store.rttHistoryFailed request.capture request.channelIndex cause }

/-- What can come next: chunks are recorded with sequence numbers that go up in each channel, those
of a channel are delivered in that order, and what is replied was asked for. -/
def Possible (w : World) : Action → Prop
  | .record chunk => 0 < chunk.sequence ∧
      ∀ c ∈ ofChannel chunk.generation chunk.channelIndex w.recorded, c.sequence < chunk.sequence
  | .batch generation chunks => (∀ c ∈ chunks, c.generation = generation) ∧
      ∀ channel, ofChannel generation channel (w.delivered ++ chunks) <+:
        ofChannel generation channel w.recorded
  | .answer request _ _ => request ∈ w.asked
  | .reply request history => (request, history) ∈ w.answered
  | .fail request _ => request ∈ w.asked
  | _ => True

/-- Of the recorded chunks none is missing between the kept ones and those of a reply; where nothing
is kept, nothing has been delivered that is newer than the reply. -/
def MeetsKept (w : World) : Action → Prop
  | .reply request history => w.store.Applies request.capture history →
      Joins RttChunk.sequence
        {c | c ∈ ofChannel history.generation request.channelIndex w.recorded}
        {c | c ∈ ofChannel history.generation request.channelIndex w.delivered}
        (w.store.kept request.channelIndex) history.chunks
  | _ => True

/-- What is kept of a channel is a window of what has been recorded of it. -/
structure NoHoles (w : World) : Prop where
  unknown : w.store.generation = none → ∀ channel, w.store.kept channel = []
  window : ∀ g, w.store.generation = some g → ∀ channel,
    Window RttChunk.sequence {c | c ∈ ofChannel g channel w.recorded} (w.store.kept channel)

structure Bounded (w : World) : Prop where
  channel : ∀ channel,
    weigh RttChunk.byteLength (w.store.kept channel) ≤ CLIENT_HISTORY_BYTES_PER_CHANNEL
  session : w.store.runtime.buffers.total ≤ CLIENT_HISTORY_BYTES_PER_SESSION

/-- What every step keeps, if the replies meet what is kept. -/
structure Sound (w : World) : Prop where
  ascending : ∀ g channel, Ascending RttChunk.sequence (ofChannel g channel w.recorded)
  positive : ∀ c ∈ w.recorded, 0 < c.sequence
  delivered : ∀ g channel, ofChannel g channel w.delivered <+: ofChannel g channel w.recorded
  answered : ∀ r h, (r, h) ∈ w.answered →
    Window RttChunk.sequence {c | c ∈ ofChannel h.generation r.channelIndex w.recorded} h.chunks
  released : w.store.Released
  noHoles : NoHoles w
  complete : ∀ g, w.store.generation = some g → ∀ channel,
    Complete RttChunk.sequence {c | c ∈ ofChannel g channel w.delivered} (w.store.kept channel)

variable {w : World}

theorem sound_start : Sound start where
  ascending _ _ := .nil
  positive := by simp [start]
  delivered _ _ := List.prefix_refl _
  answered := by simp [start]
  released _ := rfl
  noHoles :=
    { unknown := fun _ _ => rfl
      window := fun _ h => nomatch h }
  complete _ h := nomatch h

/-- A step that leaves the buffers as they are, or empties them. -/
theorem Sound.of_fresh (h : Sound w) {w' : World} (hrecorded : w'.recorded = w.recorded)
    (hdelivered : w'.delivered = w.delivered) (hanswered : ∀ p ∈ w'.answered, p ∈ w.answered)
    (hreleased : w'.store.Released) (hfresh : w.store.Fresh w'.store) : Sound w' where
  ascending g channel := by
    rw [hrecorded]
    exact h.ascending g channel
  positive := by
    rw [hrecorded]
    exact h.positive
  delivered g channel := by
    rw [hdelivered, hrecorded]
    exact h.delivered g channel
  answered r hist hmem := by
    rw [hrecorded]
    exact h.answered r hist (hanswered _ hmem)
  released := hreleased
  noHoles := by
    obtain ⟨hgen, hbuffers⟩ | hempty := hfresh
    · exact
        { unknown := fun hnone channel => by
            rw [kept, hbuffers]
            exact h.noHoles.unknown (hgen ▸ hnone) channel
          window := fun g hg channel => by
            rw [kept, hbuffers, hrecorded]
            exact h.noHoles.window g (hgen ▸ hg) channel }
    · exact
        { unknown := fun _ channel => by rw [kept, hempty, Buffers.get_empty]
          window := fun g _ channel => by
            rw [kept, hempty, Buffers.get_empty]
            exact .nil }
  complete g hg channel := by
    obtain ⟨hgen, hbuffers⟩ | hempty := hfresh
    · rw [kept, hbuffers, hdelivered]
      exact h.complete g (hgen ▸ hg) channel
    · rw [kept, hempty, Buffers.get_empty]
      exact .nil

theorem mem_ofChannel {g channel : Nat} {chunks : List RttChunk} {c : RttChunk} :
    c ∈ ofChannel g channel chunks ↔ c ∈ chunks ∧ c.generation = g ∧ c.channelIndex = channel := by
  rw [ofChannel, List.mem_filter, decide_eq_true_eq]

theorem sound_record (h : Sound w) {chunk : RttChunk} (hpossible : w.Possible (.record chunk)) :
    Sound (w.step (.record chunk)) := by
  have hgrow {g channel : Nat} {l : List RttChunk}
      (hl : Window RttChunk.sequence {c | c ∈ ofChannel g channel w.recorded} l) :
      Window RttChunk.sequence {c | c ∈ ofChannel g channel (w.recorded ++ [chunk])} l := by
    refine hl.grow (fun c hc => ?_) fun c hc hnew c' hc' => ?_
    · rw [Set.mem_ofPred_eq, ofChannel_append]
      exact List.mem_append_left _ hc
    · rw [Set.mem_ofPred_eq, ofChannel_append, List.mem_append] at hc
      obtain ⟨hmem, rfl, rfl⟩ := (mem_ofChannel).mp (hc.resolve_left hnew)
      rw [List.mem_singleton.mp hmem] at hc' ⊢
      exact hpossible.2 c' hc'
  exact
    { ascending := fun g channel => by
        change Ascending _ (ofChannel g channel (w.recorded ++ [chunk]))
        rw [ofChannel_append]
        refine List.pairwise_append.mpr
          ⟨h.ascending g channel, (List.pairwise_singleton _ _).filter _, fun c hc c' hc' => ?_⟩
        obtain ⟨hmem, rfl, rfl⟩ := (mem_ofChannel).mp hc'
        rw [List.mem_singleton.mp hmem] at hc ⊢
        exact hpossible.2 c hc
      positive := fun c hc => by
        obtain hc | hc := List.mem_append.mp hc
        · exact h.positive c hc
        · rw [List.mem_singleton.mp hc]
          exact hpossible.1
      delivered := fun g channel => by
        change _ <+: ofChannel g channel (w.recorded ++ [chunk])
        rw [ofChannel_append]
        exact (h.delivered g channel).trans (List.prefix_append _ _)
      answered := fun r hist hmem => hgrow (h.answered r hist hmem)
      released := h.released
      noHoles :=
        { unknown := h.noHoles.unknown
          window := fun g hg channel => hgrow (h.noHoles.window g hg channel) }
      complete := h.complete }

theorem ofChannel_eq_nil {g g' : Nat} (hne : g' ≠ g) {chunks : List RttChunk}
    (h : ∀ c ∈ chunks, c.generation = g) (channel : Nat) : ofChannel g' channel chunks = [] := by
  refine List.filter_eq_nil_iff.mpr fun c hc hin => hne ?_
  rw [← (of_decide_eq_true hin).1, h c hc]

theorem sound_batch (h : Sound w) {g : Nat} {chunks : List RttChunk}
    (hpossible : w.Possible (.batch g chunks)) : Sound (w.step (.batch g chunks)) := by
  have hdelivered (g' channel : Nat) :
      ofChannel g' channel (w.delivered ++ chunks) <+: ofChannel g' channel w.recorded := by
    by_cases hg : g' = g
    · rw [hg]
      exact hpossible.2 channel
    · rw [ofChannel_append, ofChannel_eq_nil hg hpossible.1, List.append_nil]
      exact h.delivered g' channel
  have hgeneration := w.store.appendBatch_generation g chunks
  have hwindow (hg : w.store.generation = some g) (channel : Nat) :
      Window RttChunk.sequence {c | c ∈ ofChannel g channel w.recorded}
          ((w.store.appendBatch g chunks).kept channel) ∧
        Complete RttChunk.sequence {c | c ∈ ofChannel g channel (w.delivered ++ chunks)}
          ((w.store.appendBatch g chunks).kept channel) := by
    have hstart := hpossible.2 channel
    rw [ofChannel_append] at hstart
    have hpos : ∀ c ∈ ofChannel g channel chunks, 0 < c.sequence := fun c hc =>
      h.positive c ((mem_ofChannel).mp (hstart.subset (List.mem_append_right _ hc))).1
    obtain ⟨hwindow, hcomplete⟩ := window_appended (h.noHoles.window g hg channel)
      (h.complete g hg channel) ((h.ascending g channel).next hstart) hpos
    obtain ⟨n, hn⟩ := kept_appendBatch h.released hg chunks channel
    rw [hn]
    refine ⟨hwindow.drop n, fun c hc => hcomplete.drop hwindow.ascending n c ?_⟩
    rw [Set.mem_ofPred_eq, ofChannel_append, List.mem_append] at hc
    exact hc
  exact
    { ascending := h.ascending
      positive := h.positive
      delivered := hdelivered
      answered := h.answered
      released := h.released.appendBatch g chunks
      noHoles :=
        { unknown := fun hnone channel => by
            change (w.store.appendBatch g chunks).generation = none at hnone
            rw [hgeneration] at hnone
            change (w.store.appendBatch g chunks).kept channel = []
            rw [appendBatch_of_ne (by rw [hnone]; simp)]
            exact h.noHoles.unknown hnone channel
          window := fun g' hg' channel => by
            change (w.store.appendBatch g chunks).generation = some g' at hg'
            rw [hgeneration] at hg'
            by_cases hg : g' = g
            · subst hg
              exact (hwindow hg' channel).1
            · change Window _ _ ((w.store.appendBatch g chunks).kept channel)
              rw [appendBatch_of_ne (by rw [hg']; simpa using hg)]
              exact h.noHoles.window g' hg' channel }
      complete := fun g' hg' channel => by
        change (w.store.appendBatch g chunks).generation = some g' at hg'
        rw [hgeneration] at hg'
        by_cases hg : g' = g
        · subst hg
          exact (hwindow hg' channel).2
        · change Complete _ {c | c ∈ ofChannel g' channel (w.delivered ++ chunks)}
            ((w.store.appendBatch g chunks).kept channel)
          rw [appendBatch_of_ne (by rw [hg']; simpa using hg), ofChannel_append,
            ofChannel_eq_nil hg hpossible.1, List.append_nil]
          exact h.complete g' hg' channel }

theorem sound_reply (h : Sound w) {request : Request} {history : RttHistoryResponse}
    (hpossible : w.Possible (.reply request history))
    (hmeets : w.MeetsKept (.reply request history)) : Sound (w.step (.reply request history)) := by
  by_cases happlies : w.store.Applies request.capture history
  · have hgeneration := w.store.rttHistory_generation request.capture request.channelIndex history
    have hwindow (channel : Nat) :
        Window RttChunk.sequence {c | c ∈ ofChannel history.generation channel w.recorded}
            ((w.store.rttHistory request.capture request.channelIndex history).kept channel) ∧
          Complete RttChunk.sequence {c | c ∈ ofChannel history.generation channel w.delivered}
            ((w.store.rttHistory request.capture request.channelIndex history).kept channel) := by
      obtain ⟨n, hn⟩ :=
        kept_rttHistory h.released happlies request.channelIndex channel
      have hkept := h.noHoles.window _ happlies.2 channel
      have hcomplete := h.complete _ happlies.2 channel
      rw [hn]
      split
      · rename_i hchannel
        subst hchannel
        obtain ⟨hmerged, hall⟩ := window_mergeHistory (h.ascending history.generation _).inj
          (fun c hc => (h.delivered history.generation request.channelIndex).subset hc)
          hkept hcomplete (h.answered request history hpossible) (hmeets happlies)
        exact ⟨hmerged.drop n, hall.drop hmerged.ascending n⟩
      · exact ⟨hkept.drop n, hcomplete.drop hkept.ascending n⟩
    have hg {g : Nat} (hg : (w.step (.reply request history)).store.generation = some g) :
        g = history.generation := by
      change (w.store.rttHistory _ _ _).generation = _ at hg
      rw [hgeneration, happlies.2] at hg
      exact (Option.some.inj hg).symm
    exact
      { ascending := h.ascending
        positive := h.positive
        delivered := h.delivered
        answered := fun r hist hmem => h.answered r hist (List.mem_of_mem_erase hmem)
        released := h.released.rttHistory _ _ _
        noHoles :=
          { unknown := fun hnone => by
              change (w.store.rttHistory _ _ _).generation = _ at hnone
              rw [hgeneration, happlies.2] at hnone
              cases hnone
            window := fun g hgen channel => by
              rw [hg hgen]
              exact (hwindow channel).1 }
        complete := fun g hgen channel => by
          rw [hg hgen]
          exact (hwindow channel).2 }
  · have hruntime := rttHistory_of_not_applies happlies request.channelIndex
    refine h.of_fresh rfl rfl (fun p hp => List.mem_of_mem_erase hp) (h.released.rttHistory _ _ _)
      (.inl ⟨?_, congrArg _ hruntime⟩)
    exact congrArg (fun r : RttRuntimeSnapshot => r.snapshot.map (·.generation)) hruntime

theorem sound_step (h : Sound w) (action : Action) (hpossible : w.Possible action)
    (hmeets : w.MeetsKept action) : Sound (w.step action) := by
  cases action with
  | follow => exact h.of_fresh rfl rfl (fun _ hp => hp) h.released.follow (follow_fresh _)
  | release =>
    exact h.of_fresh rfl rfl (fun _ hp => hp) (fun _ => rfl) (.inr rfl)
  | snapshot snapshot =>
    exact h.of_fresh rfl rfl (fun _ hp => hp) (h.released.applySnapshot snapshot)
      (applySnapshot_fresh _ snapshot)
  | select channelIndex =>
    exact h.of_fresh rfl rfl (fun _ hp => hp) (h.released.selectRttChannel channelIndex)
      (selectRttChannel_fresh _ channelIndex)
  | record chunk => exact sound_record h hpossible
  | batch generation chunks => exact sound_batch h hpossible
  | ask channelIndex =>
    exact h.of_fresh rfl rfl (fun _ hp => hp) (h.released.askRttHistory channelIndex)
      (askRttHistory_fresh _ channelIndex)
  | answer request generation dropped =>
    exact
      { h with
        answered := fun r hist hmem => by
          obtain hmem | hmem := List.mem_append.mp hmem
          · exact h.answered r hist hmem
          · cases List.mem_singleton.mp hmem
            exact (h.ascending generation request.channelIndex).window.drop dropped
        noHoles := ⟨h.noHoles.unknown, h.noHoles.window⟩ }
  | reply request history => exact sound_reply h hpossible hmeets
  | fail request cause =>
    exact h.of_fresh rfl rfl (fun _ hp => hp) (h.released.rttHistoryFailed _ _ cause)
      (rttHistoryFailed_fresh _ _ _ cause)

/-! ### Bounds -/

theorem Bounded.of_fresh (h : Bounded w) {w' : World} (hfresh : w.store.Fresh w'.store) :
    Bounded w' := by
  obtain ⟨-, hbuffers⟩ | hempty := hfresh
  · exact
      { channel := fun channel => by
          rw [kept, hbuffers]
          exact h.channel channel
        session := by
          rw [hbuffers]
          exact h.session }
  · exact
      { channel := fun channel => by
          rw [kept, hempty, Buffers.get_empty]
          exact Nat.zero_le _
        session := by
          rw [hempty]
          exact Nat.zero_le _ }

theorem bounded_publish {s : Store} {b : Buffers}
    (hs : ∀ channel, weigh RttChunk.byteLength (s.kept channel) ≤ CLIENT_HISTORY_BYTES_PER_CHANNEL)
    (hs' : s.runtime.buffers.total ≤ CLIENT_HISTORY_BYTES_PER_SESSION)
    (hb : ∀ channel, weigh RttChunk.byteLength (b.get channel) ≤ CLIENT_HISTORY_BYTES_PER_CHANNEL)
    (preferred : Option Nat) :
    (∀ channel, weigh RttChunk.byteLength
        ((s.publish { s.runtime with buffers := trimBuffers b preferred }).kept channel) ≤
      CLIENT_HISTORY_BYTES_PER_CHANNEL) ∧
    (s.publish { s.runtime with buffers := trimBuffers b preferred }).runtime.buffers.total ≤
      CLIENT_HISTORY_BYTES_PER_SESSION := by
  unfold publish
  split
  · refine ⟨fun channel => ?_, total_trimBuffers b preferred⟩
    obtain ⟨n, hn⟩ := trimBuffers_get b preferred channel
    change weigh _ ((trimBuffers b preferred).get channel) ≤ _
    rw [hn]
    exact (weigh_drop_le n _).trans (hb channel)
  · exact ⟨hs, hs'⟩

theorem bounded_step (h : Bounded w) (action : Action) : Bounded (w.step action) := by
  cases action with
  | follow => exact h.of_fresh (follow_fresh _)
  | release => exact h.of_fresh (.inr rfl)
  | snapshot snapshot => exact h.of_fresh (applySnapshot_fresh _ snapshot)
  | select channelIndex => exact h.of_fresh (selectRttChannel_fresh _ channelIndex)
  | record chunk => exact ⟨h.channel, h.session⟩
  | batch generation chunks =>
    by_cases hskip : chunks = [] ∨ w.store.generation ≠ some generation
    · refine h.of_fresh (.inl ?_)
      change (w.store.appendBatch generation chunks).generation = _ ∧
        (w.store.appendBatch generation chunks).runtime.buffers = _
      rw [appendBatch, if_pos hskip]
      exact ⟨rfl, rfl⟩
    · obtain ⟨hchannel, hsession⟩ := bounded_publish h.channel h.session (fun channel => by
        rw [get_nextBuffers]
        exact weigh_appended (h.channel channel)) w.store.runtime.selectedChannel
      refine ⟨fun channel => ?_, ?_⟩
      · change weigh _ ((w.store.appendBatch generation chunks).kept channel) ≤ _
        rw [appendBatch, if_neg hskip]
        exact hchannel channel
      · change (w.store.appendBatch generation chunks).runtime.buffers.total ≤ _
        rw [appendBatch, if_neg hskip]
        exact hsession
  | ask channelIndex => exact h.of_fresh (askRttHistory_fresh _ channelIndex)
  | answer request generation dropped => exact ⟨h.channel, h.session⟩
  | reply request history =>
    by_cases happlies : w.store.Applies request.capture history
    · have hset (channel : Nat) : weigh RttChunk.byteLength
          ((w.store.runtime.buffers.set request.channelIndex
            (mergeHistory (w.store.kept request.channelIndex) history.chunks)).get channel) ≤
            CLIENT_HISTORY_BYTES_PER_CHANNEL := by
        rw [Buffers.get_set]
        split
        · exact weigh_mergeHistory (h.channel request.channelIndex)
        · exact h.channel channel
      obtain ⟨hchannel, hsession⟩ :=
        bounded_publish h.channel h.session hset w.store.runtime.selectedChannel
      have hreply : w.store.rttHistory request.capture request.channelIndex history =
          w.store.publish { w.store.runtime with
            buffers := trimBuffers (w.store.runtime.buffers.set request.channelIndex
              (mergeHistory (w.store.runtime.buffers.get request.channelIndex) history.chunks))
              w.store.runtime.selectedChannel } := by
        rw [rttHistory, happlies.1, Bool.not_true, if_neg Bool.false_ne_true,
          if_neg (not_not.mpr happlies.2)]
      refine ⟨fun channel => ?_, ?_⟩
      · change weigh _ ((w.store.rttHistory _ _ _).kept channel) ≤ _
        rw [hreply]
        exact hchannel channel
      · change (w.store.rttHistory _ _ _).runtime.buffers.total ≤ _
        rw [hreply]
        exact hsession
    · have hruntime := rttHistory_of_not_applies happlies request.channelIndex
      refine h.of_fresh (.inl ⟨?_, congrArg _ hruntime⟩)
      exact congrArg (fun r : RttRuntimeSnapshot => r.snapshot.map (·.generation)) hruntime
  | fail request cause => exact h.of_fresh (rttHistoryFailed_fresh _ _ _ cause)

theorem bounded_start : Bounded start := ⟨fun _ => Nat.zero_le _, Nat.zero_le _⟩

/-- The store keeps its bounds in every run; in a run in which every reply meets what is kept, it
keeps windows of what is recorded. -/
theorem noHoles_of_meetsKept (actions : List Action) (hpossible : EachStep step Possible start actions) :
    Always step Bounded start actions ∧
      (EachStep step MeetsKept start actions → Always step NoHoles start actions) := by
  have hbounded : ∀ w, Bounded w → Bounded w := fun _ h => h
  have hsound : ∀ w, Sound w → NoHoles w := fun _ h => h.noHoles
  refine ⟨hpossible.always hbounded (fun w action h _ => bounded_step h action) bounded_start,
    fun hmeets => ?_⟩
  exact (hpossible.and hmeets).always hsound
    (fun w action h hboth => sound_step h action hboth.1 hboth.2) sound_start

/-- A chunk of one byte, of channel 0 in generation 1. -/
def byteChunk (sequence : Nat) : RttChunk := ⟨1, sequence, 0, "QQ=="⟩

def opened : Request := ⟨⟨some 0, some 1⟩, 0⟩

/-- Two chunks have come before the channel is followed. Its history is asked for and put together
with the second and the third chunk, but three more come in front of the reply. -/
def joining : List Action :=
  [.record (byteChunk 1), .record (byteChunk 2), .batch 1 [byteChunk 1, byteChunk 2], .follow,
    .snapshot ⟨1, [⟨0, true⟩], none⟩, .ask 0, .record (byteChunk 3), .answer opened 1 1,
    .record (byteChunk 4), .record (byteChunk 5), .batch 1 [byteChunk 3, byteChunk 4, byteChunk 5],
    .reply opened ⟨1, [byteChunk 2, byteChunk 3]⟩]

theorem prefix_byteChunks {sequences sequences' : List Nat} (h : sequences <+: sequences')
    (channel : Nat) :
    ofChannel 1 channel (sequences.map byteChunk) <+:
      ofChannel 1 channel (sequences'.map byteChunk) :=
  (h.map byteChunk).filter _

theorem noHoles_of_meetsKept_joining :
    Always step Bounded start joining ∧ Always step NoHoles start joining ∧
      (joining.foldl step start).store.kept 0 = [2, 3, 4, 5].map byteChunk := by
  have hpossible : EachStep step Possible start joining := by
    refine ⟨⟨by decide, by decide⟩, ⟨by decide, by decide⟩,
      ⟨by decide, @prefix_byteChunks [1, 2] [1, 2] (by decide)⟩, trivial, trivial, trivial,
      ⟨by decide, by decide⟩, ?_, ⟨by decide, by decide⟩, ⟨by decide, by decide⟩,
      ⟨by decide, @prefix_byteChunks [1, 2, 3, 4, 5] [1, 2, 3, 4, 5] (by decide)⟩, ?_, trivial⟩
    · change opened ∈ World.asked _
      decide
    · change (opened, _) ∈ World.answered _
      decide
  obtain ⟨hbounded, hnoHoles⟩ := noHoles_of_meetsKept _ hpossible
  refine ⟨hbounded, hnoHoles ?_, by decide⟩
  refine ⟨trivial, trivial, trivial, trivial, trivial, trivial, trivial, trivial, trivial, trivial,
    trivial, fun _ => ⟨?_, ?_⟩, trivial⟩
  -- What is between a chunk that is kept and one of the reply is in one of them.
  · have hbetween : ∀ x ∈ [1, 2, 3, 4, 5].map byteChunk, ∀ a ∈ [3, 4, 5].map byteChunk,
        ∀ b ∈ [2, 3].map byteChunk,
        a.sequence < x.sequence ∧ x.sequence < b.sequence ∨
          b.sequence < x.sequence ∧ x.sequence < a.sequence →
        x ∈ [3, 4, 5].map byteChunk ∨ x ∈ [2, 3].map byteChunk := by decide
    exact hbetween
  · intro hnone
    have hkept : ((joining.take 11).foldl step start).store.kept 0 = [3, 4, 5].map byteChunk := by
      decide
    exact absurd (hkept.symm.trans hnone) (by decide)

/-! ### A hole -/

theorem byteLength_byteChunk (sequence : Nat) : (byteChunk sequence).byteLength = 1 := by
  change base64ByteLength "QQ==" = 1
  decide

/-- The first chunk has come, and the history of its channel has been asked for. -/
def opening : List Action :=
  [.follow, .snapshot ⟨1, [⟨0, true⟩], none⟩, .ask 0, .record (byteChunk 1),
    .batch 1 [byteChunk 1]]

theorem possible_opening : EachStep step Possible start opening := by
  refine ⟨trivial, trivial, trivial, ⟨by decide, by decide⟩, ⟨by decide, fun channel => ?_⟩, trivial⟩
  exact List.prefix_refl (ofChannel 1 channel [byteChunk 1])

theorem opening_state :
    (opening.foldl step start).recorded = [byteChunk 1] ∧
      (opening.foldl step start).asked = [opened] ∧ (opening.foldl step start).answered = [] ∧
      (opening.foldl step start).store.generation = some 1 ∧
      (opening.foldl step start).store.isCurrent opened.capture = true ∧
      (opening.foldl step start).store.scope = some 0 ∧
      (opening.foldl step start).store.runtime.buffers.entries = [(0, [byteChunk 1])] := by
  decide

/-- The chunks that are recorded after the first one. -/
def burst : List RttChunk := (List.range' 2 513).map byteChunk

def latest : List RttChunk := (List.range' 3 512).map byteChunk

theorem foldl_record (chunks : List RttChunk) (w : World) :
    (chunks.map Action.record).foldl step w = { w with recorded := w.recorded ++ chunks } := by
  induction chunks generalizing w with
  | nil => simp
  | cons c chunks ih =>
    rw [List.map_cons, List.foldl_cons, ih]
    simp [step]

theorem possible_record {chunks : List RttChunk} {w : World}
    (h : Ascending RttChunk.sequence (w.recorded ++ chunks)) (hpos : ∀ c ∈ chunks, 0 < c.sequence) :
    EachStep step Possible w (chunks.map .record) := by
  induction chunks generalizing w with
  | nil => trivial
  | cons c chunks ih =>
    refine ⟨⟨hpos c List.mem_cons_self, fun c' hc' => ?_⟩,
      ih ?_ fun c' hc' => hpos c' (List.mem_cons_of_mem _ hc')⟩
    · exact (List.pairwise_append.mp h).2.2 c' ((mem_ofChannel).mp hc').1 c List.mem_cons_self
    · rw [step, List.append_assoc]
      exact h

theorem ascending_byteChunks (first count : Nat) :
    Ascending RttChunk.sequence ((List.range' first count).map byteChunk) :=
  List.pairwise_map.mpr (@List.pairwise_lt_range' first count 1 Nat.one_pos)

/-- The server keeps the last 512 chunks; the second one has gone when it replies. -/
def holeRun : List Action :=
  opening ++ burst.map .record ++ [.answer opened 1 2, .reply opened ⟨1, latest⟩]

/-- A reply with light chunks that are not many is merged with the first one. -/
theorem kept_reply {s : Store} {history : List RttChunk} (hs : s.Released)
    (hcurrent : s.isCurrent opened.capture = true) (hgeneration : s.generation = some 1)
    (hentries : s.runtime.buffers.entries = [(0, [byteChunk 1])]) (hne : history ≠ [])
    (hlight : ∀ c ∈ history, c.byteLength ≤ 1) (hfew : history.length ≤ 512) :
    (s.rttHistory opened.capture 0 ⟨1, history⟩).kept 0 =
      mergeByKey RttChunk.sequence history [byteChunk 1] := by
  have hkept : s.kept 0 = [byteChunk 1] := by
    rw [kept, Buffers.get, hentries]
    rfl
  have hweigh : weigh RttChunk.byteLength (mergeByKey RttChunk.sequence history [byteChunk 1]) ≤ 513 := by
    have hle : ∀ c ∈ mergeByKey RttChunk.sequence history [byteChunk 1], c.byteLength ≤ 1 := by
      intro c hc
      obtain hc | hc := mem_mergeByKey hc
      · exact hlight c hc
      · rw [List.mem_singleton.mp hc]
        exact (byteLength_byteChunk 1).le
    have hlength := @length_mergeByKey_le _ RttChunk.sequence history [byteChunk 1]
    rw [List.length_singleton] at hlength
    exact (weigh_le hle).trans (by omega)
  have hmerge : mergeHistory [byteChunk 1] history =
      mergeByKey RttChunk.sequence history [byteChunk 1] := by
    rw [mergeHistory, if_neg (List.cons_ne_nil _ _), if_neg hne]
    exact trimFront_of_le (hweigh.trans (by decide)) _
  rw [kept_rttHistory_of_fit hs ⟨hcurrent, hgeneration⟩ ?_, hkept, hmerge]
  rw [hkept, hmerge]
  generalize mergeByKey RttChunk.sequence history [byteChunk 1] = merged at hweigh
  have htotal : (s.runtime.buffers.set 0 merged).total = weigh RttChunk.byteLength merged := by
    simp [Buffers.total, Buffers.set, hentries, Buffers.setEntry]
  rw [htotal]
  exact hweigh.trans (by decide)

theorem kept_hole {s : Store} (hs : s.Released) (hcurrent : s.isCurrent opened.capture = true)
    (hgeneration : s.generation = some 1)
    (hentries : s.runtime.buffers.entries = [(0, [byteChunk 1])]) :
    (s.rttHistory opened.capture 0 ⟨1, latest⟩).kept 0 =
      mergeByKey RttChunk.sequence latest [byteChunk 1] := by
  refine kept_reply hs hcurrent hgeneration hentries (by simp [latest]) (fun c hc => ?_) ?_
  · obtain ⟨sequence, -, rfl⟩ := List.mem_map.mp hc
    exact (byteLength_byteChunk sequence).le
  · rw [latest, List.length_map, List.length_range']

theorem hole : EachStep step Possible start holeRun ∧ ¬ Always step NoHoles start holeRun := by
  obtain ⟨hrecorded, hasked, hanswered, hgeneration, hcurrent, hscope, hentries⟩ := opening_state
  have hlog : [byteChunk 1] ++ burst = (List.range' 1 514).map byteChunk := rfl
  have hdrop : (ofChannel 1 0 ([byteChunk 1] ++ burst)).drop 2 = latest := by
    rw [hlog, ofChannel, List.filter_eq_self.mpr fun c hc => ?_]
    · rfl
    · obtain ⟨sequence, -, rfl⟩ := List.mem_map.mp hc
      rfl
  have hstate := foldl_record burst (opening.foldl step start)
  rw [hrecorded] at hstate
  constructor
  · refine (possible_opening.append (possible_record ?_ fun c hc => ?_)).append ?_
    · rw [hrecorded, hlog]
      exact ascending_byteChunks 1 514
    · obtain ⟨sequence, hsequence, rfl⟩ := List.mem_map.mp hc
      exact Nat.zero_lt_of_lt (List.mem_range'_1.mp hsequence).1
    · rw [List.foldl_append, hstate]
      refine ⟨?_, ?_, trivial⟩
      · change opened ∈ (opening.foldl step start).asked
        rw [hasked]
        exact List.mem_cons_self
      · change _ ∈ (opening.foldl step start).answered ++
          [(opened, ⟨1, (ofChannel 1 0 ([byteChunk 1] ++ burst)).drop 2⟩)]
        rw [hdrop]
        exact List.mem_append_right _ List.mem_cons_self
  · intro halways
    have hfinal := halways.last
    rw [holeRun, List.foldl_append, List.foldl_append, hstate] at hfinal
    have hkept := kept_hole (fun h => by rw [hscope] at h; cases h) hcurrent hgeneration hentries
    have hwindow := hfinal.window 1 (by
      change ((opening.foldl step start).store.rttHistory _ _ _).generation = _
      rw [rttHistory_generation, hgeneration]) 0
    change Window _ {c | c ∈ ofChannel 1 0 ([byteChunk 1] ++ burst)}
      (((opening.foldl step start).store.rttHistory opened.capture 0 ⟨1, latest⟩).kept 0) at hwindow
    rw [hkept] at hwindow
    have hmem (c : RttChunk) : c ∈ mergeByKey RttChunk.sequence latest [byteChunk 1] ↔
        c ∈ latest ∨ c ∈ [byteChunk 1] := by
      refine mem_mergeByKey_iff fun c hc c' hc' hkey => ?_
      have hall : ∀ c ∈ latest ++ [byteChunk 1], ∃ sequence, byteChunk sequence = c := by
        intro c hc
        obtain hc | hc := List.mem_append.mp hc
        · obtain ⟨sequence, -, rfl⟩ := List.mem_map.mp hc
          exact ⟨sequence, rfl⟩
        · exact ⟨1, (List.mem_singleton.mp hc).symm⟩
      obtain ⟨sequence, rfl⟩ := hall c hc
      obtain ⟨sequence', rfl⟩ := hall c' hc'
      exact congrArg byteChunk hkey
    have hthird : byteChunk 3 ∈ latest := List.mem_map_of_mem (List.mem_range'_1.mpr (by decide))
    have hsecond : byteChunk 2 ∈ ofChannel 1 0 ([byteChunk 1] ++ burst) := by
      rw [hlog]
      exact (mem_ofChannel).mpr
        ⟨List.mem_map_of_mem (List.mem_range'_1.mpr (by decide)), rfl, rfl⟩
    have hmissing := hwindow.convex (byteChunk 2) hsecond (byteChunk 1)
      ((hmem _).mpr (.inr List.mem_cons_self)) (byteChunk 3) ((hmem _).mpr (.inl hthird))
      (by decide) (by decide)
    obtain hlatest | hfirst := (hmem _).mp hmissing
    · obtain ⟨sequence, hsequence, heq⟩ := List.mem_map.mp hlatest
      have hle := (List.mem_range'_1.mp hsequence).1
      have htwo : sequence = 2 := congrArg RttChunk.sequence heq
      omega
    · exact absurd (congrArg RttChunk.sequence (List.mem_singleton.mp hfirst)) (by decide)

end World

end TauTerm.Rtt.RuntimeStore
