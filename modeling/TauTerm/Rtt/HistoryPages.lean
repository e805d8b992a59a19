import Mathlib
import TauTerm.Rtt.HistoryAccounts

/-!
# Reading the history

A reader that begins after a sequence number gets every chunk that is kept while it reads. One that
begins without a number gets the newest page, and never what is before it.
-/

namespace TauTerm.Rtt.History

open Lib

namespace World

variable {encode : List UInt8 → String} {channel begun : Nat} {w : World}

theorem responseChunks_eq (s : HistoryStore) (channel after : Nat) :
    s.responseChunks channel (some after) =
      page StoredRttChunk.sequence MAX_HISTORY_RESPONSE_CHUNKS after (s.get channel).chunks := by
  unfold HistoryStore.responseChunks
  cases hlookup : s.channels.lookup channel with
  | none => rw [HistoryStore.get, hlookup]; rfl
  | some history => rw [HistoryStore.get_of_lookup hlookup]; rfl

theorem Sound.retained_recorded (h : Sound w) {chunk : StoredRttChunk}
    (hchunk : chunk ∈ w.retained channel) : chunk ∈ ofChannel w.recorded channel :=
  (h.store.channel channel).suffix.mem hchunk

theorem Sound.retained_ascending (h : Sound w) (channel : Nat) :
    Ascending StoredRttChunk.sequence (w.retained channel) :=
  (h.ascending.sublist List.filter_sublist).sublist (h.store.channel channel).suffix.sublist

/-- What is kept after a chunk has come was kept before, or is that chunk. -/
theorem Sound.retained_step (h : Sound w) {action : Action} (hroom : Room w action)
    {chunk : StoredRttChunk} (hchunk : chunk ∈ (w.step encode channel action).retained channel) :
    chunk ∈ w.retained channel ∨ chunk.sequence = w.recorded.length + 1 := by
  cases action with
  | ask => exact .inl hchunk
  | record timestampMs channelIndex data =>
    have hfits := (@h.record _ encode channel _ _ _ hroom).fits
    obtain ⟨htrimmed, -⟩ := push_spec h.store h.limits _ hfits
    have hmem := (htrimmed.suffix channel).mem hchunk
    rw [HistoryStore.add, HistoryStore.get_insert] at hmem
    split at hmem
    · rename_i heq
      obtain hold | hnew := List.mem_append.mp hmem
      · rw [← heq] at hold
        exact .inl hold
      · rw [List.mem_singleton.mp hnew]
        exact .inr (h.stamp_sequence hroom.1 timestampMs channelIndex data)
    · exact .inl hmem

/-- The reader has received these chunks and has come to this number. -/
structure Paged (encode : List UInt8 → String) (channel begun : Nat) (w : World)
    (items : List StoredRttChunk) (after : Nat) : Prop where
  sound : Sound w
  received : w.received = items.map (RttChunkDto.fromStored encode)
  asked : w.after = some after
  reader : Reader StoredRttChunk.sequence begun (w.retained channel) items after
  bound : after ≤ begun ∨ after ≤ w.recorded.length
  recorded : ∀ item ∈ items, item ∈ ofChannel w.recorded channel

theorem Paged.record {items : List StoredRttChunk} {after timestampMs channelIndex : Nat}
    {data : List UInt8} (h : Paged encode channel begun w items after)
    (hroom : Room w (.record timestampMs channelIndex data)) :
    Paged encode channel begun (w.step encode channel (.record timestampMs channelIndex data)) items
      after where
  sound := h.sound.step hroom
  received := h.received
  asked := h.asked
  reader := h.reader.keep fun chunk hchunk => by
    obtain hold | hnew := h.sound.retained_step hroom hchunk
    · exact .inl hold
    · have := h.bound
      omega
  bound := by
    change after ≤ begun ∨ after ≤ (w.recorded ++ [_]).length
    rw [List.length_append]
    have := h.bound
    omega
  recorded item hitem := by
    change item ∈ ofChannel (w.recorded ++ [_]) channel
    rw [ofChannel_append]
    exact List.mem_append_left _ (h.recorded item hitem)

/-- The next page of the reader. -/
def nextPage (w : World) (channel after : Nat) : List StoredRttChunk :=
  page StoredRttChunk.sequence MAX_HISTORY_RESPONSE_CHUNKS after (w.retained channel)

theorem Paged.ask {items : List StoredRttChunk} {after : Nat}
    (h : Paged encode channel begun w items after) :
    Paged encode channel begun (w.step encode channel .ask) (items ++ w.nextPage channel after)
      (lastKey StoredRttChunk.sequence after (w.nextPage channel after)) := by
  have hascending := h.sound.retained_ascending channel
  have hchunks : (w.shared.history.response encode w.shared.generation channel w.after).chunks =
      (w.nextPage channel after).map (RttChunkDto.fromStored encode) := by
    rw [h.asked]
    exact congrArg _ (responseChunks_eq _ _ _)
  exact
    { sound := @h.sound.step _ _ _ .ask trivial
      received := by
        change w.received ++ (w.shared.history.response encode _ channel w.after).chunks = _
        rw [hchunks, h.received, List.map_append]
      asked := by
        change ((w.shared.history.response encode _ channel w.after).chunks.getLast?.map
          RttChunkDto.sequence).or w.after = _
        rw [hchunks, h.asked, List.getLast?_map, Option.map_map, lastKey]
        change (Option.map StoredRttChunk.sequence (w.nextPage channel after).getLast?).or _ = _
        cases Option.map StoredRttChunk.sequence (w.nextPage channel after).getLast? <;> rfl
      reader := h.reader.ask hascending _
      bound := by
        obtain hnil | ⟨front, last, hpage⟩ := (w.nextPage channel after).eq_nil_or_concat'
        · rw [hnil]
          exact h.bound
        · right
          have hlast : last ∈ w.nextPage channel after := by
            rw [hpage]
            exact List.mem_append_right _ (List.mem_singleton_self _)
          have hrecorded := List.mem_of_mem_filter (h.sound.retained_recorded (mem_page hlast).1)
          rw [hpage, lastKey, List.getLast?_concat]
          exact h.sound.numbered last hrecorded
      recorded := fun item hitem => by
        obtain hold | hnew := List.mem_append.mp hitem
        · exact h.recorded item hold
        · exact h.sound.retained_recorded (mem_page hnew).1 }

/-! ## Runs -/

abbrev run (encode : List UInt8 → String) (channel : Nat) (w : World) (actions : List Action) : World :=
  actions.foldl (step encode channel) w

/-- A chunk that is kept in the end was kept since it was recorded. -/
theorem retained_of_run (h : Sound w) {actions : List Action}
    (hroom : EachStep (step encode channel) Room w actions) {chunk : StoredRttChunk}
    (hchunk : chunk ∈ (w.run encode channel actions).retained channel)
    (hold : chunk.sequence ≤ w.recorded.length) : chunk ∈ w.retained channel := by
  induction actions generalizing w with
  | nil => exact hchunk
  | cons action actions ih =>
    have hle : w.recorded.length ≤ (w.step encode channel action).recorded.length := by
      cases action with
      | ask => exact le_rfl
      | record timestampMs channelIndex data =>
        change _ ≤ (w.recorded ++ [_]).length
        rw [List.length_append]
        exact Nat.le_add_right _ _
    have hnext := ih (h.step hroom.1) hroom.2 hchunk (hold.trans hle)
    refine (h.retained_step hroom.1 hnext).resolve_right fun hnew => ?_
    omega

/-- With each page a chunk is received, or the reader is a page nearer to it. -/
theorem Paged.run {items : List StoredRttChunk} {after pages : Nat}
    (h : Paged encode channel begun w items after) {actions : List Action}
    (hroom : EachStep (step encode channel) Room w actions) {chunk : StoredRttChunk}
    (hlt : begun < chunk.sequence) (hold : chunk.sequence ≤ w.recorded.length)
    (hchunk : chunk ∈ (w.run encode channel actions).retained channel)
    (hnear : chunk ∈ items ∨ begun + MAX_HISTORY_RESPONSE_CHUNKS * pages ≤ after) :
    ∃ items' after', Paged encode channel begun (w.run encode channel actions) items' after' ∧
      (chunk ∈ items' ∨
        begun + MAX_HISTORY_RESPONSE_CHUNKS * (pages + actions.count .ask) ≤ after') := by
  induction actions generalizing w items after pages with
  | nil => exact ⟨items, after, h, hnear⟩
  | cons action actions ih =>
    cases action with
    | record timestampMs channelIndex data =>
      have hlength : chunk.sequence ≤ (w.recorded ++
          [w.shared.stamp timestampMs channelIndex data]).length := by
        rw [List.length_append]
        exact Nat.le_add_right_of_le hold
      have hcount : (Action.record timestampMs channelIndex data :: actions).count .ask =
          actions.count .ask := List.count_cons_of_ne (by simp)
      rw [hcount]
      exact ih (h.record hroom.1) hroom.2 hlength hchunk hnear
    | ask =>
      have hretained := retained_of_run h.sound hroom hchunk hold
      have hprogress : chunk ∈ items ++ w.nextPage channel after ∨ begun +
          MAX_HISTORY_RESPONSE_CHUNKS * (pages + 1) ≤
            lastKey StoredRttChunk.sequence after (w.nextPage channel after) := by
        obtain hitem | hpages := hnear
        · exact .inl (List.mem_append_left _ hitem)
        · refine (@h.reader.progress _ _ MAX_HISTORY_RESPONSE_CHUNKS _ _ _ _
            (h.sound.retained_ascending channel) _ hretained hlt).imp_right fun hle => ?_
          rw [Nat.mul_succ]
          exact le_trans (by omega) hle
      rw [List.count_cons_self, Nat.add_comm (actions.count _), ← Nat.add_assoc]
      exact ih h.ask hroom.2 hold hchunk hprogress

/-- What a reader has that began after `begun` when the session was `before`. -/
structure Pages (encode : List UInt8 → String) (channel begun : Nat) (before : World) (asks : Nat)
    (w : World) : Prop where
  /-- Each chunk once, and in order. -/
  ascending : Ascending RttChunkDto.sequence w.received
  recorded : ∀ dto ∈ w.received,
    ∃ chunk ∈ ofChannel w.recorded channel, dto = RttChunkDto.fromStored encode chunk
  /-- Whatever is kept throughout, after so many questions at most. -/
  complete : ∀ chunk ∈ before.retained channel, chunk ∈ w.retained channel →
    begun < chunk.sequence → chunk.sequence ≤ begun + MAX_HISTORY_RESPONSE_CHUNKS * asks →
    RttChunkDto.fromStored encode chunk ∈ w.received

theorem Paged.exists_run {items : List StoredRttChunk} {after : Nat}
    (h : Paged encode channel begun w items after) {actions : List Action}
    (hroom : EachStep (step encode channel) Room w actions) :
    ∃ items' after', Paged encode channel begun (w.run encode channel actions) items' after' := by
  induction actions generalizing w items after with
  | nil => exact ⟨items, after, h⟩
  | cons action actions ih =>
    cases action with
    | record timestampMs channelIndex data => exact ih (h.record hroom.1) hroom.2
    | ask => exact ih h.ask hroom.2

/-- As long as nobody asks, the reader has not begun. -/
theorem Paged.recording (h : Paged encode channel begun w [] begun) {recording : List Action}
    (hroom : EachStep (step encode channel) Room w recording) (hrecording : .ask ∉ recording) :
    Paged encode channel begun (w.run encode channel recording) [] begun := by
  induction recording generalizing w with
  | nil => exact h
  | cons action recording ih =>
    rw [List.mem_cons, not_or] at hrecording
    cases action with
    | record timestampMs channelIndex data => exact ih (h.record hroom.1) hroom.2 hrecording.2
    | ask => exact absurd rfl hrecording.1

theorem paged_start (generation : Nat) :
    Paged encode channel begun (start generation (some begun)) [] begun where
  sound := sound_start generation (some begun)
  received := rfl
  asked := rfl
  reader := .begin _
  bound := .inl le_rfl
  recorded := fun _ h => nomatch h

/-- Any recording, and then a reader beside it. -/
theorem accounts_pages (encode : List UInt8 → String) (generation channel begun : Nat)
    (recording actions : List Action) (hrecording : .ask ∉ recording)
    (hroom : EachStep (step encode channel) Room (start generation (some begun))
      (recording ++ actions)) :
    Always (step encode channel) Accounts (start generation (some begun)) (recording ++ actions) ∧
      Pages encode channel begun ((start generation (some begun)).run encode channel recording)
        (actions.count .ask)
        ((start generation (some begun)).run encode channel (recording ++ actions)) := by
  refine ⟨hroom.always (fun _ h => h.accounts) (fun _ _ h ha => h.step ha)
    (sound_start generation (some begun)), ?_⟩
  obtain ⟨hroom₁, hroom₂⟩ := hroom.of_append
  have hbegun := (paged_start generation).recording hroom₁ hrecording
  have happend : (start generation (some begun)).run encode channel (recording ++ actions) =
      ((start generation (some begun)).run encode channel recording).run encode channel actions :=
    List.foldl_append
  rw [happend]
  obtain ⟨items, after, hpaged⟩ := hbegun.exists_run hroom₂
  refine ⟨?_, ?_, fun chunk hbefore hafter hlt hle => ?_⟩
  · rw [hpaged.received, Ascending, List.pairwise_map]
    exact hpaged.reader.ascending
  · intro dto hdto
    rw [hpaged.received] at hdto
    obtain ⟨item, hitem, rfl⟩ := List.mem_map.mp hdto
    exact ⟨item, hpaged.recorded item hitem, rfl⟩
  · have hold := hbegun.sound.numbered chunk
      (List.mem_of_mem_filter (hbegun.sound.retained_recorded hbefore))
    obtain ⟨items, after, hpaged, hnear⟩ :=
      @hbegun.run _ _ _ _ _ _ 0 _ hroom₂ _ hlt hold hafter (.inr le_rfl)
    rw [hpaged.received]
    refine List.mem_map_of_mem (hnear.elim id fun hpages => ?_)
    rw [Nat.zero_add] at hpages
    exact hpaged.reader.complete chunk hafter hlt (hle.trans hpages)

/-- Chunks of two channels; the reader of channel 0 has the first one. -/
def twoChannels : List Action :=
  [.record 0 0 [1], .record 0 1 [1], .record 5 0 [2, 3], .record 7 0 [1]]

/-- The reader asks again while chunks are recorded. -/
def askedAgain : List Action := [.ask, .record 8 1 [2, 3], .record 9 0 [1], .ask, .ask]

def smallBase64 (data : List UInt8) : String := if data = [1] then "AQ==" else "AgM="

theorem accounts_pages_channels :
    Always (step smallBase64 0) Accounts (start 1 (some 1)) (twoChannels ++ askedAgain) ∧
      Pages smallBase64 0 1 ((start 1 (some 1)).run smallBase64 0 twoChannels) 3
        ((start 1 (some 1)).run smallBase64 0 (twoChannels ++ askedAgain)) ∧
      ((start 1 (some 1)).run smallBase64 0 (twoChannels ++ askedAgain)).received.map
        (fun dto => (dto.sequence, dto.channelOffset, dto.dataB64)) =
        [(3, 1, "AgM="), (4, 3, "AQ=="), (6, 4, "AQ==")] := by
  have hroom : EachStep (step smallBase64 0) Room (start 1 (some 1)) (twoChannels ++ askedAgain) :=
    ⟨⟨by decide, by decide⟩, ⟨by decide, by decide⟩, ⟨by decide, by decide⟩,
      ⟨by decide, by decide⟩, trivial, ⟨by decide, by decide⟩, ⟨by decide, by decide⟩, trivial,
      trivial, trivial⟩
  obtain ⟨haccounts, hpages⟩ := accounts_pages smallBase64 1 0 1 _ _ (by decide) hroom
  exact ⟨haccounts, hpages, by decide⟩

/-! ## Where the accounts end -/

theorem trimChannel_of_le {s : HistoryStore} (h : (s.get channel).bytes ≤ HISTORY_PER_CHANNEL_BYTES)
    (turns : Nat) : s.trimChannel channel turns = s := by
  cases turns with
  | zero => rfl
  | succ turns => rw [HistoryStore.trimChannel, if_neg (Nat.not_lt.mpr h)]

theorem trimSession_of_le {s : HistoryStore} (h : s.totalBytes ≤ HISTORY_PER_SESSION_BYTES)
    (turns : Nat) : s.trimSession turns = s := by
  cases turns with
  | zero => rfl
  | succ turns => rw [HistoryStore.trimSession, if_neg (Nat.not_lt.mpr h)]

theorem push_of_le {s : HistoryStore} {chunk : StoredRttChunk}
    (hchannel : (s.get chunk.channelIndex).bytes + chunk.length ≤ HISTORY_PER_CHANNEL_BYTES)
    (hsession : s.totalBytes + chunk.length ≤ HISTORY_PER_SESSION_BYTES) :
    s.push chunk = s.add chunk := by
  have hbytes : ((s.add chunk).get chunk.channelIndex).bytes ≤ HISTORY_PER_CHANNEL_BYTES := by
    rw [HistoryStore.add, HistoryStore.get_insert, if_pos rfl]
    exact hchannel
  unfold HistoryStore.push
  dsimp only
  rw [trimChannel_of_le hbytes]
  exact trimSession_of_le hsession _

/-- So many chunks of one byte, and a reader that has no number yet. -/
def flood (n : Nat) : World :=
  (start 1 none).run (fun _ => "AA==") 0 (List.replicate n (.record 0 0 [0]))

def floodChunk (i : Nat) : StoredRttChunk := ⟨1, i + 1, 0, 0, i, [0]⟩

theorem flood_succ (n : Nat) : flood (n + 1) = (flood n).step (fun _ => "AA==") 0 (.record 0 0 [0]) := by
  rw [flood, List.replicate_succ', run, List.foldl_append]
  rfl

/-- Nothing of so little is dropped. -/
theorem flood_spec {n : Nat} (hn : n ≤ 1000) :
    (flood n).retained 0 = (List.range n).map floodChunk ∧
      ((flood n).shared.history.get 0).bytes = n ∧ (flood n).shared.history.totalBytes = n ∧
      (flood n).shared.nextSequence = n + 1 ∧ (flood n).shared.channelOffsets 0 = n ∧
      (flood n).shared.generation = 1 ∧ (flood n).received = [] ∧ (flood n).after = none := by
  induction n with
  | zero => exact ⟨rfl, rfl, rfl, rfl, rfl, rfl, rfl, rfl⟩
  | succ n ih =>
    obtain ⟨hretained, hbytes, htotal, hnext, hoffset, hgeneration, hreceived, hafter⟩ :=
      ih (by omega)
    have hstamp : (flood n).shared.stamp 0 0 [0] = floodChunk n := by
      rw [RttShared.stamp, hgeneration, hnext, hoffset]
      rfl
    have hpush : (flood n).shared.history.push (floodChunk n) =
        (flood n).shared.history.add (floodChunk n) := by
      refine push_of_le ?_ ?_
      · change ((flood n).shared.history.get 0).bytes + 1 ≤ 256 * 1024
        omega
      · change (flood n).shared.history.totalBytes + 1 ≤ 2 * 1024 * 1024
        omega
    have hhistory : (flood (n + 1)).shared.history =
        (flood n).shared.history.add (floodChunk n) := by
      rw [flood_succ, ← hpush, ← hstamp]
      rfl
    have hget : (flood (n + 1)).shared.history.get 0 =
        ((flood n).shared.history.get 0).pushBack (floodChunk n) := by
      rw [hhistory, HistoryStore.add]
      exact (HistoryStore.get_insert 0 _).trans (if_pos rfl)
    refine ⟨?_, ?_, ?_, ?_, ?_, ?_, ?_, ?_⟩
    · rw [retained, hget, List.range_succ, List.map_append, ← hretained]
      rfl
    · rw [hget]
      change _ + 1 = _
      rw [hbytes]
    · rw [hhistory]
      change _ + 1 = _
      rw [htotal]
    · rw [flood_succ]
      change ((flood n).shared.nextSequence + 1) % 2 ^ 64 = _
      rw [hnext]
      omega
    · rw [flood_succ]
      change Function.update (flood n).shared.channelOffsets 0
        (saturatingAdd ((flood n).shared.channelOffsets 0) 1) 0 = _
      rw [Function.update_self, hoffset, saturatingAdd_eq (by omega)]
    · rw [flood_succ]
      exact hgeneration
    · rw [flood_succ]
      exact hreceived
    · rw [flood_succ]
      exact hafter

/-- A reader that begins without a number gets nothing before the newest page. -/
theorem newest_page {n : Nat} (hlt : MAX_HISTORY_RESPONSE_CHUNKS < n) (hle : n ≤ 1000) (asks : Nat) :
    let w := (flood n).run (fun _ => "AA==") 0 (List.replicate asks .ask)
    w.shared = (flood n).shared ∧ (∀ dto ∈ w.received, 1 < dto.sequence) ∧
      ∀ after ∈ w.after, 1 ≤ after := by
  obtain ⟨hretained, -, -, -, -, -, hreceived, hafter⟩ := flood_spec hle
  generalize flood n = f at *
  induction asks with
  | zero =>
    refine ⟨rfl, ?_, ?_⟩
    · change ∀ dto ∈ f.received, _
      rw [hreceived]
      simp
    · change ∀ after ∈ f.after, _
      rw [hafter]
      simp
  | succ asks ih =>
    rw [List.replicate_succ', run, List.foldl_append]
    generalize hw : List.foldl (step (fun _ => "AA==") 0) f (List.replicate asks .ask) = w
    dsimp only at ih
    rw [run, hw] at ih
    obtain ⟨hshared, hdtos, hnumber⟩ := ih
    have hnew : ∀ chunk ∈ w.shared.history.responseChunks 0 w.after, 1 < chunk.sequence := by
      rw [hshared]
      intro chunk hchunk
      cases hask : w.after with
      | some after =>
        rw [hask, responseChunks_eq] at hchunk
        exact (hnumber after hask).trans_lt (mem_page hchunk).2
      | none =>
        have hdrop : f.shared.history.responseChunks 0 none =
            (f.retained 0).drop
              ((f.retained 0).length - MAX_HISTORY_RESPONSE_CHUNKS) := by
          unfold HistoryStore.responseChunks retained HistoryStore.get
          cases f.shared.history.channels.lookup 0 <;> rfl
        rw [hask, hdrop, hretained, List.length_map, List.length_range] at hchunk
        obtain ⟨i, hi, rfl⟩ := List.getElem_of_mem hchunk
        rw [List.getElem_drop, List.getElem_map, List.getElem_range]
        change 1 < _ + 1
        omega
    refine ⟨hshared, fun dto hdto => ?_, fun after hask => ?_⟩
    · obtain hold | hdto := List.mem_append.mp hdto
      · exact hdtos dto hold
      · obtain ⟨chunk, hchunk, rfl⟩ := List.mem_map.mp hdto
        exact hnew chunk hchunk
    · obtain hlast | ⟨-, hold⟩ := Option.or_eq_some_iff.mp hask
      · obtain ⟨dto, hdto, rfl⟩ := Option.map_eq_some_iff.mp hlast
        obtain ⟨chunk, hchunk, rfl⟩ := List.mem_map.mp (List.mem_of_getLast? hdto)
        exact (hnew chunk hchunk).le
      · exact hnumber after hold

theorem offsets_saturate {d₁ d₂ d₃ d₄ : List UInt8} (h₁ : d₁.length = 2 ^ 63 - 1)
    (h₂ : d₂.length = 2 ^ 63 - 1) (h₃ : d₃.length = 2) :
    ¬ Accounts ((start 1 none).run (fun _ => "") 0
      [.record 0 0 d₁, .record 0 0 d₂, .record 0 0 d₃, .record 0 0 d₄]) := by
  intro h
  have hchain := (List.isChain_cons_cons.mp (List.isChain_cons_cons.mp
    (List.isChain_cons_cons.mp (h.offsets 0)).2).2).1
  change saturatingAdd (saturatingAdd 0 d₁.length) d₂.length + d₃.length =
    saturatingAdd (saturatingAdd (saturatingAdd 0 d₁.length) d₂.length) d₃.length at hchain
  rw [h₁, h₂, h₃] at hchain
  revert hchain
  decide

/-- The oldest of 513 chunks is kept and never comes, however often a reader asks that had no number
to begin with; and when 2^64 bytes have been recorded, the offsets do not go on. -/
theorem accounts_end :
    (∀ asks, floodChunk 0 ∈
        ((flood 513).run (fun _ => "AA==") 0 (List.replicate asks .ask)).retained 0 ∧
      RttChunkDto.fromStored (fun _ => "AA==") (floodChunk 0) ∉
        ((flood 513).run (fun _ => "AA==") 0 (List.replicate asks .ask)).received) ∧
      ¬ Accounts ((start 1 none).run (fun _ => "") 0
        [.record 0 0 (List.replicate (2 ^ 63 - 1) 0), .record 0 0 (List.replicate (2 ^ 63 - 1) 0),
          .record 0 0 [0, 0], .record 0 0 [0]]) := by
  refine ⟨fun asks => ?_, offsets_saturate List.length_replicate List.length_replicate rfl⟩
  obtain ⟨hshared, hreceived, -⟩ := newest_page (n := 513) (by decide) (by decide) asks
  obtain ⟨hretained, -⟩ := flood_spec (n := 513) (by decide)
  refine ⟨?_, fun hmem => absurd (hreceived _ hmem) (by decide)⟩
  rw [retained, hshared, ← retained, hretained]
  exact List.mem_map_of_mem (List.mem_range.mpr (by decide))

end World

end TauTerm.Rtt.History
