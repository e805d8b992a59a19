import Mathlib
import TauTerm.Lib.Run
import TauTerm.Rtt.RuntimeStore

/-!
# The SystemView events of the RTT store

A `Server` has a snapshot and the events it retains at every moment. The store gets the snapshots of
some moments, with events or in reply to requests. What it keeps of a channel comes after what its
snapshot says has been cleared; so nothing that was cleared comes back as long as no snapshot is
applied after a later one.
-/

namespace TauTerm.Rtt.RuntimeStore

open Lib Store

/-! ## Events -/

theorem mem_visible {snapshot : SystemViewSnapshot} {events : List SystemViewEvent}
    {event : SystemViewEvent} :
    event ∈ visible snapshot events ↔
      event ∈ events ∧ snapshot.clearedThroughSequence < event.sequence := by
  rw [visible, List.mem_filter, decide_eq_true_eq]

theorem ascending_mergeSystemViewEvents (events incoming : List SystemViewEvent) :
    Ascending SystemViewEvent.sequence (mergeSystemViewEvents events incoming) :=
  (ascending_mergeByKey events incoming).drop _

theorem length_mergeSystemViewEvents (events incoming : List SystemViewEvent) :
    (mergeSystemViewEvents events incoming).length ≤ CLIENT_SYSTEMVIEW_EVENTS_PER_CHANNEL := by
  unfold mergeSystemViewEvents
  rw [List.length_drop]
  omega

theorem mem_mergeSystemViewEvents {events incoming : List SystemViewEvent} {event : SystemViewEvent}
    (h : event ∈ mergeSystemViewEvents events incoming) : event ∈ events ∨ event ∈ incoming :=
  mem_mergeByKey (List.mem_of_mem_drop h)

/-- Events as they are kept with a snapshot. -/
structure Shown (snapshot : Option SystemViewSnapshot) (events : List SystemViewEvent) : Prop where
  ascending : Ascending SystemViewEvent.sequence events
  bounded : events.length ≤ CLIENT_SYSTEMVIEW_EVENTS_PER_CHANNEL
  visible : ∀ event ∈ events,
    ∃ k, snapshot = some k ∧ k.clearedThroughSequence < event.sequence

theorem Shown.nil (snapshot : Option SystemViewSnapshot) : Shown snapshot [] :=
  ⟨.nil, Nat.zero_le _, by simp⟩

/-- Whatever is merged is shown if the events that were cleared are taken out before. -/
theorem shown_merge (snapshot : SystemViewSnapshot) (events incoming : List SystemViewEvent) :
    Shown (some snapshot)
      (mergeSystemViewEvents (visible snapshot events) (visible snapshot incoming)) where
  ascending := ascending_mergeSystemViewEvents _ _
  bounded := length_mergeSystemViewEvents _ _
  visible event hevent := by
    refine ⟨snapshot, rfl, ?_⟩
    obtain h | h := mem_mergeSystemViewEvents hevent
    · exact (mem_visible.mp h).2
    · exact (mem_visible.mp h).2

theorem Shown.retain {old : Option SystemViewSnapshot} {events : List SystemViewEvent}
    (h : Shown old events) (snapshot : SystemViewSnapshot) :
    Shown (some snapshot) (RuntimeStore.visible snapshot events) where
  ascending := h.ascending.filter _
  bounded := (List.length_filter_le _ _).trans h.bounded
  visible _ hevent := ⟨snapshot, rfl, (mem_visible.mp hevent).2⟩

/-! ## What the operations do to the channels -/

namespace Store

def keptSnapshot (s : Store) (channel : Nat) : Option SystemViewSnapshot :=
  (s.runtime.systemview channel).bind (·.snapshot)

def keptEvents (s : Store) (channel : Nat) : List SystemViewEvent :=
  ((s.runtime.systemview channel).map (·.events)).getD []

variable {s s' : Store}

/-- A channel has been given a snapshot and events that are shown with it, and nothing else has
changed. -/
def Gives (s s' : Store) (channel : Nat) (snapshot : Option SystemViewSnapshot) : Prop :=
  ∃ state, s'.runtime = setSystemView s.runtime channel state ∧ state.snapshot = snapshot ∧
    Shown snapshot state.events

theorem Gives.generation {channel : Nat} {snapshot : Option SystemViewSnapshot}
    (h : s.Gives s' channel snapshot) : s'.generation = s.generation := by
  obtain ⟨state, hruntime, -⟩ := h
  rw [Store.generation, hruntime]
  rfl

theorem Gives.keptSnapshot {channel : Nat} {snapshot : Option SystemViewSnapshot}
    (h : s.Gives s' channel snapshot) (other : Nat) :
    s'.keptSnapshot other = if other = channel then snapshot else s.keptSnapshot other := by
  obtain ⟨state, hruntime, hsnapshot, -⟩ := h
  rw [Store.keptSnapshot, hruntime, systemview_setSystemView]
  by_cases heq : other = channel
  · subst heq
    rw [Function.update_self, if_pos rfl, Option.bind_some, hsnapshot]
  · rw [Function.update_of_ne heq, if_neg heq]
    rfl

theorem Gives.shown {channel : Nat} {snapshot : Option SystemViewSnapshot}
    (h : s.Gives s' channel snapshot) (hs : ∀ other, Shown (s.keptSnapshot other) (s.keptEvents other))
    (other : Nat) : Shown (s'.keptSnapshot other) (s'.keptEvents other) := by
  rw [h.keptSnapshot]
  obtain ⟨state, hruntime, -, hshown⟩ := h
  rw [keptEvents, hruntime, systemview_setSystemView]
  by_cases heq : other = channel
  · subst heq
    rw [Function.update_self, if_pos rfl]
    exact hshown
  · rw [Function.update_of_ne heq, if_neg heq]
    exact hs other

theorem recoverSystemViewHistory_runtime (s : Store) (channelIndex generation : Nat) :
    (s.recoverSystemViewHistory channelIndex generation).1.runtime = s.runtime := by
  unfold recoverSystemViewHistory
  dsimp only
  split <;> rfl

theorem recovered_runtime (s : Store) (capture : Capture) (channelIndex generation : Nat) :
    (s.recovered capture channelIndex generation).1.runtime = s.runtime := by
  unfold recovered
  dsimp only
  split
  · exact recoverSystemViewHistory_runtime _ _ _
  · rfl

theorem getD_new_events (o : Option RttSystemViewChannelState) :
    (o.getD .new).events = (o.map (·.events)).getD [] := by
  cases o <;> rfl

theorem getD_new_snapshot (o : Option RttSystemViewChannelState) :
    (o.getD .new).snapshot = o.bind (·.snapshot) := by
  cases o <;> rfl

variable (hs : s.Released) (hshown : ∀ channel, Shown (s.keptSnapshot channel) (s.keptEvents channel))

include hs hshown in
theorem applySystemViewEvent_gives {payload : SystemViewRuntimeEvent}
    (h : s.generation = some payload.generation) :
    s.Gives (s.applySystemViewEvent payload).1 payload.channelIndex (some payload.snapshot) := by
  have hpublish := publish_of_followed (followed_of_generation hs h)
  have hevents : Shown (some payload.snapshot) (if payload.events.isSome then
      mergeSystemViewEvents
        (visible payload.snapshot ((s.runtime.systemview payload.channelIndex).getD .new).events)
        (visible payload.snapshot (payload.events.getD []))
      else visible payload.snapshot ((s.runtime.systemview payload.channelIndex).getD .new).events) := by
    split
    · exact shown_merge _ _ _
    · rw [getD_new_events]
      exact (hshown payload.channelIndex).retain payload.snapshot
  unfold applySystemViewEvent
  rw [if_neg (not_not.mpr h)]
  dsimp only
  split
  · refine ⟨_, (recoverSystemViewHistory_runtime _ _ _).trans (hpublish _), rfl, hevents⟩
  · exact ⟨_, hpublish _, rfl, hevents⟩

include hs in
theorem systemViewHistory_gives {capture : Capture} {snapshot : SystemViewSnapshot}
    (hcurrent : s.isCurrent capture = true) (h : s.generation = some snapshot.generation)
    (channelIndex : Nat) (history : SystemViewHistoryResponse) :
    s.Gives (s.systemViewHistory capture channelIndex snapshot history) channelIndex
      (some snapshot) := by
  unfold systemViewHistory
  rw [hcurrent, if_neg (by simp [h])]
  refine ⟨_, publish_of_followed (followed_of_generation hs h) _, rfl, ?_⟩
  dsimp only
  exact shown_merge _ _ _

/-- The snapshots are left as they are, and the events are shown with them. -/
def Holds (s s' : Store) : Prop :=
  s'.runtime.systemview = s.runtime.systemview ∧ s'.generation = s.generation ∨
    ∃ channel, s.Gives s' channel (s.keptSnapshot channel)

theorem holds_of_runtime (h : s'.runtime = s.runtime) : s.Holds s' := by
  refine .inl ⟨by rw [h], ?_⟩
  rw [Store.generation, h]
  rfl

theorem Holds.generation (h : s.Holds s') : s'.generation = s.generation := by
  obtain ⟨-, h⟩ | ⟨channel, h⟩ := h
  · exact h
  · exact h.generation

theorem Holds.keptSnapshot (h : s.Holds s') (channel : Nat) :
    s'.keptSnapshot channel = s.keptSnapshot channel := by
  obtain ⟨h, -⟩ | ⟨changed, h⟩ := h
  · rw [Store.keptSnapshot, h]
    rfl
  · rw [h.keptSnapshot]
    split
    · rename_i heq
      rw [heq]
    · rfl

include hshown in
theorem Holds.shown (h : s.Holds s') (channel : Nat) :
    Shown (s'.keptSnapshot channel) (s'.keptEvents channel) := by
  obtain ⟨h, -⟩ | ⟨changed, h⟩ := h
  · rw [Store.keptSnapshot, keptEvents, h]
    exact hshown channel
  · exact h.shown hshown channel

theorem Holds.of_runtime (h : s.Holds s') {t : Store} (ht : t.runtime = s'.runtime) : s.Holds t := by
  unfold Holds Gives Store.generation at h ⊢
  rwa [ht]

theorem holds_publish_error (cause : Option String) :
    s.Holds (s.publish { s.runtime with error := cause }) := by
  unfold publish
  split <;> exact .inl ⟨rfl, rfl⟩

theorem holds_publish {channelIndex : Nat} {state : RttSystemViewChannelState}
    (hsnapshot : state.snapshot = s.keptSnapshot channelIndex)
    (hevents : Shown (s.keptSnapshot channelIndex) state.events) :
    s.Holds (s.publish (setSystemView s.runtime channelIndex state)) := by
  unfold publish
  split
  · exact .inr ⟨channelIndex, state, rfl, hsnapshot, hevents⟩
  · exact holds_of_runtime rfl

theorem mergeRecovered_holds (s : Store) (capture : Capture) (channelIndex generation : Nat)
    (history : SystemViewHistoryResponse) :
    s.Holds (s.mergeRecovered capture channelIndex generation history) := by
  unfold mergeRecovered
  split
  · exact holds_of_runtime rfl
  · cases hstate : s.runtime.systemview channelIndex with
    | none => exact holds_of_runtime rfl
    | some channel =>
      dsimp only
      cases hsnapshot : channel.snapshot with
      | none => exact holds_of_runtime rfl
      | some snapshot =>
        dsimp only
        split
        · exact holds_of_runtime rfl
        · have hkept : s.keptSnapshot channelIndex = some snapshot := by
            rw [Store.keptSnapshot, hstate, Option.bind_some, hsnapshot]
          refine holds_publish ?_ ?_
          · exact hkept.symm
          · rw [hkept]
            dsimp only
            exact shown_merge _ _ _

include hshown in
theorem systemViewHistoryFailed_holds (capture : Capture) (channelIndex : Nat) (cause : String) :
    s.Holds (s.systemViewHistoryFailed capture channelIndex cause) := by
  unfold systemViewHistoryFailed
  split
  · exact holds_of_runtime rfl
  · refine holds_publish (getD_new_snapshot _) ?_
    dsimp only
    rw [getD_new_events]
    exact hshown channelIndex

theorem clearSystemView_holds (s : Store) (capture : Capture) (channelIndex : Nat) :
    s.Holds (s.clearSystemView capture channelIndex) := by
  unfold clearSystemView
  split
  · exact holds_of_runtime rfl
  · exact holds_publish (getD_new_snapshot _) (.nil _)

theorem clearFailed_holds (s : Store) (capture : Capture) (cause : String) :
    s.Holds (s.clearFailed capture cause) := by
  unfold clearFailed
  split
  · exact holds_of_runtime rfl
  · exact holds_publish_error _

theorem applySnapshot_systemview (s : Store) (snapshot : RttSnapshot) :
    ((s.applySnapshot snapshot).generation = s.generation ∧
      (s.applySnapshot snapshot).runtime.systemview = s.runtime.systemview) ∨
    ((s.applySnapshot snapshot).generation ≠ s.generation ∧
      (s.applySnapshot snapshot).runtime.systemview = fun _ => none) := by
  unfold applySnapshot
  dsimp only
  split
  · exact .inl ⟨rfl, rfl⟩
  · by_cases hchanged : s.generation ≠ some snapshot.generation
    · simp only [if_pos hchanged]
      unfold publish
      split
      · exact .inr ⟨hchanged.symm, rfl⟩
      · exact .inl ⟨rfl, rfl⟩
    · simp only [if_neg hchanged]
      unfold publish
      split
      · exact .inl ⟨(not_not.mp hchanged).symm, rfl⟩
      · exact .inl ⟨rfl, rfl⟩

theorem Released.applySystemViewEvent (h : s.Released) (payload : SystemViewRuntimeEvent) :
    (s.applySystemViewEvent payload).1.Released := by
  have hrecover {t : Store} (ht : t.Released) (channelIndex generation : Nat) :
      (t.recoverSystemViewHistory channelIndex generation).1.Released := by
    unfold recoverSystemViewHistory
    dsimp only
    split <;> exact ht
  unfold Store.applySystemViewEvent
  split
  · exact h
  · dsimp only
    split
    · exact hrecover (h.publish _) _ _
    · exact h.publish _

theorem Released.systemViewHistory (h : s.Released) (capture : Capture) (channelIndex : Nat)
    (snapshot : SystemViewSnapshot) (history : SystemViewHistoryResponse) :
    (s.systemViewHistory capture channelIndex snapshot history).Released := by
  unfold Store.systemViewHistory
  split
  · exact h
  · exact h.publish _

theorem Released.mergeRecovered (h : s.Released) (capture : Capture) (channelIndex generation : Nat)
    (history : SystemViewHistoryResponse) :
    (s.mergeRecovered capture channelIndex generation history).Released := by
  unfold Store.mergeRecovered
  split
  · exact h
  · split
    · exact h
    · split
      · exact h
      · split
        · exact h
        · exact h.publish _

theorem Released.recovered (h : s.Released) (capture : Capture) (channelIndex generation : Nat) :
    (s.recovered capture channelIndex generation).1.Released := by
  unfold Store.recovered Store.recoverSystemViewHistory
  dsimp only
  split
  · split <;> exact h
  · exact h

theorem Released.systemViewHistoryFailed (h : s.Released) (capture : Capture) (channelIndex : Nat)
    (cause : String) : (s.systemViewHistoryFailed capture channelIndex cause).Released := by
  unfold Store.systemViewHistoryFailed
  split
  · exact h
  · exact h.publish _

theorem Released.clearSystemView (h : s.Released) (capture : Capture) (channelIndex : Nat) :
    (s.clearSystemView capture channelIndex).Released := by
  unfold Store.clearSystemView
  split
  · exact h
  · exact h.publish _

theorem Released.clearFailed (h : s.Released) (capture : Capture) (cause : String) :
    (s.clearFailed capture cause).Released := by
  unfold Store.clearFailed
  split
  · exact h
  · exact h.publish _

end Store

/-! ## The server and the world -/

/-- What there is of each generation and channel at each moment. Clearing takes away the events up to
some sequence, and never less than the clearing before. -/
structure Server where
  snapshotAt : Nat → Nat → Nat → SystemViewSnapshot
  retainedAt : Nat → Nat → Nat → List SystemViewEvent
  moment_eq : ∀ generation channel moment, (snapshotAt generation channel moment).moment = moment
  generation_eq : ∀ generation channel moment,
    (snapshotAt generation channel moment).generation = generation
  cleared_mono : ∀ generation channel,
    Monotone fun moment => (snapshotAt generation channel moment).clearedThroughSequence
  ascending : ∀ generation channel moment,
    Ascending SystemViewEvent.sequence (retainedAt generation channel moment)
  visible : ∀ generation channel moment, ∀ event ∈ retainedAt generation channel moment,
    (snapshotAt generation channel moment).clearedThroughSequence < event.sequence

/-- A request that was made at the moment `since`. -/
structure SystemViewRequest where
  capture : Capture
  channelIndex : Nat
  generation : Nat
  since : Nat
  deriving DecidableEq

/-- `applied` are the snapshots that the store has been given in this generation, of each channel,
and `events` those of them that came with events. -/
structure SystemViewWorld where
  now : Nat
  delivered : Nat → Nat → Nat
  ensures : List SystemViewRequest
  recovers : List SystemViewRequest
  clears : List SystemViewRequest
  applied : List (Nat × SystemViewSnapshot)
  events : List (Nat × SystemViewSnapshot)
  store : Store

inductive SystemViewAction where
  | tick
  | follow
  | release
  | snapshot (snapshot : RttSnapshot)
  | event (payload : SystemViewRuntimeEvent)
  | ensure (channelIndex : Nat)
  /-- The replies have the snapshot of one moment and the events of another one. -/
  | ensured (request : SystemViewRequest) (generation moment historyMoment : Nat)
  | ensureFailed (request : SystemViewRequest) (cause : String)
  | recovered (request : SystemViewRequest) (generation historyMoment : Nat)
  | recoverFailed (request : SystemViewRequest)
  | clear (channelIndex : Nat)
  | cleared (request : SystemViewRequest)
  | clearFailed (request : SystemViewRequest) (cause : String)

namespace SystemViewWorld

def start : SystemViewWorld := ⟨0, fun _ _ => 0, [], [], [], [], [], .initial⟩

def request (w : SystemViewWorld) (channelIndex generation : Nat) (capture : Option Capture) :
    List SystemViewRequest :=
  capture.toList.map (⟨·, channelIndex, generation, w.now⟩)

/-- An event that the store takes. -/
def TakesEvent (w : SystemViewWorld) (payload : SystemViewRuntimeEvent) : Prop :=
  w.store.generation = some payload.generation

/-- A reply to `ensureSystemViewHistory` that the store takes. -/
def TakesReply (w : SystemViewWorld) (request : SystemViewRequest) (generation : Nat) : Prop :=
  w.store.isCurrent request.capture = true ∧ w.store.generation = some generation

instance (w : SystemViewWorld) (payload : SystemViewRuntimeEvent) :
    Decidable (w.TakesEvent payload) :=
  inferInstanceAs (Decidable (_ = _))

instance (w : SystemViewWorld) (request : SystemViewRequest) (generation : Nat) :
    Decidable (w.TakesReply request generation) :=
  inferInstanceAs (Decidable (_ ∧ _))

variable (server : Server)

def step (w : SystemViewWorld) : SystemViewAction → SystemViewWorld
  | .tick => { w with now := w.now + 1 }
  | .follow => { w with store := w.store.follow }
  | .release => { w with store := w.store.release, applied := [], events := [] }
  | .snapshot snapshot =>
    let store := w.store.applySnapshot snapshot
    if store.generation = w.store.generation then { w with store }
    else { w with store, applied := [], events := [] }
  | .event payload =>
    let (store, capture) := w.store.applySystemViewEvent payload
    let new := if w.TakesEvent payload then [(payload.channelIndex, payload.snapshot)] else []
    { w with
      delivered := Function.update w.delivered payload.generation
        (Function.update (w.delivered payload.generation) payload.channelIndex
          payload.snapshot.moment)
      recovers := w.recovers ++ w.request payload.channelIndex payload.generation capture
      applied := w.applied ++ new
      events := w.events ++ new
      store }
  | .ensure channelIndex =>
    { w with
      ensures := w.ensures ++ w.request channelIndex 0 (w.store.askSystemViewHistory channelIndex) }
  | .ensured request generation moment historyMoment =>
    let snapshot := server.snapshotAt generation request.channelIndex moment
    { w with
      ensures := w.ensures.erase request
      applied := w.applied ++
        if w.TakesReply request generation then [(request.channelIndex, snapshot)] else []
      store := w.store.systemViewHistory request.capture request.channelIndex snapshot
        ⟨generation, server.retainedAt generation request.channelIndex historyMoment⟩ }
  | .ensureFailed request cause =>
    { w with
      ensures := w.ensures.erase request
      store := w.store.systemViewHistoryFailed request.capture request.channelIndex cause }
  | .recovered request generation historyMoment =>
    let store := w.store.mergeRecovered request.capture request.channelIndex request.generation
      ⟨generation, server.retainedAt generation request.channelIndex historyMoment⟩
    let (store, capture) := store.recovered request.capture request.channelIndex request.generation
    { w with
      recovers := w.recovers.erase request ++
        w.request request.channelIndex request.generation capture
      store }
  | .recoverFailed request =>
    let (store, capture) :=
      w.store.recovered request.capture request.channelIndex request.generation
    { w with
      recovers := w.recovers.erase request ++
        w.request request.channelIndex request.generation capture
      store }
  | .clear channelIndex =>
    { w with clears := w.clears ++ w.request channelIndex 0 (some w.store.captureRuntime) }
  | .cleared request =>
    { w with
      clears := w.clears.erase request
      store := w.store.clearSystemView request.capture request.channelIndex }
  | .clearFailed request cause =>
    { w with
      clears := w.clears.erase request
      store := w.store.clearFailed request.capture cause }

/-- What can come next: the events of a channel have the snapshots of moments that follow each other,
and a reply is of a moment after its request. -/
def Possible (w : SystemViewWorld) : SystemViewAction → Prop
  | .event payload =>
    payload.snapshot =
      server.snapshotAt payload.generation payload.channelIndex payload.snapshot.moment ∧
    w.delivered payload.generation payload.channelIndex ≤ payload.snapshot.moment ∧
    payload.snapshot.moment ≤ w.now
  | .ensured request _ moment historyMoment => request ∈ w.ensures ∧
      (request.since ≤ moment ∧ moment ≤ w.now) ∧
      (request.since ≤ historyMoment ∧ historyMoment ≤ w.now)
  | .ensureFailed request _ => request ∈ w.ensures
  | .recovered request _ historyMoment => request ∈ w.recovers ∧
      request.since ≤ historyMoment ∧ historyMoment ≤ w.now
  | .recoverFailed request => request ∈ w.recovers
  | .cleared request => request ∈ w.clears
  | .clearFailed request _ => request ∈ w.clears
  | _ => True

/-- No snapshot is applied where a later one is kept. -/
def InOrder (w : SystemViewWorld) : SystemViewAction → Prop
  | .event payload => w.TakesEvent payload →
      ∀ k, w.store.keptSnapshot payload.channelIndex = some k → k.moment ≤ payload.snapshot.moment
  | .ensured request generation moment _ => w.TakesReply request generation →
      ∀ k, w.store.keptSnapshot request.channelIndex = some k → k.moment ≤ moment
  | _ => True

/-- What is kept of every channel. -/
structure NeverBack (w : SystemViewWorld) : Prop where
  ascending : ∀ channel, Ascending SystemViewEvent.sequence (w.store.keptEvents channel)
  bounded : ∀ channel,
    (w.store.keptEvents channel).length ≤ CLIENT_SYSTEMVIEW_EVENTS_PER_CHANNEL
  cleared : ∀ channel snapshot, (channel, snapshot) ∈ w.events →
    ∀ event ∈ w.store.keptEvents channel, snapshot.clearedThroughSequence < event.sequence
  newest : ∀ channel snapshot, (channel, snapshot) ∈ w.applied →
    ∃ k, w.store.keptSnapshot channel = some k ∧ snapshot.moment ≤ k.moment

/-! ### What every step keeps -/

structure Sound (w : SystemViewWorld) : Prop where
  released : w.store.Released
  shown : ∀ channel, Shown (w.store.keptSnapshot channel) (w.store.keptEvents channel)
  kept : ∀ channel k, w.store.keptSnapshot channel = some k → (channel, k) ∈ w.applied
  timeline : ∀ channel snapshot, (channel, snapshot) ∈ w.applied →
    ∃ g, w.store.generation = some g ∧ snapshot = server.snapshotAt g channel snapshot.moment
  events : ∀ p ∈ w.events, p ∈ w.applied

def Newest (w : SystemViewWorld) : Prop :=
  ∀ channel snapshot, (channel, snapshot) ∈ w.applied →
    ∃ k, w.store.keptSnapshot channel = some k ∧ snapshot.moment ≤ k.moment

variable {server} {w w' : SystemViewWorld}

/-- What is shown with the latest snapshot comes after all that has been cleared. -/
theorem neverBack_iff (h : w.Sound server) : NeverBack w ↔ w.Newest := by
  refine ⟨NeverBack.newest, fun hnewest => ⟨fun channel => (h.shown channel).ascending,
    fun channel => (h.shown channel).bounded, fun channel snapshot hmem event hevent => ?_, hnewest⟩⟩
  obtain ⟨k, hk, hmoment⟩ := hnewest channel snapshot (h.events _ hmem)
  obtain ⟨k', hk', hcleared⟩ := (h.shown channel).visible event hevent
  obtain rfl := Option.some.inj (hk.symm.trans hk')
  obtain ⟨g, hg, hsnapshot⟩ := h.timeline channel snapshot (h.events _ hmem)
  obtain ⟨g', hg', hlatest⟩ := h.timeline channel k (h.kept channel k hk)
  obtain rfl := Option.some.inj (hg.symm.trans hg')
  rw [hlatest] at hcleared
  rw [hsnapshot]
  exact (server.cleared_mono g channel hmoment).trans_lt hcleared

theorem sound_of_holds (h : w.Sound server) (happlied : w'.applied = w.applied)
    (hevents : w'.events = w.events) (hholds : w.store.Holds w'.store)
    (hreleased : w'.store.Released) : w'.Sound server ∧ (w'.Newest ↔ w.Newest) := by
  refine ⟨?_, ?_⟩
  · exact
      { released := hreleased
        shown := hholds.shown h.shown
        kept := fun channel k hk => by
          rw [happlied]
          exact h.kept channel k (hholds.keptSnapshot channel ▸ hk)
        timeline := fun channel snapshot hmem => by
          rw [hholds.generation]
          exact h.timeline channel snapshot (happlied ▸ hmem)
        events := by
          rw [hevents, happlied]
          exact h.events }
  · unfold Newest
    rw [happlied]
    exact forall_congr' fun channel => by rw [hholds.keptSnapshot channel]

/-- A snapshot is applied; it has to be the latest one. -/
theorem sound_of_gives (h : w.Sound server) {channel : Nat} {snapshot : SystemViewSnapshot}
    (happlied : w'.applied = w.applied ++ [(channel, snapshot)])
    (hevents : ∀ p ∈ w'.events, p ∈ w'.applied)
    (hgives : w.store.Gives w'.store channel (some snapshot))
    (htimeline : ∃ g, w.store.generation = some g ∧
      snapshot = server.snapshotAt g channel snapshot.moment)
    (hreleased : w'.store.Released) :
    w'.Sound server ∧ (w.Newest → (w'.Newest ↔
      ∀ k, w.store.keptSnapshot channel = some k → k.moment ≤ snapshot.moment)) := by
  have hmem (c : Nat) (sn : SystemViewSnapshot) :
      (c, sn) ∈ w'.applied ↔ (c, sn) ∈ w.applied ∨ c = channel ∧ sn = snapshot := by
    rw [happlied, List.mem_append, List.mem_singleton, Prod.mk.injEq]
  refine ⟨?_, fun hnewest => ⟨fun hnew k hk => ?_, fun hlatest c sn hc => ?_⟩⟩
  · exact
      { released := hreleased
        shown := hgives.shown h.shown
        kept := fun c k hk => by
          rw [hgives.keptSnapshot] at hk
          rw [hmem]
          split at hk
          · exact .inr ⟨‹c = channel›, (Option.some.inj hk).symm⟩
          · exact .inl (h.kept c k hk)
        timeline := fun c sn hc => by
          rw [hgives.generation]
          obtain hc | ⟨rfl, rfl⟩ := (hmem c sn).mp hc
          · exact h.timeline c sn hc
          · exact htimeline
        events := hevents }
  · obtain ⟨k', hk', hle⟩ := hnew channel k ((hmem _ _).mpr (.inl (h.kept channel k hk)))
    rw [hgives.keptSnapshot, if_pos rfl] at hk'
    rwa [Option.some.inj hk']
  · rw [hgives.keptSnapshot]
    by_cases hsame : c = channel
    · subst hsame
      rw [if_pos rfl]
      refine ⟨snapshot, rfl, ?_⟩
      obtain hold | ⟨-, rfl⟩ := (hmem c sn).mp hc
      · obtain ⟨k, hk, hle⟩ := hnewest c sn hold
        exact hle.trans (hlatest k hk)
      · exact le_rfl
    · rw [if_neg hsame]
      exact hnewest c sn (((hmem c sn).mp hc).resolve_right fun hnew => hsame hnew.1)

/-- Where nothing is known, nothing has been applied. -/
theorem sound_of_reset (happlied : w'.applied = []) (hevents : w'.events = [])
    (hsystemview : w'.store.runtime.systemview = fun _ => none) (hreleased : w'.store.Released) :
    w'.Sound server ∧ w'.Newest := by
  refine ⟨?_, fun channel snapshot hmem => ?_⟩
  · exact
      { released := hreleased
        shown := fun channel => by
          rw [keptEvents, hsystemview]
          exact .nil _
        kept := fun channel k hk => by
          rw [keptSnapshot, hsystemview] at hk
          cases hk
        timeline := fun channel snapshot hmem => by
          rw [happlied] at hmem
          cases hmem
        events := fun p hp => by
          rw [hevents] at hp
          cases hp }
  · rw [happlied] at hmem
    cases hmem

theorem sound_step (h : w.Sound server) (action : SystemViewAction)
    (hpossible : w.Possible server action) : (w.step server action).Sound server ∧
      (w.Newest → ((w.step server action).Newest ↔ w.InOrder action)) := by
  have hframe {w' : SystemViewWorld} (happlied : w'.applied = w.applied)
      (hevents : w'.events = w.events) (hholds : w.store.Holds w'.store)
      (hreleased : w'.store.Released) :
      w'.Sound server ∧ (w.Newest → (w'.Newest ↔ True)) := by
    obtain ⟨hsound, hiff⟩ := sound_of_holds h happlied hevents hholds hreleased
    exact ⟨hsound, fun hnewest => hiff.trans (iff_true_intro hnewest)⟩
  cases action with
  | tick => exact hframe rfl rfl (holds_of_runtime rfl) h.released
  | follow =>
    refine hframe rfl rfl (holds_of_runtime ?_) h.released.follow
    change w.store.follow.runtime = _
    unfold follow
    split <;> rfl
  | release =>
    have hreset := @sound_of_reset server (w.step server .release) rfl rfl rfl fun _ => rfl
    exact ⟨hreset.1, fun _ => iff_true_intro hreset.2⟩
  | snapshot snapshot =>
    have hreleased := h.released.applySnapshot snapshot
    dsimp only [step]
    obtain ⟨hgeneration, hsystemview⟩ | ⟨hgeneration, hsystemview⟩ :=
      applySnapshot_systemview w.store snapshot
    · rw [if_pos hgeneration]
      exact hframe rfl rfl (.inl ⟨hsystemview, hgeneration⟩) hreleased
    · rw [if_neg hgeneration]
      have hreset := @sound_of_reset server
        { w with store := w.store.applySnapshot snapshot, applied := [], events := [] } rfl rfl
        hsystemview hreleased
      exact ⟨hreset.1, fun _ => iff_true_intro hreset.2⟩
  | event payload =>
    have hreleased := h.released.applySystemViewEvent payload
    by_cases htakes : w.TakesEvent payload
    · have hgives := applySystemViewEvent_gives h.released h.shown htakes
      have hnew : (w.step server (.event payload)).applied =
          w.applied ++ [(payload.channelIndex, payload.snapshot)] := by
        dsimp only [step]
        rw [if_pos htakes]
      have hsub : ∀ p ∈ (w.step server (.event payload)).events,
          p ∈ (w.step server (.event payload)).applied := by
        intro p hp
        rw [hnew]
        dsimp only [step] at hp
        rw [if_pos htakes] at hp
        obtain hp | hp := List.mem_append.mp hp
        · exact List.mem_append_left _ (h.events p hp)
        · exact List.mem_append_right _ hp
      obtain ⟨hsound, hiff⟩ := sound_of_gives h hnew hsub hgives
        ⟨payload.generation, htakes, hpossible.1⟩ hreleased
      exact ⟨hsound, fun hnewest => (hiff hnewest).trans
        ⟨fun hlatest _ => hlatest, fun hlatest => hlatest htakes⟩⟩
    · have hstore : (w.step server (.event payload)).store = w.store := by
        change (w.store.applySystemViewEvent payload).1 = _
        have hother : w.store.generation ≠ some payload.generation := htakes
        rw [applySystemViewEvent, if_pos hother]
      obtain ⟨hsound, hiff⟩ := @hframe (w.step server (.event payload)) (by simp [step, htakes])
        (by simp [step, htakes]) (holds_of_runtime (by rw [hstore])) hreleased
      exact ⟨hsound, fun hnewest => (hiff hnewest).trans
        ⟨fun _ hnot => absurd hnot htakes, fun _ => trivial⟩⟩
  | ensure channelIndex => exact hframe rfl rfl (holds_of_runtime rfl) h.released
  | ensured request generation moment historyMoment =>
    have hreleased := h.released.systemViewHistory request.capture request.channelIndex
      (server.snapshotAt generation request.channelIndex moment)
      ⟨generation, server.retainedAt generation request.channelIndex historyMoment⟩
    by_cases htakes : w.TakesReply request generation
    · have hgeneration := server.generation_eq generation request.channelIndex moment
      have hmoment := server.moment_eq generation request.channelIndex moment
      have hgives := systemViewHistory_gives h.released htakes.1
        (htakes.2.trans (congrArg some hgeneration.symm)) request.channelIndex
        ⟨generation, server.retainedAt generation request.channelIndex historyMoment⟩
      have hnew : (w.step server (.ensured request generation moment historyMoment)).applied =
          w.applied ++ [(request.channelIndex,
            server.snapshotAt generation request.channelIndex moment)] := by
        dsimp only [step]
        rw [if_pos htakes]
      have hsub : ∀ p ∈ w.events,
          p ∈ (w.step server (.ensured request generation moment historyMoment)).applied := by
        intro p hp
        rw [hnew]
        exact List.mem_append_left _ (h.events p hp)
      obtain ⟨hsound, hiff⟩ := sound_of_gives h hnew hsub hgives
        ⟨generation, htakes.2, by rw [hmoment]⟩ hreleased
      rw [hmoment] at hiff
      exact ⟨hsound, fun hnewest => (hiff hnewest).trans
        ⟨fun hlatest _ => hlatest, fun hlatest => hlatest htakes⟩⟩
    · have hstore : (w.step server (.ensured request generation moment historyMoment)).store =
          w.store := by
        change w.store.systemViewHistory _ _ _ _ = _
        rw [systemViewHistory, if_pos]
        by_contra hnot
        rw [not_or, Bool.not_eq_true', Bool.not_eq_false, not_not, server.generation_eq] at hnot
        exact htakes hnot
      obtain ⟨hsound, hiff⟩ := @hframe
        (w.step server (.ensured request generation moment historyMoment)) (by simp [step, htakes])
        rfl (holds_of_runtime (by rw [hstore])) hreleased
      exact ⟨hsound, fun hnewest => (hiff hnewest).trans
        ⟨fun _ hnot => absurd hnot htakes, fun _ => trivial⟩⟩
  | ensureFailed request cause =>
    exact hframe rfl rfl (systemViewHistoryFailed_holds h.shown _ _ cause)
      (h.released.systemViewHistoryFailed _ _ cause)
  | recovered request generation historyMoment =>
    have hmerged := w.store.mergeRecovered_holds request.capture request.channelIndex
      request.generation
      ⟨generation, server.retainedAt generation request.channelIndex historyMoment⟩
    have hend := recovered_runtime (w.store.mergeRecovered request.capture request.channelIndex
      request.generation
      ⟨generation, server.retainedAt generation request.channelIndex historyMoment⟩)
      request.capture request.channelIndex request.generation
    exact hframe rfl rfl (hmerged.of_runtime hend)
      ((h.released.mergeRecovered _ _ _ _).recovered _ _ _)
  | recoverFailed request =>
    exact hframe rfl rfl (holds_of_runtime (recovered_runtime _ _ _ _))
      (h.released.recovered _ _ _)
  | clear channelIndex => exact hframe rfl rfl (holds_of_runtime rfl) h.released
  | cleared request =>
    exact hframe rfl rfl (clearSystemView_holds _ _ _) (h.released.clearSystemView _ _)
  | clearFailed request cause =>
    exact hframe rfl rfl (clearFailed_holds _ _ cause) (h.released.clearFailed _ cause)

theorem sound_start : start.Sound server ∧ start.Newest := sound_of_reset rfl rfl rfl fun _ => rfl

/-- Nothing that was cleared comes back, and the latest snapshot is kept, in exactly the runs in which
the snapshots are applied in the order in which the server took them. -/
theorem neverBack_iff_inOrder (server : Server) (actions : List SystemViewAction)
    (hpossible : EachStep (step server) (Possible server) start actions) :
    Always (step server) NeverBack start actions ↔ EachStep (step server) InOrder start actions := by
  have hbegin := @sound_start server
  refine (always_iff_of_invariant (fun w action h hpossible => (sound_step h action hpossible).1)
    (fun w action h hnever hpossible => ?_) hpossible hbegin.1).trans
    (and_iff_right ((neverBack_iff hbegin.1).mpr hbegin.2))
  obtain ⟨hsound, hiff⟩ := sound_step h action hpossible
  rw [neverBack_iff hsound]
  exact hiff ((neverBack_iff h).mp hnever)

/-- A server that has one event, which is cleared after the first moment. -/
def clearingServer : Server where
  snapshotAt generation _ moment := ⟨moment, generation, true, 0, 0, 0, min moment 1, []⟩
  retainedAt _ _ moment := if moment = 0 then [⟨1, 0⟩] else []
  moment_eq _ _ _ := rfl
  generation_eq _ _ _ := rfl
  cleared_mono _ _ _ _ h := min_le_min_right 1 h
  ascending _ _ moment := by
    split
    · exact List.pairwise_singleton _ _
    · exact .nil
  visible _ _ moment event hevent := by
    split at hevent
    · rename_i hzero
      rw [List.mem_singleton.mp hevent, hzero]
      exact Nat.zero_lt_one
    · cases hevent

def firstRequest : SystemViewRequest := ⟨⟨some 0, some 1⟩, 0, 0, 0⟩

/-- The clearing, as the store is told of it. -/
def clearEvent : SystemViewRuntimeEvent := ⟨1, 0, none, clearingServer.snapshotAt 1 0 1⟩

theorem neverBack_clearing : Always (step clearingServer) NeverBack start
    [.follow, .snapshot ⟨1, [], none⟩, .ensure 0, .ensured firstRequest 1 0 0, .tick,
      .event clearEvent] := by
  refine (neverBack_iff_inOrder clearingServer _ ?_).mpr ?_
  · refine ⟨trivial, trivial, trivial, ⟨?_, by decide, by decide⟩, trivial, ⟨rfl, ?_, ?_⟩, trivial⟩
    all_goals decide
  · refine ⟨trivial, trivial, trivial, (fun _ k hk => nomatch hk), trivial, fun _ k hk => ?_, trivial⟩
    obtain rfl := Option.some.inj hk
    exact Nat.zero_le 1

/-- The history is asked for before the clearing, and the reply of that time comes after it. -/
def overtakingRun : List SystemViewAction :=
  [.follow, .snapshot ⟨1, [], none⟩, .ensure 0, .tick, .event clearEvent, .ensured firstRequest 1 0 0]

theorem cleared_comes_back :
    EachStep (step clearingServer) (Possible clearingServer) start overtakingRun ∧
    ¬ Always (step clearingServer) NeverBack start overtakingRun := by
  constructor
  · refine ⟨trivial, trivial, trivial, trivial, ⟨rfl, ?_, ?_⟩, ⟨?_, by decide, by decide⟩, trivial⟩
    all_goals decide
  · intro halways
    have hkept : (overtakingRun.foldl (step clearingServer) start).store.keptEvents 0 = [⟨1, 0⟩] := by
      decide
    have hevents : (overtakingRun.foldl (step clearingServer) start).events =
        [(0, clearingServer.snapshotAt 1 0 1)] := by decide
    have hcleared := halways.last.cleared 0 _ (by rw [hevents]; exact List.mem_cons_self) ⟨1, 0⟩
      (by rw [hkept]; exact List.mem_cons_self)
    exact absurd hcleared (by decide)

end SystemViewWorld

end TauTerm.Rtt.RuntimeStore
