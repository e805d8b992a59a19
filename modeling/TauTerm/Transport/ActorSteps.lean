import Mathlib
import TauTerm.Transport.ClientSteps

/-!
# The actor follows the ownership protocol

The actor grants, restores and delivers, one step of the protocol at a time; a step
that loses bytes of subscriber `s₀` finds it missing among the subscribers, before
or after. `Related.step` puts the steps of the clients and of the actor together.
-/

namespace TauTerm.Transport

open Protocol (Step Label)

variable {s s' t : System} {i j s₀ : Nat} {clears : Prop} {phase : Nat → Phase}

/-! ## Positions -/

/-- A position in the loop with nothing in hand. -/
structure Actor.Plain (actor : Actor) : Prop where
  inHand : actor.inHand = []
  rejects : actor.rejects = false
  running : actor.running = true
  serving : actor ≠ .stopped

/-- And with nothing for any client. -/
structure Actor.Idle (actor : Actor) : Prop extends actor.Plain where
  messages : ∀ j, actor.messages j = []

theorem Actor.plain_granting (ownerId : Nat) (prefetched : List UInt8) (receive : Receive) :
    (Actor.granting ownerId prefetched receive).Plain := ⟨rfl, rfl, rfl, nofun⟩
theorem Actor.plain_returnClearing (ownerId : Nat) (receive : Receive) :
    (Actor.returnClearing ownerId receive).Plain := ⟨rfl, rfl, rfl, nofun⟩
theorem Actor.plain_acking (client : Nat) (result : Result) (outcome : Outcome) (receive : Receive) :
    (Actor.acking client result outcome receive).Plain := ⟨rfl, rfl, rfl, nofun⟩

theorem Actor.idle_top : Actor.top.Idle := ⟨⟨rfl, rfl, rfl, nofun⟩, fun _ => rfl⟩
theorem Actor.idle_waiting : Actor.waiting.Idle := ⟨⟨rfl, rfl, rfl, nofun⟩, fun _ => rfl⟩
theorem Actor.idle_draining : Actor.draining.Idle := ⟨⟨rfl, rfl, rfl, nofun⟩, fun _ => rfl⟩
theorem Actor.idle_drained : Actor.drained.Idle := ⟨⟨rfl, rfl, rfl, nofun⟩, fun _ => rfl⟩
theorem Actor.idle_reading : Actor.reading.Idle := ⟨⟨rfl, rfl, rfl, nofun⟩, fun _ => rfl⟩
theorem Actor.idle_closing : Actor.closing.Idle := ⟨⟨rfl, rfl, rfl, nofun⟩, fun _ => rfl⟩

/-- The protocol's view of a runtime in such a position. -/
theorem System.protocol_plain (hs : s.actor.Plain) :
    s.protocol s₀ phase =
      { phase, exclusive := s.state.exclusive, driver := s.driver, flag := s.exclusiveActive,
        rejecting := false, running := true, buffered := s.state.unconsumedBytes,
        reads := s.reads, delivered := s.deliveredTo s₀ } := by
  simp [System.protocol, hs.inHand, hs.rejects, hs.running]

/-- Where the actor is while it has a command. -/
def Receive.actor : Receive → Actor
  | .blocking => .waiting
  | .drain => .draining

theorem Receive.idle (receive : Receive) : receive.actor.Idle := by
  cases receive
  · exact Actor.idle_waiting
  · exact Actor.idle_draining

theorem System.resume_eq (s : System) {receive : Receive} (hr : receive.Ok s.state) :
    ∃ actor : Actor, s.resume receive = { s with actor } ∧ actor.Idle ∧ actor.Ok s.state := by
  cases receive with
  | blocking => exact ⟨.top, rfl, Actor.idle_top, trivial⟩
  | drain =>
    by_cases he : s.state.exclusive.isSome
    · exact ⟨.drained, by simp [System.resume, he], Actor.idle_drained, hr rfl⟩
    · exact ⟨.draining, by simp [System.resume, he], Actor.idle_draining,
        Option.not_isSome_iff_eq_none.mp he, hr rfl⟩

theorem System.messages_serving (hs : s.actor ≠ .stopped) (j : Nat) :
    s.messages j = s.queue.flatMap (·.messages j) ++ s.actor.messages j ++
      ((s.replies j).map Reply.message).toList := by
  rw [System.messages, System.pendingCommands_eq hs]

/-- The actor goes from one position to another without anything else. -/
theorem Related.move (h : Related s₀ s phase) {actor : Actor} (hs : s.actor.Idle)
    (ha : actor.Idle) (hok : actor.Ok s.state) : Follows s₀ s phase clears { s with actor } := by
  have hmessages : ∀ j, { s with actor }.messages j = s.messages j := by
    intro j
    simp [System.messages, System.pendingCommands_eq hs.serving, hs.messages, ha.messages,
      System.pendingCommands_eq (s := { s with actor }) ha.serving]
  have hprotocol : { s with actor }.protocol s₀ phase = s.protocol s₀ phase := by
    rw [System.protocol_plain hs.toPlain, System.protocol_plain ha.toPlain]
    rfl
  refine ⟨.plain, phase, hprotocol ▸ .stay, ⟨fun j => ?_, hprotocol ▸ h.owned, h.nodup, h.startup,
    hok⟩, (by intro h; cases h), (by intro h; cases h)⟩
  exact (h.stands j).frame id rfl (hmessages j)

/-! ## Commands -/

/-- The command at the head of the queue is all that is on its way for its client. -/
theorem Related.command (h : Related s₀ s phase) {command : RuntimeCommand}
    {queue : List RuntimeCommand} {message : Message} (hs : s.actor.Idle)
    (hq : s.queue = command :: queue) (hcommand : ∀ j, command.messages j = message.only i j) :
    Stands (decide (i ∈ s.state.subscribers)) (s.clients i) [message] (phase i) ∧
      queue.flatMap (·.messages i) ++ ((s.replies i).map Reply.message).toList = [] := by
  have hmessages : s.messages i =
      message :: (queue.flatMap (·.messages i) ++ ((s.replies i).map Reply.message).toList) := by
    rw [System.messages_serving hs.serving, hq, List.flatMap_cons, hcommand, hs.messages,
      Message.only_self]
    simp
  have hi := h.stands i
  rw [System.Stands, hmessages] at hi
  have hrest := hi.single
  rw [hrest] at hi
  exact ⟨hi, hrest⟩

/-- A command of client `i` leaves the queue. What was on its way from the client
becomes what the actor's new position has for it. -/
theorem Related.handled (h : Related s₀ s phase) {command : RuntimeCommand}
    {queue : List RuntimeCommand} {message : Message} {reply : List Message} {l : Label} {φ : Phase}
    (hs : s.actor.Idle) (hq : s.queue = command :: queue)
    (hcommand : ∀ j, command.messages j = message.only i j)
    (htq : t.queue = queue) (htr : t.replies = s.replies) (htc : t.clients = s.clients)
    (hta : t.actor ≠ .stopped)
    (htm : ∀ j, t.actor.messages j = if i = j then reply else [])
    (hsub : ∀ j, j ≠ i → j ∈ t.state.subscribers → j ∈ s.state.subscribers)
    (hi : Stands (decide (i ∈ t.state.subscribers)) (s.clients i) reply φ)
    (hstep : Step (s.protocol s₀ phase) l (t.protocol s₀ (Function.update phase i φ)))
    (hnodup : t.state.subscribers.Nodup)
    (hstartup : t.state.subscribers = [] ∨ t.state.startupBuffer = [])
    (hok : t.actor.Ok t.state) (hplain : l ≠ .clear)
    (hlose : l = .lose → s₀ ∉ s.state.subscribers ∨ s₀ ∉ t.state.subscribers) :
    Follows s₀ s phase clears t := by
  obtain ⟨-, hrest⟩ := h.command hs hq hcommand
  have hmessages : ∀ j, t.messages j = queue.flatMap (·.messages j) ++
      (if i = j then reply else []) ++ ((s.replies j).map Reply.message).toList := by
    intro j
    rw [System.messages_serving hta, htq, htr, htm]
  refine h.follow hstep ?_ (fun j hj hsj => ?_) hnodup hstartup hok (fun hl => absurd hl hplain)
    hlose
  · rw [System.Stands, htc, hmessages, if_pos rfl, (List.append_eq_nil_iff.mp hrest).1,
      (List.append_eq_nil_iff.mp hrest).2, List.append_nil, List.nil_append]
    exact hi
  · refine hsj.frame (hsub j hj) (by rw [htc]) ?_
    rw [hmessages, System.messages_serving hs.serving, hq, List.flatMap_cons, hcommand,
      hs.messages, Message.only_other hj, if_neg (Ne.symm hj)]
    simp

theorem Stands.request_ack {joined : Bool} {client : Client} {φ : Phase}
    (h : Stands joined client [.request] φ) : Stands joined client [.ack] φ := by
  cases h; constructor

theorem Receive.ok_of_related (h : Related s₀ s phase) {receive : Receive}
    (hs : s.actor = receive.actor) :
    receive.Ok s.state ∧ (receive = .drain → s.state.exclusive = none) := by
  have hok := h.actor
  rw [hs] at hok
  cases receive with
  | blocking => exact ⟨nofun, nofun⟩
  | drain => exact ⟨fun _ => hok.2, fun _ => hok.1⟩

/-- A request or a shutdown is answered without a move of the protocol. -/
theorem Related.handledByAck (h : Related s₀ s phase) {receive : Receive} {command : RuntimeCommand}
    {queue : List RuntimeCommand} {result : Result} {outcome : Outcome}
    (hs : s.actor = receive.actor) (hq : s.queue = command :: queue)
    (hcommand : ∀ j, command.messages j = Message.request.only i j)
    (htq : t.queue = queue) (htr : t.replies = s.replies) (htc : t.clients = s.clients)
    (hta : t.actor = .acking i result outcome receive)
    (htsub : t.state.subscribers = s.state.subscribers)
    (htstartup : t.state.startupBuffer = s.state.startupBuffer)
    (htp : t.protocol s₀ phase = { s with actor := t.actor }.protocol s₀ phase)
    (hok : (Actor.acking i result outcome receive).Ok t.state) :
    Follows s₀ s phase clears t := by
  have hidle : s.actor.Idle := hs ▸ receive.idle
  refine @h.handled _ _ _ _ _ _ _ _ _ [.ack] .plain (phase i) hidle hq hcommand htq htr htc
      (by rw [hta]; nofun) (fun j => by rw [hta]; rfl) (fun j _ => by rw [htsub]; exact id)
      (by rw [htsub]; exact (h.command hidle hq hcommand).1.request_ack) ?_ (htsub ▸ h.nodup)
      (by rw [htsub, htstartup]; exact h.startup) (hta ▸ hok) nofun nofun
  rw [Function.update_eq_self, htp, System.protocol_plain hidle.toPlain,
    System.protocol_plain (hta ▸ Actor.plain_acking ..)]
  exact .stay

theorem Related.handleRequest (h : Related s₀ s phase) {receive : Receive}
    {queue : List RuntimeCommand} {request : Request} (answer : DriverAnswer)
    (hs : s.actor = receive.actor) (hq : s.queue = .request i request :: queue) :
    Follows s₀ s phase clears ({ s with queue }.handleRequest receive answer i request) := by
  obtain ⟨hok, -⟩ := Receive.ok_of_related h hs
  unfold System.handleRequest
  split_ifs with he hd
  · exact h.handledByAck hs hq (fun j => rfl) rfl rfl rfl rfl rfl rfl rfl ⟨hok, nofun⟩
  · have hnone : s.state.exclusive = none := Option.not_isSome_iff_eq_none.mp he
    split
    · exact h.handledByAck hs hq (fun j => rfl) rfl rfl rfl rfl rfl rfl rfl ⟨hok, fun _ => hnone⟩
    · split
      · exact h.handledByAck hs hq (fun j => rfl) rfl rfl rfl rfl rfl rfl rfl ⟨hok, nofun⟩
      · exact h.handledByAck hs hq (fun j => rfl) rfl rfl rfl rfl rfl rfl rfl ⟨hok, nofun⟩
  · exact h.handledByAck hs hq (fun j => rfl) rfl rfl rfl rfl rfl rfl rfl ⟨hok, nofun⟩

theorem Related.handleShutdown (h : Related s₀ s phase) {receive : Receive}
    {queue : List RuntimeCommand} (answer : DriverAnswer)
    (hs : s.actor = receive.actor) (hq : s.queue = .shutdown i :: queue) :
    Follows s₀ s phase clears ({ s with queue }.handleShutdown receive answer i) := by
  obtain ⟨hok, -⟩ := Receive.ok_of_related h hs
  unfold System.handleShutdown
  split_ifs with he hd
  · exact h.handledByAck hs hq (fun j => rfl) rfl rfl rfl rfl rfl rfl rfl ⟨hok, nofun⟩
  · have hnone : s.state.exclusive = none := Option.not_isSome_iff_eq_none.mp he
    exact h.handledByAck hs hq (fun j => rfl) rfl rfl rfl rfl rfl rfl rfl ⟨hok, fun _ => hnone⟩
  · have hnone : s.state.exclusive = none := Option.not_isSome_iff_eq_none.mp he
    exact h.handledByAck hs hq (fun j => rfl) rfl rfl rfl rfl rfl rfl rfl ⟨hok, fun _ => hnone⟩

/-! ### Hand-over -/

theorem Stands.of_acquire {joined : Bool} {client : Client} {φ : Phase}
    (h : Stands joined client [.acquire] φ) :
    joined = false ∧ client = .awaitingLease ∧ φ = .requested := by
  cases h; exact ⟨rfl, rfl, rfl⟩

theorem Stands.of_giveBack {joined : Bool} {client : Client} {bytes : List UInt8} {φ : Phase}
    (h : Stands joined client [.giveBack bytes] φ) :
    joined = false ∧ client = .awaitingReturn ∧ φ = .returned bytes := by
  cases h; exact ⟨rfl, rfl, rfl⟩

theorem Related.refuse (h : Related s₀ s phase) {receive : Receive} {queue : List RuntimeCommand}
    (kind : TransportErrorKind) (hs : s.actor = receive.actor)
    (hq : s.queue = .acquireExclusive i :: queue)
    (hr : s.state.exclusive.isSome ∨ s.driver = false) :
    Follows s₀ s phase clears { s with queue, actor := .rejecting i kind receive } := by
  have hidle : s.actor.Idle := hs ▸ receive.idle
  obtain ⟨hsub, hc, hp⟩ := (h.command (i := i) hidle hq fun j => rfl).1.of_acquire
  refine @h.handled _ _ _ _ _ _ _ _ _ [.refuse] .plain .outside hidle hq (fun j => rfl) rfl rfl rfl
      nofun (fun j => rfl) (fun j _ => id) ?_ ?_ h.nodup h.startup (Receive.ok_of_related h hs).1
      nofun nofun
  · rw [hsub, hc]
    exact .refuse
  · convert Step.refuse (p := s.protocol s₀ phase) hp hr using 1
    simp [System.protocol, Protocol.setPhase, hidle.inHand, hidle.running, System.deliveredTo]
    exact ⟨rfl, rfl, rfl⟩

theorem Related.handleAcquire (h : Related s₀ s phase) {receive : Receive}
    {queue : List RuntimeCommand} (hs : s.actor = receive.actor)
    (hq : s.queue = .acquireExclusive i :: queue) :
    Follows s₀ s phase clears ({ s with queue }.handleAcquire receive i) := by
  have hidle : s.actor.Idle := hs ▸ receive.idle
  unfold System.handleAcquire
  split_ifs with he hd
  · exact h.refuse .busy hs hq (.inl he)
  · obtain ⟨hsub, hc, hp⟩ := (h.command (i := i) hidle hq fun j => rfl).1.of_acquire
    have hgrant : Stands (decide (i ∈ s.state.subscribers)) (s.clients i)
        [.grant s.state.unconsumedBytes] (.granted s.state.unconsumedBytes) := by
      rw [hsub, hc]; exact .grant _
    refine h.handled (l := .plain) hidle hq (fun j => rfl) rfl rfl rfl nofun
      (fun j => rfl) (fun j _ => id) hgrant ?_ h.nodup (.inr rfl) (fun _ => rfl) nofun nofun
    convert Step.grant (p := s.protocol s₀ phase) hp (Option.not_isSome_iff_eq_none.mp he) hd
      using 1
    rw [System.protocol_plain hidle.toPlain, System.protocol_plain (Actor.plain_granting ..)]
    simp [Protocol.setPhase, RuntimeLoopState.unconsumedBytes, RuntimeLoopState.takeUnconsumedBytes,
      System.deliveredTo]
  · exact h.refuse .io hs hq (.inr (Bool.eq_false_iff.mpr hd))

/-- Nobody but the owner returns the driver. -/
theorem Related.handleReturn (h : Related s₀ s phase) {receive : Receive}
    {queue : List RuntimeCommand} {prefetched : List UInt8} (hs : s.actor = receive.actor)
    (hq : s.queue = .returnExclusive i prefetched :: queue) :
    Follows s₀ s phase clears ({ s with queue }.handleReturn receive i prefetched) := by
  have hidle : s.actor.Idle := hs ▸ receive.idle
  obtain ⟨hsub, hc, hp⟩ := (h.command (i := i) hidle hq fun j => rfl).1.of_giveBack
  have he : s.state.exclusive = some i := h.owned.held i prefetched (by
    rw [show (s.protocol s₀ phase).phase i = _ from hp]; rfl)
  obtain ⟨-, hd, hb⟩ := h.owned.owner i he
  have hblocking : receive.Ok (s.state.restoreUnconsumedBytes prefetched) := by
    intro hdrain
    exact absurd he (by rw [(Receive.ok_of_related h hs).2 hdrain]; intro h; cases h)
  have hempty : s.state.startupBuffer.flatten = [] ∧ s.state.handoffBuffer = [] := by
    simpa [System.protocol, RuntimeLoopState.unconsumedBytes, hidle.inHand] using hb
  unfold System.handleReturn
  rw [if_neg (not_not.mpr he), if_neg (by rw [show s.driver = false from hd]; intro h; cases h)]
  have hrestored : Stands (decide (i ∈ s.state.subscribers)) (s.clients i) [.restored] .restored := by
    rw [hsub, hc]; exact .restored
  refine h.handled (l := .plain) hidle hq (fun j => rfl) rfl rfl rfl (by intro h; cases h) (fun j => rfl)
    (fun j _ => id) hrestored ?_ h.nodup h.startup ⟨hblocking, rfl⟩ (by intro h; cases h) (by intro h; cases h)
  convert Step.restore (p := s.protocol s₀ phase) hp he using 1
  rw [System.protocol_plain hidle.toPlain, System.protocol_plain (Actor.plain_returnClearing ..)]
  simp [Protocol.setPhase, RuntimeLoopState.unconsumedBytes,
    RuntimeLoopState.restoreUnconsumedBytes, System.deliveredTo, hempty]

/-! ### Subscriptions -/

theorem Stands.of_subscribe {joined : Bool} {client : Client} {φ : Phase}
    (h : Stands joined client [.subscribe] φ) :
    joined = false ∧ φ = .outside ∧ ∀ joined', Stands joined' client [] .outside := by
  cases h <;> exact ⟨rfl, rfl, fun _ => by constructor⟩

/-- What the protocol sees of a step that may lose bytes: anything, but not behind
an owner's back. -/
theorem Related.lose_step (h : Related s₀ s phase) (hs : s.actor.Idle) (ht : t.actor.Idle)
    (hexclusive : t.state.exclusive = s.state.exclusive) (hdriver : t.driver = s.driver)
    (hflag : t.exclusiveActive = s.exclusiveActive) (hreads : t.reads = s.reads)
    (hempty : s.state.unconsumedBytes = [] → t.state.unconsumedBytes = []) :
    Step (s.protocol s₀ phase) .lose (t.protocol s₀ phase) := by
  convert Step.lose (p := s.protocol s₀ phase) t.state.unconsumedBytes (t.deliveredTo s₀) ?_ using 1
  · rw [System.protocol_plain hs.toPlain, System.protocol_plain ht.toPlain]
    simp [hexclusive, hdriver, hflag, hreads]
  · intro he
    obtain ⟨j, hj⟩ := Option.isSome_iff_exists.mp he
    have hb : (s.protocol s₀ phase).buffered = [] := (h.owned.owner j hj).2.2
    exact hempty (by simpa [System.protocol, hs.inHand] using hb)

/-- What `handle_command` leaves of a `Subscribe`, whether the subscriber stays or not. -/
theorem Related.subscribed (h : Related s₀ s phase) {receive : Receive}
    {queue : List RuntimeCommand} {capacityMessages : Nat} {l : Label} (hs : s.actor = receive.actor)
    (hq : s.queue = .subscribe i capacityMessages :: queue)
    (htq : t.queue = queue) (htr : t.replies = s.replies) (htc : t.clients = s.clients)
    (hsub : t.state.subscribers = s.state.subscribers ++ [i] ∨
      t.state.subscribers = s.state.subscribers)
    (hstartup : t.state.startupBuffer = [])
    (hhandoff : t.state.handoffBuffer = s.state.handoffBuffer)
    (hstep : ∀ actor : Actor, actor.Idle →
      Step (s.protocol s₀ phase) l ({ t with actor }.protocol s₀ phase))
    (hplain : l ≠ .clear)
    (hlose : l = .lose → s₀ ∉ s.state.subscribers ∨ s₀ ∉ t.state.subscribers) :
    Follows s₀ s phase clears (t.resume receive) := by
  have hidle : s.actor.Idle := hs ▸ receive.idle
  obtain ⟨hjoined, hp, hc⟩ := (h.command (i := i) hidle hq fun j => rfl).1.of_subscribe
  have hnew : i ∉ s.state.subscribers := of_decide_eq_false hjoined
  have hok : receive.Ok t.state := fun hr => hhandoff.trans ((Receive.ok_of_related h hs).1 hr)
  obtain ⟨actor, heq, hactor, hactorOk⟩ := t.resume_eq hok
  rw [heq]
  refine @h.handled _ _ _ _ _ _ _ _ _ [] l (phase i) hidle hq (fun j => rfl) htq htr htc
      hactor.serving (fun j => by rw [hactor.messages]; simp) (fun j hj hmem => ?_) (hp ▸ hc _) ?_
      ?_ (.inr hstartup) hactorOk hplain hlose
  · rcases hsub with hsub | hsub
    · simpa [hsub, hj] using hmem
    · exact hsub ▸ hmem
  · rw [Function.update_eq_self]
    exact hstep actor hactor
  · rcases hsub with hsub | hsub
    · rw [hsub]
      exact h.nodup.append (List.nodup_singleton i) (List.disjoint_singleton.mpr hnew)
    · exact hsub ▸ h.nodup

theorem Related.handleSubscribe (h : Related s₀ s phase) {receive : Receive}
    {queue : List RuntimeCommand} {capacityMessages : Nat} (hs : s.actor = receive.actor)
    (hq : s.queue = .subscribe i capacityMessages :: queue) :
    Follows s₀ s phase clears ({ s with queue }.handleSubscribe receive i capacityMessages) := by
  have hidle : s.actor.Idle := hs ▸ receive.idle
  have hhandoff : s.state.unconsumedBytes = [] → s.state.handoffBuffer = [] := fun hb =>
    (List.append_eq_nil_iff.mp hb).2
  simp only [System.handleSubscribe]
  split_ifs with hstartup
  · -- nothing was kept for the first subscriber
    refine h.subscribed (l := .plain) hs hq rfl rfl rfl (.inl rfl) hstartup rfl
      (fun actor hactor => ?_) nofun nofun
    rw [System.protocol_plain hidle.toPlain, System.protocol_plain hactor.toPlain]
    exact .stay
  · have hnone : s.state.subscribers = [] := h.startup.resolve_right hstartup
    have hlose : s₀ ∉ s.state.subscribers := by rw [hnone]; exact List.not_mem_nil
    split
    · exact h.subscribed hs hq rfl rfl rfl (.inl rfl) rfl rfl
        (fun actor hactor => h.lose_step hidle hactor rfl rfl rfl rfl hhandoff) nofun
        fun _ => .inl hlose
    · exact h.subscribed hs hq rfl rfl rfl (.inr rfl) rfl rfl
        (fun actor hactor => h.lose_step hidle hactor rfl rfl rfl rfl hhandoff) nofun
        fun _ => .inl hlose
    · exact h.subscribed hs hq rfl rfl rfl (.inr rfl) rfl rfl
        (fun actor hactor => h.lose_step hidle hactor rfl rfl rfl rfl hhandoff) nofun
        fun _ => .inl hlose

theorem Related.handleUnsubscribe (h : Related s₀ s phase) {receive : Receive}
    {queue : List RuntimeCommand} (hs : s.actor = receive.actor)
    (hq : s.queue = .unsubscribe i :: queue) :
    Follows s₀ s phase clears
      ({ s with queue, state := { s.state with
        subscribers := s.state.subscribers.filter (· ≠ i) } }.resume receive) := by
  have hidle : s.actor.Idle := hs ▸ receive.idle
  obtain ⟨actor, heq, hactor, hactorOk⟩ := @System.resume_eq
      { s with queue, state := { s.state with subscribers := s.state.subscribers.filter (· ≠ i) } }
      receive (Receive.ok_of_related h hs).1
  rw [heq]
  have hstep : Step (s.protocol s₀ phase) .plain
      ({ s with queue, actor, state := { s.state with
        subscribers := s.state.subscribers.filter (· ≠ i) } }.protocol s₀ phase) := by
    rw [System.protocol_plain hidle.toPlain, System.protocol_plain hactor.toPlain]
    exact .stay
  have hsublist : (s.state.subscribers.filter (· ≠ i)).Sublist s.state.subscribers :=
    List.filter_sublist
  refine ⟨.plain, phase, hstep, ⟨fun j => ?_, h.owned.step hstep, h.nodup.sublist hsublist, ?_,
    hactorOk⟩, nofun, nofun⟩
  · refine (h.stands j).frame (fun hj => hsublist.subset hj) rfl ?_
    rw [System.messages_serving hidle.serving, System.messages_serving hactor.serving, hq,
      hidle.messages, hactor.messages]
    rfl
  · rcases h.startup with hnone | hstartup
    · exact .inl (by simp [hnone])
    · exact .inr hstartup

theorem Related.handleCommand (h : Related s₀ s phase) {receive : Receive} {command : RuntimeCommand}
    {queue : List RuntimeCommand} (answer : DriverAnswer) (hs : s.actor = receive.actor)
    (hq : s.queue = command :: queue) :
    Follows s₀ s phase clears ({ s with queue }.handleCommand receive answer command) := by
  cases command with
  | request client request => exact h.handleRequest answer hs hq
  | subscribe id capacityMessages => exact h.handleSubscribe hs hq
  | unsubscribe id => exact h.handleUnsubscribe hs hq
  | acquireExclusive ownerId => exact h.handleAcquire hs hq
  | returnExclusive ownerId prefetched => exact h.handleReturn hs hq
  | shutdown client => exact h.handleShutdown answer hs hq

/-! ## Replies -/

/-- What the actor has for client `i` is all that is on its way for it. -/
theorem Related.inActor (h : Related s₀ s phase) {message : Message} (hs : s.actor ≠ .stopped)
    (hm : s.actor.messages i = [message]) :
    Stands (decide (i ∈ s.state.subscribers)) (s.clients i) [message] (phase i) ∧
      s.queue.flatMap (·.messages i) = [] ∧ s.replies i = none := by
  have hi := h.stands i
  have hlen := hi.length_le
  rw [System.messages_serving hs, hm] at hlen
  simp only [List.length_append, List.length_singleton] at hlen
  have hq : s.queue.flatMap (·.messages i) = [] := List.length_eq_zero_iff.mp (by omega)
  have hr : ((s.replies i).map Reply.message).toList = [] := List.length_eq_zero_iff.mp (by omega)
  rw [System.Stands, System.messages_serving hs, hm, hq, hr] at hi
  refine ⟨hi, hq, ?_⟩
  cases hreply : s.replies i with
  | none => rfl
  | some reply => rw [hreply] at hr; cases hr

/-- The actor sends its reply to client `i` and goes on to a position with nothing for anybody. -/
theorem Related.replied (h : Related s₀ s phase) {message : Message} {reply : Reply} {l : Label}
    {φ : Phase} (hs : s.actor ≠ .stopped) (hm : ∀ j, s.actor.messages j = message.only i j)
    (htq : t.queue = s.queue) (htr : t.replies = Function.update s.replies i (some reply))
    (htc : t.clients = s.clients) (hta : t.actor ≠ .stopped) (htm : ∀ j, t.actor.messages j = [])
    (hsub : t.state.subscribers.Sublist s.state.subscribers)
    (hstartup : t.state.startupBuffer = s.state.startupBuffer)
    (hi : Stands (decide (i ∈ s.state.subscribers)) (s.clients i) [reply.message] φ)
    (hstep : Step (s.protocol s₀ phase) l (t.protocol s₀ (Function.update phase i φ)))
    (hok : t.actor.Ok t.state) (hplain : l = .plain) : Follows s₀ s phase clears t := by
  obtain ⟨-, hq, -⟩ := h.inActor hs (by rw [hm, Message.only_self])
  refine h.follow hstep ?_ (fun j hj hsj => ?_) (h.nodup.sublist hsub) ?_ hok
    (by rw [hplain]; nofun) (by rw [hplain]; nofun)
  · have hmessages : t.messages i = [reply.message] := by
      rw [System.messages_serving hta, htq, hq, htm, htr]
      simp
    rw [System.Stands, htc, hmessages]
    by_cases hmem : i ∈ t.state.subscribers
    · rwa [decide_eq_true hmem, ← decide_eq_true (hsub.subset hmem)]
    · rw [decide_eq_false hmem]
      exact hi.leave
  · refine hsj.frame (fun hmem => hsub.subset hmem) (by rw [htc]) ?_
    rw [System.messages_serving hta, System.messages_serving hs, htq, htr, htm, hm,
      Message.only_other hj, Function.update_of_ne hj]
  · rcases h.startup with hnone | hstart
    · rw [hnone] at hsub
      exact .inl (List.sublist_nil.mp hsub)
    · exact .inr (hstartup.trans hstart)

theorem Stands.ack_result {joined : Bool} {client : Client} {φ : Phase}
    (h : Stands joined client [.ack] φ) : Stands joined client [.result] φ := by
  cases h <;> constructor

theorem Stands.of_grant {joined : Bool} {client : Client} {bytes : List UInt8} {φ : Phase}
    (h : Stands joined client [.grant bytes] φ) :
    client = .awaitingLease ∧ Stands joined client [.lease bytes] φ := by
  cases h; exact ⟨rfl, by constructor⟩

theorem Stands.of_refuse {joined : Bool} {client : Client} {φ : Phase}
    (h : Stands joined client [.refuse] φ) : Stands joined client [.result] φ := by
  cases h; constructor

theorem Stands.of_restored {joined : Bool} {client : Client} {φ : Phase}
    (h : Stands joined client [.restored] φ) :
    φ = .restored ∧ Stands joined client [.ack] .outside := by
  cases h; exact ⟨rfl, by constructor⟩

/-- The caller of `acquire_exclusive` waits for its lease, so the send succeeds. -/
theorem Related.sendLease (h : Related s₀ s phase) {prefetched : List UInt8} {receive : Receive}
    (hs : s.actor = .granting i prefetched receive) :
    Follows s₀ s phase clears (s.sendLease i prefetched receive) := by
  have hm : ∀ j, s.actor.messages j = (Message.grant prefetched).only i j := fun j => by
    rw [hs]; rfl
  have hserving : s.actor ≠ .stopped := by rw [hs]; nofun
  obtain ⟨hi, -⟩ := h.inActor (i := i) hserving (by rw [hm, Message.only_self])
  obtain ⟨hc, hi⟩ := hi.of_grant
  have hok : receive.Ok s.state := by have := h.actor; rwa [hs] at this
  unfold System.sendLease
  rw [hc]
  obtain ⟨actor, heq, hactor, hactorOk⟩ :=
    @System.resume_eq (s.reply i (.lease prefetched)) receive hok
  dsimp only
  rw [heq]
  refine @h.replied _ _ _ _ _ _ _ (.lease prefetched) .plain (phase i) hserving hm rfl rfl rfl
      hactor.serving hactor.messages (List.Sublist.refl _) rfl hi ?_ hactorOk rfl
  rw [Function.update_eq_self, System.protocol_plain (hs ▸ Actor.plain_granting ..),
    System.protocol_plain hactor.toPlain]
  exact .stay

theorem sendAll_sublist (event : DataPlaneEvent) (ids : List Nat)
    (subscriptions : Nat → Subscription) :
    (sendAll event ids subscriptions).1.Sublist ids := by
  induction ids generalizing subscriptions with
  | nil => exact List.Sublist.refl _
  | cons id ids ih =>
    rw [sendAll]
    split
    · exact (ih _).cons_cons id
    · exact (ih _).cons id
    · exact (ih _).cons id

theorem Related.startup_of_sublist (h : Related s₀ s phase) {subscribers : List Nat}
    (hsub : subscribers.Sublist s.state.subscribers) :
    subscribers = [] ∨ s.state.startupBuffer = [] := by
  rcases h.startup with hnone | hstart
  · rw [hnone] at hsub
    exact .inl (List.sublist_nil.mp hsub)
  · exact .inr hstart

theorem Related.acking (h : Related s₀ s phase) {result : Result} {outcome : Outcome}
    {receive : Receive} (hs : s.actor = .acking i result outcome receive) :
    Follows s₀ s phase clears
      ((s.reply i (.result result)).applyCommandOutcome receive outcome) := by
  have hm : ∀ j, s.actor.messages j = Message.ack.only i j := fun j => by rw [hs]; rfl
  have hserving : s.actor ≠ .stopped := by rw [hs]; nofun
  obtain ⟨hi, -⟩ := h.inActor (i := i) hserving (by rw [hm, Message.only_self])
  have hplain : s.actor.Plain := hs ▸ Actor.plain_acking ..
  have hok : receive.Ok s.state ∧ (outcome ≠ .continue → s.state.exclusive = none) := by
    have := h.actor; rwa [hs] at this
  -- the steps differ in where the actor goes, and none of them moves the protocol
  have hstay : ∀ t : System, t.actor.Idle →
      t.protocol s₀ phase = { s with actor := t.actor }.protocol s₀ phase →
      Step (s.protocol s₀ phase) .plain (t.protocol s₀ (Function.update phase i (phase i))) := by
    intro t ht hp
    rw [Function.update_eq_self, hp, System.protocol_plain hplain,
      System.protocol_plain (s := { s with actor := t.actor }) ht.toPlain]
    exact .stay
  unfold System.applyCommandOutcome
  cases outcome with
  | «continue» =>
    obtain ⟨actor, heq, hactor, hactorOk⟩ :=
      @System.resume_eq (s.reply i (.result result)) receive hok.1
    dsimp only
    rw [heq]
    exact @h.replied _ _ _ _ _ _ _ (.result result) _ _ hserving hm rfl rfl rfl hactor.serving
        hactor.messages (List.Sublist.refl _) rfl hi.ack_result (hstay _ hactor rfl) hactorOk rfl
  | shutdown =>
    exact @h.replied _ _ _ _ _ _ _ (.result result) _ _ hserving hm rfl rfl rfl nofun (fun _ => rfl)
        (List.Sublist.refl _) rfl hi.ack_result (hstay _ Actor.idle_closing rfl) (hok.2 nofun) rfl
  | close kind =>
    exact @h.replied _ _ _ _ _ _ _ (.result result) _ _ hserving hm rfl rfl rfl nofun (fun _ => rfl)
        (sendAll_sublist _ _ _) rfl hi.ack_result (hstay _ Actor.idle_closing rfl) (hok.2 nofun) rfl

theorem Related.rejecting (h : Related s₀ s phase) {kind : TransportErrorKind} {receive : Receive}
    (hs : s.actor = .rejecting i kind receive) :
    Follows s₀ s phase clears
      { s.reply i (.result (.error kind)) with actor := .rejectClearing receive } := by
  have hm : ∀ j, s.actor.messages j = Message.refuse.only i j := fun j => by rw [hs]; rfl
  have hserving : s.actor ≠ .stopped := by rw [hs]; nofun
  obtain ⟨hi, -⟩ := h.inActor (i := i) hserving (by rw [hm, Message.only_self])
  have hok : receive.Ok s.state := by have := h.actor; rwa [hs] at this
  refine @h.replied _ _ _ _ _ _ _ (.result (.error kind)) .plain (phase i) hserving hm rfl rfl rfl
      nofun (fun _ => rfl) (List.Sublist.refl _) rfl hi.of_refuse ?_ hok rfl
  rw [Function.update_eq_self]
  have hprotocol : { s.reply i (.result (.error kind)) with actor := .rejectClearing receive }.protocol
      s₀ phase = s.protocol s₀ phase := by
    simp only [System.protocol, hs]
    rfl
  rw [hprotocol]
  exact .stay

/-! ## The flag -/

/-- A step of the actor that touches neither clients nor messages. -/
theorem Related.local (h : Related s₀ s phase) {l : Label}
    (hs : s.actor ≠ .stopped) (hm : ∀ j, t.actor.messages j = s.actor.messages j)
    (htq : t.queue = s.queue) (htr : t.replies = s.replies) (htc : t.clients = s.clients)
    (hta : t.actor ≠ .stopped)
    (hsub : t.state.subscribers.Sublist s.state.subscribers)
    (hstep : Step (s.protocol s₀ phase) l (t.protocol s₀ phase))
    (hstartup : t.state.subscribers = [] ∨ t.state.startupBuffer = [])
    (hok : t.actor.Ok t.state) (hplain : l ≠ .clear)
    (hlose : l = .lose → s₀ ∉ s.state.subscribers ∨ s₀ ∉ t.state.subscribers) :
    Follows s₀ s phase clears t := by
  refine ⟨l, phase, hstep, ⟨fun j => ?_, h.owned.step hstep, h.nodup.sublist hsub, hstartup, hok⟩,
    fun hl => absurd hl hplain, hlose⟩
  refine (h.stands j).frame (fun hmem => hsub.subset hmem) (by rw [htc]) ?_
  rw [System.messages_serving hs, System.messages_serving hta, htq, htr, hm]

theorem Related.rejectClearing (h : Related s₀ s phase) {receive : Receive}
    (hs : s.actor = .rejectClearing receive) :
    Follows s₀ s phase clears ({ s with exclusiveActive := false }.resume receive) := by
  have hok : receive.Ok s.state := by have := h.actor; rwa [hs] at this
  obtain ⟨actor, heq, hactor, hactorOk⟩ :=
    @System.resume_eq { s with exclusiveActive := false } receive hok
  rw [heq]
  refine h.local (l := .plain) (by rw [hs]; nofun) (fun j => ?_) rfl rfl rfl hactor.serving
    (List.Sublist.refl _) ?_ h.startup hactorOk nofun nofun
  · rw [hactor.messages, hs]; rfl
  · have hrejects : (s.protocol s₀ phase).rejecting = true := by
      simp only [System.protocol, hs]; rfl
    convert Step.unannounce hrejects using 1
    simp only [System.protocol, hs, hactor.inHand, hactor.rejects, hactor.running]
    rfl

theorem Related.returnClearing (h : Related s₀ s phase) {receive : Receive} (answer : DriverAnswer)
    (hs : s.actor = .returnClearing i receive) :
    Follows s₀ s phase clears (s.clearReturned answer i receive) := by
  have hm : ∀ j, s.actor.messages j = Message.restored.only i j := fun j => by rw [hs]; rfl
  have hserving : s.actor ≠ .stopped := by rw [hs]; nofun
  obtain ⟨hi, hq, hr⟩ := h.inActor (i := i) hserving (by rw [hm, Message.only_self])
  obtain ⟨hp, hi⟩ := hi.of_restored
  have hplain : s.actor.Plain := hs ▸ Actor.plain_returnClearing ..
  have hok : receive.Ok s.state ∧ s.state.exclusive = none := by have := h.actor; rwa [hs] at this
  -- whether a shutdown was pending shows in the acknowledgement only
  have hack : ∀ result outcome shutdowns, Follows s₀ s phase clears { s with
      exclusiveActive := false, shutdowns, actor := .acking i result outcome receive } := by
    intro result outcome shutdowns
    refine h.follow (l := .plain) (φ := .outside) (i := i) ?_ ?_ (fun j hj hsj => ?_) h.nodup
      h.startup ⟨hok.1, fun _ => hok.2⟩ nofun nofun
    · convert Step.retire (p := s.protocol s₀ phase) hp using 1
      rw [System.protocol_plain hplain,
        System.protocol_plain (Actor.plain_acking i result outcome receive)]
      rfl
    · rw [System.Stands, System.messages_serving (Actor.plain_acking ..).serving]
      simpa [hq, hr, Actor.messages] using hi
    · refine hsj.frame id rfl ?_
      rw [System.messages_serving (Actor.plain_acking ..).serving, System.messages_serving hserving,
        hm]
      simp [Actor.messages, Message.only_other hj]
  unfold System.clearReturned
  split_ifs
  · exact hack _ _ _
  · exact hack _ _ _

/-! ## Publication -/

theorem flatMap_deliveryTo_subscribers (s₀ : Nat) (data : List UInt8) {ids : List Nat}
    (hnodup : ids.Nodup) :
    (ids.map ((Receiver.subscriber ·, data))).flatMap (deliveryTo s₀) =
      if s₀ ∈ ids then data else [] := by
  induction ids with
  | nil => rfl
  | cons id ids ih =>
    obtain ⟨hid, hnodup⟩ := List.nodup_cons.mp hnodup
    rw [List.map_cons, List.flatMap_cons, ih hnodup, deliveryTo]
    by_cases heq : id = s₀
    · subst heq
      simp [hid]
    · simp [heq, Ne.symm heq]

/-- What a publication changes: a subscriber that stays gets the data. -/
theorem System.publishSharedData_eq (s : System) (data : List UInt8)
    (hnodup : s.state.subscribers.Nodup)
    (hstartup : s.state.subscribers = [] ∨ s.state.startupBuffer = []) :
    ∃ state subscriptions delivered,
      s.publishSharedData data = { s with state, subscriptions, delivered } ∧
      state.subscribers.Sublist s.state.subscribers ∧ state.exclusive = s.state.exclusive ∧
      state.handoffBuffer = s.state.handoffBuffer ∧
      (state.subscribers = [] ∨ state.startupBuffer = []) ∧
      (s₀ ∈ state.subscribers →
        delivered.flatMap (deliveryTo s₀) = s.deliveredTo s₀ ++ data) := by
  unfold System.publishSharedData
  split_ifs with hdata hnone
  · exact ⟨s.state, s.subscriptions, s.delivered, rfl, List.Sublist.refl _, rfl, rfl, hstartup,
      fun _ => by simp [hdata, System.deliveredTo]⟩
  · refine ⟨_, s.subscriptions, s.delivered, rfl, List.Sublist.refl _, rfl, rfl, .inl hnone,
      fun hmem => ?_⟩
    simp [hnone] at hmem
  · have hsub := sendAll_sublist (.data data) s.state.subscribers s.subscriptions
    refine ⟨_, _, _, rfl, hsub, rfl, rfl, .inr (hstartup.resolve_left hnone), fun hmem => ?_⟩
    rw [List.flatMap_append, flatMap_deliveryTo_subscribers s₀ data (hnodup.sublist hsub),
      if_pos hmem]
    rfl

/-- The actor publishes what it has buffered and in hand. -/
theorem Related.publish (h : Related s₀ s phase) {actor : Actor}
    (hm : ∀ j, s.actor.messages j = []) (hserving : s.actor ≠ .stopped)
    (hrejects : s.actor.rejects = false) (hrunning : s.actor.running = true)
    (he : s.state.exclusive = none) (ha : actor.Idle)
    (hok : ∀ state : RuntimeLoopState, state.exclusive = none → state.handoffBuffer = [] →
      actor.Ok state) :
    Follows s₀ s phase clears
      { { s with state := { s.state with handoffBuffer := [] } }.publishSharedData
        (s.state.handoffBuffer ++ s.actor.inHand) with actor } := by
  obtain ⟨state, subscriptions, delivered, heq, hsub, hexclusive, hhandoff, hstartup, hdelivered⟩ :=
    @{ s with state := { s.state with handoffBuffer := [] } }.publishSharedData_eq s₀
        (s.state.handoffBuffer ++ s.actor.inHand) h.nodup h.startup
  rw [heq]
  by_cases hmem : s₀ ∈ state.subscribers
  · have hkept : s.state.startupBuffer = [] :=
      h.startup.resolve_left (List.ne_nil_of_mem (hsub.subset hmem))
    have hkept' : state.startupBuffer = [] := hstartup.resolve_left (List.ne_nil_of_mem hmem)
    refine h.local (l := .plain) hserving (fun j => by rw [hm]; exact ha.messages j) rfl rfl rfl
      ha.serving hsub ?_ hstartup (hok state (hexclusive.trans he) hhandoff) (by intro h; cases h) (by intro h; cases h)
    convert Step.deliver (p := s.protocol s₀ phase) he using 1
    rw [System.protocol_plain ha.toPlain]
    simp only [System.protocol, hrejects, hrunning, RuntimeLoopState.unconsumedBytes, hkept, hkept',
      hhandoff, hexclusive]
    congr 1
    exact hdelivered hmem
  · refine h.local (l := .lose) hserving (fun j => by rw [hm]; exact ha.messages j) rfl rfl rfl
      ha.serving hsub ?_ hstartup (hok state (hexclusive.trans he) hhandoff) (by intro h; cases h)
      (fun _ => .inr hmem)
    convert Step.lose (p := s.protocol s₀ phase) state.unconsumedBytes
      (delivered.flatMap (deliveryTo s₀)) (fun hsome => ?_) using 1
    · rw [System.protocol_plain ha.toPlain]
      simp only [System.protocol, hrejects, hrunning, hexclusive]
      rfl
    · rw [show (s.protocol s₀ phase).exclusive = none from he] at hsome
      cases hsome

/-! ## The loop -/

theorem Related.readDriver (h : Related s₀ s phase) {answer : DriverAnswer}
    (hs : s.actor = .reading) (ht : s.readDriver answer = some t) :
    Follows s₀ s phase clears t := by
  have hidle : s.actor.Idle := hs ▸ Actor.idle_reading
  have hok : s.state.exclusive = none ∧ s.state.handoffBuffer = [] := by
    have := h.actor; rwa [hs] at this
  have hclose : ∀ kind, Follows s₀ s phase clears { s.broadcastClose kind with actor := .closing } := by
    intro kind
    refine h.local (l := .plain) hidle.serving
      (fun j => by rw [hidle.messages]; rfl) rfl rfl rfl nofun (sendAll_sublist _ _ _) ?_
      (h.startup_of_sublist (sendAll_sublist _ _ _)) hok.1 nofun nofun
    rw [System.protocol_plain hidle.toPlain, System.protocol_plain Actor.idle_closing.toPlain]
    exact .stay
  unfold System.readDriver at ht
  split at ht
  · rename_i bytes
    split_ifs at ht
    obtain rfl := Option.some.inj ht
    refine h.local (l := .plain) hidle.serving (fun j => by rw [hidle.messages]; rfl) rfl rfl rfl
      nofun (List.Sublist.refl _) ?_ h.startup hok nofun nofun
    convert Step.read (p := s.protocol s₀ phase) bytes (h.owned.driver hok.1) hok.1 using 1
    simp only [System.protocol, hs]
    simp [Actor.inHand, Actor.rejects, Actor.running, System.deliveredTo]
  · obtain rfl := Option.some.inj ht
    exact h.move hidle Actor.idle_top trivial
  · obtain rfl := Option.some.inj ht
    exact hclose _
  · obtain rfl := Option.some.inj ht
    exact hclose _
  · cases ht

theorem Related.gotData (h : Related s₀ s phase) {data : List UInt8} (hs : s.actor = .gotData data) :
    Follows s₀ s phase clears
      (if s.exclusiveActive then
        { s with
          state := { s.state with handoffBuffer := s.state.handoffBuffer ++ data }
          actor := .top }
      else { s.publishSharedData data with actor := .top }) := by
  have hok : s.state.exclusive = none ∧ s.state.handoffBuffer = [] := by
    have := h.actor; rwa [hs] at this
  have hm : ∀ j, s.actor.messages j = [] := fun j => by rw [hs]; rfl
  have hserving : s.actor ≠ .stopped := by rw [hs]; nofun
  split_ifs
  · -- the data follows the driver
    refine h.local (l := .plain) hserving (fun j => by rw [hm]; rfl) rfl rfl rfl nofun
      (List.Sublist.refl _) ?_ h.startup trivial nofun nofun
    convert Step.stay (p := s.protocol s₀ phase) using 1
    simp only [System.protocol, hs]
    simp [Actor.inHand, Actor.rejects, Actor.running, RuntimeLoopState.unconsumedBytes,
      System.deliveredTo]
  · have hempty : { s with state := { s.state with handoffBuffer := [] } } = s := by
      rw [← hok.2]
    have hpublish := @h.publish _ _ clears _ _ hm hserving (by rw [hs]; rfl) (by rw [hs]; rfl) hok.1
        Actor.idle_top fun _ _ _ => trivial
    rwa [hempty, hok.2, hs] at hpublish

theorem Related.top (h : Related s₀ s phase) (hs : s.actor = .top) :
    Follows s₀ s phase clears
      (if s.state.exclusive.isSome ∨ s.exclusiveActive then { s with actor := .waiting }
      else { s.publishHandoffBuffer with actor := .draining }) := by
  have hidle : s.actor.Idle := hs ▸ Actor.idle_top
  split_ifs with hwait
  · exact h.move hidle Actor.idle_waiting trivial
  · have he : s.state.exclusive = none :=
      Option.not_isSome_iff_eq_none.mp fun he => hwait (.inl he)
    have hpublish := @h.publish _ _ clears _ _ hidle.messages hidle.serving hidle.rejects
        hidle.running he Actor.idle_draining fun _ he hh => ⟨he, hh⟩
    rwa [hidle.inHand, List.append_nil] at hpublish

theorem Related.drained (h : Related s₀ s phase) (hs : s.actor = .drained) :
    Follows s₀ s phase clears
      (if s.state.exclusive.isSome ∨ s.exclusiveActive then { s with actor := .top }
      else if s.driver then { s with actor := .reading }
      else { s.broadcastClose .io with actor := .closing }) := by
  have hidle : s.actor.Idle := hs ▸ Actor.idle_drained
  have hok : s.state.handoffBuffer = [] := by have := h.actor; rwa [hs] at this
  split_ifs with hleave hdriver
  · exact h.move hidle Actor.idle_top trivial
  · have he : s.state.exclusive = none :=
      Option.not_isSome_iff_eq_none.mp fun he => hleave (.inl he)
    exact h.move hidle Actor.idle_reading ⟨he, hok⟩
  · -- the driver is there whenever nobody owns it
    have he : s.state.exclusive = none :=
      Option.not_isSome_iff_eq_none.mp fun he => hleave (.inl he)
    exact absurd (h.owned.driver he) hdriver

/-! ## The end -/

/-- A position behind the loop, or on the way there. -/
structure Actor.Ending (actor : Actor) : Prop where
  messages : ∀ j, actor.messages j = []
  inHand : actor.inHand = []
  rejects : actor.rejects = false
  serving : actor ≠ .stopped

theorem Actor.ending_closing : Actor.closing.Ending := ⟨fun _ => rfl, rfl, rfl, nofun⟩
theorem Actor.ending_shuttingDown : Actor.shuttingDown.Ending := ⟨fun _ => rfl, rfl, rfl, nofun⟩
theorem Actor.ending_guarding : Actor.guarding.Ending := ⟨fun _ => rfl, rfl, rfl, nofun⟩
theorem Actor.ending_dropping : Actor.dropping.Ending := ⟨fun _ => rfl, rfl, rfl, nofun⟩

/-- The store that clears the flag at the end. -/
theorem Related.stop (h : Related s₀ s phase) {actor : Actor} (hs : s.actor.Ending)
    (ha : actor.Ending) (hrunning : actor.running = false) (he : s.state.exclusive = none)
    (hok : actor.Ok s.state) (subscriptions : Nat → Subscription) :
    Follows s₀ s phase clears { s with subscriptions, exclusiveActive := false, actor } := by
  refine h.local (l := .plain) hs.serving (fun j => by rw [hs.messages]; exact ha.messages j) rfl rfl
    rfl ha.serving (List.Sublist.refl _) ?_ h.startup hok nofun nofun
  convert Step.stop (p := s.protocol s₀ phase) he using 1
  simp [System.protocol, System.deliveredTo, hs.inHand, hs.rejects, ha.inHand, ha.rejects, hrunning]

theorem RuntimeCommand.mem_messages {command : RuntimeCommand} {message : Message}
    (h : message ∈ command.messages i) :
    message = .acquire ∨ message = .request ∨ message = .subscribe ∨
      ∃ bytes, message = .giveBack bytes := by
  cases command <;> simp only [RuntimeCommand.messages, Message.only] at h
  all_goals try split_ifs at h
  all_goals simp_all

/-- The queue goes with its receiver, and no owner is in it. -/
theorem Related.dropQueue (h : Related s₀ s phase) (hs : s.actor = .dropping) :
    Follows s₀ s phase clears
      { s with state := { s.state with subscribers := [] }, actor := .stopped } := by
  have he : s.state.exclusive = none := by have := h.actor; rwa [hs] at this
  have hstep : Step (s.protocol s₀ phase) .plain
      ({ s with state := { s.state with subscribers := [] }, actor := .stopped }.protocol s₀ phase) := by
    convert Step.stay (p := s.protocol s₀ phase) using 1
    simp only [System.protocol, hs]
    rfl
  refine ⟨.plain, phase, hstep, ⟨fun j => ?_, h.owned.step hstep, List.nodup_nil, .inl rfl, he⟩,
    (by intro h; cases h), (by intro h; cases h)⟩
  have hj := h.stands j
  have hmessages : s.messages j = s.queue.flatMap (·.messages j) ++
      ((s.replies j).map Reply.message).toList := by
    rw [System.messages_serving (by rw [hs]; intro h; cases h), hs]
    simp [Actor.messages]
  have hheld : (phase j).held = none := by
    cases hheld : (phase j).held with
    | none => rfl
    | some bytes => exact absurd (h.owned.held j bytes hheld) (by
        rw [show (s.protocol s₀ phase).exclusive = none from he]; intro h; cases h)
  have hreplies : { s with state := { s.state with subscribers := [] }, actor := .stopped }.messages j =
      ((s.replies j).map Reply.message).toList := by
    simp [System.messages, System.pendingCommands, Actor.messages]
  rw [System.Stands, hreplies]
  rw [System.Stands, hmessages] at hj
  show Stands false (s.clients j) _ _
  cases hq : s.queue.flatMap (·.messages j) with
  | nil =>
    rw [hq] at hj
    exact hj.leave
  | cons message rest =>
    rw [hq, List.cons_append] at hj
    obtain ⟨rfl, hnil⟩ := List.append_eq_nil_iff.mp hj.single
    obtain ⟨command, -, hmem⟩ := List.mem_flatMap.mp
      (show message ∈ s.queue.flatMap (·.messages j) by rw [hq]; exact List.mem_cons_self)
    rw [hnil] at hj ⊢
    exact (hj.abandon hheld (RuntimeCommand.mem_messages hmem)).leave

/-! ## All together -/

theorem Related.actorStep (h : Related s₀ s phase) {answer : DriverAnswer}
    (ht : s.actorStep answer = some t) : Follows s₀ s phase clears t := by
  unfold System.actorStep at ht
  split at ht
  · rename_i hs
    have htop := @h.top _ _ clears _ hs
    split_ifs at ht htop <;> exact Option.some.inj ht ▸ htop
  · rename_i hs
    split at ht
    · cases ht
    · rename_i command queue hq
      obtain rfl := Option.some.inj ht
      exact @h.handleCommand _ _ _ _ .blocking _ _ answer hs hq
  · rename_i hs
    split at ht
    · obtain rfl := Option.some.inj ht
      have hok : s.state.exclusive = none ∧ s.state.handoffBuffer = [] := by
        have := h.actor; rwa [hs] at this
      exact h.move (hs ▸ Actor.idle_draining) Actor.idle_drained hok.2
    · rename_i command queue hq
      obtain rfl := Option.some.inj ht
      exact @h.handleCommand _ _ _ _ .drain _ _ answer hs hq
  · rename_i hs
    have hdrained := @h.drained _ _ clears _ hs
    split_ifs at ht hdrained <;> exact Option.some.inj ht ▸ hdrained
  · rename_i hs
    exact h.readDriver hs ht
  · rename_i data hs
    have hdata := @h.gotData _ _ clears _ _ hs
    split_ifs at ht hdata <;> exact Option.some.inj ht ▸ hdata
  · rename_i ownerId prefetched receive hs
    obtain rfl := Option.some.inj ht
    exact h.sendLease hs
  · rename_i ownerId kind receive hs
    obtain rfl := Option.some.inj ht
    exact h.rejecting hs
  · rename_i receive hs
    obtain rfl := Option.some.inj ht
    exact h.rejectClearing hs
  · rename_i ownerId receive hs
    obtain rfl := Option.some.inj ht
    exact h.returnClearing answer hs
  · rename_i client result outcome receive hs
    obtain rfl := Option.some.inj ht
    exact h.acking hs
  · rename_i hs
    obtain rfl := Option.some.inj ht
    have he : s.state.exclusive = none := by have := h.actor; rwa [hs] at this
    exact h.stop (hs ▸ Actor.ending_closing) Actor.ending_shuttingDown rfl he he _
  · rename_i hs
    obtain rfl := Option.some.inj ht
    have he : s.state.exclusive = none := by have := h.actor; rwa [hs] at this
    refine h.local (l := .plain) (by rw [hs]; nofun) (fun j => by rw [hs]; rfl) rfl rfl rfl nofun
      (List.Sublist.refl _) ?_ h.startup he nofun nofun
    convert Step.stay (p := s.protocol s₀ phase) using 1
    simp only [System.protocol, hs]
    rfl
  · rename_i hs
    obtain rfl := Option.some.inj ht
    have he : s.state.exclusive = none := by have := h.actor; rwa [hs] at this
    exact h.stop (hs ▸ Actor.ending_guarding) Actor.ending_dropping rfl he he _
  · rename_i hs
    obtain rfl := Option.some.inj ht
    exact h.dropQueue hs
  · cases ht

/-- The step with which a caller clears the flag by itself. -/
def Action.ClearsFlag : Action → Prop
  | .client _ .clearFlag => True
  | _ => False

instance (action : Action) : Decidable action.ClearsFlag := by
  unfold Action.ClearsFlag
  split <;> infer_instance

theorem Related.step (h : Related s₀ s phase) {action : Action} (ht : s.step action = some t) :
    Follows s₀ s phase action.ClearsFlag t := by
  cases action with
  | actor answer => exact h.actorStep ht
  | client i action =>
    obtain ⟨l, phase', hstep, hrelated, hclear, hlose⟩ := h.clientStep ht
    exact ⟨l, phase', hstep, hrelated, fun hl => by rw [hclear hl]; trivial, hlose⟩

end TauTerm.Transport
