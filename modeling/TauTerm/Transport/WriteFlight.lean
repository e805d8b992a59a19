import Mathlib
import TauTerm.Transport.DriverOwner

/-!
# One write on its way

A `write` of a client passes through the queue, the hands of the actor and the
channel of its reply. `InFlight` says where it is and whether the device has got
its bytes. A step of the actor writes them at most once (`Related.inFlight_actor`),
and nobody else's step moves the write (`Related.inFlight_other`).

A write that fails while the actor serves was refused because of a lease; for
every other failure the actor leaves its loop (`System.Settled`).
-/

namespace TauTerm.Transport

open Protocol (Step Label Owned)

/-- The write that the actor carries out in this step, if it does one. -/
def System.wrote (s : System) (answer : DriverAnswer) : Option (Nat × List UInt8) :=
  match s.actor, s.queue with
  | .waiting, .request client (.write data) :: _
  | .draining, .request client (.write data) :: _ =>
    if s.state.exclusive = none ∧ s.driver = true ∧ answer.result = .ok () then some (client, data)
    else none
  | _, _ => none

def Result.isOk : Result → Bool
  | .ok () => true
  | .error _ => false

/-- The result of a write, where the actor stands: what is no refusal ends the runtime. -/
def System.Settled (s : System) (result : Result) : Prop :=
  result = .ok () ∨ result = .error .busy ∨ s.actor.left = true

/-- A write of `data` by client `i` on its way, and whether the device has got it. -/
inductive System.InFlight (s : System) (i : Nat) (data : List UInt8) : Bool → Prop
  | admitted (hc : s.clients i = .admitted (.write data)) : s.InFlight i data false
  | queued (hc : s.clients i = .awaitingAck (.error .remoteClosed)) (hactor : s.actor ≠ .stopped)
      (hq : .request i (.write data) ∈ s.queue) : s.InFlight i data false
  | acking {result : Result} {outcome : Outcome} {receive : Receive}
      (hc : s.clients i = .awaitingAck (.error .remoteClosed))
      (hactor : s.actor = .acking i result outcome receive)
      (houtcome : result = .ok () ∨ result = .error .busy ∨ ∃ kind, outcome = .close kind) :
      s.InFlight i data result.isOk
  | replied {result : Result} (hc : s.clients i = .awaitingAck (.error .remoteClosed))
      (hr : s.replies i = some (.result result)) (hsettled : s.Settled result) :
      s.InFlight i data result.isOk
  | lost (hc : s.clients i = .awaitingAck (.error .remoteClosed)) (hactor : s.actor = .stopped)
      (hr : s.replies i = none) : s.InFlight i data false
  | finished {result : Result} (hc : s.clients i = .finished result) (hsettled : s.Settled result) :
      s.InFlight i data result.isOk

variable {s t : System} {i j s₀ : Nat} {phase : Nat → Phase} {data : List UInt8} {done : Bool}

/-! ## The actor's step -/

/-- What `handle_command` leaves alone. -/
structure System.Handles (s t : System) : Prop where
  clients : t.clients = s.clients
  replies : t.replies = s.replies
  queue : t.queue = s.queue
  actor : t.actor ≠ .stopped

theorem System.handleCommand_handles (s : System) (receive : Receive) (answer : DriverAnswer)
    (command : RuntimeCommand) : s.Handles (s.handleCommand receive answer command) := by
  unfold System.handleCommand
  cases command with
  | request client request =>
    dsimp only
    unfold System.handleRequest
    split_ifs
    · exact ⟨rfl, rfl, rfl, nofun⟩
    · split
      · exact ⟨rfl, rfl, rfl, nofun⟩
      · split <;> exact ⟨rfl, rfl, rfl, nofun⟩
    · exact ⟨rfl, rfl, rfl, nofun⟩
  | subscribe id capacityMessages =>
    have hstate (state : RuntimeLoopState) (subscriptions : Nat → Subscription)
        (delivered : List (Receiver × List UInt8)) :
        s.Handles ({ s with state, subscriptions, delivered }.resume receive) := by
      cases receive with
      | blocking => exact ⟨rfl, rfl, rfl, nofun⟩
      | drain =>
        refine ⟨rfl, rfl, rfl, ?_⟩
        unfold System.resume
        dsimp only
        split_ifs <;> nofun
    dsimp only
    unfold System.handleSubscribe
    dsimp only
    split_ifs
    · exact hstate _ _ _
    · split <;> exact hstate _ _ _
  | unsubscribe id =>
    cases receive with
    | blocking => exact ⟨rfl, rfl, rfl, nofun⟩
    | drain =>
      refine ⟨rfl, rfl, rfl, ?_⟩
      unfold System.resume
      dsimp only
      split_ifs <;> nofun
  | acquireExclusive ownerId =>
    dsimp only
    unfold System.handleAcquire
    split_ifs <;> exact ⟨rfl, rfl, rfl, nofun⟩
  | returnExclusive ownerId prefetched =>
    dsimp only
    unfold System.handleReturn
    split_ifs <;> exact ⟨rfl, rfl, rfl, nofun⟩
  | shutdown client =>
    dsimp only
    unfold System.handleShutdown
    split_ifs <;> exact ⟨rfl, rfl, rfl, nofun⟩

theorem System.publishSharedData_frame (s : System) (data : List UInt8) :
    (s.publishSharedData data).clients = s.clients ∧
      (s.publishSharedData data).replies = s.replies ∧
      (s.publishSharedData data).queue = s.queue ∧
      (s.publishSharedData data).written = s.written := by
  unfold System.publishSharedData
  dsimp only
  split_ifs <;> exact ⟨rfl, rfl, rfl, rfl⟩

/-- A step of the actor, as the writes on their way see it: it takes a command from the queue,
acknowledges one, drops the queue, or does something else. -/
inductive System.Serves (s : System) (answer : DriverAnswer) : System → Prop
  | takes (receive : Receive) (command : RuntimeCommand) (queue : List RuntimeCommand)
      (hs : s.actor = receive.actor) (hq : s.queue = command :: queue) :
      s.Serves answer ({ s with queue }.handleCommand receive answer command)
  | acknowledges (client : Nat) (result : Result) (outcome : Outcome) (receive : Receive)
      (hs : s.actor = .acking client result outcome receive) :
      s.Serves answer ((s.reply client (.result result)).applyCommandOutcome receive outcome)
  | drops {t : System} (hs : s.actor = .dropping) (hactor : t.actor = .stopped)
      (hclients : t.clients = s.clients) (hreplies : t.replies = s.replies)
      (hwritten : t.written = s.written) : s.Serves answer t
  | passes {t : System} (hs : ∀ client result outcome receive,
        s.actor ≠ .acking client result outcome receive)
      (htakes : ∀ receive : Receive, s.actor = receive.actor → s.queue = [])
      (hstopped : s.actor ≠ .stopped) (hleft : s.actor.left = true → t.actor.left = true)
      (hactor : t.actor ≠ .stopped) (hclients : t.clients = s.clients) (hqueue : t.queue = s.queue)
      (hreplies : ∀ i, s.actor.messages i = [] → t.replies i = s.replies i)
      (hwritten : t.written = s.written) : s.Serves answer t

theorem System.resume_actor (s : System) (receive : Receive) :
    (s.resume receive).actor ≠ .stopped ∧ (s.resume receive).clients = s.clients ∧
      (s.resume receive).replies = s.replies := by
  cases receive with
  | blocking => exact ⟨nofun, rfl, rfl⟩
  | drain =>
    refine ⟨?_, rfl, rfl⟩
    unfold System.resume
    dsimp only
    split_ifs <;> nofun

/-- The actor is inside the loop, and neither takes a command nor acknowledges one. -/
def Actor.works : Actor → Bool
  | .top | .drained | .reading | .gotData _ | .granting .. | .rejecting .. | .rejectClearing _
  | .returnClearing .. => true
  | _ => false

def Actor.isStopped : Actor → Bool
  | .stopped => true
  | _ => false

theorem Actor.left_of_works {actor : Actor} (h : actor.works = true) : actor.left = false := by
  cases actor <;> first | rfl | cases h

theorem Actor.ne_stopped {actor : Actor} (h : actor.isStopped = false) : actor ≠ .stopped := by
  rintro rfl
  cases h

/-- A step inside the loop that touches neither the queue nor a client. -/
theorem System.Serves.pass {answer : DriverAnswer} {t : System} (hs : s.actor.works = true)
    (hactor : t.actor ≠ .stopped) (hclients : t.clients = s.clients)
    (hqueue : t.queue = s.queue)
    (hreplies : ∀ i, s.actor.messages i = [] → t.replies i = s.replies i)
    (hwritten : t.written = s.written) : s.Serves answer t := by
  refine .passes (fun client result outcome receive h => ?_) (fun receive h => ?_) (fun h => ?_)
    (fun h => ?_) hactor hclients hqueue hreplies hwritten
  · rw [h] at hs
    cases hs
  · rw [h] at hs
    cases receive <;> cases hs
  · rw [h] at hs
    cases hs
  · rw [Actor.left_of_works hs] at h
    cases h

theorem System.serves_of_actorStep {answer : DriverAnswer} (ht : s.actorStep answer = some t) :
    s.Serves answer t := by
  have hworks {actor : Actor} (hs : s.actor = actor) (hw : actor.works = true) : s.actor.works = true :=
    hs ▸ hw
  cases hs : s.actor with
  | top =>
    obtain ⟨hclients, hreplies, hqueue, hwritten⟩ := System.publishSharedData_frame
      { s with state := { s.state with handoffBuffer := [] } } s.state.handoffBuffer
    simp only [System.actorStep, hs] at ht
    split_ifs at ht
    · obtain rfl := Option.some.inj ht
      exact .pass (hworks hs rfl) (Actor.ne_stopped rfl) rfl rfl
        (fun _ _ => rfl) rfl
    · obtain rfl := Option.some.inj ht
      exact .pass (hworks hs rfl) (Actor.ne_stopped rfl) hclients hqueue
        (fun i _ => congrFun hreplies i) hwritten
  | waiting =>
    simp only [System.actorStep, hs] at ht
    cases hq : s.queue with
    | nil => rw [hq] at ht; cases ht
    | cons command queue =>
      rw [hq] at ht
      obtain rfl := Option.some.inj ht
      exact .takes .blocking command queue hs hq
  | draining =>
    simp only [System.actorStep, hs] at ht
    cases hq : s.queue with
    | nil =>
      rw [hq] at ht
      obtain rfl := Option.some.inj ht
      exact .passes (fun _ _ _ _ h => by rw [hs] at h; cases h) (fun _ _ => hq)
        (fun h => by rw [hs] at h; cases h) (fun h => by rw [hs] at h; cases h) (fun h => by cases h)
        rfl hq.symm (fun _ _ => rfl) rfl
    | cons command queue =>
      rw [hq] at ht
      obtain rfl := Option.some.inj ht
      exact .takes .drain command queue hs hq
  | drained =>
    simp only [System.actorStep, hs] at ht
    split_ifs at ht <;>
    · obtain rfl := Option.some.inj ht
      exact .pass (hworks hs rfl) (Actor.ne_stopped rfl) rfl rfl
        (fun _ _ => rfl) rfl
  | reading =>
    simp only [System.actorStep, hs] at ht
    unfold System.readDriver at ht
    split at ht
    · split_ifs at ht
      obtain rfl := Option.some.inj ht
      exact .pass (hworks hs rfl) (Actor.ne_stopped rfl) rfl rfl
        (fun _ _ => rfl) rfl
    · obtain rfl := Option.some.inj ht
      exact .pass (hworks hs rfl) (Actor.ne_stopped rfl) rfl rfl
        (fun _ _ => rfl) rfl
    · obtain rfl := Option.some.inj ht
      exact .pass (hworks hs rfl) (Actor.ne_stopped rfl) rfl rfl
        (fun _ _ => rfl) rfl
    · obtain rfl := Option.some.inj ht
      exact .pass (hworks hs rfl) (Actor.ne_stopped rfl) rfl rfl
        (fun _ _ => rfl) rfl
    · cases ht
  | gotData data =>
    obtain ⟨hclients, hreplies, hqueue, hwritten⟩ := s.publishSharedData_frame data
    simp only [System.actorStep, hs] at ht
    split_ifs at ht
    · obtain rfl := Option.some.inj ht
      exact .pass (hworks hs rfl) (Actor.ne_stopped rfl) rfl rfl
        (fun _ _ => rfl) rfl
    · obtain rfl := Option.some.inj ht
      exact .pass (hworks hs rfl) (Actor.ne_stopped rfl) hclients hqueue
        (fun i _ => congrFun hreplies i) hwritten
  | granting ownerId prefetched receive =>
    simp only [System.actorStep, hs] at ht
    obtain rfl := Option.some.inj ht
    unfold System.sendLease
    split
    · obtain ⟨-, -, -, hqueue, hwritten, -⟩ :=
        System.resume_driver (s.reply ownerId (.lease prefetched)) receive
      obtain ⟨hactor, hclients, hreplies⟩ := (s.reply ownerId (.lease prefetched)).resume_actor receive
      refine .pass (hworks hs rfl) hactor hclients hqueue
        (fun i hi => ?_) hwritten
      rw [hs] at hi
      have hne : i ≠ ownerId := fun heq => by
        subst heq
        rw [show (Actor.granting i prefetched receive).messages i = [.grant prefetched] from
          Message.only_self _ i] at hi
        cases hi
      rw [hreplies]
      exact Function.update_of_ne hne _ _
    · exact .pass (hworks hs rfl) (Actor.ne_stopped rfl) rfl rfl
        (fun _ _ => rfl) rfl
  | rejecting ownerId kind receive =>
    simp only [System.actorStep, hs] at ht
    obtain rfl := Option.some.inj ht
    refine .pass (hworks hs rfl) (Actor.ne_stopped rfl) rfl rfl
      (fun i hi => ?_) rfl
    rw [hs] at hi
    have hne : i ≠ ownerId := fun heq => by
      subst heq
      rw [show (Actor.rejecting i kind receive).messages i = [.refuse] from
        Message.only_self _ i] at hi
      cases hi
    exact Function.update_of_ne hne _ _
  | rejectClearing receive =>
    simp only [System.actorStep, hs] at ht
    obtain rfl := Option.some.inj ht
    obtain ⟨-, -, -, hqueue, hwritten, -⟩ := System.resume_driver { s with exclusiveActive := false } receive
    obtain ⟨hactor, hclients, hreplies⟩ := System.resume_actor { s with exclusiveActive := false } receive
    exact .pass (hworks hs rfl) hactor hclients hqueue
      (fun i _ => congrFun hreplies i) hwritten
  | returnClearing ownerId receive =>
    simp only [System.actorStep, hs] at ht
    obtain rfl := Option.some.inj ht
    unfold System.clearReturned
    split_ifs <;>
    · exact .pass (hworks hs rfl) (Actor.ne_stopped rfl) rfl rfl
        (fun _ _ => rfl) rfl
  | acking client result outcome receive =>
    simp only [System.actorStep, hs] at ht
    obtain rfl := Option.some.inj ht
    exact .acknowledges client result outcome receive hs
  | dropping =>
    simp only [System.actorStep, hs] at ht
    obtain rfl := Option.some.inj ht
    exact .drops hs rfl rfl rfl rfl
  | stopped => simp only [System.actorStep, hs] at ht; cases ht
  | _ =>
    simp only [System.actorStep, hs] at ht
    obtain rfl := Option.some.inj ht
    exact .passes (fun _ _ _ _ h => by rw [hs] at h; cases h)
      (fun receive h => by rw [hs] at h; cases receive <;> cases h)
      (fun h => by rw [hs] at h; cases h) (fun _ => rfl) (fun h => by cases h) rfl rfl (fun _ _ => rfl) rfl

/-! ## What is written -/

theorem System.wrote_of_taking {receive : Receive} (hs : s.actor = receive.actor)
    {queue : List RuntimeCommand} (hq : s.queue = .request i (.write data) :: queue)
    (answer : DriverAnswer) :
    s.wrote answer =
      if s.state.exclusive = none ∧ s.driver = true ∧ answer.result = .ok () then some (i, data)
      else none := by
  cases receive <;>
  · unfold System.wrote
    rw [hs, hq]
    rfl

theorem System.exclusive_of_wrote {answer : DriverAnswer} {write : Nat × List UInt8}
    (h : s.wrote answer = some write) : s.state.exclusive = none := by
  unfold System.wrote at h
  split at h
  · split_ifs at h with hok; exact hok.1
  · split_ifs at h with hok; exact hok.1
  · cases h

/-- A write taken from the queue: what the actor will acknowledge. -/
theorem Related.handleWrite (h : Related s₀ s phase) {receive : Receive}
    {queue : List RuntimeCommand} (hq : s.queue = .request i (.write data) :: queue)
    (hs : s.actor = receive.actor) (answer : DriverAnswer) :
    ∃ (result : Result) (outcome : Outcome),
      ({ s with queue }.handleCommand receive answer (.request i (.write data))).actor =
          .acking i result outcome receive ∧
        (result = .ok () ∨ result = .error .busy ∨ ∃ kind, outcome = .close kind) ∧
        (s.wrote answer = if result.isOk then some (i, data) else none) ∧
        ({ s with queue }.handleCommand receive answer (.request i (.write data))).written =
          s.written ++ if result.isOk then data else [] := by
  rw [System.wrote_of_taking hs hq]
  simp only [System.handleCommand, System.handleRequest]
  by_cases he : s.state.exclusive = none
  · have hd : s.driver = true := by
      rw [← Bool.not_eq_false, h.away_iff, he]
      exact Bool.false_ne_true
    simp only [he, hd, Option.isSome_none, Bool.false_eq_true, if_false, not_true_eq_false, true_and]
    cases hr : answer.result with
    | ok _ => exact ⟨.ok (), .continue, rfl, .inl rfl, rfl, rfl⟩
    | error kind =>
      exact ⟨.error kind, .close kind, rfl, .inr (.inr ⟨kind, rfl⟩), rfl, (List.append_nil _).symm⟩
  · rw [if_pos (Option.isSome_iff_ne_none.mpr he), if_neg fun hok => he hok.1]
    exact ⟨.error .busy, .continue, rfl, .inr (.inl rfl), rfl, (List.append_nil _).symm⟩

theorem System.applyCommandOutcome_frame (s : System) (receive : Receive) (outcome : Outcome) :
    (s.applyCommandOutcome receive outcome).actor ≠ .stopped ∧
      (s.applyCommandOutcome receive outcome).clients = s.clients ∧
      (s.applyCommandOutcome receive outcome).replies = s.replies ∧
      (s.applyCommandOutcome receive outcome).queue = s.queue ∧
      (s.applyCommandOutcome receive outcome).written = s.written := by
  cases outcome with
  | «continue» =>
    obtain ⟨ha, hc, hr⟩ := s.resume_actor receive
    obtain ⟨-, -, -, hq, hw, -⟩ := s.resume_driver receive
    exact ⟨ha, hc, hr, hq, hw⟩
  | shutdown => exact ⟨nofun, rfl, rfl, rfl, rfl⟩
  | close kind => exact ⟨nofun, rfl, rfl, rfl, rfl⟩

/-! ## Where the write is after a step -/

theorem System.mem_messages_of_queue (hactor : s.actor ≠ .stopped) {command : RuntimeCommand}
    (hq : command ∈ s.queue) {message : Message} (hm : message ∈ command.messages i) :
    message ∈ s.messages i := by
  unfold System.messages
  rw [s.pendingCommands_eq hactor]
  exact List.mem_append_left _ (List.mem_append_left _ (List.mem_flatMap.mpr ⟨command, hq, hm⟩))

theorem RuntimeCommand.request_mem_messages (i : Nat) (request : Request) :
    Message.request ∈ (RuntimeCommand.request i request).messages i := by
  rw [show (RuntimeCommand.request i request).messages i = [.request] from Message.only_self _ i]
  exact List.mem_singleton_self _

/-- A write is carried out from the head of the queue. -/
theorem System.queue_of_wrote {answer : DriverAnswer} {bytes : List UInt8}
    (h : s.wrote answer = some (i, bytes)) :
    ∃ (receive : Receive) (queue : List RuntimeCommand), s.actor = receive.actor ∧
      s.queue = .request i (.write bytes) :: queue := by
  unfold System.wrote at h
  split at h
  · rename_i queue hs hq
    split_ifs at h
    obtain ⟨rfl, rfl⟩ := Prod.mk.inj (Option.some.inj h)
    exact ⟨.blocking, queue, hs, hq⟩
  · rename_i queue hs hq
    split_ifs at h
    obtain ⟨rfl, rfl⟩ := Prod.mk.inj (Option.some.inj h)
    exact ⟨.drain, queue, hs, hq⟩
  · cases h

theorem Receive.actor_ne_stopped (receive : Receive) : receive.actor ≠ .stopped := by
  cases receive <;> nofun

theorem System.request_of_wrote {answer : DriverAnswer} {bytes : List UInt8}
    (h : s.wrote answer = some (i, bytes)) : Message.request ∈ s.messages i := by
  obtain ⟨receive, queue, hs, hq⟩ := System.queue_of_wrote h
  exact System.mem_messages_of_queue (hs ▸ receive.actor_ne_stopped)
    (by rw [hq]; exact List.mem_cons_self) (RuntimeCommand.request_mem_messages _ _)

theorem Stands.of_awaitingAck {joined : Bool} {onClosed : Result} {messages : List Message}
    {φ : Phase} (h : Stands joined (.awaitingAck onClosed) messages φ) {message : Message}
    (hm : message ∈ messages) : message = .request ∨ message = .ack ∨ message = .result := by
  cases h <;> simp_all

theorem Stands.request_of_finished {joined : Bool} {result : Result} {messages : List Message}
    {φ : Phase} (h : Stands joined (.finished result) messages φ) : Message.request ∉ messages := by
  cases h <;> simp

/-- The actor holds nothing of a client that awaits an acknowledgement, but the acknowledgement. -/
theorem Related.actor_messages (h : Related s₀ s phase) {onClosed : Result}
    (hc : s.clients i = .awaitingAck onClosed)
    (hs : ∀ result outcome receive, s.actor ≠ .acking i result outcome receive) :
    s.actor.messages i = [] := by
  have hi := h.stands i
  rw [System.Stands, hc] at hi
  have hmem {message : Message} (hm : message ∈ s.actor.messages i) :
      message = .request ∨ message = .ack ∨ message = .result :=
    hi.of_awaitingAck (List.mem_append_left _ (List.mem_append_right _ hm))
  have hnot {message : Message} {client : Nat} (hne : ¬ (message = .request ∨ message = .ack ∨
      message = .result)) (hm : s.actor.messages i = message.only client i) :
      s.actor.messages i = [] := by
    by_cases hi : i = client
    · refine absurd (hmem ?_) hne
      rw [hm, hi, Message.only_self]
      exact List.mem_singleton_self _
    · rw [hm, Message.only_other hi]
  cases hactor : s.actor with
  | granting ownerId prefetched receive =>
    rw [← hactor]
    exact @hnot (.grant prefetched) _ (by simp) (by rw [hactor]; rfl)
  | rejecting ownerId kind receive =>
    rw [← hactor]
    exact @hnot .refuse _ (by simp) (by rw [hactor]; rfl)
  | returnClearing ownerId receive =>
    rw [← hactor]
    exact @hnot .restored _ (by simp) (by rw [hactor]; rfl)
  | acking client result outcome receive =>
    refine Message.only_other fun heq => ?_
    subst heq
    exact hs result outcome receive hactor
  | _ => rfl

theorem Related.single_message (h : Related s₀ s phase) (i : Nat) : (s.messages i).length ≤ 1 :=
  (h.stands i).length_le

theorem System.Settled.mono {result : Result} (h : s.Settled result)
    (hleft : s.actor.left = true → t.actor.left = true) : t.Settled result :=
  h.imp_right (Or.imp_right hleft)

/-- A step that leaves the client's command, its place with the actor and its reply alone. -/
theorem System.InFlight.frame (hf : s.InFlight i data done) (hc : t.clients i = s.clients i)
    (hleft : s.actor.left = true → t.actor.left = true)
    (hstopped : s.actor = .stopped ↔ t.actor = .stopped)
    (hacking : ∀ result outcome receive, s.actor = .acking i result outcome receive →
      t.actor = .acking i result outcome receive)
    (hqueue : .request i (.write data) ∈ s.queue → .request i (.write data) ∈ t.queue)
    (hreplies : s.clients i = .awaitingAck (.error .remoteClosed) → t.replies i = s.replies i) :
    t.InFlight i data done := by
  cases hf with
  | admitted hi => exact .admitted (hc.trans hi)
  | queued hi hactor hq => exact .queued (hc.trans hi) (fun h => hactor (hstopped.mpr h)) (hqueue hq)
  | acking hi hactor houtcome => exact .acking (hc.trans hi) (hacking _ _ _ hactor) houtcome
  | replied hi hr hsettled =>
    exact .replied (hc.trans hi) ((hreplies hi).trans hr) (hsettled.mono hleft)
  | lost hi hactor hr => exact .lost (hc.trans hi) (hstopped.mp hactor) ((hreplies hi).trans hr)
  | finished hi hsettled => exact .finished (hc.trans hi) (hsettled.mono hleft)

theorem Related.eq_of_mem_messages (h : Related s₀ s phase) {message message' : Message}
    (hm : message ∈ s.messages i) (hm' : message' ∈ s.messages i) : message = message' := by
  have hlength := h.single_message i
  match hmessages : s.messages i with
  | [] => rw [hmessages] at hm; cases hm
  | [only] =>
    rw [hmessages] at hm hm'
    exact (List.mem_singleton.mp hm).trans (List.mem_singleton.mp hm').symm
  | _ :: _ :: _ => rw [hmessages] at hlength; exact absurd hlength (by simp)

theorem System.mem_messages_of_reply {reply : Reply} (hr : s.replies i = some reply) :
    reply.message ∈ s.messages i := by
  refine List.mem_append_right _ ?_
  rw [hr]
  exact List.mem_singleton_self _

theorem System.mem_messages_of_acking {result : Result} {outcome : Outcome} {receive : Receive}
    (hs : s.actor = .acking i result outcome receive) : Message.ack ∈ s.messages i := by
  refine List.mem_append_left _ (List.mem_append_right _ ?_)
  rw [hs, show (Actor.acking i result outcome receive).messages i = [.ack] from
    Message.only_self _ i]
  exact List.mem_singleton_self _

/-- A request that is still on its way to the actor has not been carried out. -/
theorem Related.queued_of_request (h : Related s₀ s phase) (hf : s.InFlight i data done)
    (hm : Message.request ∈ s.messages i) :
    done = false ∧ s.clients i = .awaitingAck (.error .remoteClosed) ∧ s.actor ≠ .stopped ∧
      .request i (.write data) ∈ s.queue := by
  cases hf with
  | admitted hc =>
    rw [(h.quiet hc trivial).2.1] at hm
    cases hm
  | queued hc hactor hq => exact ⟨rfl, hc, hactor, hq⟩
  | acking _ hactor _ =>
    exact absurd (h.eq_of_mem_messages hm (System.mem_messages_of_acking hactor)) nofun
  | replied _ hr _ =>
    exact absurd (h.eq_of_mem_messages hm (System.mem_messages_of_reply hr)) nofun
  | lost _ hactor hr =>
    rw [s.messages_stopped hactor hr] at hm
    cases hm
  | finished hc _ =>
    have hi := h.stands i
    rw [System.Stands, hc] at hi
    exact absurd hm hi.request_of_finished

theorem Related.queue_tail (h : Related s₀ s phase) {bytes : List UInt8}
    {queue : List RuntimeCommand} (hactor : s.actor ≠ .stopped)
    (hq : s.queue = .request i (.write bytes) :: queue) (request : Request) :
    .request i request ∉ queue := by
  intro hmem
  have hlength := h.single_message i
  have htail : Message.request ∈ queue.flatMap (·.messages i) :=
    List.mem_flatMap.mpr ⟨_, hmem, RuntimeCommand.request_mem_messages i request⟩
  rw [System.messages, s.pendingCommands_eq hactor, hq, List.flatMap_cons,
    show (RuntimeCommand.request i (.write bytes)).messages i = [.request] from
      Message.only_self _ i] at hlength
  have := List.length_pos_of_mem htail
  simp only [List.length_append, List.length_singleton] at hlength
  omega

/-- A step of the actor carries the write out at most once. -/
theorem Related.inFlight_actor (h : Related s₀ s phase) (hf : s.InFlight i data done)
    {answer : DriverAnswer} (ht : s.actorStep answer = some t) :
    (s.wrote answer = some (i, data) ∧ done = false ∧ t.InFlight i data true) ∨
      (∀ bytes, s.wrote answer ≠ some (i, bytes)) ∧ t.InFlight i data done := by
  -- apart from a command taken out of the queue
  have hidle (hs : ∀ receive : Receive, s.actor = receive.actor → s.queue = [])
      (hframe : t.InFlight i data done) :
      (s.wrote answer = some (i, data) ∧ done = false ∧ t.InFlight i data true) ∨
        (∀ bytes, s.wrote answer ≠ some (i, bytes)) ∧ t.InFlight i data done := by
    refine .inr ⟨fun bytes hw => ?_, hframe⟩
    obtain ⟨receive, queue, hr, hq⟩ := System.queue_of_wrote hw
    rw [hs receive hr] at hq
    cases hq
  cases System.serves_of_actorStep ht with
  | takes receive command queue hs hq =>
    have hhandles := System.handleCommand_handles { s with queue } receive answer command
    have hloop : s.actor.left = false := by rw [hs]; exact receive.left_actor
    have hrunning : s.actor ≠ .stopped := hs ▸ receive.actor_ne_stopped
    by_cases hown : command = .request i (.write data)
    · -- the write itself is taken
      subst hown
      obtain ⟨hdone, hc, -, -⟩ := h.queued_of_request hf (System.mem_messages_of_queue hrunning
        (by rw [hq]; exact List.mem_cons_self) (RuntimeCommand.request_mem_messages _ _))
      obtain ⟨result, outcome, hactor, houtcome, hwrote, -⟩ := h.handleWrite hq hs answer
      have hacking := @System.InFlight.acking _ _ data _ _ _
          ((congrFun hhandles.clients i).trans hc) hactor houtcome
      rw [hwrote]
      cases hok : result.isOk with
      | true => exact .inl ⟨rfl, hdone, hok ▸ hacking⟩
      | false => exact .inr ⟨nofun, hdone ▸ hok ▸ hacking⟩
    · have hwrote (bytes : List UInt8) : s.wrote answer ≠ some (i, bytes) := by
        intro hw
        obtain ⟨-, -, -, hmem⟩ := h.queued_of_request hf (System.request_of_wrote hw)
        obtain ⟨-, queue', -, hq'⟩ := System.queue_of_wrote hw
        rw [hq'] at hmem
        refine (List.mem_cons.mp hmem).elim (fun heq => hown ?_) (h.queue_tail hrunning hq' _)
        rw [hq, List.cons.injEq] at hq'
        exact hq'.1.trans heq.symm
      refine .inr ⟨hwrote, hf.frame (congrFun hhandles.clients i) (by rw [hloop]; nofun)
        (iff_of_false hrunning hhandles.actor) (fun _ _ _ hacking => ?_) (fun hmem => ?_)
        fun _ => congrFun hhandles.replies i⟩
      · rw [hs] at hacking
        cases receive <;> cases hacking
      · rw [hhandles.queue]
        rw [hq] at hmem
        exact (List.mem_cons.mp hmem).resolve_left fun heq => hown heq.symm
  | acknowledges client result outcome receive hs =>
    obtain ⟨hactor, hclients, hreplies, hqueue, -⟩ :=
      (s.reply client (.result result)).applyCommandOutcome_frame receive outcome
    have hrunning : s.actor ≠ .stopped := by rw [hs]; nofun
    refine hidle (fun receive' hr => by rw [hs] at hr; cases receive' <;> cases hr) ?_
    by_cases hi : client = i
    · subst hi
      have hc := congrFun hclients client
      cases hf with
      | admitted hadmitted => exact .admitted (hc.trans hadmitted)
      | queued hawaiting _ hq => exact .queued (hc.trans hawaiting) hactor (hqueue ▸ hq)
      | acking hawaiting hacking houtcome =>
        obtain ⟨-, rfl, rfl, -⟩ := Actor.acking.inj (hacking.symm.trans hs)
        refine .replied (hc.trans hawaiting) ?_ (houtcome.imp_right (Or.imp_right ?_))
        · rw [hreplies]
          exact Function.update_self _ _ _
        · rintro ⟨kind, rfl⟩
          rfl
      | replied _ hr _ =>
        exact absurd (h.eq_of_mem_messages (System.mem_messages_of_acking hs)
          (System.mem_messages_of_reply hr)) nofun
      | lost _ hstopped _ => exact absurd hstopped hrunning
      | finished hfinished hsettled =>
        refine .finished (hc.trans hfinished) (hsettled.mono fun hleft => ?_)
        rw [hs] at hleft
        cases hleft
    · refine hf.frame (congrFun hclients i) (by rw [hs]; nofun) (iff_of_false hrunning hactor)
        (fun result' outcome' receive' hacking => ?_) (fun hmem => hqueue ▸ hmem) fun _ => ?_
      · rw [hs] at hacking
        cases hacking
        exact absurd rfl hi
      · rw [hreplies]
        exact Function.update_of_ne (Ne.symm hi) _ _
  | drops hs hactor hclients hreplies _ =>
    refine hidle (fun receive' hr => by rw [hs] at hr; cases receive' <;> cases hr) ?_
    have hc := congrFun hclients i
    have hleft : s.actor.left = true → t.actor.left = true := fun _ => by rw [hactor]; rfl
    cases hf with
    | admitted hadmitted => exact .admitted (hc.trans hadmitted)
    | queued hawaiting hrunning hq =>
      refine .lost (hc.trans hawaiting) hactor ?_
      rw [hreplies]
      cases hr : s.replies i with
      | none => rfl
      | some reply =>
        have hrequest := System.mem_messages_of_queue hrunning hq
          (RuntimeCommand.request_mem_messages i (.write data))
        have heq := h.eq_of_mem_messages hrequest (System.mem_messages_of_reply hr)
        cases reply <;> cases heq
    | acking _ hacking _ => rw [hs] at hacking; cases hacking
    | replied hawaiting hr hsettled =>
      exact .replied (hc.trans hawaiting) ((congrFun hreplies i).trans hr) (hsettled.mono hleft)
    | lost _ hstopped _ => rw [hs] at hstopped; cases hstopped
    | finished hfinished hsettled => exact .finished (hc.trans hfinished) (hsettled.mono hleft)
  | passes hacking htakes hstopped hleft hactor hclients hqueue hreplies _ =>
    exact hidle htakes (hf.frame (congrFun hclients i) hleft (iff_of_false hstopped hactor)
      (fun result outcome receive hs => absurd hs (hacking i result outcome receive))
      (fun hmem => hqueue ▸ hmem)
      fun hc => hreplies i (h.actor_messages hc fun result outcome receive =>
        hacking i result outcome receive))

theorem System.actorStep_clients {answer : DriverAnswer} (ht : s.actorStep answer = some t) :
    t.clients = s.clients := by
  cases System.serves_of_actorStep ht with
  | takes receive command queue hs hq =>
    exact (System.handleCommand_handles { s with queue } receive answer command).clients
  | acknowledges client result outcome receive hs =>
    exact ((s.reply client (.result result)).applyCommandOutcome_frame receive outcome).2.1
  | drops _ _ hclients _ _ => exact hclients
  | passes _ _ _ _ _ hclients _ _ _ => exact hclients

/-- Nothing leads back into the loop. -/
theorem System.actorStep_left {answer : DriverAnswer} (ht : s.actorStep answer = some t)
    (hleft : s.actor.left = true) : t.actor.left = true := by
  cases System.serves_of_actorStep ht with
  | takes receive command queue hs hq =>
    rw [hs, receive.left_actor] at hleft
    cases hleft
  | acknowledges client result outcome receive hs => rw [hs] at hleft; cases hleft
  | drops _ hactor _ _ _ => rw [hactor]; rfl
  | passes _ _ _ hkeeps _ _ _ _ _ => exact hkeeps hleft

/-! ## The clients' steps -/

theorem System.sendCommand_others {command : RuntimeCommand} {onClosed : System} {client : Client}
    (h : s.sendCommand command onClosed (·.setClient j client) = some t) (hi : i ≠ j)
    (hclosed : onClosed.clients i = s.clients i ∧ onClosed.replies i = s.replies i) :
    t.clients i = s.clients i ∧ t.replies i = s.replies i := by
  rcases System.sendCommand_some h with ⟨-, rfl⟩ | ⟨-, rfl⟩
  · exact hclosed
  · exact ⟨System.setClient_clients_other _ client hi, rfl⟩

theorem System.clientStep_others {action : ClientAction} (ht : s.clientStep j action = some t)
    (hi : i ≠ j) : t.clients i = s.clients i ∧ t.replies i = s.replies i := by
  have hset (client : Client) : (s.setClient j client).clients i = s.clients i ∧
      (s.setClient j client).replies i = s.replies i := ⟨s.setClient_clients_other client hi, rfl⟩
  have hsend {t : System} (ht : s.sendStep j = some t) :
      t.clients i = s.clients i ∧ t.replies i = s.replies i := by
    unfold System.sendStep at ht
    split at ht
    · exact System.sendCommand_others ht hi (hset _)
    · exact System.sendCommand_others ht hi (hset _)
    · cases ht
  unfold System.clientStep at ht
  split at ht
  · split_ifs at ht
    · exact Option.some.inj ht ▸ hset _
    · exact Option.some.inj ht ▸ hset _
  · split at ht <;> exact Option.some.inj ht ▸ hset _
  · exact System.sendCommand_others ht hi (hset _)
  · unfold System.subscribeStep at ht
    split_ifs at ht
    · exact Option.some.inj ht ▸ hset _
    · rcases System.sendCommand_some ht with ⟨-, rfl⟩ | ⟨-, rfl⟩
      · exact hset _
      · exact hset _
  · exact hsend ht
  · unfold System.trySendStep at ht
    split at ht
    · split_ifs at ht
      · exact hsend ht
      · exact Option.some.inj ht ▸ hset _
    · cases ht
  · unfold System.receiveStep at ht
    dsimp only at ht
    split at ht <;> first
      | cases ht; done
      | (obtain rfl := Option.some.inj ht
         exact ⟨System.setClient_clients_other _ _ hi,
           by first | rfl | exact Function.update_of_ne hi _ _⟩)
  · exact Option.some.inj ht ▸ hset _
  · unfold System.readStep at ht
    split at ht
    · split_ifs at ht
      · exact Option.some.inj ht ▸ ⟨rfl, rfl⟩
      · exact Option.some.inj ht ▸ hset _
      · split at ht
        · split_ifs at ht
          exact Option.some.inj ht ▸ ⟨rfl, rfl⟩
        · cases ht
        · exact Option.some.inj ht ▸ ⟨rfl, rfl⟩
    · cases ht
  · unfold System.releaseStep at ht
    split at ht
    · exact System.sendCommand_others ht hi (hset _)
    · cases ht
  · unfold System.consumeStep at ht
    dsimp only at ht
    split_ifs at ht
    exact Option.some.inj ht ▸ ⟨rfl, rfl⟩
  · exact Option.some.inj ht ▸ hset _
  · cases ht

/-- Nobody else's step moves the write. -/
theorem Related.inFlight_other (h : Related s₀ s phase) (hf : s.InFlight i data done)
    {action : ClientAction} (ht : s.clientStep j action = some t) (hi : i ≠ j) :
    t.InFlight i data done := by
  have hleaves := h.clientStep_leaves ht
  obtain ⟨hclients, hreplies⟩ := System.clientStep_others ht hi
  obtain ⟨commands, hqueue⟩ := hleaves.queue
  refine hf.frame hclients (fun hleft => hleaves.actor ▸ hleft) (by rw [hleaves.actor])
    (fun _ _ _ hacking => hleaves.actor.trans hacking) (fun hmem => ?_) fun _ => hreplies
  rw [hqueue]
  exact List.mem_append_left _ hmem

/-- A call to `write` starts a write, unless the flag refuses it. -/
theorem System.inFlight_call (hc : s.clients i = .idle)
    (ht : s.clientStep i (.request (.write data)) = some t) : t.InFlight i data false := by
  unfold System.clientStep at ht
  rw [hc] at ht
  simp only [System.admission] at ht
  split at ht
  · obtain rfl := Option.some.inj ht
    exact .admitted (s.setClient_clients_self i _)
  · rename_i kind hadmission
    split_ifs at hadmission
    obtain rfl := Except.error.inj hadmission
    obtain rfl := Option.some.inj ht
    exact @.finished _ _ _ (.error .busy) (s.setClient_clients_self i _) (.inr (.inl rfl))

/-- The blocking send into the queue. -/
theorem System.inFlight_send (hf : s.InFlight i data done) (ht : s.clientStep i .send = some t) :
    t.InFlight i data done := by
  have hno (hc : ∀ request, s.clients i ≠ .admitted request) (hc' : s.clients i ≠ .swapped) :
      False := by
    unfold System.clientStep System.sendStep at ht
    dsimp only at ht
    split at ht
    · rename_i hs; exact hc' hs
    · rename_i request hs; exact hc request hs
    · cases ht
  cases hf with
  | admitted hc =>
    unfold System.clientStep System.sendStep at ht
    simp only [hc] at ht
    rcases System.sendCommand_some ht with ⟨hstopped, rfl⟩ | ⟨hrunning, rfl⟩
    · refine @.finished _ _ _ (.error .remoteClosed) (s.setClient_clients_self i _) (.inr (.inr ?_))
      show s.actor.left = true
      rw [hstopped]
      rfl
    · exact .queued (System.setClient_clients_self _ i _) hrunning
        (List.mem_append_right _ (List.mem_singleton_self _))
  | queued hc _ _ => exact (hno (by rw [hc]; nofun) (by rw [hc]; nofun)).elim
  | acking hc _ _ => exact (hno (by rw [hc]; nofun) (by rw [hc]; nofun)).elim
  | replied hc _ _ => exact (hno (by rw [hc]; nofun) (by rw [hc]; nofun)).elim
  | lost hc _ _ => exact (hno (by rw [hc]; nofun) (by rw [hc]; nofun)).elim
  | finished hc _ => exact (hno (by rw [hc]; nofun) (by rw [hc]; nofun)).elim

/-- The blocking receive of the result. -/
theorem Related.inFlight_receive (h : Related s₀ s phase) (hf : s.InFlight i data done)
    (ht : s.clientStep i .receive = some t) : t.InFlight i data done := by
  unfold System.clientStep System.receiveStep at ht
  dsimp only at ht
  -- before the reply is there, the receive waits
  have hwaits (hc : s.clients i = .awaitingAck (.error .remoteClosed)) (hactor : s.actor ≠ .stopped)
      {message : Message} (hm : message ∈ s.messages i) (hne : message ≠ .result) : False := by
    rw [hc] at ht
    cases hr : s.replies i with
    | some reply =>
      have heq := h.eq_of_mem_messages (System.mem_messages_of_reply hr) hm
      cases reply with
      | lease prefetched => rw [hr] at ht; cases ht
      | result result => exact hne heq.symm
    | none =>
      rw [hr] at ht
      split at ht <;> simp_all
  cases hf with
  | admitted hc => rw [hc] at ht; cases ht
  | queued hc hactor hq =>
    exact (hwaits hc hactor (System.mem_messages_of_queue hactor hq
      (RuntimeCommand.request_mem_messages i _)) nofun).elim
  | acking hc hacking _ =>
    exact (hwaits hc (by rw [hacking]; nofun) (System.mem_messages_of_acking hacking) nofun).elim
  | replied hc hr hsettled =>
    rw [hc, hr] at ht
    obtain rfl := Option.some.inj ht
    exact .finished (System.setClient_clients_self _ i _) hsettled
  | lost hc hactor hr =>
    rw [hc, hr, hactor] at ht
    obtain rfl := Option.some.inj ht
    refine @.finished _ _ _ (.error .remoteClosed) (System.setClient_clients_self s i _)
        (.inr (.inr ?_))
    show s.actor.left = true
    rw [hactor]
    rfl
  | finished hc _ => rw [hc] at ht; cases ht

/-- A call that is over. -/
theorem System.InFlight.of_finished (hf : s.InFlight i data done) {result : Result}
    (hc : s.clients i = .finished result) : done = result.isOk ∧ s.Settled result := by
  cases hf with
  | finished hc' hsettled =>
    obtain rfl := Client.finished.inj (hc'.symm.trans hc)
    exact ⟨rfl, hsettled⟩
  | admitted hc' => rw [hc] at hc'; cases hc'
  | queued hc' _ _ => rw [hc] at hc'; cases hc'
  | acking hc' _ _ => rw [hc] at hc'; cases hc'
  | replied hc' _ _ => rw [hc] at hc'; cases hc'
  | lost hc' _ _ => rw [hc] at hc'; cases hc'

theorem System.clientStep_finished {result : Result} (hc : s.clients i = .finished result)
    (action : ClientAction) : s.clientStep i action = none := by
  cases action <;>
    simp [System.clientStep, System.sendStep, System.trySendStep, System.receiveStep,
      System.readStep, System.releaseStep, hc]

theorem Related.not_wrote_of_finished (h : Related s₀ s phase) {result : Result}
    (hc : s.clients i = .finished result) {answer : DriverAnswer} (bytes : List UInt8) :
    s.wrote answer ≠ some (i, bytes) := by
  intro hw
  have hi := h.stands i
  rw [System.Stands, hc] at hi
  exact hi.request_of_finished (System.request_of_wrote hw)

end TauTerm.Transport
