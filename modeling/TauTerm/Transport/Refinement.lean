import Mathlib
import TauTerm.Transport.Runtime
import TauTerm.Transport.Ownership

/-!
# The runtime follows the ownership protocol

Between a client and the actor at most one message is on its way, and it fits what
the client waits for (`Stands`). From where the two stand follows the client's
phase in the ownership protocol. `Related` ties a state of the runtime to one of the
protocol, `Follows` says that a step of the one is a step of the other.
-/

namespace TauTerm.Transport

open Protocol (Step Label Owned)

/-! ## Messages -/

/-- What is on its way between a client and the actor: in the queue, in the hands
of the actor, or in the one-shot channel of the reply. -/
inductive Message where
  | request
  | acquire
  | giveBack (bytes : List UInt8)
  | subscribe
  | grant (bytes : List UInt8)
  | refuse
  | restored
  | ack
  | lease (bytes : List UInt8)
  | result
  deriving DecidableEq

/-- The message, if it concerns client `i`. -/
def Message.only (message : Message) (client i : Nat) : List Message :=
  if client = i then [message] else []

def RuntimeCommand.messages (i : Nat) : RuntimeCommand → List Message
  | .request client _ => Message.request.only client i
  | .subscribe id _ => Message.subscribe.only id i
  | .unsubscribe _ => []
  | .acquireExclusive ownerId => Message.acquire.only ownerId i
  | .returnExclusive ownerId prefetched => (Message.giveBack prefetched).only ownerId i
  | .shutdown client => Message.request.only client i

def Actor.messages (i : Nat) : Actor → List Message
  | .granting ownerId prefetched _ => (Message.grant prefetched).only ownerId i
  | .rejecting ownerId _ _ => Message.refuse.only ownerId i
  | .returnClearing ownerId _ => Message.restored.only ownerId i
  | .acking client _ _ _ => Message.ack.only client i
  | _ => []

def Reply.message : Reply → Message
  | .lease prefetched => .lease prefetched
  | .result _ => .result

/-- The commands that the actor may still see. -/
def System.pendingCommands (s : System) : List RuntimeCommand :=
  match s.actor with
  | .stopped => []
  | _ => s.queue

def System.messages (s : System) (i : Nat) : List Message :=
  s.pendingCommands.flatMap (·.messages i) ++ s.actor.messages i ++
    ((s.replies i).map Reply.message).toList

@[simp] theorem Message.only_self (message : Message) (i : Nat) :
    message.only i i = [message] := by simp [Message.only]

theorem Message.only_other {message : Message} {client i : Nat} (h : i ≠ client) :
    message.only client i = [] := by simp [Message.only, h.symm]

theorem System.pendingCommands_eq {s : System} (h : s.actor ≠ .stopped) :
    s.pendingCommands = s.queue := by
  unfold System.pendingCommands
  split
  · contradiction
  · rfl

/-! ## Where a client stands -/

/-- A client, the messages on their way to or from it, whether it is among the
subscribers, and its phase. The entries without a message where one is awaited are
those of a runtime that stopped. -/
inductive Stands : Bool → Client → List Message → Phase → Prop
  | idle : Stands false .idle [] .outside
  | swapped : Stands false .swapped [] .announced
  | acquire : Stands false .awaitingLease [.acquire] .requested
  | grant (bytes) : Stands false .awaitingLease [.grant bytes] (.granted bytes)
  | lease (bytes) : Stands false .awaitingLease [.lease bytes] (.granted bytes)
  | refuse : Stands false .awaitingLease [.refuse] .outside
  | refused : Stands false .awaitingLease [.result] .outside
  | acquireLost : Stands false .awaitingLease [] .requested
  | leased (bytes) : Stands false (.leased bytes) [] (.leased bytes)
  | giveBack (bytes) : Stands false .awaitingReturn [.giveBack bytes] (.returned bytes)
  | restored : Stands false .awaitingReturn [.restored] .restored
  | returnAck : Stands false .awaitingReturn [.ack] .outside
  | returned : Stands false .awaitingReturn [.result] .outside
  | returnLost : Stands false .awaitingReturn [] .outside
  | clearing (result) : Stands false (.clearing result) [] .outside
  | admitted (request) : Stands false (.admitted request) [] .outside
  | request (onClosed) : Stands false (.awaitingAck onClosed) [.request] .outside
  | requestAck (onClosed) : Stands false (.awaitingAck onClosed) [.ack] .outside
  | answered (onClosed) : Stands false (.awaitingAck onClosed) [.result] .outside
  | requestLost (onClosed) : Stands false (.awaitingAck onClosed) [] .outside
  | subscribe : Stands false .subscribed [.subscribe] .outside
  | subscribed (joined) : Stands joined .subscribed [] .outside
  | unsubscribed (result) : Stands false (.finished result) [.subscribe] .outside
  | finished (joined result) : Stands joined (.finished result) [] .outside

/-- A client with nothing on its way. -/
def Client.Quiet : Client → Prop
  | .idle => True
  | .swapped => True
  | .leased _ => True
  | .clearing _ => True
  | .admitted _ => True
  | _ => False

def Client.phase : Client → Phase
  | .swapped => .announced
  | .leased bytes => .leased bytes
  | _ => .outside

namespace Stands

variable {joined : Bool} {client : Client} {messages : List Message} {message : Message}
  {phase : Phase}

theorem quiet (h : Stands joined client messages phase) (hq : client.Quiet) :
    joined = false ∧ messages = [] ∧ phase = client.phase := by
  cases h <;> first
    | exact ⟨rfl, rfl, rfl⟩
    | exact hq.elim

/-- One message at most. -/
theorem single (h : Stands joined client (message :: messages) phase) : messages = [] := by
  cases h <;> rfl

/-- The actor drops a subscriber. -/
theorem leave (h : Stands joined client messages phase) : Stands false client messages phase := by
  cases h <;> constructor

theorem length_le (h : Stands joined client messages phase) : messages.length ≤ 1 := by
  cases h <;> simp

theorem of_lease {bytes : List UInt8} (h : Stands joined .awaitingLease [.lease bytes] phase) :
    joined = false ∧ phase = .granted bytes := by
  cases h; exact ⟨rfl, rfl⟩

theorem of_result (h : Stands joined client [.result] phase) :
    joined = false ∧ phase = .outside := by
  cases h <;> exact ⟨rfl, rfl⟩

theorem of_lost {client : Client} (h : Stands joined client [] phase) :
    (client = .awaitingLease → joined = false ∧ phase = .requested) ∧
      (client = .awaitingReturn → joined = false ∧ phase = .outside) ∧
      ∀ onClosed, client = .awaitingAck onClosed → joined = false ∧ phase = .outside := by
  cases h <;> simp

/-- The receiver of a subscription goes. -/
theorem drop (h : Stands joined .subscribed messages phase) (result : Result) :
    Stands joined (.finished result) messages phase := by
  cases h <;> constructor

/-- Once nobody holds the driver, the queue may go. -/
theorem abandon (h : Stands joined client (message :: messages) phase) (hheld : phase.held = none)
    (hlocal : message = .acquire ∨ message = .request ∨ message = .subscribe ∨
      ∃ bytes, message = .giveBack bytes) : Stands joined client [] phase := by
  cases h <;> first
    | (simp at hlocal; done)
    | (simp [Phase.held] at hheld; done)
    | constructor

end Stands

def System.Stands (s : System) (i : Nat) (phase : Phase) : Prop :=
  Transport.Stands (decide (i ∈ s.state.subscribers)) (s.clients i) (s.messages i) phase

variable {s s' : System} {i j : Nat}

/-- A step that leaves a client alone. -/
theorem System.Stands.frame {φ : Phase} (h : s.Stands j φ)
    (hsub : j ∈ s'.state.subscribers → j ∈ s.state.subscribers)
    (hclient : s'.clients j = s.clients j) (hmessages : s'.messages j = s.messages j) :
    s'.Stands j φ := by
  unfold System.Stands at *
  rw [hclient, hmessages]
  by_cases hj : j ∈ s'.state.subscribers
  · rwa [decide_eq_true hj, ← decide_eq_true (hsub hj)]
  · rw [decide_eq_false hj]
    exact h.leave

/-! ## The state of the protocol -/

/-- The data of a driver read that the actor has not put anywhere yet. -/
def Actor.inHand : Actor → List UInt8
  | .gotData data => data
  | _ => []

def Actor.rejects : Actor → Bool
  | .rejecting .. => true
  | .rejectClearing _ => true
  | _ => false

/-- The actor has not yet cleared the flag for good. -/
def Actor.running : Actor → Bool
  | .shuttingDown => false
  | .guarding => false
  | .dropping => false
  | .stopped => false
  | _ => true

/-- The bytes of a delivery to subscriber `s₀` or to a lease. -/
def deliveryTo (s₀ : Nat) : Receiver × List UInt8 → List UInt8
  | (.subscriber id, bytes) => if id = s₀ then bytes else []
  | (.lease _, bytes) => bytes

/-- What subscriber `s₀` and the leases got, taken together. -/
def System.deliveredTo (s : System) (s₀ : Nat) : List UInt8 :=
  s.delivered.flatMap (deliveryTo s₀)

def System.protocol (s₀ : Nat) (s : System) (phase : Nat → Phase) : Protocol where
  phase
  exclusive := s.state.exclusive
  driver := s.driver
  flag := s.exclusiveActive
  rejecting := s.actor.rejects
  running := s.actor.running
  buffered := s.state.unconsumedBytes ++ s.actor.inHand
  reads := s.reads
  delivered := s.deliveredTo s₀

/-- In the drain loop the handoff buffer has been published. -/
def Receive.Ok (receive : Receive) (state : RuntimeLoopState) : Prop :=
  receive = .drain → state.handoffBuffer = []

/-- What the actor's position tells about its state. -/
def Actor.Ok (state : RuntimeLoopState) : Actor → Prop
  | .top => True
  | .waiting => True
  | .draining => state.exclusive = none ∧ state.handoffBuffer = []
  | .drained => state.handoffBuffer = []
  | .reading => state.exclusive = none ∧ state.handoffBuffer = []
  | .gotData _ => state.exclusive = none ∧ state.handoffBuffer = []
  | .granting _ _ receive => receive.Ok state
  | .rejecting _ _ receive => receive.Ok state
  | .rejectClearing receive => receive.Ok state
  | .returnClearing _ receive => receive.Ok state ∧ state.exclusive = none
  | .acking _ _ outcome receive =>
    receive.Ok state ∧ (outcome ≠ .continue → state.exclusive = none)
  | .closing => state.exclusive = none
  | .shuttingDown => state.exclusive = none
  | .guarding => state.exclusive = none
  | .dropping => state.exclusive = none
  | .stopped => state.exclusive = none

structure Related (s₀ : Nat) (s : System) (phase : Nat → Phase) : Prop where
  stands : ∀ i, s.Stands i (phase i)
  owned : (s.protocol s₀ phase).Owned
  nodup : s.state.subscribers.Nodup
  /-- Bytes are kept for the first subscriber, and for no later one. -/
  startup : s.state.subscribers = [] ∨ s.state.startupBuffer = []
  actor : s.actor.Ok s.state

/-- A step of the runtime as a step of the protocol. -/
def Follows (s₀ : Nat) (s : System) (phase : Nat → Phase) (clears : Prop) (s' : System) : Prop :=
  ∃ l phase', Step (s.protocol s₀ phase) l (s'.protocol s₀ phase') ∧ Related s₀ s' phase' ∧
    (l = .clear → clears) ∧
    (l = .lose → s₀ ∉ s.state.subscribers ∨ s₀ ∉ s'.state.subscribers)

theorem related_spawn (s₀ : Nat) (terminalControl : Bool) :
    Related s₀ (System.spawn terminalControl) fun _ => .outside where
  stands _ := Stands.idle
  owned :=
    { held := fun _ _ h => nomatch h
      owner := fun _ h => nomatch h
      driver := fun _ => rfl }
  nodup := List.nodup_nil
  startup := .inl rfl
  actor := trivial

/-! ## Following -/

section Follow

variable {s₀ : Nat} {clears : Prop} {phase : Nat → Phase}

/-- A step that moves the phase of client `i`, at most. -/
theorem Related.follow (h : Related s₀ s phase) {l : Label} {φ : Phase}
    (hstep : Step (s.protocol s₀ phase) l (s'.protocol s₀ (Function.update phase i φ)))
    (hi : s'.Stands i φ) (hothers : ∀ j, j ≠ i → s.Stands j (phase j) → s'.Stands j (phase j))
    (hnodup : s'.state.subscribers.Nodup)
    (hstartup : s'.state.subscribers = [] ∨ s'.state.startupBuffer = [])
    (hactor : s'.actor.Ok s'.state) (hclear : l = .clear → clears)
    (hlose : l = .lose → s₀ ∉ s.state.subscribers ∨ s₀ ∉ s'.state.subscribers) :
    Follows s₀ s phase clears s' := by
  refine ⟨l, _, hstep, ⟨fun j => ?_, h.owned.step hstep, hnodup, hstartup, hactor⟩, hclear, hlose⟩
  rw [Function.update_apply]
  split_ifs with hji
  · rw [hji]; exact hi
  · exact hothers j hji (h.stands j)

/-- A step of client `i`, which leaves the actor and its state alone. -/
theorem Related.client (h : Related s₀ s phase) {φ : Phase}
    (hstep : Step (s.protocol s₀ phase) .plain (s'.protocol s₀ (Function.update phase i φ)))
    (hi : Stands (decide (i ∈ s.state.subscribers)) (s'.clients i) (s'.messages i) φ)
    (hothers : ∀ j, j ≠ i → s'.clients j = s.clients j ∧ s'.messages j = s.messages j)
    (hstate : s'.state = s.state) (hactor : s'.actor = s.actor) :
    Follows s₀ s phase clears s' := by
  refine h.follow hstep ?_ (fun j hj hs => ?_) (hstate ▸ h.nodup) (hstate ▸ h.startup)
    (hstate ▸ hactor ▸ h.actor) nofun nofun
  · rw [System.Stands, hstate]; exact hi
  · exact hs.frame (by rw [hstate]; exact id) (hothers j hj).1 (hothers j hj).2

/-- The same, where the protocol does not move. -/
theorem Related.clientStays (h : Related s₀ s phase)
    (hsame : s'.protocol s₀ phase = s.protocol s₀ phase)
    (hi : Stands (decide (i ∈ s.state.subscribers)) (s'.clients i) (s'.messages i) (phase i))
    (hothers : ∀ j, j ≠ i → s'.clients j = s.clients j ∧ s'.messages j = s.messages j)
    (hstate : s'.state = s.state) (hactor : s'.actor = s.actor) :
    Follows s₀ s phase clears s' := by
  refine h.client (φ := phase i) ?_ hi hothers hstate hactor
  rw [Function.update_eq_self, hsame]
  exact .stay

end Follow

end TauTerm.Transport
