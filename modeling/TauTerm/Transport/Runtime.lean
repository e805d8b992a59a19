import Mathlib
import TauTerm.Lib.Run

/-!
# The data plane runtime

`transport/runtime.rs` as a machine: the actor thread of `run_blocking_runtime`,
its command queue, the shared flag `exclusive_active`, and the clients that call
a `DataPlaneHandle`. An action is one atomic operation on the flag, one send, one
receive or one driver call, together with the local computation behind it.

A client is one call and what it returns: an `acquire_exclusive` with its lease, a
`subscribe` with its subscription, one write, resize or shutdown. It is named by
the id the call draws; a thread that makes several calls is several clients.

`reads`, `written`, `shutdowns` and `delivered` record what happened at the
driver and at the consumers. No step depends on them.
-/

namespace TauTerm.Transport

def COMMAND_CAPACITY : Nat := 256

def READ_BUFFER_SIZE : Nat := 16 * 1024

def STARTUP_BUFFER_LIMIT : Nat := 64 * 1024

inductive TransportErrorKind where
  | resolve | connect | bind | timeout | permissionDenied | deviceNotFound | deviceBusy
  | remoteClosed | connectionReset | cancelled | busy | unsupported | invalidConfiguration | io
  deriving DecidableEq

abbrev Result := Except TransportErrorKind Unit

inductive DataPlaneEvent where
  | data (bytes : List UInt8)
  | closed (kind : TransportErrorKind)
  deriving DecidableEq

inductive DataPlaneSubscriptionEnd where
  | backlogExceeded (capacityMessages : Nat)
  | runtimeStopped
  deriving DecidableEq

/-- The bounded channel of a subscription: everything ever sent into it, and how
much of that its receiver has taken out. -/
structure Subscription where
  capacityMessages : Nat := 0
  sent : List DataPlaneEvent := []
  received : Nat := 0
  dropped : Bool := false
  disconnectReason : Option DataPlaneSubscriptionEnd := none

/-- A write or a resize, which the flag admits or refuses. -/
inductive Request where
  | write (data : List UInt8)
  | resizeTerminal
  deriving DecidableEq

inductive RuntimeCommand where
  | request (client : Nat) (request : Request)
  | subscribe (id capacityMessages : Nat)
  | unsubscribe (id : Nat)
  | acquireExclusive (ownerId : Nat)
  | returnExclusive (ownerId : Nat) (prefetched : List UInt8)
  | shutdown (client : Nat)
  deriving DecidableEq

/-- What the actor sends back on the one-shot channel of a command. -/
inductive Reply where
  | lease (prefetched : List UInt8)
  | result (result : Result)

/-- Where a client stands between two of its atomic steps. -/
inductive Client where
  | idle
  | swapped
  | awaitingLease
  | leased (prefetched : List UInt8)
  | awaitingReturn
  | clearing (result : Result)
  | admitted (request : Request)
  | awaitingAck (onClosed : Result)
  | subscribed
  | finished (result : Result)

structure RuntimeLoopState where
  subscribers : List Nat := []
  startupBuffer : List (List UInt8) := []
  startupBufferBytes : Nat := 0
  /-- Bytes read while an acquisition was requested but not yet processed. -/
  handoffBuffer : List UInt8 := []
  exclusive : Option Nat := none
  shutdownPending : Bool := false

/-- `CommandOutcome`. -/
inductive Outcome where
  | continue
  | shutdown
  | close (kind : TransportErrorKind)
  deriving DecidableEq

/-- The receive that a command came from. -/
inductive Receive where
  | blocking
  | drain
  deriving DecidableEq

/-- Where the actor stands. The states from `granting` to `acking` are inside
`handle_command`, those from `closing` on behind the loop. -/
inductive Actor where
  | top
  | waiting
  | draining
  | drained
  | reading
  | gotData (data : List UInt8)
  | granting (ownerId : Nat) (prefetched : List UInt8) (receive : Receive)
  | rejecting (ownerId : Nat) (kind : TransportErrorKind) (receive : Receive)
  | rejectClearing (receive : Receive)
  | returnClearing (ownerId : Nat) (receive : Receive)
  | acking (client : Nat) (result : Result) (outcome : Outcome) (receive : Receive)
  | closing
  | shuttingDown
  | guarding
  | dropping
  | stopped

inductive Receiver where
  | subscriber (id : Nat)
  | lease (ownerId : Nat)
  deriving DecidableEq

structure System where
  actor : Actor
  state : RuntimeLoopState
  /-- The actor's `Option` of the driver. -/
  driver : Bool
  driverShutdown : Bool
  exclusiveActive : Bool
  queue : List RuntimeCommand
  replies : Nat → Option Reply
  clients : Nat → Client
  subscriptions : Nat → Subscription
  terminalControl : Bool
  reads : List UInt8
  written : List UInt8
  shutdowns : Nat
  delivered : List (Receiver × List UInt8)

/-- `DataPlaneRuntime::spawn`. -/
def System.spawn (terminalControl : Bool) : System where
  actor := .top
  state := {}
  driver := true
  driverShutdown := false
  exclusiveActive := false
  queue := []
  replies := fun _ => none
  clients := fun _ => .idle
  subscriptions := fun _ => {}
  terminalControl
  reads := []
  written := []
  shutdowns := 0
  delivered := []

/-! ## Subscriptions -/

inductive TrySend where
  | ok (subscription : Subscription)
  | full
  | disconnected

def Subscription.trySend (subscription : Subscription) (event : DataPlaneEvent) : TrySend :=
  if subscription.dropped then .disconnected
  else if subscription.sent.length - subscription.received ≥ subscription.capacityMessages then .full
  else .ok { subscription with sent := subscription.sent ++ [event] }

/-- `set_subscription_end`: the first reason stays. -/
def Subscription.setEnd (reason : DataPlaneSubscriptionEnd) (subscription : Subscription) :
    Subscription :=
  { subscription with disconnectReason := subscription.disconnectReason.or (some reason) }

/-- The `retain` over the subscribers with a `try_send` to each: who stays, who
got the event, and the channels after. -/
def sendAll (event : DataPlaneEvent) :
    List Nat → (Nat → Subscription) → List Nat × (Nat → Subscription)
  | [], subscriptions => ([], subscriptions)
  | id :: ids, subscriptions =>
    match (subscriptions id).trySend event with
    | .ok subscription =>
      let (kept, subscriptions) := sendAll event ids (Function.update subscriptions id subscription)
      (id :: kept, subscriptions)
    | .full =>
      sendAll event ids (Function.update subscriptions id ((subscriptions id).setEnd
        (.backlogExceeded (subscriptions id).capacityMessages)))
    | .disconnected => sendAll event ids subscriptions

/-- The `while` loop that keeps the startup buffer within its limit. -/
def trimStartup : List (List UInt8) → Nat → List (List UInt8) × Nat
  | [], bytes => ([], bytes)
  | chunk :: chunks, bytes =>
    if bytes > STARTUP_BUFFER_LIMIT then trimStartup chunks (bytes - chunk.length)
    else (chunk :: chunks, bytes)

def System.publishSharedData (s : System) (data : List UInt8) : System :=
  if data = [] then s
  else if s.state.subscribers = [] then
    let (chunks, bytes) := trimStartup (s.state.startupBuffer ++ [data])
      (s.state.startupBufferBytes + data.length)
    { s with state := { s.state with startupBuffer := chunks, startupBufferBytes := bytes } }
  else
    let (kept, subscriptions) := sendAll (.data data) s.state.subscribers s.subscriptions
    { s with
      state := { s.state with subscribers := kept }
      subscriptions
      delivered := s.delivered ++ kept.map ((Receiver.subscriber ·, data)) }

def System.publishHandoffBuffer (s : System) : System :=
  ({ s with state := { s.state with handoffBuffer := [] } }).publishSharedData s.state.handoffBuffer

def System.broadcastClose (s : System) (kind : TransportErrorKind) : System :=
  let (kept, subscriptions) := sendAll (.closed kind) s.state.subscribers s.subscriptions
  { s with state := { s.state with subscribers := kept }, subscriptions }

/-! ## The actor -/

/-- `take_unconsumed_bytes`. -/
def RuntimeLoopState.unconsumedBytes (state : RuntimeLoopState) : List UInt8 :=
  state.startupBuffer.flatten ++ state.handoffBuffer

def RuntimeLoopState.takeUnconsumedBytes (state : RuntimeLoopState) : RuntimeLoopState :=
  { state with startupBuffer := [], startupBufferBytes := 0, handoffBuffer := [] }

def RuntimeLoopState.restoreUnconsumedBytes (state : RuntimeLoopState) (prefetched : List UInt8) :
    RuntimeLoopState :=
  { state with handoffBuffer := prefetched ++ state.handoffBuffer }

/-- What the driver answers to the call of the current step, if it makes one. -/
inductive DriverAnswer where
  | done
  | data (bytes : List UInt8)
  | idle
  | eof
  | error (kind : TransportErrorKind)

/-- The outcome of a driver call that returns no data. -/
def DriverAnswer.result : DriverAnswer → Result
  | .error kind => .error kind
  | _ => .ok ()

/-- Back from `handle_command`, in the loop that made the call. -/
def System.resume (s : System) (receive : Receive) : System :=
  match receive with
  | .blocking => { s with actor := .top }
  | .drain => { s with actor := if s.state.exclusive.isSome then .drained else .draining }

def System.applyCommandOutcome (s : System) (receive : Receive) : Outcome → System
  | .continue => s.resume receive
  | .shutdown => { s with driverShutdown := true, actor := .closing }
  | .close kind => { s.broadcastClose kind with actor := .closing }

/-- A write or a resize on the actor's driver. -/
def System.handleRequest (s : System) (receive : Receive) (answer : DriverAnswer) (client : Nat)
    (request : Request) : System :=
  if s.state.exclusive.isSome then
    { s with actor := .acking client (.error .busy) .continue receive }
  else if ¬ s.driver then { s with actor := .acking client (.error .io) .continue receive }
  else
    match answer.result with
    | .error kind => { s with actor := .acking client (.error kind) (.close kind) receive }
    | .ok () =>
      match request with
      | .write data =>
        { s with written := s.written ++ data, actor := .acking client (.ok ()) .continue receive }
      | .resizeTerminal => { s with actor := .acking client (.ok ()) .continue receive }

def System.handleSubscribe (s : System) (receive : Receive) (id capacityMessages : Nat) : System :=
  let joined := { s with state := { s.state with subscribers := s.state.subscribers ++ [id] } }
  if s.state.startupBuffer = [] then joined.resume receive
  else
    let data := s.state.startupBuffer.flatten
    let drained := { s.state with startupBuffer := [], startupBufferBytes := 0 }
    match (s.subscriptions id).trySend (.data data) with
    | .ok subscription =>
      { s with
        state := { drained with subscribers := s.state.subscribers ++ [id] }
        subscriptions := Function.update s.subscriptions id subscription
        delivered := s.delivered ++ [(Receiver.subscriber id, data)] }.resume receive
    | .full =>
      { s with
        state := drained
        subscriptions := Function.update s.subscriptions id
          ((s.subscriptions id).setEnd (.backlogExceeded capacityMessages)) }.resume receive
    | .disconnected => { s with state := drained }.resume receive

def System.handleAcquire (s : System) (receive : Receive) (ownerId : Nat) : System :=
  if s.state.exclusive.isSome then { s with actor := .rejecting ownerId .busy receive }
  else if ¬ s.driver then { s with actor := .rejecting ownerId .io receive }
  else
    { s with
      driver := false
      state := { s.state.takeUnconsumedBytes with exclusive := some ownerId }
      actor := .granting ownerId s.state.unconsumedBytes receive }

def System.handleReturn (s : System) (receive : Receive) (ownerId : Nat) (prefetched : List UInt8) :
    System :=
  if s.state.exclusive ≠ some ownerId then
    { s with
      shutdowns := s.shutdowns + 1
      actor := .acking ownerId (.error .busy) .continue receive }
  else if s.driver then
    { s with
      shutdowns := s.shutdowns + 1
      actor := .acking ownerId (.error .io) .continue receive }
  else
    { s with
      driver := true
      state := { s.state.restoreUnconsumedBytes prefetched with exclusive := none }
      actor := .returnClearing ownerId receive }

def System.handleShutdown (s : System) (receive : Receive) (answer : DriverAnswer) (client : Nat) :
    System :=
  if s.state.exclusive.isSome then
    { s with
      state := { s.state with shutdownPending := true }
      actor := .acking client (.ok ()) .continue receive }
  else if s.driver then
    { s with
      shutdowns := s.shutdowns + 1
      actor := .acking client answer.result .shutdown receive }
  else { s with actor := .acking client (.ok ()) .shutdown receive }

/-- `handle_command` up to its first send or access to the flag. -/
def System.handleCommand (s : System) (receive : Receive) (answer : DriverAnswer) :
    RuntimeCommand → System
  | .request client request => s.handleRequest receive answer client request
  | .subscribe id capacityMessages => s.handleSubscribe receive id capacityMessages
  | .unsubscribe id =>
    { s with state := { s.state with subscribers := s.state.subscribers.filter (· ≠ id) } }.resume
      receive
  | .acquireExclusive ownerId => s.handleAcquire receive ownerId
  | .returnExclusive ownerId prefetched => s.handleReturn receive ownerId prefetched
  | .shutdown client => s.handleShutdown receive answer client

def System.reply (s : System) (client : Nat) (reply : Reply) : System :=
  { s with replies := Function.update s.replies client (some reply) }

/-- The send of the granted lease. It fails only if the caller no longer waits. -/
def System.sendLease (s : System) (ownerId : Nat) (prefetched : List UInt8) (receive : Receive) :
    System :=
  match s.clients ownerId with
  | .awaitingLease => (s.reply ownerId (.lease prefetched)).resume receive
  | _ =>
    { s with
      driver := true
      state := { s.state.restoreUnconsumedBytes prefetched with exclusive := none }
      actor := .rejectClearing receive }

/-- The flag store of `ReturnExclusive`, and the pending shutdown behind it. -/
def System.clearReturned (s : System) (answer : DriverAnswer) (ownerId : Nat) (receive : Receive) :
    System :=
  if s.state.shutdownPending then
    { s with
      exclusiveActive := false
      shutdowns := s.shutdowns + 1
      actor := .acking ownerId answer.result .shutdown receive }
  else
    { s with exclusiveActive := false, actor := .acking ownerId (.ok ()) .continue receive }

/-- A driver read of the actor. -/
def System.readDriver (s : System) : DriverAnswer → Option System
  | .data bytes =>
    if 0 < bytes.length ∧ bytes.length ≤ READ_BUFFER_SIZE then
      some { s with reads := s.reads ++ bytes, actor := .gotData bytes }
    else none
  | .idle => some { s with actor := .top }
  | .eof => some { s.broadcastClose .remoteClosed with actor := .closing }
  | .error kind => some { s.broadcastClose kind with actor := .closing }
  | .done => none

/-- One step of the actor thread. -/
def System.actorStep (s : System) (answer : DriverAnswer) : Option System :=
  match s.actor with
  | .top =>
    if s.state.exclusive.isSome ∨ s.exclusiveActive then some { s with actor := .waiting }
    else some { s.publishHandoffBuffer with actor := .draining }
  | .waiting =>
    match s.queue with
    | [] => none
    | command :: queue => some ({ s with queue }.handleCommand .blocking answer command)
  | .draining =>
    match s.queue with
    | [] => some { s with actor := .drained }
    | command :: queue => some ({ s with queue }.handleCommand .drain answer command)
  | .drained =>
    if s.state.exclusive.isSome ∨ s.exclusiveActive then some { s with actor := .top }
    else if s.driver then some { s with actor := .reading }
    else some { s.broadcastClose .io with actor := .closing }
  | .reading => s.readDriver answer
  | .gotData data =>
    if s.exclusiveActive then
      some { s with
        state := { s.state with handoffBuffer := s.state.handoffBuffer ++ data }
        actor := .top }
    else some { s.publishSharedData data with actor := .top }
  | .granting ownerId prefetched receive => some (s.sendLease ownerId prefetched receive)
  | .rejecting ownerId kind receive =>
    some { s.reply ownerId (.result (.error kind)) with actor := .rejectClearing receive }
  | .rejectClearing receive => some ({ s with exclusiveActive := false }.resume receive)
  | .returnClearing ownerId receive => some (s.clearReturned answer ownerId receive)
  | .acking client result outcome receive =>
    some ((s.reply client (.result result)).applyCommandOutcome receive outcome)
  | .closing =>
    some { s with
      subscriptions := fun id =>
        if id ∈ s.state.subscribers then (s.subscriptions id).setEnd .runtimeStopped
        else s.subscriptions id
      exclusiveActive := false
      actor := .shuttingDown }
  | .shuttingDown =>
    some { s with
      shutdowns := if ¬ s.driverShutdown ∧ s.driver then s.shutdowns + 1 else s.shutdowns
      actor := .guarding }
  -- the state guard stores once more when the locals are dropped
  | .guarding => some { s with exclusiveActive := false, actor := .dropping }
  -- the queue goes with its receiver; nobody reads it again
  | .dropping => some { s with state := { s.state with subscribers := [] }, actor := .stopped }
  | .stopped => none

/-! ## The clients -/

inductive ClientAction where
  | compareExchange
  | request (request : Request)
  | shutdown
  | subscribe (capacityMessages : Nat)
  /-- The send of the call the client is in. -/
  | send
  /-- The same on the async path, which does not wait for room in the queue. -/
  | trySend
  | receive
  | clearFlag
  /-- `ExclusiveIo::read` into a buffer of `len` bytes. -/
  | read (len : Nat) (answer : DriverAnswer)
  | release
  | consume
  | unsubscribe

/-- The admission check of `write` and `resize_terminal`. -/
def System.admission (s : System) : Request → Result
  | .write _ => if s.exclusiveActive then .error .busy else .ok ()
  | .resizeTerminal =>
    if ¬ s.terminalControl then .error .unsupported
    else if s.exclusiveActive then .error .busy
    else .ok ()

def System.isExclusive (s : System) : Bool := s.exclusiveActive

def System.setClient (s : System) (i : Nat) (client : Client) : System :=
  { s with clients := Function.update s.clients i client }

/-- A blocking send of a command: it waits while the queue is full, and fails
once the actor has dropped its receiver. -/
def System.sendCommand (s : System) (command : RuntimeCommand) (onClosed : System)
    (onSent : System → System) : Option System :=
  match s.actor with
  | .stopped => some onClosed
  | _ =>
    if s.queue.length < COMMAND_CAPACITY then some (onSent { s with queue := s.queue ++ [command] })
    else none

def System.sendStep (s : System) (i : Nat) : Option System :=
  match s.clients i with
  | .swapped =>
    s.sendCommand (.acquireExclusive i) (s.setClient i (.clearing (.error .remoteClosed)))
      (·.setClient i .awaitingLease)
  | .admitted request =>
    s.sendCommand (.request i request) (s.setClient i (.finished (.error .remoteClosed)))
      (·.setClient i (.awaitingAck (.error .remoteClosed)))
  | _ => none

def System.trySendStep (s : System) (i : Nat) : Option System :=
  match s.clients i with
  | .admitted _ =>
    if s.queue.length < COMMAND_CAPACITY then s.sendStep i
    else some (s.setClient i (.finished (.error .busy)))
  | _ => none

/-- `release_inner` up to the send of the driver. -/
def System.releaseStep (s : System) (i : Nat) : Option System :=
  match s.clients i with
  | .leased prefetched =>
    s.sendCommand (.returnExclusive i prefetched)
      ({ s with shutdowns := s.shutdowns + 1 }.setClient i (.clearing (.error .remoteClosed)))
      (·.setClient i .awaitingReturn)
  | _ => none

/-- A blocking receive: of the reply, or of the news that its sender was dropped
with the actor. -/
def System.receiveStep (s : System) (i : Nat) : Option System :=
  let taken := { s with replies := Function.update s.replies i none }
  match s.clients i, s.replies i, s.actor with
  | .awaitingLease, some (.lease prefetched), _ => some (taken.setClient i (.leased prefetched))
  | .awaitingLease, some (.result result), _ => some (taken.setClient i (.clearing result))
  | .awaitingLease, none, .stopped => some (s.setClient i (.clearing (.error .remoteClosed)))
  | .awaitingReturn, some (.result result), _ => some (taken.setClient i (.clearing result))
  | .awaitingReturn, none, .stopped => some (s.setClient i (.finished (.error .remoteClosed)))
  | .awaitingAck _, some (.result result), _ => some (taken.setClient i (.finished result))
  | .awaitingAck onClosed, none, .stopped => some (s.setClient i (.finished onClosed))
  | _, _, _ => none

/-- A read through the lease: the prefetched bytes first, then the driver. -/
def System.readStep (s : System) (i len : Nat) (answer : DriverAnswer) : Option System :=
  match s.clients i with
  | .leased prefetched =>
    if len = 0 then some s
    else if prefetched ≠ [] then
      some ({ s with
        delivered := s.delivered ++ [(Receiver.lease i, prefetched.take len)] }.setClient i
        (.leased (prefetched.drop len)))
    else
      match answer with
      | .data bytes =>
        if 0 < bytes.length ∧ bytes.length ≤ len then
          some { s with
            reads := s.reads ++ bytes
            delivered := s.delivered ++ [(.lease i, bytes)] }
        else none
      | .done => none
      | _ => some s
  | _ => none

def System.subscribeStep (s : System) (i capacityMessages : Nat) : Option System :=
  if capacityMessages = 0 then some (s.setClient i (.finished (.error .invalidConfiguration)))
  else
    s.sendCommand (.subscribe i capacityMessages)
      (s.setClient i (.finished (.error .remoteClosed)))
      fun s => { s with subscriptions := Function.update s.subscriptions i { capacityMessages } }.setClient
        i .subscribed

/-- The drop of a subscription: its receiver goes, and the actor is told if there
is room in the queue. -/
def System.unsubscribeStep (s : System) (i : Nat) : System :=
  let queue :=
    match s.actor with
    | .stopped => s.queue
    | _ => if s.queue.length < COMMAND_CAPACITY then s.queue ++ [.unsubscribe i] else s.queue
  let subscription := { s.subscriptions i with dropped := true }
  let left := { s with queue, subscriptions := Function.update s.subscriptions i subscription }
  left.setClient i (.finished (.ok ()))

/-- The receiver of a subscription takes an event out. -/
def System.consumeStep (s : System) (i : Nat) : Option System :=
  let subscription := s.subscriptions i
  if subscription.received < subscription.sent.length then
    let taken := { subscription with received := subscription.received + 1 }
    some { s with subscriptions := Function.update s.subscriptions i taken }
  else none

/-- One step of client `i`. -/
def System.clientStep (s : System) (i : Nat) (action : ClientAction) : Option System :=
  match action, s.clients i with
  | .compareExchange, .idle =>
    if s.exclusiveActive then some (s.setClient i (.finished (.error .busy)))
    else some ({ s with exclusiveActive := true }.setClient i .swapped)
  | .request request, .idle =>
    match s.admission request with
    | .ok () => some (s.setClient i (.admitted request))
    | .error kind => some (s.setClient i (.finished (.error kind)))
  | .shutdown, .idle =>
    s.sendCommand (.shutdown i) (s.setClient i (.finished (.ok ())))
      (·.setClient i (.awaitingAck (.ok ())))
  | .subscribe capacityMessages, .idle => s.subscribeStep i capacityMessages
  | .send, _ => s.sendStep i
  | .trySend, _ => s.trySendStep i
  | .receive, _ => s.receiveStep i
  | .clearFlag, .clearing result =>
    some ({ s with exclusiveActive := false }.setClient i (.finished result))
  | .read len answer, _ => s.readStep i len answer
  | .release, _ => s.releaseStep i
  | .consume, .subscribed => s.consumeStep i
  | .unsubscribe, .subscribed => some (s.unsubscribeStep i)
  | _, _ => none

inductive Action where
  | actor (answer : DriverAnswer)
  | client (i : Nat) (action : ClientAction)

def System.step (s : System) : Action → Option System
  | .actor answer => s.actorStep answer
  | .client i action => s.clientStep i action

end TauTerm.Transport
