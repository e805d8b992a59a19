import Mathlib
import TauTerm.Transport.WriteFlight

/-!
# The ingress of a virtual port

`endpoint_actor_loop` of `virtual_port/bridge.rs`: an endpoint actor takes bytes
from its peer and sends each chunk through the data plane, beside everybody else
who calls that data plane. A chunk that a lease keeps out waits in
`pending_writeback`.

An action is one read of the lease flag, one step of a send that is under way, one
call to the port, or one step of the data plane or of another of its clients. What
the loop does for the bytes to the peer counts only for where it leads the loop and
for the read that it may cancel.
-/

namespace TauTerm.VirtualPort

open Transport (System DriverAnswer TransportErrorKind Result)

/-- The build that the loop belongs to. -/
inductive Platform where
  | windows
  | posix
  deriving DecidableEq

def READ_BUFFER_BYTES : Nat := 4096

/-- An `Err` of the loop, which its thread reports as fatal. -/
inductive EndpointError where
  | queueDisconnected
  | port
  | writebackFailed (kind : TransportErrorKind)
  deriving DecidableEq

/-- The overlapped read of a Windows port. The kernel completes it by itself. -/
inductive OverlappedRead where
  | idle
  | pending
  | completed (data : List UInt8)
  deriving DecidableEq

def OverlappedRead.data : OverlappedRead → List UInt8
  | .completed data => data
  | _ => []

/-- Where the loop stands. A send is a retry of the pending writeback or of a fresh chunk. -/
inductive Position where
  | top
  | leaseCheck
  | readCheck
  | reading
  /-- Behind a Windows poll that brought no data. -/
  | polled
  | sending (data : List UInt8) (retry : Bool)
  | inCall (client : Nat) (data : List UInt8) (retry : Bool)
  | asking (kind : TransportErrorKind) (data : List UInt8) (retry : Bool)
  | stopped (error : Option EndpointError)
  deriving DecidableEq

structure Endpoint where
  plane : System
  position : Position
  pendingWriteback : Option (List UInt8)
  read : OverlappedRead
  /-- The clients of the data plane that were a send of this loop. -/
  sends : List Nat
  received : List UInt8
  /-- The writes of these clients at the device, and whose lease was on then. -/
  writes : List (List UInt8 × Option Nat)

def Endpoint.start (terminalControl : Bool) : Endpoint where
  plane := System.spawn terminalControl
  position := .top
  pendingWriteback := none
  read := .idle
  sends := []
  received := []
  writes := []

/-- How the loop gets past its work for the peer. -/
inductive Egress where
  | proceeds
  /-- Windows: the peer is not ready, or a write fails. -/
  | cancelsRead
  /-- POSIX: the queue is drained, and the loop starts over. -/
  | backpressured
  | cancelled
  | fails (error : EndpointError)
  deriving DecidableEq

inductive Action where
  | plane (action : Transport.Action)
  | egress (outcome : Egress)
  | checkLease
  | checkRead (starts : Bool)
  /-- The kernel completes the overlapped read. -/
  | complete (data : List UInt8)
  | read (data : List UInt8)
  | poll (succeeds : Bool)
  | settle (cancels : Bool)
  /-- A call to the Windows port that ends the loop. -/
  | portFails
  | call (client : Nat)
  | send
  | receive
  | returned
  | ask

/-! ## The steps -/

/-- What a step of the data plane's actor writes for this loop. -/
def Endpoint.writesOf (e : Endpoint) (answer : DriverAnswer) : List (List UInt8 × Option Nat) :=
  match e.plane.wrote answer with
  | some (client, data) => if client ∈ e.sends then [(data, e.plane.state.exclusive)] else []
  | none => []

/-- The client of the send that is under way. -/
def Position.client : Position → Option Nat
  | .inCall client _ _ => some client
  | _ => none

def Endpoint.planeStep (e : Endpoint) : Transport.Action → Option Endpoint
  | .actor answer =>
    (e.plane.actorStep answer).map fun plane =>
      { e with plane, writes := e.writes ++ e.writesOf answer }
  | .client i action =>
    if e.position.client = some i then none
    else (e.plane.clientStep i action).map fun plane => { e with plane }

def Endpoint.egressStep (platform : Platform) (e : Endpoint) : Egress → Option Endpoint
  | .proceeds => some { e with position := .leaseCheck }
  | .cancelsRead =>
    match platform with
    | .windows => some { e with read := .idle, position := .leaseCheck }
    | .posix => none
  | .backpressured =>
    match platform with
    | .windows => none
    | .posix => some e
  | .cancelled => some { e with position := .stopped none }
  | .fails error =>
    match error with
    | .writebackFailed _ => none
    | _ => some { e with position := .stopped (some error) }

/-- `io.is_exclusive()` before the writeback: on Windows a lease cancels the read and the loop
goes on, on POSIX it starts over. -/
def Endpoint.checkLease (platform : Platform) (e : Endpoint) : Endpoint :=
  match platform with
  | .windows =>
    if e.plane.isExclusive then { e with read := .idle, position := .readCheck }
    else
      match e.pendingWriteback with
      | some data => { e with pendingWriteback := none, position := .sending data true }
      | none => { e with position := .readCheck }
  | .posix =>
    if e.plane.isExclusive then { e with position := .top }
    else
      match e.pendingWriteback with
      | some data => { e with pendingWriteback := none, position := .sending data true }
      | none => { e with position := .reading }

/-- `!io.is_exclusive() && need_read_probe && !port.read_pending()`, and a peer that has
something. -/
def Endpoint.checkRead (e : Endpoint) (starts : Bool) : Endpoint :=
  if ¬ e.plane.isExclusive ∧ starts ∧ e.read = .idle then
    { e with read := .pending, position := .reading }
  else { e with position := .reading }

/-- `port.poll`. A poll that fails cancels the read. -/
def Endpoint.poll (e : Endpoint) (succeeds : Bool) : Endpoint :=
  if succeeds then
    match e.read with
    | .completed data => { e with read := .idle, position := .sending data false }
    | _ => { e with position := .polled }
  else { e with read := .idle, position := .top }

/-- The places where the Windows loop passes an error of its port on with `?`. -/
def Endpoint.portFails (e : Endpoint) : Option Endpoint :=
  let stopped := { e with position := .stopped (some .port) }
  match e.position with
  | .leaseCheck => if e.plane.isExclusive ∧ e.read ≠ .idle then some stopped else none
  | .readCheck => if ¬ e.plane.isExclusive ∧ e.read = .idle then some stopped else none
  | .polled => if e.read ≠ .idle then some stopped else none
  | _ => none

/-- Where the loop goes on when a send is over. -/
def Position.after (platform : Platform) (retry sent : Bool) : Position :=
  match retry, platform with
  | true, .windows => .readCheck
  | true, .posix => if sent then .reading else .top
  | false, _ => .top

/-- The arms behind `io.send(&data)`, the error's own guard apart. -/
def Endpoint.returned (platform : Platform) (e : Endpoint) : Option Endpoint :=
  match e.position with
  | .inCall client data retry =>
    match e.plane.clients client with
    | .finished (.ok ()) => some { e with position := .after platform retry true }
    | .finished (.error kind) => some { e with position := .asking kind data retry }
    | _ => none
  | _ => none

/-- `Err(_) if io.is_exclusive()`, and the arm behind it. -/
def Endpoint.ask (platform : Platform) (e : Endpoint) : Option Endpoint :=
  match e.position with
  | .asking kind data retry =>
    if e.plane.isExclusive then
      some { e with pendingWriteback := some data, position := .after platform retry false }
    else some { e with position := .stopped (some (.writebackFailed kind)) }
  | _ => none

def Endpoint.step (platform : Platform) (e : Endpoint) (action : Action) : Option Endpoint :=
  match action, e.position, platform with
  | .plane action, _, _ => e.planeStep action
  | .egress outcome, .top, _ => e.egressStep platform outcome
  | .checkLease, .leaseCheck, _ => some (e.checkLease platform)
  | .checkRead starts, .readCheck, .windows => some (e.checkRead starts)
  | .complete data, _, .windows =>
    if e.read = .pending ∧ 0 < data.length ∧ data.length ≤ READ_BUFFER_BYTES then
      some { e with read := .completed data, received := e.received ++ data }
    else none
  | .read data, .reading, .posix =>
    if data = [] then some { e with position := .top }
    else if data.length ≤ READ_BUFFER_BYTES then
      some { e with received := e.received ++ data, position := .sending data false }
    else none
  | .poll succeeds, .reading, .windows => some (e.poll succeeds)
  | .settle cancels, .polled, .windows =>
    some { e with read := if cancels then .idle else e.read, position := .top }
  | .portFails, _, .windows => e.portFails
  | .call client, .sending data retry, _ =>
    match e.plane.clients client with
    | .idle =>
      (e.plane.clientStep client (.request (.write data))).map fun plane =>
        { e with plane, sends := client :: e.sends, position := .inCall client data retry }
    | _ => none
  | .send, .inCall client _ _, _ =>
    (e.plane.clientStep client .send).map fun plane => { e with plane }
  | .receive, .inCall client _ _, _ =>
    (e.plane.clientStep client .receive).map fun plane => { e with plane }
  | .returned, _, _ => e.returned platform
  | .ask, _, _ => e.ask platform
  | _, _, _ => none

end TauTerm.VirtualPort
