import Mathlib
import TauTerm.Iperf.UdpClient

/-!
# The UDP server loop of iperf2

`run_udp_server_loop`: one reader for all peers, told apart by their addresses. A turn of the loop
takes a datagram or a timeout; the TCP engine of the same session goes on beside it. Everything that
is emitted or sent is kept in `outputs`.
-/

namespace TauTerm.Iperf

def RECV_IDLE_TIMEOUT : ℚ := 30

def FIN_RETRY_WINDOW : ℚ := 2

def REPORT_MAX_RETRIES : Nat := 10

/-- What goes back to a client, `ServerHdrV1::from_stats`. -/
structure ServerReport where
  totalBytes : Nat
  lost : Nat
  packets : Nat
  jitterMs : ℚ
  deriving DecidableEq

/-- A client with the times of its first and its last packet. -/
structure Client where
  st : UdpClientState
  start : ℚ
  lastActivity : ℚ

/-- `test` is the test that the report is about; the source does not keep it. -/
structure ClosingClient where
  test : Nat
  report : ServerReport
  retries : Nat
  deadline : ℚ

inductive Output (Addr : Type) where
  | started (seq : Nat)
  | interval (seq : Nat) (interval : Iperf2Interval)
  | done (seq : Nat) (summary : IperfSummary)
  | sent (addr : Addr) (test : Nat) (report : ServerReport)

/-- An order in which a map gives its keys. -/
structure Order (Addr : Type) where
  arrange : List Addr → List Addr
  perm : ∀ keys, (arrange keys).Perm keys

/-- What the TCP engine does to the session: it begins a test, announces that one is running, and
ends it. -/
inductive TcpStep where
  | begun
  | announced
  | ended
  deriving DecidableEq

inductive Input (Addr : Type) where
  /-- The id and the transit time are there if the header is. -/
  | datagram (addr : Addr) (length : Nat) (packet : Option (Int × ℚ)) (now : ℚ)
  | timedOut (order : Order Addr) (now : ℚ)
  | tcp (step : TcpStep)

/-- The tables of the loop, and what it shares with the rest of the session. -/
structure UdpServer (Addr : Type) where
  clients : AList fun _ : Addr => Client
  closing : Addr → Option ClosingClient
  seqCounter : Nat
  lastSummary : Option IperfSummary
  started : Bool
  udpActive : Bool
  testRunning : Bool
  outputs : List (Output Addr)

namespace UdpServer

variable {Addr : Type}

/-- `Output`s are only added. -/
def emit (s : UdpServer Addr) (outputs : List (Output Addr)) : UdpServer Addr :=
  { s with outputs := s.outputs ++ outputs }

def updateTestRunning (s : UdpServer Addr) (udpActive : Bool) : UdpServer Addr :=
  { s with udpActive, testRunning := s.started || udpActive }

def tcp (s : UdpServer Addr) : TcpStep → UdpServer Addr
  | .begun => { s with started := true }
  -- until it has announced its test, the thread that began it holds a stream of it
  | .announced => if s.started then { s with testRunning := true } else s
  | .ended => { s with started := false, testRunning := s.udpActive }

variable [DecidableEq Addr]

def start : UdpServer Addr where
  clients := ∅
  closing := fun _ => none
  seqCounter := 0
  lastSummary := none
  started := false
  udpActive := false
  testRunning := false
  outputs := []

def serverReport (st : UdpClientState) : ServerReport where
  totalBytes := st.counter
  lost := min st.acc.lost (2 ^ 32 - 1)
  packets := min st.acc.packets (2 ^ 32 - 1)
  jitterMs := (UdpClientState.given st.acc st.acc.jitterMs).getD 0

/-- `finalize_udp_client`, of a client that has been taken out of the table. -/
def finalizeUdpClient (now : ℚ) (addr : Addr) (client : Client) (s : UdpServer Addr) :
    UdpServer Addr :=
  let st := client.st
  let elapsed := now - client.start
  let summary := st.summary elapsed
  let report := serverReport st
  let s := s.emit ((st.closingInterval elapsed).toList.map (.interval st.seq) ++
    [.done st.seq summary, .sent addr st.seq report])
  { s with
    lastSummary := some summary
    closing := Function.update s.closing addr (some
      { test := st.seq
        report
        retries := REPORT_MAX_RETRIES
        deadline := now + FIN_RETRY_WINDOW }) }

def finish (now : ℚ) (s : UdpServer Addr) (addr : Addr) : UdpServer Addr :=
  match s.clients.lookup addr with
  | some client => finalizeUdpClient now addr client { s with clients := s.clients.erase addr }
  | none => s

def resendReport (now : ℚ) (addr : Addr) (c : ClosingClient) (s : UdpServer Addr) : UdpServer Addr :=
  if c.retries = 0 then s
  else
    { s.emit [.sent addr c.test c.report] with
      closing := Function.update s.closing addr (some
        { c with retries := c.retries - 1, deadline := now + 1 / 5 }) }

/-- The first packet of a test. -/
def accept (s : UdpServer Addr) (addr : Addr) (d : Datagram) (now : ℚ) : UdpServer Addr :=
  let seq := s.seqCounter + 1
  let s := { s with closing := Function.update s.closing addr none, seqCounter := seq }
  let s := (s.updateTestRunning true).emit [.started seq]
  { s with clients := s.clients.insert addr ⟨.new seq d, now, now⟩ }

/-- A packet of a test that is going on. -/
def count (s : UdpServer Addr) (addr : Addr) (client : Client) (d : Datagram) (now : ℚ) :
    UdpServer Addr :=
  let (st, interval) := client.st.record d
  let s := s.emit (interval.toList.map (.interval st.seq))
  { s with clients := s.clients.insert addr { client with st, lastActivity := now } }

/-- Without a client left no UDP test is running. -/
def settle (s : UdpServer Addr) : UdpServer Addr :=
  if s.clients.keys = [] then s.updateTestRunning false else s

/-- A packet with an id above 0 is data, any other one ends the test. -/
def receive (s : UdpServer Addr) (addr : Addr) (length : Nat) (seqno : Int) (transitMs now : ℚ) :
    UdpServer Addr :=
  match s.clients.lookup addr with
  | some client =>
    if 0 < seqno then s.count addr client ⟨length, seqno, transitMs, now - client.start⟩ now
    else (s.finish now addr).settle
  | none =>
    if 0 < seqno then s.accept addr ⟨length, seqno, transitMs, 0⟩ now
    else
      match s.closing addr with
      | some c => resendReport now addr c s
      | none => s

def idle (s : UdpServer Addr) (now : ℚ) (addr : Addr) : Bool :=
  (s.clients.lookup addr).any fun client =>
    0 < client.st.acc.packets ∧ RECV_IDLE_TIMEOUT ≤ now - client.lastActivity

/-- Idle clients are given up, and so are the reports that nobody asks for. -/
def sweep (s : UdpServer Addr) (order : Order Addr) (now : ℚ) : UdpServer Addr :=
  let expired := (order.arrange s.clients.keys).filter (s.idle now)
  let s := (expired.foldl (finish now) s).settle
  { s with closing := fun addr => (s.closing addr).filter fun c => now < c.deadline }

def turn (s : UdpServer Addr) : Input Addr → UdpServer Addr
  | .datagram _ _ none _ => s
  | .datagram addr length (some (seqno, transitMs)) now => s.receive addr length seqno transitMs now
  | .timedOut order now => s.sweep order now
  | .tcp step => s.tcp step

/-- The end of the loop, after an abort as after an error that is fatal. -/
def shutdown (s : UdpServer Addr) (order : Order Addr) (now : ℚ) : UdpServer Addr :=
  ((order.arrange s.clients.keys).foldl (finish now) s).updateTestRunning false

/-- The state after some turns. -/
def run (inputs : List (Input Addr)) : UdpServer Addr := inputs.foldl turn start

end UdpServer

end TauTerm.Iperf
