import Mathlib

/-!
# The UDP statistics of one iperf2 client

What the server counts for a client, datagram by datagram, the intervals it reports every second and
the summary at the end. Seconds, milliseconds and rates are rational numbers here; the time since
the start of the test comes in with each datagram.
-/

namespace TauTerm.Iperf

/-- Packets, losses and jitter, over the test or over one interval. -/
structure IntervalAccumulator where
  packets : Nat := 0
  lost : Nat := 0
  highestId : Int := -1
  jitterMs : ℚ := 0
  lastTransitMs : Option ℚ := none
  deriving DecidableEq

namespace IntervalAccumulator

/-- The ids that are skipped by the step to a new highest one. The first packet skips none. -/
def gap (self : IntervalAccumulator) (packetId : Int) : Nat :=
  if 0 ≤ self.highestId ∧ self.highestId < packetId then (packetId - self.highestId - 1).toNat else 0

/-- `transit` is the time of arrival less that of sending. -/
def recordUdp (self : IntervalAccumulator) (sender : Bool) (packetId : Int) (transit : ℚ) :
    IntervalAccumulator :=
  let self' := { self with packets := self.packets + 1 }
  if sender then self'
  else
    { self' with
      lost := self.lost + self.gap packetId
      highestId := if self.highestId < packetId then packetId else self.highestId
      jitterMs :=
        match self.lastTransitMs with
        | some last => self.jitterMs + (|transit - last| - self.jitterMs) / 16
        | none => self.jitterMs
      lastTransitMs := some transit }

end IntervalAccumulator

structure Iperf2Interval where
  startSecs : ℚ
  endSecs : ℚ
  transferredBytes : Nat
  bandwidthBps : ℚ
  jitterMs : Option ℚ
  lostPackets : Option Nat
  totalPackets : Option Nat
  lostPercent : Option ℚ
  deriving DecidableEq

/-- A test datagram: its length, id and transit time, and the time since the test began. -/
structure Datagram where
  length : Nat
  seqno : Int
  transitMs : ℚ
  elapsedSecs : ℚ
  deriving DecidableEq

structure UdpClientState where
  seq : Nat
  acc : IntervalAccumulator := {}
  intervalAcc : IntervalAccumulator := {}
  counter : Nat := 0
  intervals : List Iperf2Interval := []
  nextReportSecs : ℚ := 1
  prevBytes : Nat := 0
  deriving DecidableEq

structure IperfSummary where
  durationSecs : ℚ
  totalBytes : Nat
  avgBandwidthBps : ℚ
  intervals : List Iperf2Interval
  jitterMs : Option ℚ
  lostPackets : Option Nat
  totalPackets : Option Nat
  lostPercent : Option ℚ
  deriving DecidableEq

namespace UdpClientState

/-- A figure of an accumulator that has packets. -/
def given {α : Type} (acc : IntervalAccumulator) (value : α) : Option α :=
  if 0 < acc.packets then some value else none

def lostPercent (acc : IntervalAccumulator) : ℚ := acc.lost * 100 / acc.packets

/-- An interval that holds what has come since the last one; its rate is taken over `seconds`. -/
def interval (st : UdpClientState) (startSecs endSecs seconds : ℚ) : Iperf2Interval where
  startSecs := startSecs
  endSecs := endSecs
  transferredBytes := st.counter - st.prevBytes
  bandwidthBps := (st.counter - st.prevBytes : Nat) * 8 / seconds
  jitterMs := given st.intervalAcc st.intervalAcc.jitterMs
  lostPackets := given st.intervalAcc st.intervalAcc.lost
  totalPackets := given st.intervalAcc st.intervalAcc.packets
  lostPercent := given st.intervalAcc (lostPercent st.intervalAcc)

/-- Both accumulators and the byte counter take the datagram. -/
def count (st : UdpClientState) (d : Datagram) : UdpClientState :=
  { st with
    counter := st.counter + d.length
    acc := st.acc.recordUdp false d.seqno d.transitMs
    intervalAcc := st.intervalAcc.recordUdp false d.seqno d.transitMs }

def new (seq : Nat) (first : Datagram) : UdpClientState := count { seq } first

/-- At most one interval is reported with a datagram, whatever time has passed. -/
def maybeReportInterval (st : UdpClientState) (elapsedSecs : ℚ) :
    UdpClientState × Option Iperf2Interval :=
  if elapsedSecs < st.nextReportSecs then (st, none)
  else
    let interval := st.interval (st.nextReportSecs - 1) st.nextReportSecs 1
    ({ st with
        intervals := st.intervals ++ [interval]
        intervalAcc := {}
        prevBytes := st.counter
        nextReportSecs := st.nextReportSecs + 1 }, some interval)

def record (st : UdpClientState) (d : Datagram) : UdpClientState × Option Iperf2Interval :=
  (st.count d).maybeReportInterval d.elapsedSecs

/-- The end of the last interval. -/
def lastEnd (st : UdpClientState) : ℚ := (st.intervals.getLast?.map Iperf2Interval.endSecs).getD 0

/-- The time of the test, at least a millisecond. -/
def duration (elapsedSecs : ℚ) : ℚ := max elapsedSecs (1 / 1000)

/-- What has come since the last interval, if it is long enough to be reported. -/
def closingInterval (st : UdpClientState) (elapsedSecs : ℚ) : Option Iperf2Interval :=
  let elapsed := duration elapsedSecs
  if st.lastEnd < elapsed - 3 / 10 then
    some (st.interval st.lastEnd elapsed (max (elapsed - st.lastEnd) (1 / 1000)))
  else none

def summary (st : UdpClientState) (elapsedSecs : ℚ) : IperfSummary where
  durationSecs := duration elapsedSecs
  totalBytes := st.counter
  avgBandwidthBps := st.counter * 8 / duration elapsedSecs
  intervals := st.intervals ++ (st.closingInterval elapsedSecs).toList
  jitterMs := given st.acc st.acc.jitterMs
  lostPackets := given st.acc st.acc.lost
  totalPackets := given st.acc st.acc.packets
  lostPercent := given st.acc (lostPercent st.acc)

end UdpClientState

/-- The statistics at the end of the datagrams of one test. -/
def received (seq : Nat) (first : Datagram) (later : List Datagram) : UdpClientState :=
  later.foldl (fun st d => (st.record d).1) (.new seq first)

/-- The final report of a test. -/
def finalReport (seq : Nat) (first : Datagram) (later : List Datagram) (elapsedSecs : ℚ) :
    IperfSummary :=
  (received seq first later).summary elapsedSecs

end TauTerm.Iperf
