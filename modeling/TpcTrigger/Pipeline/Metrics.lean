/-! # Counters of the pipeline

Every part of the pipeline counts what it does.  Waiting times are kept in nanoseconds in
64-bit words: one that does not fit is cut to the greatest, and their sum wraps.
-/

namespace TpcTrigger

/-- The counters shared by all parts of the pipeline. -/
structure Metrics where
  /-- Superchunks taken into the queue. -/
  received : Nat := 0
  /-- Superchunks refused for lack of room. -/
  rejected : Nat := 0
  /-- Buffers that are no superchunk. -/
  malformed : Nat := 0
  /-- Superchunks that the dispatcher is done with. -/
  consumed : Nat := 0
  /-- Windows handed to the workers. -/
  dispatched : Nat := 0
  /-- Windows whose hits are in the store. -/
  merged : Nat := 0
  hits : Nat := 0
  lastLatency : UInt64 := 0
  maxLatency : UInt64 := 0
  totalLatency : UInt64 := 0
  laggingItems : Nat := 0
  gaps : Nat := 0
  faults : Nat := 0
deriving Repr, DecidableEq, Inhabited

structure WorkerStatus where
  worker : Nat
  firstRegister : Nat
  /-- One past the last register of the worker. -/
  lastRegister : Nat
  windows : Nat
  hits : Nat
  faults : Nat
deriving Repr, DecidableEq, Inhabited

/-- A copy of the counters at one moment, with the state of the queue and the workers. -/
structure MetricsSnapshot where
  counters : Metrics
  meanLatency : UInt64
  queueLength : Nat
  queueCapacity : Nat
  workers : List WorkerStatus
deriving Repr, DecidableEq, Inhabited

namespace Metrics

def latencyWord (latency : Nat) : UInt64 := UInt64.ofNat (min latency (UInt64.size - 1))

def countReceived (m : Metrics) : Metrics := { m with received := m.received + 1 }

def countRejected (m : Metrics) : Metrics := { m with rejected := m.rejected + 1 }

def countMalformed (m : Metrics) : Metrics := { m with malformed := m.malformed + 1 }

/-- A superchunk left the queue after waiting for `latency` nanoseconds.

The counters are taken to advance together.  If they are advanced in turn, the last waiting time
before the greatest, then what holds of them holds between two such calls. -/
def countDequeued (m : Metrics) (latency : Nat) (lagging : Bool) : Metrics :=
  let word := latencyWord latency
  { m with
    lastLatency := word
    maxLatency := max m.maxLatency word
    totalLatency := m.totalLatency + word
    laggingItems := m.laggingItems + lagging.toNat }

/-- The dispatcher is done with a superchunk, decodable or not. -/
def countConsumed (m : Metrics) : Metrics := { m with consumed := m.consumed + 1 }

def countGap (m : Metrics) : Metrics := { m with gaps := m.gaps + 1 }

/-- A window is about to be handed to the workers. -/
def countDispatched (m : Metrics) : Metrics := { m with dispatched := m.dispatched + 1 }

def countMerged (m : Metrics) (hits faults : Nat) : Metrics :=
  { m with hits := m.hits + hits, faults := m.faults + faults, merged := m.merged + 1 }

/-- The answer to "is everything done?" from four readings made one after the other. -/
def idleAcross (atConsumed atDispatched atMerged atReceived : Metrics) : Bool :=
  atConsumed.consumed == atReceived.received && atMerged.merged == atDispatched.dispatched

/-- Whether everything taken in is assembled and every window handed out is merged. -/
def isIdle (m : Metrics) : Bool := idleAcross m m m m

/-- The mean waiting time of the superchunks that are done with, rounded down. -/
def meanLatency (m : Metrics) : UInt64 :=
  UInt64.ofNat (if m.consumed = 0 then 0 else m.totalLatency.toNat / m.consumed)

def snapshot (m : Metrics) (queueLength queueCapacity : Nat) (workers : List WorkerStatus) :
    MetricsSnapshot where
  counters := m
  meanLatency := m.meanLatency
  queueLength
  queueCapacity
  workers

end Metrics

end TpcTrigger
