import TpcTrigger.Detection.Kernel
import TpcTrigger.Filter.Design
import TpcTrigger.Pipeline.Ingest

/-! # Settings of the pipeline

Everything that can be set, with its usual value, and what follows from it.
-/

namespace TpcTrigger

structure Settings where
  /-- Frames of a window. -/
  windowTicks : Nat := 4 * superchunkTicks
  workers : Nat := 2
  /-- Superchunks that wait for the dispatcher. -/
  queueCapacity : Nat := 1024
  /-- Messages that wait for a worker, and results that wait for the merger. -/
  workerQueueDepth : Nat := 4
  tapCount : Nat := 16
  tapExponent : Nat := 6
  /-- Cutoff of the low-pass, as a fraction of the sampling rate. -/
  cutoff : Float := 0.1
  /-- The taps of the filter if it is not to be a low-pass. -/
  taps : Option (Array Int) := none
  thresholdFactor : Int := 5
  stepLimit : Int := 10
  storeCapacity : Nat := 100000
  /-- Clock ticks before and after a time that belong to its readout. -/
  readoutRadius : Nat := 12500
  /-- Waiting time in milliseconds beyond which the dispatcher lags. -/
  maxLatencyMs : Nat := 100
  submitPolicy : SubmitPolicy := .failFast
  kernel : KernelKind := .lockstep
deriving Repr, BEq, Inhabited

namespace Settings

def superchunksPerWindow (s : Settings) : Nat := s.windowTicks / superchunkTicks

/-- The filter: the given taps, or else a low-pass. -/
def filter (s : Settings) : FirFilter :=
  match s.taps with
  | some taps => ⟨taps, s.tapExponent⟩
  | none => .lowPass s.tapCount s.cutoff s.tapExponent

/-- What the hit finder of a channel is set to. -/
def detectorParams (s : Settings) : DetectorParams := ⟨s.filter, s.thresholdFactor, s.stepLimit⟩

/-- Waiting time in nanoseconds beyond which the dispatcher lags. -/
def maxLatency (s : Settings) : Nat := s.maxLatencyMs * 1000000

def workersFit (s : Settings) : Bool := decide (1 ≤ s.workers ∧ s.workers ≤ registerCount)

end Settings

end TpcTrigger
