import TpcTrigger.Pipeline.Feed
import TpcTrigger.Pipeline.Start
import TpcTrigger.Settings.Check

/-! # The finder

A finder owns a pipeline that was started from checked settings.  Superchunks are offered to
it, trigger primitives are asked for by time, and in the end it is shut down: what was
accepted before is worked off first, and afterwards every call but those for information is
refused.
-/

namespace TpcTrigger

inductive FinderError where
  | shutDown
  | badFrame (cause : FrameError)
  | badSettings (cause : SettingsError)
deriving Repr

def FinderError.message : FinderError → String
  | shutDown => "Finder is shut down"
  | badFrame cause => s!"Finder rejected frame: {cause.message}"
  | badSettings cause => s!"Finder failed due to configuration error: {cause.message}"

/-- A pipeline with the settings and the method that it runs with. -/
structure Finder where
  settings : Settings
  method : Method
  pipeline : Pipeline
  isShutDown : Bool := false

namespace Finder

def startWith (s : Settings) (kernel : Kernel) : Except FinderError Finder :=
  match s.check with
  | .error cause => .error (.badSettings cause)
  | .ok () => .ok { settings := s, method := s.method kernel, pipeline := .start s }

def start (s : Settings) : Except FinderError Finder := startWith s s.kernel.kernel

def ensureOpen (f : Finder) : Except FinderError Unit :=
  if f.isShutDown then .error .shutDown else .ok ()

def kernelName (f : Finder) : String := f.method.kernel.name

def settle (f : Finder) (s : Schedule) : Finder :=
  { f with pipeline := f.pipeline.settle f.method s }

/-- What became of a buffer that was offered. -/
inductive Offer where
  | queued
  /-- There was no room, and the buffer comes back. -/
  | refused (bytes : ByteArray)

/-- Offers a buffer and counts what became of it. -/
def offer (f : Finder) (bytes : ByteArray) : Except FinderError Offer × Finder :=
  match f.ensureOpen with
  | .error e => (.error e, f)
  | .ok () =>
    let pipeline := f.pipeline.offer bytes
    match Superchunk.checkSize bytes with
    | .error cause => (.error (.badFrame cause), { f with pipeline })
    | .ok () =>
      let call := pipeline.calls.length - 1
      let outcome := match pipeline.calls[call]? with
        | some (.refused bytes) => Offer.refused bytes
        | _ => .queued
      (.ok outcome, { f with pipeline := (pipeline.count? call).getD pipeline })

/-- Lets the pipeline come to rest, or only as far as there is room for another superchunk. -/
def makeRoom (f : Finder) (s : Schedule) : Finder :=
  f.settle { s with enough := fun p => s.enough p || !p.queue.isFull }

/-- Offers superchunks one after the other, each again until there is room for it, and lets
the pipeline come to rest. -/
def feed (f : Finder) (s : Schedule) (superchunks : List ByteArray) : Finder :=
  { f with pipeline := (Feed.drain f.method s ⟨f.pipeline, superchunks⟩).pipeline }

/-- The primitives whose window starts between two times, both included. -/
def hitsInRange (f : Finder) (first last : UInt64) :
    Except FinderError (Array TriggerPrimitive) := do
  f.ensureOpen
  return f.pipeline.store.inRange first last

/-- The primitives whose window starts within the readout of a time; the readout ends where
time does. -/
def hitsAround (f : Finder) (timestamp : UInt64) : Except FinderError (Array TriggerPrimitive) :=
  let t := timestamp.toNat
  let radius := f.settings.readoutRadius
  f.hitsInRange (.ofNat (t - radius)) (.ofNat (min (t + radius) (UInt64.size - 1)))

def metrics (f : Finder) : MetricsSnapshot := f.pipeline.snapshot

/-- Whether all that was accepted is worked off. -/
def isIdle (f : Finder) : Except FinderError Bool := do
  f.ensureOpen
  return f.pipeline.metrics.isIdle

/-- Works off what is queued, stops every part of the pipeline and hands out the final states
in channel order. -/
def shutDown (f : Finder) (s : Schedule) : Except FinderError (Array ChannelState) × Finder :=
  match f.ensureOpen with
  | .error e => (.error e, f)
  | .ok () =>
    let drained := f.settle s
    let asked := (drained.pipeline.shutdown?).getD drained.pipeline
    let stopped := { drained with pipeline := asked, isShutDown := true }.settle s
    (.ok stopped.pipeline.states, stopped)

end Finder

end TpcTrigger
