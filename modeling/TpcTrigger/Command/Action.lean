import TpcTrigger.Capture.Reader
import TpcTrigger.Command.Invocation
import TpcTrigger.Command.Session
import TpcTrigger.Finder
import TpcTrigger.Settings.Read
import TpcTrigger.Settings.Render
import TpcTrigger.Store.Render
import TpcTrigger.Synthetic.Message
import TpcTrigger.Synthetic.Stream

/-! # What the commands do

One command writes a settings file, the other runs superchunks from a capture or a synthetic
stream through a finder and reports what came of them.  A run that goes wrong says so in its
last line and writes no primitives.
-/

namespace TpcTrigger.Command

inductive RunError where
  | capture (cause : CaptureError)
  | synthetic (cause : SyntheticError)
  | finder (cause : FinderError)
  | file (cause : FileTrouble)
deriving Repr

/-- The text shown for a run that goes wrong. -/
def RunError.message : RunError → String
  | capture cause => cause.message
  | synthetic cause => cause.message
  | finder cause => cause.message
  | file cause => cause.message

/-- The superchunks of a run, up to their end or to the first error. -/
structure Source where
  superchunks : List ByteArray
  trouble : Option CaptureError := none

def settingsLines (s : Settings) : List String :=
  let policy := match s.submitPolicy with
    | .failFast => "FailFast"
    | .block timeoutMs => s!"Block \x7b timeout_ms: {timeoutMs} \x7d"
  ["Config successfully loaded.",
    s!"Window: {s.windowTicks} frames Workers: {s.workers} Kernel: {s.kernel.optionName}",
    s!"Threshold factor: {s.thresholdFactor} FIR taps: {s.tapCount} Submit policy: {policy}"]

def workerLine (w : WorkerStatus) : String :=
  s!"Worker {w.worker} (registers {w.firstRegister}..{w.lastRegister}): " ++
    s!"{w.windows} windows, {w.hits} hits, {w.faults} faults"

/-- The lines about a run that came to its end. -/
def metricsLines (s : MetricsSnapshot) : List String :=
  let m := s.counters
  [s!"Processed {m.received} superchunks",
    s!"Rejected: {m.rejected} Malformed: {m.malformed} Timestamp gaps: {m.gaps}",
    s!"Windows: {m.merged} Hits: {m.hits} Worker faults: {m.faults}"] ++ s.workers.map workerLine

def readingLine (superchunks : Nat) (path : String) : String :=
  s!"Reading {superchunks} superchunks from {path}"

def openCapture (path : String) : Session (Except RunError Source) := do
  match ← Session.find path with
  | .nothing => return .error (.capture (.missingFile path))
  | .unreadable cause =>
    Session.info (readingLine 0 path)
    return .ok ⟨[], some (.fileTrouble cause)⟩
  | .file content =>
    let reader : CaptureReader := { content }
    Session.info (readingLine reader.superchunks path)
    let (superchunks, trouble) := reader.toEnd
    return .ok ⟨superchunks, trouble⟩

def openSynthetic (superchunks seed : Nat) : Session (Except RunError Source) := do
  Session.info s!"Generating {superchunks} synthetic superchunks with seed {seed}"
  match Synthetic.start .random {} (.ofSeed (.ofNat seed)) with
  | .error cause => return .error (.synthetic cause)
  | .ok stream => return .ok ⟨stream.take .random superchunks, none⟩

def openSource (o : RunOptions) : Session (Except RunError Source) :=
  match o.input with
  | some path => openCapture path
  | none => openSynthetic o.superchunks o.seed

def saveHits (f : Finder) (path : String) : Session (Except RunError Unit) := do
  match f.hitsInRange 0 (.ofNat (UInt64.size - 1)) with
  | .error cause => return .error (.finder cause)
  | .ok hits =>
    match ← Session.save path (renderPrimitives hits) with
    | .error cause => return .error (.file cause)
    | .ok () =>
      Session.info s!"Wrote {hits.size} trigger primitives to {path}"
      return .ok ()

def runSource (f : Finder) (source : Source) (hits : Option String) :
    Session (Except RunError Unit) := do
  let f := f.feed {} source.superchunks
  match source.trouble with
  | some cause => return .error (.capture cause)
  | none =>
    (metricsLines f.metrics).forM Session.info
    match hits with
    | none => return .ok ()
    | some path => saveHits f path

/-- Opens the source, starts the finder and runs. -/
def runWith (s : Settings) (o : RunOptions) : Session (Except RunError Unit) := do
  match ← openSource o with
  | .error e => return .error e
  | .ok source =>
    match Finder.start s with
    | .error cause => return .error (.finder cause)
    | .ok f => runSource f source o.hits

/-- Writes a settings file with the usual values. -/
def writeTemplate (path : String) : Session Unit := do
  Session.info s!"Making a template config at {path}..."
  match ← Session.save path ({} : Settings).render with
  | .ok () => Session.info "Done."
  | .error cause => Session.error (SettingsError.fileTrouble cause).message

def run (path : String) (o : RunOptions) : Session Unit := do
  Session.info s!"Loading config from {path}..."
  match Settings.ofFound path (← Session.find path) with
  | .error e => Session.error e.message
  | .ok s =>
    (settingsLines s).forM Session.info
    match ← runWith s o with
    | .ok () => Session.info "Done."
    | .error e => Session.error s!"Finder failed with error: {e.message}"

def Invocation.session (i : Invocation) : Session Unit :=
  match i.action with
  | none => Session.error "Expected a subcommand: new or run"
  | some .new => writeTemplate i.settingsPath
  | some (.run o) => run i.settingsPath o

end TpcTrigger.Command
