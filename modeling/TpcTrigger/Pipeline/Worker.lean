import TpcTrigger.Detection.Kernel
import TpcTrigger.Pipeline.Fifo
import TpcTrigger.Pipeline.Metrics

/-! # Workers

A worker owns the states of a range of registers.  It takes windows from its inbox in order
and reports one result for each of them, also when the kernel fails: then the result has no
hits, but the states that the kernel left are kept.
-/

namespace TpcTrigger

inductive WorkerMessage where
  /-- Start the baselines from the first tick of the window. -/
  | seed (window : Window)
  | window (window : Window)
  | shutdown
deriving Repr, DecidableEq

structure WindowResult where
  worker : Nat
  sequence : UInt64
  timestamp : UInt64
  hits : Array Hit
  faulted : Bool
deriving Repr, DecidableEq, Inhabited

/-- The way in which all workers find hits. -/
structure Method where
  kernel : Kernel
  params : DetectorParams

/-- A worker: its registers, the states that it owns and its counters. -/
structure Worker where
  id : Nat
  registers : RegisterRange
  states : Array ChannelState
  windows : Nat := 0
  hits : Nat := 0
  faults : Nat := 0
deriving Repr, DecidableEq, Inhabited

namespace Worker

def fresh (params : DetectorParams) (id : Nat) (registers : RegisterRange) : Worker where
  id
  registers
  states := params.freshStates registers.count

def countWindow (w : Worker) (hits : Nat) : Worker :=
  { w with windows := w.windows + 1, hits := w.hits + hits }

def countFault (w : Worker) : Worker := { w with faults := w.faults + 1 }

def status (w : Worker) : WorkerStatus where
  worker := w.id
  firstRegister := w.registers.first
  lastRegister := w.registers.last
  windows := w.windows
  hits := w.hits
  faults := w.faults

/-- Starts every baseline from the first tick of a window; a window without ticks changes
nothing.  There is no answer if the window lacks one of the worker's channels. -/
def seed? (w : Worker) (window : Window) : Option Worker :=
  if window.ticks = 0 then some w
  else do
    let states ← w.states.zipIdx.mapM fun (s, i) =>
      (window.sample? (w.registers.firstChannel + i) 0).map s.seed
    return { w with states }

def process (m : Method) (w : Worker) (window : Window) : Worker × WindowResult :=
  let outcome := m.kernel.run m.params w.registers window w.states #[]
  let faulted := outcome.fault.isSome
  let hits := if faulted then #[] else outcome.hits
  let w := { w with states := outcome.states }
  (if faulted then w.countFault else w.countWindow hits.size,
    { worker := w.id, sequence := window.sequence, timestamp := window.timestamp, hits, faulted })

end Worker

inductive WorkerPhase where
  /-- Waiting for a message. -/
  | ready
  /-- Running the kernel on a window. -/
  | holding (window : Window)
  /-- Waiting for room to report a result. -/
  | reporting (result : WindowResult)
  | stopped
  /-- Stopped by a window that lacks one of its channels. -/
  | crashed
deriving Repr, DecidableEq

/-- A worker between its inbox and its outbox. -/
structure WorkerNode where
  worker : Worker
  inbox : Fifo WorkerMessage
  outbox : Fifo WindowResult
  phase : WorkerPhase := .ready
deriving Repr, DecidableEq

namespace WorkerNode

def leave (n : WorkerNode) (phase : WorkerPhase) : WorkerNode :=
  { n with inbox := n.inbox.closeReceiver, outbox := n.outbox.closeSender, phase }

def hasLeft (n : WorkerNode) : Bool :=
  match n.phase with
  | .stopped | .crashed => true
  | _ => false

def inKernel (n : WorkerNode) : Bool :=
  match n.phase with
  | .holding _ => true
  | _ => false

def accept (n : WorkerNode) (message : WorkerMessage) : WorkerNode :=
  match message with
  | .seed window =>
    match n.worker.seed? window with
    | some worker => { n with worker }
    | none => n.leave .crashed
  | .window window => { n with phase := .holding window }
  | .shutdown => n.leave .stopped

/-- One step of a worker; there is none while it waits for a message or for room. -/
def step? (m : Method) (n : WorkerNode) : Option WorkerNode :=
  match n.phase with
  | .ready =>
    match n.inbox.receive with
    | .item message inbox => some ({ n with inbox }.accept message)
    | .closed => some (n.leave .stopped)
    | .empty => none
  | .holding window =>
    let (worker, result) := n.worker.process m window
    some { n with worker, phase := .reporting result }
  | .reporting result =>
    match n.outbox.send result with
    | .done outbox => some { n with outbox, phase := .ready }
    | .closed => some (n.leave .stopped)
    | .full => none
  | .stopped | .crashed => none

end WorkerNode

end TpcTrigger
