import TpcTrigger.Pipeline.Continuity
import TpcTrigger.Pipeline.Ingest
import TpcTrigger.Pipeline.Lag
import TpcTrigger.Pipeline.Worker
import TpcTrigger.Samples.Window

/-! # The dispatcher

The dispatcher takes tasks from the ingest queue one at a time.  It decodes superchunks,
assembles them into windows and sends every window to every worker; before the first one it
tells the workers to start their baselines from it.  What a task asks for is a list of acts,
each of which counts something or sends one message, and they are done one by one.
-/

namespace TpcTrigger

/-- One thing that the dispatcher does in a single step. -/
inductive DispatchAct where
  | countDequeued (latency : Nat) (lagging : Bool)
  | countGap
  | countMalformed
  | countDispatched
  | countConsumed
  /-- Send a message to a worker; one that has left is passed over. -/
  | send (worker : Nat) (message : WorkerMessage)
  /-- Leave: the ingest queue and all inboxes lose this side. -/
  | leave
deriving Repr, DecidableEq

structure Dispatcher where
  /-- Number of workers, gone ones included. -/
  workers : Nat
  assembly : Assembly
  /-- Whether a window has been sent already. -/
  seeded : Bool := false
  continuity : ContinuityCheck := {}
  lag : LagMonitor
  /-- What is still to be done for the task in hand. -/
  acts : List DispatchAct := []
  stopped : Bool := false
deriving Repr

namespace Dispatcher

def toAll (d : Dispatcher) (message : WorkerMessage) : List DispatchAct :=
  (List.range d.workers).map (.send · message)

def handOut (d : Dispatcher) (window : Window) : List DispatchAct :=
  (if d.seeded then [] else d.toAll (.seed window)) ++
    .countDispatched :: d.toAll (.window window)

/-- Takes in a raw superchunk that waited for `latency` nanoseconds. -/
def acceptSuperchunk (d : Dispatcher) (timestamp : UInt64) (bytes : ByteArray) (latency : Nat) :
    Dispatcher :=
  let (lag, _) := d.lag.observe latency
  let (continuity, found) := d.continuity.observe timestamp
  let gap := match found with
    | .gap _ _ => [.countGap]
    | _ => []
  let before := .countDequeued latency lag.lagging :: gap
  match Superchunk.decode bytes with
  | .error _ => { d with lag, continuity, acts := before ++ [.countMalformed, .countConsumed] }
  | .ok chunk =>
    match d.assembly.push chunk with
    | (assembly, none) => { d with lag, continuity, assembly, acts := before ++ [.countConsumed] }
    | (assembly, some window) =>
      { d with
        lag, continuity, assembly
        seeded := true
        acts := before ++ d.handOut window ++ [.countConsumed] }

def accept (d : Dispatcher) (task : Task) (latency : Nat) : Dispatcher :=
  match task with
  | .superchunk timestamp bytes => d.acceptSuperchunk timestamp bytes latency
  | .shutdown => { d with acts := d.toAll .shutdown ++ [.leave] }

end Dispatcher

end TpcTrigger
