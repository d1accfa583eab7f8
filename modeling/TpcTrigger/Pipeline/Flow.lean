import TpcTrigger.Pipeline.Dispatcher
import TpcTrigger.Pipeline.Merger

/-! # The pipeline as a transition system

Clients, the dispatcher, the workers and the merger work side by side and meet only in
bounded queues, shared counters and the store.  A move is one indivisible step of one of
them.  Who waits has no move, so an order of moves is one way in which the parts can be
interleaved, and every such order is a run of the same function.
-/

namespace TpcTrigger

/-- Where a client's call stands after its buffer was queued or refused: the outcome is still
to be counted before the call returns. -/
inductive ClientCall where
  | queued
  | refused (bytes : ByteArray)
deriving Inhabited

structure Pipeline where
  queue : IngestQueue
  dispatcher : Dispatcher
  nodes : Array WorkerNode
  merger : Merger := {}
  store : PrimitiveStore
  /-- Whether the store's lock can still be taken. -/
  storeUsable : Bool := true
  metrics : Metrics := {}
  /-- The calls that have not returned yet. -/
  calls : List ClientCall := []

/-- A step of one part of the pipeline. -/
inductive Move where
  | offer (bytes : ByteArray)
  /-- The client of the call at an index counts its outcome, and the call returns. -/
  | count (call : Nat)
  | shutdown
  /-- The dispatcher acts, or takes a task that waited for `latency` nanoseconds. -/
  | dispatch (latency : Nat)
  | work (worker : Nat)
  | merge

namespace Pipeline

/-- A client offers a buffer: one of the wrong size is counted as malformed at once, one that
finds room is queued with the time of its first header, and any other is refused. -/
def offer (p : Pipeline) (bytes : ByteArray) : Pipeline :=
  match Superchunk.checkSize bytes with
  | .error _ => { p with metrics := p.metrics.countMalformed }
  | .ok () =>
    match p.queue.submit? (Header.ofBytes bytes).timestamp bytes with
    | some queue => { p with queue, calls := p.calls ++ [.queued] }
    | none => { p with calls := p.calls ++ [.refused bytes] }

def count? (p : Pipeline) (call : Nat) : Option Pipeline :=
  (p.calls[call]?).map fun c =>
    { p with
      calls := p.calls.eraseIdx call
      metrics := match c with
        | .queued => p.metrics.countReceived
        | .refused _ => p.metrics.countRejected }

/-- The request to stop is queued once there is room. -/
def shutdown? (p : Pipeline) : Option Pipeline :=
  match p.queue.send .shutdown with
  | .done queue => some { p with queue }
  | .full | .closed => none

def act? (p : Pipeline) (act : DispatchAct) : Option Pipeline :=
  match act with
  | .countDequeued latency lagging =>
    some { p with metrics := p.metrics.countDequeued latency lagging }
  | .countGap => some { p with metrics := p.metrics.countGap }
  | .countMalformed => some { p with metrics := p.metrics.countMalformed }
  | .countDispatched => some { p with metrics := p.metrics.countDispatched }
  | .countConsumed => some { p with metrics := p.metrics.countConsumed }
  | .send worker message =>
    match p.nodes[worker]? with
    | none => some p
    | some node =>
      match node.inbox.send message with
      | .done inbox => some { p with nodes := p.nodes.setIfInBounds worker { node with inbox } }
      | .closed => some p
      | .full => none
  | .leave =>
    some { p with
      queue := p.queue.closeReceiver
      nodes := p.nodes.map fun node => { node with inbox := node.inbox.closeSender }
      dispatcher := { p.dispatcher with stopped := true } }

def dispatch? (p : Pipeline) (latency : Nat) : Option Pipeline :=
  if p.dispatcher.stopped then none
  else
    match p.dispatcher.acts with
    | act :: acts => ({ p with dispatcher := { p.dispatcher with acts } }).act? act
    | [] =>
      (IngestQueue.next? p.queue).map fun (task, queue) =>
        { p with queue, dispatcher := p.dispatcher.accept task latency }

def work? (m : Method) (p : Pipeline) (worker : Nat) : Option Pipeline := do
  let node ← p.nodes[worker]?
  let node ← node.step? m
  return { p with nodes := p.nodes.setIfInBounds worker node }

/-- The merger leaves: the workers have nobody to report to. -/
def stopMerger (p : Pipeline) : Pipeline :=
  { p with
    merger := { p.merger with phase := .stopped }
    nodes := p.nodes.map fun node => { node with outbox := node.outbox.closeReceiver } }

/-- The merger stores a full batch.  Without workers there is nothing to merge, ever. -/
def storeBatch (p : Pipeline) : Pipeline :=
  let batch := p.merger.batch
  if batch.isEmpty || !p.storeUsable then p.stopMerger
  else
    let hits := batchHits batch
    { p with
      store := p.store.pushBatch (batchTime batch) hits
      merger := ⟨[], .counting hits.size (batchFaults batch)⟩ }

def merge? (p : Pipeline) : Option Pipeline :=
  match p.merger.phase with
  | .stopped => none
  | .counting hits faults =>
    some { p with
      metrics := p.metrics.countMerged hits faults
      merger := { p.merger with phase := .collecting } }
  | .collecting =>
    let worker := p.merger.batch.length
    match p.nodes[worker]? with
    | none => some p.storeBatch
    | some node =>
      match node.outbox.receive with
      | .item result outbox =>
        some { p with
          nodes := p.nodes.setIfInBounds worker { node with outbox }
          merger := { p.merger with batch := p.merger.batch ++ [result] } }
      | .closed => some p.stopMerger
      | .empty => none

/-- One step of the pipeline; there is none if the part that should make it has to wait. -/
def move? (m : Method) (p : Pipeline) : Move → Option Pipeline
  | .offer bytes => some (p.offer bytes)
  | .count call => p.count? call
  | .shutdown => p.shutdown?
  | .dispatch latency => p.dispatch? latency
  | .work worker => p.work? m worker
  | .merge => p.merge?

def run? (m : Method) (p : Pipeline) : List Move → Option Pipeline
  | [] => some p
  | move :: moves => do (← p.move? m move).run? m moves

def workerStatus (p : Pipeline) : List WorkerStatus := p.nodes.toList.map (·.worker.status)

def snapshot (p : Pipeline) : MetricsSnapshot :=
  p.metrics.snapshot p.queue.length (p.queue.capacity.getD 0) p.workerStatus

def states (p : Pipeline) : Array ChannelState :=
  p.nodes.foldl (fun states node => states ++ node.worker.states) #[]

end Pipeline

end TpcTrigger
