import TpcTrigger.Pipeline.Schedule

/-! # Feeding a pipeline

A single client brings a source of superchunks into a pipeline, one after the other.  What
comes back for lack of room is offered again before anything that follows it.
-/

namespace TpcTrigger

/-- A pipeline with the client that feeds it. -/
structure Feed where
  pipeline : Pipeline
  /-- What is still to be offered, in the order of the source. -/
  pending : List ByteArray

/-- A step of the client or of the pipeline. -/
inductive FeedMove where
  /-- The client offers the next superchunk. -/
  | offer
  /-- The client's call returns; a superchunk that was refused is pending again. -/
  | settle
  /-- Another part of the pipeline moves. -/
  | other (move : Move)

namespace Feed

/-- The client offers the next superchunk, unless it waits for a call to return. -/
def offer? (f : Feed) : Option Feed :=
  match f.pipeline.calls, f.pending with
  | [], bytes :: pending => some ⟨f.pipeline.offer bytes, pending⟩
  | _, _ => none

def settle? (f : Feed) : Option Feed := do
  let call ← f.pipeline.calls.head?
  let pipeline ← f.pipeline.count? 0
  return ⟨pipeline, match call with
    | .queued => f.pending
    | .refused bytes => bytes :: f.pending⟩

/-- One step; the other parts of the pipeline make no moves of clients. -/
def move? (m : Method) (f : Feed) : FeedMove → Option Feed
  | .offer => f.offer?
  | .settle => f.settle?
  | .other (.offer _) | .other (.count _) | .other .shutdown => none
  | .other move => (f.pipeline.move? m move).map fun pipeline => { f with pipeline }

def run? (m : Method) (f : Feed) : List FeedMove → Option Feed
  | [] => some f
  | move :: moves => do (← f.move? m move).run? m moves

/-- Offers one superchunk and lets the pipeline come to rest. -/
def cycle (m : Method) (s : Schedule) (f : Feed) : Feed :=
  let f := f.offer?.getD f
  let f := f.settle?.getD f
  { f with pipeline := f.pipeline.settle m s }

def drain (m : Method) (s : Schedule) (f : Feed) : Feed :=
  f.pending.foldl (fun f _ => f.cycle m s) f

end Feed

end TpcTrigger
