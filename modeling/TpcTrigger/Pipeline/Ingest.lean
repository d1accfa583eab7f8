import TpcTrigger.Pipeline.Fifo

/-! # The ingest queue

Raw superchunks wait in a bounded queue until the dispatcher takes them.  A submission that
finds no room, or nobody on the other side, hands its buffer back.  The request to stop waits
in the same queue behind everything submitted before it; a queue whose sending side is gone
reads as that request.
-/

namespace TpcTrigger

/-- How long a submission waits for room before it counts as refused. -/
inductive SubmitPolicy where
  | failFast
  | block (timeoutMs : Nat)
deriving Repr, DecidableEq, Inhabited

inductive Task where
  /-- A raw superchunk and the time in its first header. -/
  | superchunk (timestamp : UInt64) (bytes : ByteArray)
  | shutdown
deriving Inhabited

abbrev IngestQueue := Fifo Task

namespace IngestQueue

/-- Submits a superchunk.  There is no new queue if it is refused once its time is up. -/
def submit? (q : IngestQueue) (timestamp : UInt64) (bytes : ByteArray) : Option IngestQueue :=
  match q.send (.superchunk timestamp bytes) with
  | .done q => some q
  | .full | .closed => none

/-- Takes the next task; there is none while the queue is empty and its sending side is open. -/
def next? (q : IngestQueue) : Option (Task × IngestQueue) :=
  match q.receive with
  | .item task q => some (task, q)
  | .closed => some (.shutdown, q)
  | .empty => none

end IngestQueue

end TpcTrigger
