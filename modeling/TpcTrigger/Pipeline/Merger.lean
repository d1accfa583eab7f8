import TpcTrigger.Pipeline.Worker
import TpcTrigger.Store

/-! # The merger

The merger takes one result from each worker in turn.  The k-th results of all workers belong
to the same window, so a full batch, joined in worker order, holds the hits of one window
ordered by channel.  It ends when a worker has left and nothing of it remains.
-/

namespace TpcTrigger

inductive MergerPhase where
  /-- Waiting for the result of the next worker. -/
  | collecting
  /-- A batch is in the store and is to be counted. -/
  | counting (hits faults : Nat)
  | stopped
deriving Repr, DecidableEq, Inhabited

/-- The state of the merger: the results of the first workers for the next window. -/
structure Merger where
  batch : List WindowResult := []
  phase : MergerPhase := .collecting
deriving Repr, DecidableEq, Inhabited

def batchHits (batch : List WindowResult) : Array Hit :=
  batch.foldl (fun hits r => hits ++ r.hits) #[]

def batchFaults (batch : List WindowResult) : Nat := batch.countP (·.faulted)

def batchTime (batch : List WindowResult) : UInt64 := (batch.head?.map (·.timestamp)).getD 0

end TpcTrigger
