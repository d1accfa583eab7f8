import TpcTrigger.Pipeline.Flow
import TpcTrigger.Pipeline.Partition
import TpcTrigger.Settings.Basic

/-! # Starting a pipeline

A pipeline starts with empty queues, one worker for every range of the partition and an empty
store.
-/

namespace TpcTrigger

namespace Settings

def method (s : Settings) (kernel : Kernel) : Method := ⟨kernel, s.detectorParams⟩

/-- The workers of a pipeline, in the order of their registers. -/
def nodes (s : Settings) : List WorkerNode :=
  (Partition.ranges s.workers).zipIdx.map fun (registers, id) =>
    { worker := .fresh s.detectorParams id registers
      inbox := .bounded s.workerQueueDepth
      outbox := .bounded s.workerQueueDepth }

end Settings

namespace Pipeline

def start (s : Settings) : Pipeline where
  queue := .bounded s.queueCapacity
  dispatcher :=
    { workers := s.nodes.length
      assembly := { perWindow := s.superchunksPerWindow }
      lag := ⟨s.maxLatency, false⟩ }
  nodes := s.nodes.toArray
  store := { capacity := s.storeCapacity }

end Pipeline

end TpcTrigger
