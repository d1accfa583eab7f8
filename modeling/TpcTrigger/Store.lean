import TpcTrigger.Detection.Hit

/-! # The primitive store

Trigger primitives are kept in order of arrival, up to a capacity; beyond it the oldest go.
Queries select by the time of the window and change nothing.
-/

namespace TpcTrigger

/-- A bounded store of trigger primitives, oldest first. -/
structure PrimitiveStore where
  capacity : Nat
  primitives : Array TriggerPrimitive := #[]
  /-- Primitives that had to go. -/
  evicted : Nat := 0
deriving Repr, DecidableEq, Inhabited

namespace PrimitiveStore

def size (s : PrimitiveStore) : Nat := s.primitives.size

def evict (s : PrimitiveStore) : PrimitiveStore :=
  let excess := s.size - s.capacity
  if excess = 0 then s
  else { s with primitives := s.primitives.extract excess, evicted := s.evicted + excess }

def pushBatch (s : PrimitiveStore) (windowTime : UInt64) (hits : Array Hit) : PrimitiveStore :=
  evict { s with primitives := s.primitives ++ hits.map fun h => ⟨windowTime, h⟩ }

/-- The primitives whose window starts between two times, both included. -/
def inRange (s : PrimitiveStore) (first last : UInt64) : Array TriggerPrimitive :=
  s.primitives.filter fun p => first ≤ p.windowTime ∧ p.windowTime ≤ last

end PrimitiveStore

end TpcTrigger
