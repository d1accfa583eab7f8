import TpcTrigger.Geometry

/-! # Continuity of the input

Consecutive superchunks of a link are a fixed number of clock ticks apart.  Time is a 64-bit
counter that starts again at zero.
-/

namespace TpcTrigger

/-- How the time of a superchunk compares with the one before it. -/
inductive Continuity where
  | first
  | contiguous
  | gap (expected found : UInt64)
deriving Repr, DecidableEq, Inhabited

structure ContinuityCheck where
  last : Option UInt64 := none
deriving Repr, DecidableEq, Inhabited

namespace ContinuityCheck

def compare (c : ContinuityCheck) (timestamp : UInt64) : Continuity :=
  match c.last with
  | none => .first
  | some last =>
    let expected := last + UInt64.ofNat superchunkClocks
    if expected = timestamp then .contiguous else .gap expected timestamp

/-- Takes in the time of the next superchunk. -/
def observe (c : ContinuityCheck) (timestamp : UInt64) : ContinuityCheck × Continuity :=
  (⟨some timestamp⟩, c.compare timestamp)

end ContinuityCheck

end TpcTrigger
