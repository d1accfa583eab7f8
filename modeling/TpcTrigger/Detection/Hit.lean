import TpcTrigger.Geometry

/-! # Hits and trigger primitives

A hit is an excursion that has ended, counted in ticks of the window in which it ended.  A
trigger primitive is a hit together with the time of that window.
-/

namespace TpcTrigger

/-- An ended excursion of one channel. -/
structure Hit where
  channel : Nat
  /-- The first tick back under threshold, within the window. -/
  endTick : Nat
  charge : Int
  /-- Length of the excursion in ticks; it may have started in an earlier window. -/
  ticksOver : Int
deriving Repr, DecidableEq, Inhabited

/-- A hit and the time of the window in which it ended. -/
structure TriggerPrimitive where
  windowTime : UInt64
  hit : Hit
deriving Repr, DecidableEq, Inhabited

namespace TriggerPrimitive

def endTime (p : TriggerPrimitive) : Nat := p.windowTime.toNat + p.hit.endTick * clocksPerTick

/-- Time of the first tick over threshold, never before time zero. -/
def startTime (p : TriggerPrimitive) : Nat := p.endTime - p.hit.ticksOver.toNat * clocksPerTick

end TriggerPrimitive

end TpcTrigger
