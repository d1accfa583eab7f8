/-! # Watching for lag

An item that waited longer than a threshold shows that the consumer has fallen behind; the
first one that did not shows that it has caught up.
-/

namespace TpcTrigger

/-- How an item changes the state of lagging. -/
inductive LagChange where
  | steady
  | fellBehind
  | caughtUp
deriving Repr, DecidableEq, Inhabited

/-- Compares waiting times, in nanoseconds, with a threshold. -/
structure LagMonitor where
  threshold : Nat
  lagging : Bool := false
deriving Repr, DecidableEq, Inhabited

namespace LagMonitor

/-- Takes in the waiting time of one item. -/
def observe (m : LagMonitor) (latency : Nat) : LagMonitor × LagChange :=
  let late := decide (m.threshold < latency)
  let change :=
    match m.lagging, late with
    | false, true => .fellBehind
    | true, false => .caughtUp
    | _, _ => .steady
  ({ m with lagging := late }, change)

end LagMonitor

end TpcTrigger
