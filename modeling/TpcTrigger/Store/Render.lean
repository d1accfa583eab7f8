import TpcTrigger.Store

/-! # Primitives as text

Primitives are written as a YAML list of mappings, one part to a line.
-/

namespace TpcTrigger

def TriggerPrimitive.lines (p : TriggerPrimitive) : List String := [
  s!"- window_timestamp: {p.windowTime}",
  s!"  channel: {p.hit.channel}",
  s!"  end_index: {p.hit.endTick}",
  s!"  charge: {p.hit.charge}",
  s!"  time_over_threshold: {p.hit.ticksOver}"]

def renderPrimitives (ps : Array TriggerPrimitive) : String :=
  if ps.isEmpty then "[]\n"
  else String.join (ps.toList.flatMap fun p => p.lines.map (· ++ "\n"))

end TpcTrigger
