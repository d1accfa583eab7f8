import TpcTrigger.Decimal.Layout
import TpcTrigger.Settings.Basic

/-! # Settings as text

Settings are written as a YAML mapping with one option to a line, in a fixed order.  Items of
a list and the parts of a variant follow on lines of their own.
-/

namespace TpcTrigger

/-- Floating-point numbers in YAML: positional from five places behind the point to sixteen
before it, with a point after whole numbers. -/
def yamlDecimal : DecimalLayout where
  tie := .even
  positional top := decide (-5 ≤ top ∧ top < 16)
  pointZero := true
  notANumber := ".nan"
  infinite := ".inf"
  negativeInfinite := "-.inf"

def KernelKind.optionName : KernelKind → String
  | channelwise => "Scalar"
  | lockstep => "Vector"

/-- The value of an option, by the way in which it is written. -/
inductive OptionValue where
  | number (n : Int)
  | decimal (x : Float)
  | numbers (ns : Option (Array Int))
  | policy (p : SubmitPolicy)
  | kernel (k : KernelKind)
deriving Repr

/-- What is written behind the name of an option: the rest of its line and further lines. -/
def OptionValue.texts : OptionValue → String × List String
  | number n => (s!" {n}", [])
  | decimal x => (s!" {yamlDecimal.write x}", [])
  | numbers none => (" null", [])
  | numbers (some ns) => if ns.isEmpty then (" []", []) else ("", ns.toList.map fun n => s!"- {n}")
  | policy .failFast => (" FailFast", [])
  | policy (.block timeoutMs) => (" !Block", [s!"  timeout_ms: {timeoutMs}"])
  | kernel k => (s!" {k.optionName}", [])

namespace Settings

def options (s : Settings) : List (String × OptionValue) := [
  ("window_size_in_frames", .number s.windowTicks),
  ("n_workers", .number s.workers),
  ("queue_capacity", .number s.queueCapacity),
  ("worker_queue_depth", .number s.workerQueueDepth),
  ("fir_tap_count", .number s.tapCount),
  ("tap_exponent", .number s.tapExponent),
  ("fir_cutoff", .decimal s.cutoff),
  ("fir_taps", .numbers s.taps),
  ("threshold_factor", .number s.thresholdFactor),
  ("frugal_step_limit", .number s.stepLimit),
  ("hit_store_capacity", .number s.storeCapacity),
  ("readout_window_radius", .number s.readoutRadius),
  ("max_queue_latency_ms", .number s.maxLatencyMs),
  ("submit_policy", .policy s.submitPolicy),
  ("kernel", .kernel s.kernel)]

def lines (s : Settings) : List String :=
  s.options.flatMap fun (name, value) =>
    let (rest, more) := value.texts
    s!"{name}:{rest}" :: more

def render (s : Settings) : String := String.join (s.lines.map (· ++ "\n"))

end Settings

end TpcTrigger
