import TpcTrigger.Decimal.Layout
import TpcTrigger.Files.Trouble
import TpcTrigger.Settings.Basic
import TpcTrigger.Text.Quoted

/-! # Checking settings

Settings are checked option by option in a fixed order, and the first that is out of its
limits is reported.  A filter passes if none of its outputs can leave the word range.
-/

namespace TpcTrigger

inductive CapacityOption where
  | queue
  | workerQueue
  | store
deriving Repr, DecidableEq, Inhabited

def CapacityOption.name : CapacityOption → String
  | queue => "queue_capacity"
  | workerQueue => "worker_queue_depth"
  | store => "hit_store_capacity"

inductive SettingsError where
  | missingFile (path : String)
  /-- The file cannot be read or written, or is no text. -/
  | fileTrouble (cause : FileTrouble)
  /-- The text is no settings document. -/
  | badDocument
  | windowTicks (found : Nat)
  | workers (found : Nat)
  | tapCount (found : Nat)
  | tapList (found expected : Nat)
  | tapOverflow (sum limit : Int)
  | tapExponent (found : Nat)
  | cutoff (found : Float)
  | stepLimit (found : Int)
  | zeroCapacity (option : CapacityOption)
deriving Repr

namespace SettingsError

def message : SettingsError → String
  | missingFile path => s!"Failed to load configuration as file {Quoted.encode path} does not exist"
  | fileTrouble cause => s!"Config failed due to IO error: {cause.message}"
  | badDocument => "Config failed to parse YAML"
  | windowTicks n =>
      s!"Window size {n} is invalid; must be a non-zero multiple of {superchunkTicks} " ++
        s!"no larger than {maxWindowTicks}"
  | workers n => s!"Number of workers {n} is invalid; must be between 1 and {registerCount}"
  | tapCount n =>
      s!"FIR tap count {n} is invalid; must be a power of two no larger than {maxTapCount}"
  | tapList found expected =>
      s!"Explicit FIR taps have length {found}; expected fir_tap_count = {expected}"
  | tapOverflow sum limit =>
      s!"FIR taps with absolute sum {sum} can overflow the filter output; the limit is {limit}"
  | tapExponent n => s!"Tap exponent {n} is invalid; must be between 0 and 14"
  | cutoff x => s!"FIR cutoff {DecimalLayout.plain.write x} is invalid; must be in (0, 0.5]"
  | stepLimit n => s!"Frugal step limit {n} is invalid; must be at least 1"
  | zeroCapacity option => s!"Capacity option {option.name} must be at least 1"

end SettingsError

namespace Settings

/-- Largest exponent for which the ceiling of the delay line leaves any room. -/
abbrev maxTapExponent : Nat := 14

def ensure (condition : Bool) (cause : SettingsError) : Except SettingsError Unit :=
  if condition then .ok () else .error cause

def isPowerOfTwo (n : Nat) : Bool := Nat.pow 2 n.log2 == n

/-- Whether a list of taps, if there is one, has the given length. -/
def tapsFit (s : Settings) : Bool :=
  match s.taps with
  | some taps => taps.size == s.tapCount
  | none => true

def check (s : Settings) : Except SettingsError Unit := do
  ensure
    (s.windowTicks ≠ 0 && s.windowTicks ≤ maxWindowTicks && s.windowTicks % superchunkTicks = 0)
    (.windowTicks s.windowTicks)
  ensure s.workersFit (.workers s.workers)
  ensure (isPowerOfTwo s.tapCount && s.tapCount ≤ maxTapCount) (.tapCount s.tapCount)
  ensure s.tapsFit (.tapList (s.taps.map Array.size |>.getD 0) s.tapCount)
  ensure (s.tapExponent ≤ maxTapExponent) (.tapExponent s.tapExponent)
  ensure (0.0 < s.cutoff && s.cutoff ≤ 0.5) (.cutoff s.cutoff)
  ensure (s.filter.tapSum ≤ s.filter.tapSumLimit)
    (.tapOverflow s.filter.tapSum s.filter.tapSumLimit)
  ensure (1 ≤ s.stepLimit) (.stepLimit s.stepLimit)
  ensure (s.queueCapacity ≠ 0) (.zeroCapacity .queue)
  ensure (s.workerQueueDepth ≠ 0) (.zeroCapacity .workerQueue)
  ensure (s.storeCapacity ≠ 0) (.zeroCapacity .store)

end Settings

end TpcTrigger
