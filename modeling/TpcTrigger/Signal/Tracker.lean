import TpcTrigger.Word

/-! # Frugal trackers

A tracker follows a level of a stream with two small numbers.  Samples above the estimate
count for it and samples below count against it; when the balance reaches the limit in either
direction, the estimate moves one step that way and the count starts again.

A baseline runs three of them on one channel: one follows the median, and the two quartiles
only see the samples that lie on their side of it.

Balances and estimates are counted without wrapping.  Once a tracker has been started and its limit
is positive, its balance keeps below the limit and its estimate keeps among the samples that it has
seen, so neither comes near an end of the word range.
-/

namespace TpcTrigger

/-- An estimate of a level and the balance of samples above and below it. -/
structure Tracker where
  estimate : Int
  balance : Int
deriving Repr, DecidableEq, Inhabited

namespace Tracker

def start (level : Int) : Tracker := ⟨level, 0⟩

def weigh (t : Tracker) (sample : Int) : Tracker :=
  { t with
    balance := t.balance + (if t.estimate < sample then 1 else 0)
      - (if sample < t.estimate then 1 else 0) }

def stepUp (limit : Int) (t : Tracker) : Tracker :=
  if limit ≤ t.balance then ⟨t.estimate + 1, 0⟩ else t

/-- Steps down once the balance has reached the limit below zero. -/
def stepDown (limit : Int) (t : Tracker) : Tracker :=
  if t.balance ≤ -limit then ⟨t.estimate - 1, 0⟩ else t

/-- Takes in one sample: the balance that an upward step leaves decides on a downward one. -/
def observe (limit : Int) (t : Tracker) (sample : Int) : Tracker :=
  (t.weigh sample).stepUp limit |>.stepDown limit

end Tracker

/-- The median and the quartiles of one channel. -/
structure Baseline where
  median : Tracker
  lower : Tracker
  upper : Tracker
deriving Repr, DecidableEq, Inhabited

namespace Baseline

def start (sample : Int) : Baseline := ⟨.start sample, .start sample, .start sample⟩

/-- Takes in one sample.  The quartiles compare it with the median after its own step. -/
def observe (limit : Int) (b : Baseline) (sample : Int) : Baseline :=
  let median := b.median.observe limit sample
  { median
    lower := if sample < median.estimate then b.lower.observe limit sample else b.lower
    upper := if median.estimate < sample then b.upper.observe limit sample else b.upper }

def pedestal (b : Baseline) : Int := b.median.estimate

/-- Distance between the quartiles, the measure of noise. -/
def spread (b : Baseline) : Int := wrap (b.upper.estimate - b.lower.estimate)

end Baseline

end TpcTrigger
