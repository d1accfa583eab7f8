import TpcTrigger.Detection.Hit
import TpcTrigger.Filter.FixedPoint
import TpcTrigger.Signal.DelayLine
import TpcTrigger.Signal.Excursion
import TpcTrigger.Signal.Tracker

/-! # Hit finding on one channel

At every tick a channel takes in one sample.  The baseline moves first; the filter output is
that of the delay line before the sample, which then enters it, less the pedestal and cut at
the ceiling; the output is compared with a threshold that follows the noise; and the
comparison opens, extends or closes an excursion.
-/

namespace TpcTrigger

/-- What a hit finder is set to. -/
structure DetectorParams where
  filter : FirFilter
  thresholdFactor : Int
  stepLimit : Int
deriving Repr, DecidableEq, Inhabited

/-- The settings of a hit finder with the filter's constants worked out. -/
structure Detector where
  taps : Array Int
  exponent : Nat
  scale : Int
  ceiling : Int
  thresholdFactor : Int
  stepLimit : Int
deriving Repr, DecidableEq, Inhabited

namespace DetectorParams

def detector (p : DetectorParams) : Detector where
  taps := p.filter.taps
  exponent := p.filter.exponent
  scale := p.filter.scale
  ceiling := p.filter.ceiling
  thresholdFactor := p.thresholdFactor
  stepLimit := p.stepLimit

end DetectorParams

namespace Detector

/-- The threshold at a given noise, held in word range at each of its two products. -/
def threshold (d : Detector) (spread : Int) : Int :=
  saturatingMul (saturatingMul spread d.scale) d.thresholdFactor

/-- The height that a filter output adds to a charge, rounded down. -/
def height (d : Detector) (output : Int) : Int := output >>> (d.exponent % wordBits)

end Detector

/-- The state that a channel carries from tick to tick and from window to window. -/
structure ChannelState where
  baseline : Baseline
  line : DelayLine
  excursion : Excursion
deriving Repr, DecidableEq, Inhabited

namespace ChannelState

def fresh (taps : Nat) : ChannelState := ⟨.start 0, .zeros taps, .none⟩

/-- Starts the baseline again from one sample; delay line and excursion stay. -/
def seed (s : ChannelState) (sample : UInt16) : ChannelState :=
  { s with baseline := .start sample.toNat }

def output (s : ChannelState) (d : Detector) : Int := s.line.output d.taps

def isOver (s : ChannelState) (d : Detector) (sample : Int) : Bool :=
  d.threshold (s.baseline.observe d.stepLimit sample).spread < s.output d

def step (d : Detector) (s : ChannelState) (sample : Int) : ChannelState × Option Excursion :=
  let output := s.output d
  let baseline := s.baseline.observe d.stepLimit sample
  let above := d.threshold baseline.spread < output
  ({ baseline
     line := s.line.push (min (wrap (sample - baseline.pedestal)) d.ceiling)
     excursion := s.excursion.step above (d.height output) },
    s.excursion.closed? above)

end ChannelState

/-- A channel on its way through a window. -/
structure ChannelWalk where
  state : ChannelState
  tick : Nat
  hits : Array Hit
deriving Repr, DecidableEq

namespace ChannelWalk

/-- Walks over one sample of a channel; a closed excursion becomes a hit. -/
def step (d : Detector) (channel : Nat) (w : ChannelWalk) (sample : UInt16) : ChannelWalk :=
  let (state, closed) := w.state.step d sample.toNat
  { state
    tick := w.tick + 1
    hits := match closed with
      | some e => w.hits.push ⟨channel, w.tick, e.charge, e.ticks⟩
      | none => w.hits }

def run (d : Detector) (channel : Nat) (w : ChannelWalk) (samples : List UInt16) : ChannelWalk :=
  samples.foldl (step d channel) w

end ChannelWalk

end TpcTrigger
