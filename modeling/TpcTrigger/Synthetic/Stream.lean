import TpcTrigger.Random.Draw
import TpcTrigger.Superchunk
import TpcTrigger.Synthetic.Settings

/-! # Synthetic streams

What a channel sends depends on its settings, its pedestal, the pulse that is running on it
and a few draws.  Where the draws come from is a parameter, so that what holds of a stream
can be said for every outcome of them.
-/

namespace TpcTrigger

/-- Where the draws of a stream come from. -/
structure DrawSource (σ : Type) where
  /-- A number between two others, both included. -/
  pedestal : Nat → Nat → σ → Nat × σ
  /-- A number whose size is at most the given one. -/
  noise : Nat → σ → Int × σ
  /-- Whether an event of the given chance happens. -/
  pulse : Chance → σ → Bool × σ

def DrawSource.random : DrawSource WordStream where
  pedestal low high s := s.between low high
  noise size s := s.around size
  pulse chance s := chance.draw s

/-- The draws that one sample takes. -/
structure SampleDraws where
  /-- Two numbers whose mean, without its fraction, is the noise. -/
  first : Int
  second : Int
  pulse : Bool
deriving Repr, DecidableEq

/-- What one tick of a channel comes to. -/
structure Emission where
  sample : UInt16
  /-- Ticks that the running pulse goes on for. -/
  remaining : Nat
  started : Bool
deriving Repr, DecidableEq

namespace SyntheticSettings

def mayStart (s : SyntheticSettings) (remaining : Nat) : Bool :=
  remaining == 0 && decide (0 < s.pulseTicks)

def emit (s : SyntheticSettings) (pedestal remaining : Nat) (draws : SampleDraws) : Emission :=
  let started := s.mayStart remaining && draws.pulse
  let running := if started then s.pulseTicks else remaining
  let pulse := if 0 < running then s.pulseHeight else 0
  let value := (pedestal : Int) + (draws.first + draws.second).tdiv 2 + pulse
  { sample := UInt16.ofNat (max 0 (min (maxSample : Int) value)).toNat
    remaining := running - 1
    started }

end SyntheticSettings

/-- A synthetic stream that draws from a source with states `σ`. -/
structure Synthetic (σ : Type) where
  settings : SyntheticSettings
  chance : Chance
  draws : σ
  pedestals : Array Nat
  /-- Ticks that the pulse running on each channel goes on for. -/
  remaining : Array Nat
  nextTime : UInt64
  pulses : Nat := 0

namespace Synthetic

variable {σ : Type}

def drawPedestals (source : DrawSource σ) (s : SyntheticSettings) (channels : Nat) (draws : σ) :
    Array Nat × σ :=
  (List.range channels).foldl
    (fun (pedestals, draws) _ =>
      let (pedestal, draws) := source.pedestal s.pedestalMin s.pedestalMax draws
      (pedestals.push pedestal, draws))
    (#[], draws)

def start (source : DrawSource σ) (s : SyntheticSettings) (draws : σ) :
    Except SyntheticError (Synthetic σ) := do
  s.check
  let (pedestals, draws) := drawPedestals source s channelCount draws
  return {
    settings := s
    chance := .ofProbability s.pulseProbability
    draws
    pedestals
    remaining := .replicate channelCount 0
    nextTime := s.startTime }

/-- Makes the draws for one sample: two for the noise if there is any, and one for the pulse
if one may start. -/
def drawSample (source : DrawSource σ) (s : SyntheticSettings) (chance : Chance)
    (remaining : Nat) (draws : σ) : SampleDraws × σ :=
  let (first, second, draws) :=
    if 0 < s.noise then
      let (first, draws) := source.noise s.noise draws
      let (second, draws) := source.noise s.noise draws
      (first, second, draws)
    else (0, 0, draws)
  if s.mayStart remaining then
    let (pulse, draws) := source.pulse chance draws
    (⟨first, second, pulse⟩, draws)
  else (⟨first, second, false⟩, draws)

/-- A superchunk on its way: the samples so far, tick by tick. -/
structure Draft (σ : Type) where
  stream : Synthetic σ
  samples : Array UInt16

def Draft.step (source : DrawSource σ) (d : Draft σ) (channel : Nat) : Draft σ :=
  let g := d.stream
  let remaining := g.remaining[channel]?.getD 0
  let pedestal := g.pedestals[channel]?.getD 0
  let (sampleDraws, draws) := drawSample source g.settings g.chance remaining g.draws
  let e := g.settings.emit pedestal remaining sampleDraws
  let stream := { g with
    draws
    remaining := g.remaining.setIfInBounds channel e.remaining
    pulses := g.pulses + e.started.toNat }
  ⟨stream, d.samples.push e.sample⟩

/-- Draws the samples of one superchunk: every channel of a tick before the next tick. -/
def draft (source : DrawSource σ) (g : Synthetic σ) : Draft σ :=
  (List.range superchunkSamples).foldl (fun d i => d.step source (i % channelCount))
    ⟨g, .emptyWithCapacity superchunkSamples⟩

def next (source : DrawSource σ) (g : Synthetic σ) : ByteArray × Synthetic σ :=
  let ⟨stream, samples⟩ := g.draft source
  let sample channel tick := samples[tick * channelCount + channel]?.getD 0
  (Superchunk.encode g.settings.link g.nextTime sample,
    { stream with nextTime := g.nextTime + UInt64.ofNat superchunkClocks })

def take (source : DrawSource σ) : Nat → Synthetic σ → List ByteArray
  | 0, _ => []
  | n + 1, g =>
    let (bytes, g) := g.next source
    bytes :: take source n g

end Synthetic

end TpcTrigger
