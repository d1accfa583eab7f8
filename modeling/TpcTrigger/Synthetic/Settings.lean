import TpcTrigger.Frame.Header

/-! # Settings of synthetic streams

A synthetic stream has a fixed pedestal on every channel, noise around it and now and then a
square pulse.  Settings are usable if the pedestals have a range, the probability is one, and
pedestal, noise and pulse together fit a sample.
-/

namespace TpcTrigger

structure SyntheticSettings where
  link : Link := .zero
  /-- Time of the first superchunk. -/
  startTime : UInt64 := 0
  pedestalMin : Nat := 400
  pedestalMax : Nat := 900
  /-- The farthest that noise goes from the pedestal. -/
  noise : Nat := 4
  /-- How probable it is that a pulse starts at a tick of a channel. -/
  pulseProbability : Float := 0.0005
  pulseHeight : Nat := 300
  pulseTicks : Nat := 8
deriving Repr

inductive SyntheticError where
  | pedestalRange (low high : Nat)
  | probability (p : Float)
  | sampleRange (peak : Nat)
deriving Repr

namespace SyntheticSettings

def peak (s : SyntheticSettings) : Nat := s.pedestalMax + s.noise + s.pulseHeight

def check (s : SyntheticSettings) : Except SyntheticError Unit :=
  if s.pedestalMax < s.pedestalMin then .error (.pedestalRange s.pedestalMin s.pedestalMax)
  else if !(0.0 ≤ s.pulseProbability && s.pulseProbability ≤ 1.0) then
    .error (.probability s.pulseProbability)
  else if maxSample < s.peak then .error (.sampleRange s.peak)
  else .ok ()

end SyntheticSettings

end TpcTrigger
