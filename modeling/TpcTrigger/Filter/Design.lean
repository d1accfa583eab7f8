import TpcTrigger.Filter.FixedPoint

/-! # Low-pass design

A low-pass filter is the sampled sine quotient of its cutoff under a raised-cosine window,
divided by its sum so that a constant passes unchanged.  The taps of a fixed-point filter are
the scaled values rounded to the nearest integer, a half away from zero, and held in word
range; what is no number becomes zero.
-/

namespace TpcTrigger.LowPass

def pi : Float := 3.141592653589793

/-- The raised-cosine window of `n` points; a single point has weight one. -/
def window (n : Nat) : Array Float :=
  if n = 1 then #[1.0]
  else .ofFn fun i : Fin n =>
    0.54 - 0.46 * Float.cos (2.0 * pi * i.val.toFloat / (n.toFloat - 1.0))

/-- The impulse response of the ideal low-pass at time `t`. -/
def sineQuotient (cutoff t : Float) : Float :=
  if t.abs < 1e-12 then 2.0 * cutoff else Float.sin (2.0 * pi * cutoff * t) / (pi * t)

/-- The windowed response of `n` points, before it is divided by its sum. -/
def response (n : Nat) (cutoff : Float) : Array Float :=
  let half := (n.toFloat - 1.0) / 2.0
  (window n).mapIdx fun i weight => sineQuotient cutoff (i.toFloat - half) * weight

/-- The response with unit sum; a response that sums to nearly nothing stays as it is. -/
def normalized (n : Nat) (cutoff : Float) : Array Float :=
  let taps := response n cutoff
  let sum := taps.foldl (· + ·) 0.0
  if sum.abs > 1e-12 then taps.map (· / sum) else taps

/-- The integer taps of a low-pass at a fixed-point scale. -/
def taps (n : Nat) (cutoff : Float) (exponent : Nat) : Array Int :=
  let scale := Float.ofInt (FirFilter.scale ⟨#[], exponent⟩)
  (normalized n cutoff).map fun t => (t * scale).round.toInt32.toInt

end TpcTrigger.LowPass

namespace TpcTrigger.FirFilter

/-- The low-pass of `n` taps with a cutoff given as a fraction of the sampling rate. -/
def lowPass (n : Nat) (cutoff : Float) (exponent : Nat) : FirFilter :=
  ⟨LowPass.taps n cutoff exponent, exponent⟩

end TpcTrigger.FirFilter
