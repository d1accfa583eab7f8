import TpcTrigger.Geometry

/-! # Sample blocks

Decoded samples are kept register by register, within a register tick by tick, and within a
tick lane by lane, so the sixteen lanes of a register at one tick lie next to each other.
The readers check the place of a sample in this order only: a tick past the last one reads on
into the next register, and past the last register there is nothing.
-/

namespace TpcTrigger

/-- The samples of every channel over a number of ticks. -/
structure SampleBlock (ticks : Nat) where
  cells : Vector UInt16 (channelCount * ticks)
deriving Repr, DecidableEq

namespace SampleBlock

def lanesStart (ticks register tick : Nat) : Nat := (register * ticks + tick) * lanesPerRegister

def place (ticks channel tick : Nat) : Nat :=
  lanesStart ticks (channel / lanesPerRegister) tick + channel % lanesPerRegister

/-- The block that holds `f channel tick` for every channel and tick. -/
def ofFn (ticks : Nat) (f : Nat → Nat → UInt16) : SampleBlock ticks where
  cells := .ofFn fun i =>
    f (i / lanesPerRegister / ticks * lanesPerRegister + i % lanesPerRegister)
      (i / lanesPerRegister % ticks)

def sample? {ticks : Nat} (b : SampleBlock ticks) (channel tick : Nat) : Option UInt16 :=
  b.cells[place ticks channel tick]?

def sample {ticks : Nat} (b : SampleBlock ticks) (channel tick : Nat) : UInt16 :=
  (b.sample? channel tick).getD 0

def lanes? {ticks : Nat} (b : SampleBlock ticks) (register tick : Nat) :
    Option (Vector UInt16 lanesPerRegister) :=
  if h : lanesStart ticks register tick + lanesPerRegister ≤ channelCount * ticks then
    some (.ofFn fun lane => b.cells[lanesStart ticks register tick + lane])
  else none

def channelSamples {ticks : Nat} (b : SampleBlock ticks) (channel : Nat) : List UInt16 :=
  (List.range ticks).map (b.sample channel)

@[simp] theorem channelSamples_length {ticks : Nat} (b : SampleBlock ticks) (channel : Nat) :
    (b.channelSamples channel).length = ticks := by
  simp [channelSamples]

end SampleBlock

end TpcTrigger
