import TpcTrigger.Geometry
import TpcTrigger.Word

/-! # Fixed-point filters

Filter taps are integers scaled by a power of two.  The scale is one shifted left in a signed
word, so the exponent counts modulo the bits of the word and 31 gives the least word; divisions
drop the fraction.  A filter whose taps are small enough can never leave the word range on samples
that fit the readout.
-/

namespace TpcTrigger

/-- An integer filter: its taps, oldest sample first, and the exponent of their scale. -/
structure FirFilter where
  taps : Array Int
  exponent : Nat
deriving Repr, DecidableEq, Inhabited

namespace FirFilter

def length (f : FirFilter) : Nat := f.taps.size

def scale (f : FirFilter) : Int := wrap (Nat.pow 2 (f.exponent % wordBits))

/-- Largest sample over the pedestal that is fed into the delay line. -/
def ceiling (f : FirFilter) : Int := Int.tdiv 32767 f.scale

def tapSum (f : FirFilter) : Int := f.taps.foldl (fun sum tap => sum + tap.natAbs) 0

/-- Largest tap sum for which no output leaves the word range.

An entry of the delay line is at most the ceiling above and a full sample below zero. -/
def tapSumLimit (f : FirFilter) : Int := Int.tdiv maxWord (max f.ceiling maxSample)

end FirFilter

end TpcTrigger
