import TpcTrigger.Decimal.Binary

/-! # Shortest decimals

The decimal text of a floating-point number has the fewest digits that read back as the same
number, and of these decimals the nearest.  Two may be equally near, and then a notation
chooses.  A decimal reads back if it lies between the midpoints to the two neighbours of the
number; the midpoints themselves read back when the mantissa is even.  Every comparison is
made in whole numbers.
-/

namespace TpcTrigger

/-- The decimal `digits * 10 ^ exponent`. -/
structure Decimal where
  digits : Nat
  exponent : Int
deriving Repr, DecidableEq, Inhabited

/-- Which of two decimals that are equally near is taken. -/
inductive DecimalTie where
  /-- The greater one. -/
  | up
  /-- The one whose last digit is even. -/
  | even
deriving Repr, DecidableEq, Inhabited

/-- Whether the greater of two equally near decimals is taken, of which the other one has the
given digits. -/
def DecimalTie.goesUp : DecimalTie → Nat → Bool
  | up, _ => true
  | even, digits => digits % 2 = 1

/-- A positive number and the midpoints to its neighbours, all as multiples of one unit
`2 ^ exponent`. -/
structure RoundingInterval where
  low : Nat
  value : Nat
  high : Nat
  exponent : Int
  /-- Whether the midpoints belong to the number. -/
  closed : Bool
deriving Repr, DecidableEq

namespace RoundingInterval

/-- The interval of the number `mantissa * 2 ^ exponent`.

Below a power of two the neighbours are half as far apart, save at the least exponent. -/
def ofFinite (mantissa : Nat) (exponent : Int) : RoundingInterval where
  low :=
    if mantissa = Binary.hiddenBit ∧ exponent ≠ -1074 then 4 * mantissa - 1 else 4 * mantissa - 2
  value := 4 * mantissa
  high := 4 * mantissa + 2
  exponent := exponent - 2
  closed := mantissa % 2 = 0

/-- Brings the interval and the grid of step `10 ^ step` to whole numbers: what a multiple of
the unit and what a multiple of the step is to be multiplied by. -/
def common (i : RoundingInterval) (step : Int) : Nat × Nat :=
  (Nat.pow 2 i.exponent.toNat * Nat.pow 10 (-step).toNat,
    Nat.pow 2 (-i.exponent).toNat * Nat.pow 10 step.toNat)

/-- Whether the decimal `digits * 10 ^ step` reads back as the number. -/
def holds (i : RoundingInterval) (step : Int) (digits : Nat) : Bool :=
  let (unit, grid) := i.common step
  let low := i.low * unit
  let high := i.high * unit
  let point := digits * grid
  if i.closed then decide (low ≤ point ∧ point ≤ high) else decide (low < point ∧ point < high)

/-- The decimal on the grid of step `10 ^ step` that reads back and is nearest to the number. -/
def nearest? (tie : DecimalTie) (i : RoundingInterval) (step : Int) : Option Nat :=
  let (unit, grid) := i.common step
  let value := i.value * unit
  let below := value / grid
  let rest := value % grid
  match i.holds step below, i.holds step (below + 1) with
  | true, true =>
    let goesUp := if 2 * rest = grid then tie.goesUp below else decide (grid < 2 * rest)
    some (if goesUp then below + 1 else below)
  | true, false => some below
  | false, true => some (below + 1)
  | false, false => none

def reaches (i : RoundingInterval) (power : Int) : Bool :=
  let (unit, grid) := i.common power
  decide (grid ≤ i.value * unit)

/-- The power of ten of the leading digit. -/
def magnitude (i : RoundingInterval) : Int :=
  let guess := (Int.ofNat i.value.log2 + i.exponent) * 30103 / 100000
  if i.reaches (guess + 1) then guess + 1 else if i.reaches guess then guess else guess - 1

/-- The shortest decimal: the coarsest grid of one to seventeen digits that holds one. -/
def shortest (tie : DecimalTie) (i : RoundingInterval) : Decimal :=
  let top := i.magnitude
  let found := (List.range 17).findSome? fun (n : Nat) =>
    (i.nearest? tie (top - n)).map fun digits => (⟨digits, top - n⟩ : Decimal)
  found.getD ⟨i.value, 0⟩

end RoundingInterval

def Decimal.ofFinite (tie : DecimalTie) (mantissa : Nat) (exponent : Int) : Decimal :=
  if mantissa = 0 then ⟨0, 0⟩ else (RoundingInterval.ofFinite mantissa exponent).shortest tie

end TpcTrigger
