/-! # Reading numerals

Digit strings to a base, and decimal numerals with a fraction and an exponent.  A numeral
beyond the range of floating-point numbers reads as infinite.
-/

namespace TpcTrigger.Numeral

/-- The value of a digit, up to `z` for thirty-five, in either case. -/
def digit? (c : Char) : Option Nat :=
  if '0' ≤ c ∧ c ≤ '9' then some (c.toNat - '0'.toNat)
  else if 'a' ≤ c ∧ c ≤ 'z' then some (c.toNat - 'a'.toNat + 10)
  else if 'A' ≤ c ∧ c ≤ 'Z' then some (c.toNat - 'A'.toNat + 10)
  else none

def isDigit (c : Char) : Bool := '0' ≤ c ∧ c ≤ '9'

/-- The greatest number that digits to a base are read as. -/
def maxWhole : Nat := UInt64.size - 1

def continueBase (base : Nat) : Nat → List Char → Option Nat
  | n, [] => some n
  | n, c :: cs => do
    let d ← digit? c
    let n := n * base + d
    if d < base ∧ n ≤ maxWhole then continueBase base n cs else none

/-- The number that a string of digits to a base stands for; there must be one digit. -/
def ofBase? (base : Nat) (cs : List Char) : Option Nat :=
  if cs.isEmpty then none else continueBase base 0 cs

def ofDecimals (digits : List Char) : Nat :=
  digits.foldl (fun n c => n * 10 + (digit? c).getD 0) 0

def splitSign : List Char → Bool × List Char
  | '-' :: cs => (true, cs)
  | '+' :: cs => (false, cs)
  | cs => (false, cs)

/-- The size from which an exponent is far enough from all that matters: further digits of it are
passed over. -/
def fullExponent : Nat := 65536

def exponentSize? (digits : List Char) : Option Nat :=
  if digits.isEmpty || !digits.all isDigit then none
  else some (digits.foldl (fun n c => if n < fullExponent then n * 10 + (digit? c).getD 0 else n) 0)

/-- The exponent part of a numeral: nothing, or a mark, a sign and digits. -/
def exponent? : List Char → Option Int
  | [] => some 0
  | c :: cs =>
    if c = 'e' ∨ c = 'E' then
      let (negative, digits) := splitSign cs
      (exponentSize? digits).map fun n => if negative then -(n : Int) else n
    else none

/-- A number of decimal digits beyond which every numeral is infinite or zero. -/
def farExponent : Int := 400

def toFloat (digits : Nat) (exponent : Int) : Float :=
  let top := exponent + (Nat.toDigits 10 digits).length
  if digits = 0 ∨ top < -farExponent then 0.0
  else if farExponent < top then 1.0 / 0.0
  else
    match exponent with
    | .ofNat e => Float.ofScientific (digits * Nat.pow 10 e) false 0
    | .negSucc e => Float.ofScientific digits true (e + 1)

/-- The most digits, from the first that is not zero on, that a floating-point number is told
from its neighbours by.  What comes behind them matters only if it is not zero. -/
def tellingDigits : Nat := 800

/-- The number nearest to what decimal digits stand for, times a power of ten. -/
def ofDecimalsTimes (digits : List Char) (exponent : Int) : Float :=
  let (telling, rest) := (digits.dropWhile (· = '0')).splitAt tellingDigits
  let n := ofDecimals telling
  let exponent := exponent + rest.length
  if rest.all (· = '0') then toFloat n exponent else toFloat (n * 10 + 1) (exponent - 1)

/-- Reads a decimal numeral: a sign, digits with at most one point among them, at least one
digit, and an exponent. -/
def float? (cs : List Char) : Option Float := do
  let (negative, cs) := splitSign cs
  let whole := cs.takeWhile isDigit
  let cs := cs.dropWhile isDigit
  let (fraction, cs) :=
    match cs with
    | '.' :: rest => (rest.takeWhile isDigit, rest.dropWhile isDigit)
    | _ => ([], cs)
  if whole.isEmpty && fraction.isEmpty then none
  else
    let exponent ← exponent? cs
    let x := ofDecimalsTimes (whole ++ fraction) (exponent - fraction.length)
    return if negative then -x else x

end TpcTrigger.Numeral
