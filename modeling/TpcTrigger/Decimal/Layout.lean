import TpcTrigger.Decimal.Shortest

/-! # Decimal layouts

How a shortest decimal is chosen and written: what becomes of a tie, where positional notation
gives way to an exponent, whether whole numbers keep a point, and the texts of what is not
finite.
-/

namespace TpcTrigger

structure DecimalLayout where
  tie : DecimalTie
  /-- Whether a leading digit at this power of ten is written positionally. -/
  positional : Int → Bool
  /-- Whether whole numbers end in a point and a zero. -/
  pointZero : Bool
  notANumber : String
  infinite : String
  negativeInfinite : String

namespace DecimalLayout

/-- Positional notation throughout, with no point after whole numbers. -/
def plain : DecimalLayout where
  tie := .up
  positional _ := true
  pointZero := false
  notANumber := "NaN"
  infinite := "inf"
  negativeInfinite := "-inf"

def zeros (n : Nat) : List Char := List.replicate n '0'

def significant (digits : Nat) : List Char :=
  ((Nat.toDigits 10 digits).reverse.dropWhile (· == '0')).reverse

/-- Writes digits whose leading one stands at the power of ten `top` with a point. -/
def writePositional (pointZero : Bool) (digits : List Char) (top : Int) : List Char :=
  match top with
  | .ofNat e =>
      let whole := digits.take (e + 1) ++ zeros (e + 1 - digits.length)
      match digits.drop (e + 1) with
      | [] => if pointZero then whole ++ ['.', '0'] else whole
      | fraction => whole ++ '.' :: fraction
  | .negSucc e => '0' :: '.' :: (zeros e ++ digits)

def writeExponent (digits : List Char) (top : Int) : List Char :=
  let exponent := 'e' :: (toString top).toList
  match digits with
  | [] => exponent
  | [d] => d :: exponent
  | d :: ds => d :: '.' :: (ds ++ exponent)

def writeDecimal (layout : DecimalLayout) (d : Decimal) : List Char :=
  if d.digits = 0 then if layout.pointZero then ['0', '.', '0'] else ['0']
  else
    let top := d.exponent + ((Nat.toDigits 10 d.digits).length - 1)
    let digits := significant d.digits
    if layout.positional top then writePositional layout.pointZero digits top
    else writeExponent digits top

def write (layout : DecimalLayout) (x : Float) : String :=
  match Binary.ofFloat x with
  | .notANumber => layout.notANumber
  | .infinite negative => if negative then layout.negativeInfinite else layout.infinite
  | .finite negative mantissa exponent =>
      let text := layout.writeDecimal (.ofFinite layout.tie mantissa exponent)
      String.ofList (if negative then '-' :: text else text)

end DecimalLayout

end TpcTrigger
