/-! # Binary floating-point numbers

A 64-bit floating-point number is a sign, a whole number below `2 ^ 53` and a power of two;
or one of the infinities; or no number.  This module takes the bits apart, so that what is
said about the digits of a number is said in whole numbers.
-/

namespace TpcTrigger

/-- A 64-bit floating-point number, taken apart. -/
inductive Binary where
  | notANumber
  | infinite (negative : Bool)
  /-- The number `mantissa * 2 ^ exponent`, with its sign. -/
  | finite (negative : Bool) (mantissa : Nat) (exponent : Int)
deriving Repr, DecidableEq, Inhabited

namespace Binary

/-- The leading bit of a mantissa of full width, `2 ^ 52`; it is not stored. -/
abbrev hiddenBit : Nat := 0x10000000000000

def ofBits (bits : UInt64) : Binary :=
  let n := bits.toNat
  let negative := n >>> 63 % 2 == 1
  let field := n / hiddenBit % 2048
  let fraction := n % hiddenBit
  if field = 2047 then
    if fraction = 0 then .infinite negative else .notANumber
  else if field = 0 then .finite negative fraction (-1074)
  else .finite negative (hiddenBit + fraction) (Int.ofNat field - 1075)

def ofFloat (x : Float) : Binary := ofBits x.toBits

/-- The whole part of a finite number, its fraction dropped. -/
def truncate? : Binary → Option Int
  | finite negative mantissa exponent =>
      let size : Nat :=
        match exponent with
        | .ofNat e => mantissa * Nat.pow 2 e
        | .negSucc e => mantissa / Nat.pow 2 (e + 1)
      some (if negative then -(size : Int) else size)
  | _ => none

end Binary

end TpcTrigger
