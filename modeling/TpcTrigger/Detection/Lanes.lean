import TpcTrigger.Geometry
import TpcTrigger.Word

/-! # Lanes

Sixteen numbers that are worked on in lockstep, and masks that choose among them.  Every
operation treats each lane on its own, without a branch on its value: a mask is all ones or
all zeros in every lane, so counting by a mask adds or subtracts it and choosing by a mask
joins the bits that it leaves of both values.
-/

namespace TpcTrigger

/-- The bits that two numbers share, in two's complement. -/
def bitAnd : Int → Int → Int
  | .ofNat m, .ofNat n => .ofNat (m &&& n)
  | .ofNat m, .negSucc n => .ofNat (m ^^^ (m &&& n))
  | .negSucc m, .ofNat n => .ofNat (n ^^^ (n &&& m))
  | .negSucc m, .negSucc n => .negSucc (m ||| n)

/-- The bits of either of two numbers, in two's complement. -/
def bitOr (x y : Int) : Int := ~~~bitAnd (~~~x) (~~~y)

@[simp] theorem bitAnd_zero (x : Int) : bitAnd x 0 = 0 := by
  cases x with
  | ofNat m => exact congrArg Int.ofNat (Nat.and_zero m)
  | negSucc m => exact congrArg Int.ofNat (by rw [Nat.zero_and, Nat.xor_zero])

@[simp] theorem bitAnd_neg_one (x : Int) : bitAnd x (-1) = x := by
  cases x with
  | ofNat m => exact congrArg Int.ofNat (by rw [Nat.and_zero, Nat.xor_zero])
  | negSucc m => exact congrArg Int.negSucc (Nat.or_zero m)

theorem complement_complement (x : Int) : ~~~(~~~x) = x := by
  cases x <;> rfl

@[simp] theorem bitOr_zero (x : Int) : bitOr x 0 = x := by
  rw [bitOr, show ~~~(0 : Int) = -1 from rfl, bitAnd_neg_one, complement_complement]

@[simp] theorem zero_bitOr (x : Int) : bitOr 0 x = x := by
  cases x with
  | ofNat m => exact congrArg Int.ofNat (Nat.zero_or m)
  | negSucc m => exact congrArg Int.negSucc (by rw [Nat.and_zero, Nat.xor_zero])

abbrev Lanes (α : Type) := Vector α lanesPerRegister

/-- A mask: every lane is all ones or all zeros. -/
structure Mask where
  words : Lanes Int
  uniform : ∀ (l : Nat) (_ : l < lanesPerRegister), words[l] = 0 ∨ words[l] = -1
deriving Repr, DecidableEq

namespace Mask

def ofBools (bits : Lanes Bool) : Mask where
  words := bits.map fun bit => -bit.toInt
  uniform l hl := by
    rw [Vector.getElem_map]
    cases bits[l] <;> decide

def test (m : Mask) (l : Fin lanesPerRegister) : Bool := m.words.get l != 0

def full : Mask where
  words := .replicate lanesPerRegister (-1)
  uniform _ hl := .inr (Vector.getElem_replicate hl)

def both (m n : Mask) : Mask where
  words := m.words.zipWith bitAnd n.words
  uniform l hl := by
    rw [Vector.getElem_zipWith]
    rcases m.uniform l hl with hm | hm <;> rcases n.uniform l hl with hn | hn <;>
      rw [hm, hn] <;> decide

def either (m n : Mask) : Mask where
  words := m.words.zipWith bitOr n.words
  uniform l hl := by
    rw [Vector.getElem_zipWith]
    rcases m.uniform l hl with hm | hm <;> rcases n.uniform l hl with hn | hn <;>
      rw [hm, hn] <;> decide

def invert (m : Mask) : Mask where
  words := m.words.map (~~~·)
  uniform l hl := by
    rw [Vector.getElem_map]
    rcases m.uniform l hl with h | h <;> rw [h] <;> decide

end Mask

namespace Lanes

def splat {α : Type} (a : α) : Lanes α := .replicate lanesPerRegister a

/-- Lane by lane, whether the first value is less than the second. -/
def less (a b : Lanes Int) : Mask := .ofBools (a.zipWith (fun x y => decide (x < y)) b)

/-- Lane by lane, whether the first value is at most the second. -/
def atLeast (a b : Lanes Int) : Mask := .ofBools (a.zipWith (fun x y => decide (y ≤ x)) b)

def replace (a : Lanes Int) (m : Mask) (b : Lanes Int) : Lanes Int :=
  (b.zipWith bitAnd m.words).zipWith bitOr (a.zipWith bitAnd m.invert.words)

/-- One more in every masked lane: a set lane of a mask is minus one. -/
def increment (a : Lanes Int) (m : Mask) : Lanes Int := a.zipWith (· - ·) m.words

def decrement (a : Lanes Int) (m : Mask) : Lanes Int := a.zipWith (· + ·) m.words

def tally (a : Lanes Int) (m : Mask) : Lanes Int := a.replace m ((a.increment m).map wrap)

def add (a b : Lanes Int) : Lanes Int := a.zipWith (fun x y => wrap (x + y)) b

def sub (a b : Lanes Int) : Lanes Int := a.zipWith (fun x y => wrap (x - y)) b

def atMost (a : Lanes Int) (bound : Int) : Lanes Int := a.map (min · bound)

def scaleBy (a : Lanes Int) (factor : Int) : Lanes Int := a.map fun x => wrap (factor * x)

end Lanes

end TpcTrigger
