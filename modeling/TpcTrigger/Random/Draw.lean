import TpcTrigger.Random.WordStream

/-! # Draws

A number below `n` is the high half of the product of `n` and a random word; words whose low
half lies beyond a zone are drawn again, so that no number is favoured.  There are two zones
in use: the widest fair one, and one that is cheaper to compute.  An event of a given
probability happens when a double word stays below the probability scaled to its range.
-/

namespace TpcTrigger

abbrev wordRange : Nat := 4294967296

namespace WordStream

def widestZone (n : Nat) : Nat := wordRange - 1 - (wordRange - n) % n

/-- The zone made of the bits of `n` moved up as far as they go. -/
def shiftedZone (n : Nat) : Nat := n <<< (31 - n.log2) - 1

/-- The most words drawn for one number.  At least every second word lies in the zone. -/
def drawLimit : Nat := 128

def belowWithin (zone n : Nat) : Nat → WordStream → Nat × WordStream
  | 0, s =>
    let (word, s) := s.next
    (word.toNat * n / wordRange, s)
  | fuel + 1, s =>
    let (word, s) := s.next
    let product := word.toNat * n
    if product % wordRange ≤ zone then (product / wordRange, s) else belowWithin zone n fuel s

def below (s : WordStream) (zone n : Nat) : Nat × WordStream := belowWithin zone n drawLimit s

def between (s : WordStream) (low high : Nat) : Nat × WordStream :=
  let n := high - low + 1
  let (k, s) := s.below (widestZone n) n
  (low + k, s)

def around (s : WordStream) (size : Nat) : Int × WordStream :=
  let n := 2 * size + 1
  let (k, s) := s.below (shiftedZone n) n
  ((k : Int) - size, s)

theorem belowWithin_lt (zone n fuel : Nat) (pos : 0 < n) (s : WordStream) :
    (belowWithin zone n fuel s).1 < n := by
  induction fuel generalizing s with
  | zero =>
    have h := s.next.1.toNat_lt
    exact Nat.div_lt_of_lt_mul (Nat.mul_lt_mul_of_pos_right h pos)
  | succ fuel ih =>
    have h := s.next.1.toNat_lt
    rw [belowWithin]
    dsimp only
    split
    · exact Nat.div_lt_of_lt_mul (Nat.mul_lt_mul_of_pos_right h pos)
    · exact ih _

end WordStream

inductive Chance where
  | certain
  /-- The event happens when a double word is less than the bound. -/
  | below (bound : UInt64)
deriving Repr, DecidableEq, Inhabited

namespace Chance

def ofProbability (p : Float) : Chance :=
  if p == 1.0 then certain else below (p * 18446744073709551616.0).toUInt64

/-- Draws whether the event happens; what is certain needs no draw. -/
def draw (chance : Chance) (s : WordStream) : Bool × WordStream :=
  match chance with
  | certain => (true, s)
  | below bound =>
    let (x, s) := s.nextDouble
    (decide (x < bound), s)

end Chance

end TpcTrigger
