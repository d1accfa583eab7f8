/-! # Words

The numbers of the hit finder are 32-bit signed words.  A result that leaves their range wraps
round to the other end of it.  Only charges and thresholds saturate: they stop at the end that they
passed.
-/

namespace TpcTrigger

/-- Least number of the 32-bit signed range. -/
abbrev minWord : Int := -2147483648

/-- Greatest number of the 32-bit signed range. -/
abbrev maxWord : Int := 2147483647

abbrev wordCount : Int := 4294967296

abbrev wordBits : Nat := 32

/-- A number of the 32-bit signed range. -/
def InWord (x : Int) : Prop := minWord ≤ x ∧ x ≤ maxWord

instance (x : Int) : Decidable (InWord x) := inferInstanceAs (Decidable (_ ∧ _))

/-- The number of the range that differs from `x` by so many times its length. -/
def wrap (x : Int) : Int := (x - minWord) % wordCount + minWord

def saturate (x : Int) : Int := max minWord (min maxWord x)

def saturatingAdd (x y : Int) : Int := saturate (x + y)

def saturatingMul (x y : Int) : Int := saturate (x * y)

theorem inWord_of_nonneg {x : Int} (hlow : 0 ≤ x) (hhigh : x ≤ maxWord) : InWord x :=
  ⟨Int.le_trans (by decide) hlow, hhigh⟩

theorem inWord_wrap (x : Int) : InWord (wrap x) := by
  simp only [InWord, wrap, minWord, maxWord, wordCount]
  omega

theorem wrap_of_inWord {x : Int} (h : InWord x) : wrap x = x := by
  simp only [InWord, wrap, minWord, maxWord, wordCount] at *
  omega

@[simp] theorem wrap_zero : wrap 0 = 0 := rfl

/-- Wrapping a term of a sum before the sum makes no difference. -/
theorem wrap_wrap_add (x y : Int) : wrap (wrap x + y) = wrap (x + y) := by
  simp only [wrap, minWord, wordCount]
  omega

theorem wrap_add_wrap (x y : Int) : wrap (x + wrap y) = wrap (x + y) := by
  simp only [wrap, minWord, wordCount]
  omega

/-- A count that wraps round is never ahead of the count. -/
theorem wrap_le {x : Int} (h : 0 ≤ x) : wrap x ≤ x := by
  simp only [wrap, minWord, wordCount]
  omega

theorem saturate_of_inWord {x : Int} (h : InWord x) : saturate x = x := by
  simp only [InWord, saturate, minWord, maxWord] at *
  omega

end TpcTrigger
