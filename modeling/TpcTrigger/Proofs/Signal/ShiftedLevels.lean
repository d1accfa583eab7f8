import TpcTrigger.Proofs.Signal.TrackerRule

/-! # Moving the level

A tracker compares samples with its estimate and has no other use for either, so it does not notice
when both are moved by the same offset.  Nor does a baseline: the quartiles see the samples on their
side of the median, wherever it is, and the spread is a difference.
-/

namespace TpcTrigger

namespace Tracker

def shifted (offset : Int) (t : Tracker) : Tracker := { t with estimate := t.estimate + offset }

variable (offset limit sample : Int) (t : Tracker)

@[simp] theorem estimate_shifted : (t.shifted offset).estimate = t.estimate + offset := rfl

@[simp] theorem balance_shifted : (t.shifted offset).balance = t.balance := rfl

theorem weigh_shifted :
    (t.shifted offset).weigh (sample + offset) = (t.weigh sample).shifted offset := by
  simp only [weigh, shifted, Int.add_lt_add_iff_right]

theorem stepUp_shifted : (t.shifted offset).stepUp limit = (t.stepUp limit).shifted offset := by
  by_cases hup : limit ≤ t.balance
  · rw [stepUp, stepUp, balance_shifted, if_pos hup, if_pos hup, estimate_shifted,
      Int.add_right_comm]
    rfl
  · rw [stepUp, stepUp, balance_shifted, if_neg hup, if_neg hup]

theorem stepDown_shifted :
    (t.shifted offset).stepDown limit = (t.stepDown limit).shifted offset := by
  by_cases hdown : t.balance ≤ -limit
  · rw [stepDown, stepDown, balance_shifted, if_pos hdown, if_pos hdown, estimate_shifted,
      Int.sub_eq_add_neg, Int.add_right_comm]
    rfl
  · rw [stepDown, stepDown, balance_shifted, if_neg hdown, if_neg hdown]

theorem observe_shifted :
    (t.shifted offset).observe limit (sample + offset) = (t.observe limit sample).shifted offset := by
  rw [observe, weigh_shifted, stepUp_shifted, stepDown_shifted]
  rfl

theorem observeAtOnce_shifted : (t.shifted offset).observeAtOnce limit (sample + offset) =
    (t.observeAtOnce limit sample).shifted offset := by
  simp only [observeAtOnce, weigh_shifted, balance_shifted, estimate_shifted]
  rw [shifted]
  dsimp only
  congr 1
  omega

end Tracker

/-- The rule of either kernel follows a moved level, at any step limit. -/
theorem KernelKind.rule_shifted (kind : KernelKind) (limit offset sample : Int) (t : Tracker) :
    kind.rule limit (t.shifted offset) (sample + offset) =
      (kind.rule limit t sample).shifted offset := by
  cases kind with
  | channelwise => exact Tracker.observe_shifted offset limit sample t
  | lockstep => exact Tracker.observeAtOnce_shifted offset limit sample t

namespace Baseline

def shifted (offset : Int) (b : Baseline) : Baseline where
  median := b.median.shifted offset
  lower := b.lower.shifted offset
  upper := b.upper.shifted offset

variable (offset sample : Int) (b : Baseline)

theorem start_shifted : (start sample).shifted offset = start (sample + offset) := rfl

@[simp] theorem pedestal_shifted : (b.shifted offset).pedestal = b.pedestal + offset := rfl

@[simp] theorem spread_shifted : (b.shifted offset).spread = b.spread :=
  congrArg wrap (Int.add_sub_add_right _ _ _)

theorem observeBy_shifted (kind : KernelKind) (limit : Int) :
    (b.shifted offset).observeBy (kind.rule limit) (sample + offset) =
      (b.observeBy (kind.rule limit) sample).shifted offset := by
  have hmedian := kind.rule_shifted limit offset sample b.median
  have hlower := kind.rule_shifted limit offset sample b.lower
  have hupper := kind.rule_shifted limit offset sample b.upper
  simp only [observeBy, shifted, hmedian, hlower, hupper, Tracker.estimate_shifted,
    Int.add_lt_add_iff_right, apply_ite (Tracker.shifted offset)]

end Baseline

end TpcTrigger
