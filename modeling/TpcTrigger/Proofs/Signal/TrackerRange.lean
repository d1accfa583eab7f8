import TpcTrigger.Signal.Tracker
import Mathlib.Tactic

/-! # The range of a tracker

Under a positive limit a tracker only moves towards the sample that it sees, by one step at a
time, and a step uses up its balance.  So the estimate never leaves a range that holds its
start and all samples, and the balance stays below the limit in both directions.
-/

namespace TpcTrigger

namespace Tracker

/-- The estimate lies between two levels, and the balance has not reached the limit. -/
structure Within (limit low high : Int) (t : Tracker) : Prop where
  low_le : low ≤ t.estimate
  le_high : t.estimate ≤ high
  neg_limit_lt : -limit < t.balance
  lt_limit : t.balance < limit

variable {limit low high : Int} {t : Tracker} {sample : Int}

theorem within_start (hlimit : 1 ≤ limit) (hlow : low ≤ sample) (hhigh : sample ≤ high) :
    (start sample).Within limit low high :=
  ⟨hlow, hhigh, by simp only [start]; omega, by simp only [start]; omega⟩

theorem within_of_abs_lt (hbalance : |t.balance| < limit) (hlow : low ≤ t.estimate)
    (hhigh : t.estimate ≤ high) : t.Within limit low high :=
  ⟨hlow, hhigh, (abs_lt.mp hbalance).1, (abs_lt.mp hbalance).2⟩

theorem Within.narrow (h : t.Within limit low high) {low' high' : Int} (hlow : low' ≤ t.estimate)
    (hhigh : t.estimate ≤ high') : t.Within limit low' high' :=
  ⟨hlow, hhigh, h.neg_limit_lt, h.lt_limit⟩

theorem Within.abs_balance_lt (h : t.Within limit low high) : |t.balance| < limit :=
  abs_lt.mpr ⟨h.neg_limit_lt, h.lt_limit⟩

/-- The count that a sample makes may meet the limit, but does not pass it. -/
theorem Within.abs_balance_weigh_le (h : t.Within limit low high) (sample : Int) :
    |(t.weigh sample).balance| ≤ limit := by
  have hbelow := h.neg_limit_lt
  have habove := h.lt_limit
  rw [abs_le, weigh]
  dsimp only
  split <;> split <;> omega

/-- A sample above the estimate counts for it, and the count that reaches the limit moves it. -/
theorem observe_of_lt (h : t.Within limit low high)
    (hsample : t.estimate < sample) :
    t.observe limit sample =
      if t.balance + 1 = limit then ⟨t.estimate + 1, 0⟩ else ⟨t.estimate, t.balance + 1⟩ := by
  have hbelow := h.neg_limit_lt
  have habove := h.lt_limit
  have hweigh : t.weigh sample = ⟨t.estimate, t.balance + 1⟩ := by
    rw [weigh, if_pos hsample, if_neg (by omega), Int.sub_zero]
  rw [observe, hweigh, stepUp]
  by_cases hfull : t.balance + 1 = limit
  · rw [if_pos hfull, if_pos hfull.ge, stepDown, if_neg (by omega : ¬ (0 : Int) ≤ -limit)]
  · rw [if_neg hfull, if_neg (by omega : ¬ limit ≤ t.balance + 1), stepDown,
      if_neg (by omega : ¬ t.balance + 1 ≤ -limit)]

theorem observe_of_gt (h : t.Within limit low high)
    (hsample : sample < t.estimate) :
    t.observe limit sample =
      if t.balance - 1 = -limit then ⟨t.estimate - 1, 0⟩ else ⟨t.estimate, t.balance - 1⟩ := by
  have hbelow := h.neg_limit_lt
  have habove := h.lt_limit
  have hweigh : t.weigh sample = ⟨t.estimate, t.balance - 1⟩ := by
    rw [weigh, if_neg (by omega), if_pos hsample, Int.add_zero]
  rw [observe, hweigh, stepUp, if_neg (by omega : ¬ limit ≤ t.balance - 1), stepDown]
  by_cases hfull : t.balance - 1 = -limit
  · rw [if_pos hfull, if_pos hfull.le]
  · rw [if_neg hfull, if_neg (by omega : ¬ t.balance - 1 ≤ -limit)]

theorem observe_estimate (h : t.Within limit low high) : t.observe limit t.estimate = t := by
  have hbelow := h.neg_limit_lt
  have habove := h.lt_limit
  have hweigh : t.weigh t.estimate = t := by simp [weigh]
  rw [observe, hweigh, stepUp, if_neg (by omega), stepDown, if_neg (by omega)]

theorem Within.observe (h : t.Within limit low high) (hlow : low ≤ sample)
    (hhigh : sample ≤ high) : (t.observe limit sample).Within limit low high := by
  obtain ⟨hlower, hupper, hbelow, habove⟩ := id h
  rcases Int.lt_trichotomy t.estimate sample with hlt | heq | hgt
  · rw [observe_of_lt h hlt]
    split <;> constructor <;> dsimp only <;> omega
  · rw [← heq, observe_estimate h]
    exact h
  · rw [observe_of_gt h hgt]
    split <;> constructor <;> dsimp only <;> omega

end Tracker

namespace Baseline

/-- The median and both quartiles lie between two levels. -/
structure Within (limit low high : Int) (b : Baseline) : Prop where
  median : b.median.Within limit low high
  lower : b.lower.Within limit low high
  upper : b.upper.Within limit low high

variable {limit low high : Int} {b : Baseline} {sample : Int}

theorem within_start (hlimit : 1 ≤ limit) (hlow : low ≤ sample) (hhigh : sample ≤ high) :
    (start sample).Within limit low high :=
  ⟨Tracker.within_start hlimit hlow hhigh, Tracker.within_start hlimit hlow hhigh,
    Tracker.within_start hlimit hlow hhigh⟩

theorem Within.observe (h : b.Within limit low high) (hlow : low ≤ sample)
    (hhigh : sample ≤ high) : (b.observe limit sample).Within limit low high where
  median := h.median.observe hlow hhigh
  lower := by
    rw [Baseline.observe]
    split
    · exact h.lower.observe hlow hhigh
    · exact h.lower
  upper := by
    simp only [Baseline.observe]
    split
    · exact h.upper.observe hlow hhigh
    · exact h.upper

/-- Quartiles that keep to a range shorter than a word are exactly their difference apart. -/
theorem Within.spread_eq (h : b.Within limit low high) (hnarrow : high - low ≤ maxWord) :
    b.spread = b.upper.estimate - b.lower.estimate := by
  have hlower := h.lower.low_le
  have hlower' := h.lower.le_high
  have hupper := h.upper.low_le
  have hupper' := h.upper.le_high
  refine wrap_of_inWord ⟨?_, ?_⟩ <;> simp only [minWord, maxWord] at * <;> omega

end Baseline

end TpcTrigger
