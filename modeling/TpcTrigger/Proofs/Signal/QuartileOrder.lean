import TpcTrigger.Proofs.Signal.TrackerLevel

/-! # The order of the quartiles

The lower quartile only moves up on samples below the median, and the upper one only moves down
on samples above it, so they can meet only where the median has left both of them behind.  While
the median is on its way there, the upper quartile is drawn along with it by the same samples,
and under a limit of two or more it is drawn far enough: the quartiles never pass each other.
A limit of one leaves no room for the sample that the median steps on, which neither of them
sees.
-/

namespace TpcTrigger

namespace Baseline

variable {limit low high sample : Int} {b : Baseline}

/-- A baseline turned upside down: the quartiles change places. -/
def mirror (b : Baseline) : Baseline := ⟨b.median.mirror, b.upper.mirror, b.lower.mirror⟩

@[simp] theorem mirror_mirror (b : Baseline) : b.mirror.mirror = b := by
  simp only [mirror, Tracker.mirror_mirror]

theorem Within.mirror (h : b.Within limit low high) : b.mirror.Within limit (-high) (-low) :=
  ⟨h.median.mirror, h.upper.mirror, h.lower.mirror⟩

theorem observe_mirror (h : b.Within limit low high) (sample : Int) :
    b.mirror.observe limit (-sample) = (b.observe limit sample).mirror := by
  simp only [observe, mirror, Tracker.observe_mirror h.median, Tracker.observe_mirror h.lower,
    Tracker.observe_mirror h.upper, Tracker.estimate_mirror, Int.neg_lt_neg_iff,
    apply_ite Tracker.mirror]

theorem observe_median (h : b.Within limit low high) : b.observe limit b.median.estimate = b := by
  rw [observe, Tracker.observe_estimate h.median]
  simp only [Int.lt_irrefl, if_false]

/-- Where the lower quartile may be.  Below the median its level is less than that of the upper
one.  Above the median it is at most halfway from the median to the upper quartile, and has not
begun to move up again; where it is at the median, this holds up to what its balance may have
gathered below the limit. -/
structure LowerPlaced (limit : Int) (b : Baseline) : Prop where
  below : b.lower.estimate < b.median.estimate → b.lower.level limit < b.upper.level limit
  meeting : b.lower.estimate = b.median.estimate →
    b.lower.balance < limit + min b.median.balance 0 ∧
      2 * b.lower.level limit + 2 ≤
        b.upper.level limit + b.median.level limit + min b.median.balance 0 + limit
  above : b.median.estimate < b.lower.estimate →
    b.lower.balance ≤ 0 ∧
      2 * b.lower.level limit ≤
        b.upper.level limit + b.median.level limit + min b.median.balance 0

structure Ordered (limit : Int) (b : Baseline) : Prop where
  estimate_le : b.lower.estimate ≤ b.upper.estimate
  level_le : b.lower.level limit ≤ b.upper.level limit
  lower : b.LowerPlaced limit
  upper : b.mirror.LowerPlaced limit

theorem Ordered.spread_nonneg (h : b.Ordered limit) (hb : b.Within limit low high)
    (hnarrow : high - low ≤ maxWord) : 0 ≤ b.spread := by
  rw [hb.spread_eq hnarrow]
  exact Int.sub_nonneg.mpr h.estimate_le

theorem Ordered.mirror (h : b.Ordered limit) : b.mirror.Ordered limit where
  estimate_le := Int.neg_le_neg h.estimate_le
  level_le := by
    simp only [Baseline.mirror, Tracker.level_mirror]
    exact Int.neg_le_neg h.level_le
  lower := h.upper
  upper := by
    simpa only [Baseline.mirror, Tracker.mirror_mirror] using h.lower

theorem ordered_start (hlimit : 2 ≤ limit) (sample : Int) : (start sample).Ordered limit := by
  have hplaced (sample : Int) : (start sample).LowerPlaced limit := by
    constructor <;> simp only [start, Tracker.level_start] <;> simp only [Tracker.start] <;> omega
  exact ⟨Int.le_refl _, Int.le_refl _, hplaced sample, hplaced (-sample)⟩

/-- What a sample below the median does to a baseline, but for its lower quartile. -/
structure Fell (limit : Int) (b b' : Baseline) : Prop where
  upper : b'.upper = b.upper
  level : b'.median.level limit = b.median.level limit - 1
  median : 1 - limit < b.median.balance ∧
      b'.median.estimate = b.median.estimate ∧ b'.median.balance = b.median.balance - 1 ∨
    b.median.balance = 1 - limit ∧
      b'.median.estimate = b.median.estimate - 1 ∧ b'.median.balance = 0

theorem fell_observe (hb : b.Within limit low high) (hsample : sample < b.median.estimate) :
    b.Fell limit (b.observe limit sample) := by
  have hmove := Tracker.fall_cases hb.median hsample
  have hunseen : ¬ (b.median.observe limit sample).estimate < sample := by omega
  refine ⟨if_neg hunseen, ?_, hmove⟩
  rw [observe, Tracker.level_observe hb.median, Int.sign_eq_neg_one_of_neg (by omega),
    Int.sub_eq_add_neg]

section Fell

variable {b' : Baseline} (hlimit : 2 ≤ limit) (h : b.Ordered limit) (hfell : b.Fell limit b')
include hlimit h hfell

/-- The upper quartile stays where it may be as long as the lower one keeps below it. -/
theorem Fell.upperPlaced (hrise : b'.lower.level limit ≤ b.lower.level limit + 1)
    (hlt : b'.lower.level limit < b.upper.level limit) : b'.mirror.LowerPlaced limit := by
  obtain ⟨-, hmeeting, habove⟩ := h.upper
  have hlevel := hfell.level
  have hmedian := hfell.median
  constructor <;>
    simp only [mirror, Tracker.estimate_mirror, Tracker.balance_mirror, Tracker.level_mirror,
      hfell.upper] at hmeeting habove ⊢ <;>
    omega

/-- What is left to show of a baseline that has seen a sample below its median. -/
theorem Fell.ordered (hestimate : b'.lower.estimate ≤ b.upper.estimate)
    (hrise : b'.lower.level limit ≤ b.lower.level limit + 1)
    (hlt : b'.lower.level limit < b.upper.level limit)
    (hmeeting : b'.lower.estimate = b'.median.estimate →
      b'.lower.balance < limit + min b'.median.balance 0 ∧
        2 * b'.lower.level limit + 2 ≤
          b.upper.level limit + b'.median.level limit + min b'.median.balance 0 + limit)
    (habove : b'.median.estimate < b'.lower.estimate →
      b'.lower.balance ≤ 0 ∧
        2 * b'.lower.level limit ≤
          b.upper.level limit + b'.median.level limit + min b'.median.balance 0) :
    b'.Ordered limit := by
  have hupper := hfell.upperPlaced hlimit h hrise hlt
  rw [← hfell.upper] at hestimate hlt hmeeting habove
  exact ⟨hestimate, hlt.le, ⟨fun _ => hlt, hmeeting, habove⟩, hupper⟩

theorem Fell.ordered_of_still (hroom : b.lower.estimate < b'.median.estimate)
    (hlower : b'.lower = b.lower) : b'.Ordered limit := by
  have hmedian := hfell.median
  have hlt := h.lower.below (by omega)
  have hestimate := h.estimate_le
  rw [← hlower] at hroom hlt hestimate
  refine hfell.ordered hlimit h hestimate ?_ hlt ?_ ?_
  · rw [hlower]
    exact Int.le_add_one (Int.le_refl _)
  · exact fun hmeets => absurd hmeets hroom.ne
  · exact fun habove => absurd habove hroom.not_gt

variable (hb : b.Within limit low high)
include hb

/-- A lower quartile that may rise is more than one tick away from the upper one. -/
theorem Fell.level_add_one_lt (hroom : b.lower.estimate + 1 < b'.median.estimate) :
    b.lower.level limit + 1 < b.upper.level limit := by
  have hlower := hb.lower.lt_limit
  have hupper := hb.upper.neg_limit_lt
  have hmedian := hfell.median
  by_cases hbehind : b.upper.estimate < b.median.estimate
  · have hplaced := h.upper.above (Int.neg_lt_neg hbehind)
    simp only [mirror, Tracker.balance_mirror, Tracker.level_mirror] at hplaced
    have hgap : limit * b.lower.estimate + 2 * limit ≤ limit * b.median.estimate :=
      mul_add_le_mul (by omega) (by omega)
    -- a median that steps has its lowest balance, which one more step of room makes up for
    have hgap' : 1 - limit < b.median.balance ∨
        limit * b.lower.estimate + 3 * limit ≤ limit * b.median.estimate :=
      hmedian.imp And.left fun hstep => mul_add_le_mul (by omega) (by omega)
    simp only [Tracker.level] at hplaced ⊢
    omega
  · have hgap : limit * b.lower.estimate + 2 * limit ≤ limit * b.upper.estimate :=
      mul_add_le_mul (by omega) (by omega)
    simp only [Tracker.level]
    omega

/-- The lower quartile sees the sample above itself. -/
theorem Fell.ordered_of_rise (hroom : b.lower.estimate + 1 < b'.median.estimate)
    (hlower : b'.lower = b.lower.observe limit sample) (hsample : b.lower.estimate < sample) :
    b'.Ordered limit := by
  have hlt := hfell.level_add_one_lt hlimit h hb hroom
  have hlevel : b'.lower.level limit = b.lower.level limit + 1 := by
    rw [hlower, Tracker.level_observe hb.lower, Int.sign_eq_one_of_pos (by omega)]
  rw [← hlevel] at hlt
  have hmove := Tracker.rise_cases hb.lower hsample
  rw [← hlower] at hmove
  have hbelow : b'.lower.estimate < b'.median.estimate := by omega
  have hestimate : b'.lower.estimate ≤ b.upper.estimate := by
    have hle := h.estimate_le
    have hpassed : b.upper.estimate < b'.lower.estimate →
        b.upper.level limit < limit * b'.lower.estimate := Tracker.level_lt hb.upper
    rw [Tracker.level] at hlt
    omega
  refine hfell.ordered hlimit h hestimate hlevel.le hlt ?_ ?_
  · exact fun hmeets => absurd hmeets hbelow.ne
  · exact fun habove => absurd habove hbelow.not_gt

/-- The lower quartile sees the sample below itself. -/
theorem Fell.ordered_of_fall (hlower : b'.lower = b.lower.observe limit sample)
    (hsample : sample < b.lower.estimate) : b'.Ordered limit := by
  have hmedian := hfell.median
  have hmedianLevel := hfell.level
  obtain ⟨hestimate, hle, ⟨hbelow, hmeeting, habove⟩, -⟩ := id h
  have hbalance := hb.lower.lt_limit
  have hnear := Tracker.level_add_two_le hb.lower hb.median
  have hlevel : b'.lower.level limit = b.lower.level limit - 1 := by
    rw [hlower, Tracker.level_observe hb.lower, Int.sign_eq_neg_one_of_neg (by omega),
      Int.sub_eq_add_neg]
  have hmove := Tracker.fall_cases hb.lower hsample
  rw [← hlower] at hmove
  refine hfell.ordered hlimit h ?_ ?_ ?_ (fun hmeets => ?_) (fun hpassed => ?_) <;> omega

/-- The median has stepped on the sample, and no quartile sees it. -/
theorem Fell.ordered_of_unseen (hstep : b'.median.estimate = b.median.estimate - 1)
    (hlower : b'.lower = b.lower) : b'.Ordered limit := by
  have hmedian := hfell.median
  have hmedianLevel := hfell.level
  obtain ⟨hestimate, -, ⟨hbelow, hmeeting, habove⟩, -⟩ := id h
  have hbalance := hb.lower.lt_limit
  have hnear := Tracker.level_add_two_le hb.lower hb.median
  have hfar : b.median.estimate ≤ b.lower.estimate →
      b.median.level limit ≤ b.lower.level limit :=
    Tracker.level_le_of_lowest hb.lower (by omega)
  rw [← hlower] at hestimate hbelow hmeeting habove hbalance hnear hfar
  have hrise : b'.lower.level limit ≤ b.lower.level limit + 1 := by
    rw [hlower]
    exact Int.le_add_one (Int.le_refl _)
  refine hfell.ordered hlimit h hestimate hrise ?_ (fun hmeets => ?_) (fun hpassed => ?_) <;> omega

end Fell

/-- A sample below the median keeps the quartiles in order. -/
theorem Ordered.observe_of_lt (hlimit : 2 ≤ limit) (h : b.Ordered limit)
    (hb : b.Within limit low high) (hsample : sample < b.median.estimate) :
    (b.observe limit sample).Ordered limit := by
  have hfell := fell_observe hb hsample
  have hmedian := hfell.median
  by_cases hseen : sample < (b.observe limit sample).median.estimate
  · have hlower : (b.observe limit sample).lower = b.lower.observe limit sample := if_pos hseen
    rcases Int.lt_trichotomy b.lower.estimate sample with hlt | rfl | hgt
    · exact hfell.ordered_of_rise hlimit h hb (by omega) hlower hlt
    · rw [Tracker.observe_estimate hb.lower] at hlower
      exact hfell.ordered_of_still hlimit h hseen hlower
    · exact hfell.ordered_of_fall hlimit h hb hlower hgt
  · have hlower : (b.observe limit sample).lower = b.lower := if_neg hseen
    exact hfell.ordered_of_unseen hlimit h hb (by omega) hlower

theorem Ordered.observe (hlimit : 2 ≤ limit) (h : b.Ordered limit) (hb : b.Within limit low high)
    (sample : Int) : (b.observe limit sample).Ordered limit := by
  rcases Int.lt_trichotomy sample b.median.estimate with hlt | rfl | hgt
  · exact h.observe_of_lt hlimit hb hlt
  · rwa [observe_median hb]
  · have hturned := h.mirror.observe_of_lt hlimit hb.mirror (Int.neg_lt_neg hgt)
    rw [observe_mirror hb] at hturned
    simpa only [mirror_mirror] using hturned.mirror

end Baseline

end TpcTrigger
