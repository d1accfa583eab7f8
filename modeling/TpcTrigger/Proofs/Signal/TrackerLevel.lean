import TpcTrigger.Proofs.Signal.TrackerRange

/-! # The level of a tracker

Estimate and balance make up one number, in which a step of the estimate counts as much as the
limit.  A sample moves this level by one, up or down, and a step leaves it where it is, so a
sample that does not change is reached after as many ticks as the level is away from it.  What
is said of one direction holds of the other, because a tracker that is turned upside down takes
in samples that are turned in the same way.
-/

namespace TpcTrigger

/-- Each step of an estimate takes as many samples as the limit says. -/
theorem mul_add_le_mul {limit a b n : Int} (hlimit : 0 ≤ limit) (h : a + n ≤ b) :
    limit * a + n * limit ≤ limit * b := by
  have hmul := Int.mul_le_mul_of_nonneg_left h hlimit
  rwa [Int.mul_add, Int.mul_comm limit n] at hmul

namespace Tracker

variable {limit low high : Int} {t u : Tracker} {sample : Int}

/-- Estimate and balance as one number. -/
def level (limit : Int) (t : Tracker) : Int := limit * t.estimate + t.balance

@[simp] theorem level_start (limit sample : Int) : (start sample).level limit = limit * sample :=
  Int.add_zero _

theorem Within.limit_pos (h : t.Within limit low high) : 0 < limit := by
  have hbelow := h.neg_limit_lt
  have habove := h.lt_limit
  omega

theorem level_observe (h : t.Within limit low high) :
    (t.observe limit sample).level limit = t.level limit + (sample - t.estimate).sign := by
  have hup : limit * (t.estimate + 1) = limit * t.estimate + limit := by
    rw [Int.mul_add, Int.mul_one]
  have hdown : limit * (t.estimate - 1) = limit * t.estimate - limit := by
    rw [Int.mul_sub, Int.mul_one]
  rcases Int.lt_trichotomy t.estimate sample with hlt | heq | hgt
  · rw [observe_of_lt h hlt, Int.sign_eq_one_of_pos (by omega)]
    split <;> simp only [level] <;> omega
  · rw [← heq, observe_estimate h, Int.sub_self, Int.sign_zero, Int.add_zero]
  · rw [observe_of_gt h hgt, Int.sign_eq_neg_one_of_neg (by omega)]
    split <;> simp only [level] <;> omega

theorem level_lt (h : t.Within limit low high) (hlt : t.estimate < sample) :
    t.level limit < limit * sample := by
  have hstep := mul_add_le_mul h.limit_pos.le (Int.add_one_le_iff.mpr hlt)
  have habove := h.lt_limit
  rw [level]
  omega

/-- A tracker that is below another one has no more than two limits of balance to make up for it. -/
theorem level_add_two_le (h : t.Within limit low high) (hu : u.Within limit low high)
    (hlt : t.estimate < u.estimate) : t.level limit + 2 ≤ u.level limit + limit := by
  have hstep := level_lt h hlt
  have hbalance := hu.neg_limit_lt
  rw [level.eq_1 limit u]
  omega

theorem level_le_of_lowest (hu : u.Within limit low high) (hbalance : t.balance = 1 - limit)
    (hle : t.estimate ≤ u.estimate) : t.level limit ≤ u.level limit := by
  have hmul := Int.mul_le_mul_of_nonneg_left hle hu.limit_pos.le
  have hlow := hu.neg_limit_lt
  rw [level, level]
  omega

theorem rise_cases (h : t.Within limit low high) (hlt : t.estimate < sample) :
    t.balance < limit - 1 ∧ (t.observe limit sample).estimate = t.estimate ∧
        (t.observe limit sample).balance = t.balance + 1 ∨
      t.balance = limit - 1 ∧ (t.observe limit sample).estimate = t.estimate + 1 ∧
        (t.observe limit sample).balance = 0 := by
  have habove := h.lt_limit
  rw [observe_of_lt h hlt]
  by_cases hfull : t.balance + 1 = limit
  · rw [if_pos hfull]
    exact .inr ⟨by omega, rfl, rfl⟩
  · rw [if_neg hfull]
    exact .inl ⟨by omega, rfl, rfl⟩

theorem fall_cases (h : t.Within limit low high) (hlt : sample < t.estimate) :
    1 - limit < t.balance ∧ (t.observe limit sample).estimate = t.estimate ∧
        (t.observe limit sample).balance = t.balance - 1 ∨
      t.balance = 1 - limit ∧ (t.observe limit sample).estimate = t.estimate - 1 ∧
        (t.observe limit sample).balance = 0 := by
  have hbelow := h.neg_limit_lt
  rw [observe_of_gt h hlt]
  by_cases hfull : t.balance - 1 = -limit
  · rw [if_pos hfull]
    exact .inr ⟨by omega, rfl, rfl⟩
  · rw [if_neg hfull]
    exact .inl ⟨by omega, rfl, rfl⟩

def mirror (t : Tracker) : Tracker := ⟨-t.estimate, -t.balance⟩

@[simp] theorem estimate_mirror (t : Tracker) : t.mirror.estimate = -t.estimate := rfl

@[simp] theorem balance_mirror (t : Tracker) : t.mirror.balance = -t.balance := rfl

@[simp] theorem level_mirror (limit : Int) (t : Tracker) :
    t.mirror.level limit = -t.level limit := by
  rw [level, level, estimate_mirror, balance_mirror, Int.mul_neg, Int.neg_add]

@[simp] theorem mirror_mirror (t : Tracker) : t.mirror.mirror = t := by
  rw [mirror, estimate_mirror, balance_mirror, Int.neg_neg, Int.neg_neg]

theorem Within.mirror (h : t.Within limit low high) : t.mirror.Within limit (-high) (-low) where
  low_le := Int.neg_le_neg h.le_high
  le_high := Int.neg_le_neg h.low_le
  neg_limit_lt := Int.neg_lt_neg h.lt_limit
  lt_limit := by
    have hbelow := h.neg_limit_lt
    rw [balance_mirror]
    omega

theorem observe_mirror (h : t.Within limit low high) (sample : Int) :
    t.mirror.observe limit (-sample) = (t.observe limit sample).mirror := by
  rcases Int.lt_trichotomy t.estimate sample with hlt | heq | hgt
  · have hturned : -sample < t.mirror.estimate := Int.neg_lt_neg hlt
    have hfull : -t.balance - 1 = -limit ↔ t.balance + 1 = limit := by omega
    rw [observe_of_gt h.mirror hturned, observe_of_lt h hlt, apply_ite Tracker.mirror]
    simp only [hfull, mirror, Int.neg_add, Int.neg_zero]
    rfl
  · rw [← heq, ← estimate_mirror, observe_estimate h.mirror, observe_estimate h]
  · have hturned : t.mirror.estimate < -sample := Int.neg_lt_neg hgt
    have hfull : -t.balance + 1 = limit ↔ t.balance - 1 = -limit := by omega
    have hnext : ∀ n : Int, -(n - 1) = -n + 1 := by omega
    rw [observe_of_lt h.mirror hturned, observe_of_gt h hgt, apply_ite Tracker.mirror]
    simp only [hfull, mirror, hnext, Int.neg_zero]

/-- The tracker after `n` times the same sample. -/
def held (limit sample : Int) (n : Nat) (t : Tracker) : Tracker :=
  (fun t => t.observe limit sample)^[n] t

theorem held_succ (limit sample : Int) (n : Nat) (t : Tracker) :
    held limit sample (n + 1) t = (held limit sample n t).observe limit sample :=
  Function.iterate_succ_apply' ..

theorem Within.held (h : t.Within limit low high) (hlow : low ≤ sample) (hhigh : sample ≤ high)
    (n : Nat) : (held limit sample n t).Within limit low high := by
  induction n with
  | zero => exact h
  | succ n ih =>
    rw [held_succ]
    exact ih.observe hlow hhigh

theorem held_mirror (h : t.Within limit low high) (hlow : low ≤ sample) (hhigh : sample ≤ high)
    (n : Nat) :
    Tracker.held limit (-sample) n t.mirror = (Tracker.held limit sample n t).mirror := by
  induction n with
  | zero => rfl
  | succ n ih => rw [held_succ, held_succ, ih, observe_mirror (h.held hlow hhigh n)]

/-- A tracker below a sample does not pass it, and comes to it with an even balance. -/
theorem observe_below (h : t.Within limit low high) (hlt : t.estimate < sample) :
    (t.observe limit sample).estimate < sample ∨ t.observe limit sample = start sample := by
  rw [observe_of_lt h hlt]
  by_cases hfull : t.balance + 1 = limit
  · rw [if_pos hfull]
    by_cases hlast : t.estimate + 1 = sample
    · exact .inr (by rw [hlast, start])
    · exact .inl (by dsimp only; omega)
  · rw [if_neg hfull]
    exact .inl hlt

/-- The level rises by one at every tick until it has come to a sample that was above it. -/
theorem held_of_lt (h : t.Within limit low high) (hlow : low ≤ sample) (hhigh : sample ≤ high)
    (hlt : t.estimate < sample) (n : Nat) :
    if t.level limit + n < limit * sample then
      (Tracker.held limit sample n t).estimate < sample ∧
        (Tracker.held limit sample n t).level limit = t.level limit + n
    else Tracker.held limit sample n t = start sample := by
  induction n with
  | zero =>
    rw [if_pos (by simpa using level_lt h hlt)]
    exact ⟨hlt, by simp [Tracker.held]⟩
  | succ n ih =>
    have hwithin := h.held hlow hhigh n
    rw [held_succ]
    generalize Tracker.held limit sample n t = u at ih hwithin
    by_cases hfar : t.level limit + n < limit * sample
    · rw [if_pos hfar] at ih
      obtain ⟨hbelow, hlevel⟩ := ih
      have hnext : (u.observe limit sample).level limit = t.level limit + (n + 1 : Nat) := by
        rw [level_observe hwithin, Int.sign_eq_one_of_pos (by omega), hlevel, Int.add_assoc]
        rfl
      rcases observe_below hwithin hbelow with hbelow' | hdone
      · have hless := level_lt (hwithin.observe hlow hhigh) hbelow'
        rw [hnext] at hless
        rw [if_pos hless]
        exact ⟨hbelow', hnext⟩
      · rw [hdone, level_start] at hnext
        rw [if_neg (by omega)]
        exact hdone
    · rw [if_neg hfar] at ih
      subst ih
      rw [if_neg (by push_cast; omega)]
      exact observe_estimate hwithin

/-- The ticks that a sample has to be held for until a tracker comes to it: the limit for each step
of the way, less what the balance has already gone of it. -/
def arrival (limit sample : Int) (t : Tracker) : Int :=
  limit * |sample - t.estimate| - (sample - t.estimate).sign * t.balance

theorem arrival_of_lt (limit : Int) (hlt : t.estimate < sample) :
    t.arrival limit sample = limit * sample - t.level limit := by
  have hpos : 0 < sample - t.estimate := Int.sub_pos_of_lt hlt
  rw [arrival, abs_of_pos hpos, Int.sign_eq_one_of_pos hpos, Int.one_mul, Int.mul_sub, level]
  omega

theorem arrival_mirror (limit sample : Int) (t : Tracker) :
    t.mirror.arrival limit (-sample) = t.arrival limit sample := by
  have hturned : -sample - -t.estimate = -(sample - t.estimate) := by omega
  rw [arrival, arrival, estimate_mirror, balance_mirror, hturned, abs_neg, Int.sign_neg,
    Int.neg_mul_neg]

/-- No sample of a range is further away than the range has levels. -/
theorem arrival_lt (h : t.Within limit low high) (hlow : low ≤ sample) (hhigh : sample ≤ high) :
    t.arrival limit sample < limit * (high - low + 1) := by
  have hbelow := h.neg_limit_lt
  have habove := h.lt_limit
  have hway : |sample - t.estimate| ≤ high - low :=
    abs_sub_le_of_le_of_le hlow hhigh h.low_le h.le_high
  have hsteps := Int.mul_le_mul_of_nonneg_left hway h.limit_pos.le
  have hsaved : -limit < (sample - t.estimate).sign * t.balance := by
    rcases (sample - t.estimate).sign_trichotomy with hsign | hsign | hsign <;> rw [hsign] <;> omega
  rw [arrival, Int.mul_add, Int.mul_one]
  omega

/-- A sample that is held is reached at the tick of arrival and not before, with an even balance,
and is not left again. -/
theorem held_of_ne (h : t.Within limit low high) (hlow : low ≤ sample) (hhigh : sample ≤ high)
    (hne : t.estimate ≠ sample) (n : Nat) :
    if n < t.arrival limit sample then (Tracker.held limit sample n t).estimate ≠ sample
    else Tracker.held limit sample n t = start sample := by
  rcases Int.lt_or_gt_of_ne hne with hlt | hgt
  · have hclimb := held_of_lt h hlow hhigh hlt n
    rw [arrival_of_lt limit hlt]
    split
    · rw [if_pos (by omega)] at hclimb
      exact hclimb.1.ne
    · rwa [if_neg (by omega)] at hclimb
  · have hturned : t.mirror.estimate < -sample := Int.neg_lt_neg hgt
    have hclimb := held_of_lt h.mirror (Int.neg_le_neg hhigh) (Int.neg_le_neg hlow) hturned n
    rw [held_mirror h hlow hhigh] at hclimb
    rw [← arrival_mirror, arrival_of_lt limit hturned]
    split
    · rw [if_pos (by omega)] at hclimb
      exact (Int.neg_lt_neg_iff.mp hclimb.1).ne'
    · rw [if_neg (by omega)] at hclimb
      rw [← mirror_mirror (Tracker.held limit sample n t), hclimb, mirror, start, start, Int.neg_neg,
        Int.neg_zero]

/-- A sample that does not change is reached, at the latest, after as many ticks as its range has
levels but one, and is not left again. -/
theorem estimate_held (h : t.Within limit low high) (hlow : low ≤ sample) (hhigh : sample ≤ high)
    {n : Nat} (hn : limit * (high - low + 1) ≤ n + 1) :
    (Tracker.held limit sample n t).estimate = sample := by
  by_cases heq : t.estimate = sample
  · have hstay : Tracker.held limit sample n t = t :=
      Function.iterate_fixed (by rw [← heq, observe_estimate h]) n
    rw [hstay, heq]
  · have harrival := arrival_lt h hlow hhigh
    have hheld := held_of_ne h hlow hhigh heq n
    rw [if_neg (by omega)] at hheld
    rw [hheld, start]

end Tracker

end TpcTrigger
