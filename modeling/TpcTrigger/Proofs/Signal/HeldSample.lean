import TpcTrigger.Proofs.Signal.TrackerLevel

/-! # A sample that is held

A tracker that sees one and the same sample goes straight to it: every step is towards the sample,
none goes past it, and the tick of the last one is known from the start.  The median of a baseline
takes in every sample, so the pedestal goes the same way.
-/

namespace TpcTrigger

/-- The median of a baseline sees a sample that is held whatever the quartiles see of it. -/
theorem Baseline.median_iterate_observe (limit sample : Int) (b : Baseline) (n : Nat) :
    ((fun b => b.observe limit sample)^[n] b).median = b.median.held limit sample n := by
  have hstep : Function.Semiconj median (fun b => b.observe limit sample)
      fun t => t.observe limit sample := fun _ => rfl
  exact hstep.iterate_right n b

namespace Tracker

variable {limit low high sample : Int} {t : Tracker}

theorem Within.monotone_held (h : t.Within limit low sample) :
    Monotone fun n => (t.held limit sample n).estimate := by
  refine monotone_nat_of_le_succ fun n => ?_
  have hn := h.held (h.low_le.trans h.le_high) le_rfl n
  -- what is left of the way is itself a range, which the next tick does not leave
  have hway := hn.narrow le_rfl hn.le_high
  rw [held_succ]
  exact (hway.observe hn.le_high le_rfl).low_le

theorem Within.antitone_held (h : t.Within limit sample high) :
    Antitone fun n => (t.held limit sample n).estimate := by
  refine antitone_nat_of_succ_le fun n => ?_
  have hn := h.held le_rfl (h.low_le.trans h.le_high) n
  have hway := hn.narrow hn.low_le le_rfl
  rw [held_succ]
  exact (hway.observe le_rfl hn.low_le).le_high

/-- A tracker whose balance is below the limit goes straight to a sample that is held, never past
it.  It comes to it at the tick of arrival, with an even balance, and does not leave it again.  So
does the pedestal of any baseline that has this tracker as its median. -/
theorem locks_onto (hbalance : |t.balance| < limit) (hne : t.estimate ≠ sample) :
    (t.estimate < sample →
      Monotone (fun n => (t.held limit sample n).estimate) ∧
        ∀ n, (t.held limit sample n).estimate ≤ sample) ∧
    (sample < t.estimate →
      Antitone (fun n => (t.held limit sample n).estimate) ∧
        ∀ n, sample ≤ (t.held limit sample n).estimate) ∧
    (∀ n : Nat, n < t.arrival limit sample → (t.held limit sample n).estimate ≠ sample) ∧
    (∀ n : Nat, t.arrival limit sample ≤ n → t.held limit sample n = ⟨sample, 0⟩) ∧
    ∀ b : Baseline, b.median = t → ∀ n,
      ((fun b => b.observe limit sample)^[n] b).pedestal = (t.held limit sample n).estimate := by
  have ht := within_of_abs_lt hbalance (min_le_left t.estimate sample) (le_max_left _ sample)
  have hcourse := held_of_ne ht (min_le_right _ _) (le_max_right _ _) hne
  refine ⟨fun hlt => ?rising, fun hgt => ?falling, fun n hn => ?before, fun n hn => ?arrived,
    fun b hb n => ?pedestal⟩
  case rising =>
    have hrise := ht.narrow le_rfl hlt.le
    exact ⟨hrise.monotone_held, fun n => (hrise.held hlt.le le_rfl n).le_high⟩
  case falling =>
    have hfall := ht.narrow hgt.le le_rfl
    exact ⟨hfall.antitone_held, fun n => (hfall.held le_rfl hgt.le n).low_le⟩
  case before =>
    have hn' := hcourse n
    rwa [if_pos hn] at hn'
  case arrived =>
    have hn' := hcourse n
    rwa [if_neg (Int.not_lt.mpr hn)] at hn'
  case pedestal => rw [Baseline.pedestal, Baseline.median_iterate_observe, hb]

/-- A balance that points the wrong way has to be made up for first. -/
theorem locks_onto_turned :
    let t : Tracker := ⟨100, -2⟩
    |t.balance| < 3 ∧ t.estimate ≠ 102 ∧ t.arrival 3 102 = 8 ∧
      Monotone (fun n => (t.held 3 102 n).estimate) ∧
      (t.held 3 102 7).estimate ≠ 102 ∧ ∀ n : Nat, 8 ≤ n → t.held 3 102 n = ⟨102, 0⟩ := by
  intro t
  have hbalance : |t.balance| < 3 := by decide
  have hne : t.estimate ≠ 102 := by decide
  have harrival : t.arrival 3 102 = 8 := by decide
  obtain ⟨hrising, -, hbefore, harrived, -⟩ := locks_onto hbalance hne
  refine ⟨hbalance, hne, harrival, (hrising (by decide)).1, hbefore 7 (by decide), fun n hn => ?_⟩
  exact harrived n (by rw [harrival]; exact_mod_cast hn)

end Tracker

end TpcTrigger
