import TpcTrigger.Proofs.Signal.TrackerLevel

/-! # The course of a tracker

Each sample moves the level of a tracker by one towards itself, so over a whole course the level
keeps an exact account of the samples on either side of the estimates that they met.  As the
balance is always below the limit, the estimate cannot drift faster than one step for as many
samples as the limit says, and it never leaves the range of its start and its samples.
-/

namespace TpcTrigger

theorem abs_sign_le_one (x : Int) : |x.sign| ≤ 1 := by
  rcases x.sign_trichotomy with h | h | h <;> simp [h]

namespace Tracker

variable {limit low high : Int} {t : Tracker} {samples : List Int}

def after (limit : Int) (samples : List Int) (t : Tracker) : Tracker :=
  samples.foldl (observe limit) t

@[simp] theorem after_nil (limit : Int) (t : Tracker) : t.after limit [] = t := rfl

@[simp] theorem after_cons (limit sample : Int) (samples : List Int) (t : Tracker) :
    t.after limit (sample :: samples) = (t.observe limit sample).after limit samples :=
  rfl

/-- How often a list of samples met an estimate below them, less how often it met one above. -/
def pull (limit : Int) (samples : List Int) (t : Tracker) : Int :=
  ∑ i : Fin samples.length, (samples[i] - (t.after limit (samples.take i)).estimate).sign

theorem pull_cons (limit sample : Int) (samples : List Int) (t : Tracker) :
    t.pull limit (sample :: samples) =
      (sample - t.estimate).sign + (t.observe limit sample).pull limit samples :=
  Fin.sum_univ_succ _

theorem abs_pull_le (limit : Int) (samples : List Int) (t : Tracker) :
    |t.pull limit samples| ≤ samples.length :=
  calc |t.pull limit samples|
      ≤ ∑ i : Fin samples.length,
          |(samples[i] - (t.after limit (samples.take i)).estimate).sign| :=
        Finset.abs_sum_le_sum_abs _ _
    _ ≤ ∑ _ : Fin samples.length, 1 := Finset.sum_le_sum fun _ _ => abs_sign_le_one _
    _ = samples.length := by simp

section Course

variable (h : t.Within limit low high) (hsamples : ∀ x ∈ samples, low ≤ x ∧ x ≤ high)
include h hsamples

theorem Within.after : (t.after limit samples).Within limit low high := by
  induction samples generalizing t with
  | nil => exact h
  | cons x samples ih =>
    obtain ⟨⟨hlow, hhigh⟩, hrest⟩ := List.forall_mem_cons.mp hsamples
    exact ih (h.observe hlow hhigh) hrest

theorem level_after :
    (t.after limit samples).level limit = t.level limit + t.pull limit samples := by
  induction samples generalizing t with
  | nil => exact (Int.add_zero _).symm
  | cons x samples ih =>
    obtain ⟨⟨hlow, hhigh⟩, hrest⟩ := List.forall_mem_cons.mp hsamples
    rw [after_cons, ih (h.observe hlow hhigh) hrest, level_observe h, pull_cons, Int.add_assoc]

/-- A step takes as many samples as the limit says, but for what the first balance has saved. -/
theorem abs_estimate_after_sub_le :
    |(t.after limit samples).estimate - t.estimate| ≤
      (samples.length + |t.balance| + limit - 1) / limit := by
  have hlevel := level_after h hsamples
  have hafter := (h.after hsamples).abs_balance_lt
  have hpull := abs_pull_le limit samples t
  generalize t.after limit samples = u at hlevel hafter
  have hmoved : limit * (u.estimate - t.estimate) = t.balance - u.balance + t.pull limit samples := by
    rw [level, level] at hlevel
    rw [Int.mul_sub]
    omega
  rw [Int.le_ediv_iff_mul_le h.limit_pos]
  calc |u.estimate - t.estimate| * limit
      = |t.balance - u.balance + t.pull limit samples| := by
        rw [← hmoved, abs_mul, abs_of_pos h.limit_pos, mul_comm]
    _ ≤ |t.balance| + |u.balance| + |t.pull limit samples| :=
        (abs_add_le _ _).trans (Int.add_le_add_right (abs_sub _ _) _)
    _ ≤ samples.length + |t.balance| + limit - 1 := by omega

end Course

/-- A tracker whose balance is below the limit keeps it there, and its estimate between the least
and the greatest of its start and the samples; what a further sample adds to the balance does not
pass the limit either.  A step of the estimate is worth as much as the limit: estimate and balance
together have moved by the number of samples above their estimates less the number below. -/
theorem conserves_level (hbalance : |t.balance| < limit) (samples : List Int) :
    |(t.after limit samples).balance| < limit ∧
      (∀ sample, |((t.after limit samples).weigh sample).balance| ≤ limit) ∧
      limit * (t.after limit samples).estimate + (t.after limit samples).balance =
        limit * t.estimate + t.balance +
          ∑ i : Fin samples.length,
            (samples[i] - (t.after limit (samples.take i)).estimate).sign ∧
      |(t.after limit samples).estimate - t.estimate| ≤
        (samples.length + |t.balance| + limit - 1) / limit ∧
      (t.estimate :: samples).min (List.cons_ne_nil _ _) ≤ (t.after limit samples).estimate ∧
      (t.after limit samples).estimate ≤ (t.estimate :: samples).max (List.cons_ne_nil _ _) := by
  have hrange (x : Int) (hx : x ∈ t.estimate :: samples) :
      (t.estimate :: samples).min (List.cons_ne_nil _ _) ≤ x ∧
        x ≤ (t.estimate :: samples).max (List.cons_ne_nil _ _) :=
    ⟨List.min_le_of_mem hx, List.le_max_of_mem hx⟩
  have hstart := hrange t.estimate List.mem_cons_self
  have ht := within_of_abs_lt hbalance hstart.1 hstart.2
  have hsamples := (List.forall_mem_cons.mp hrange).2
  have hafter := ht.after hsamples
  exact ⟨hafter.abs_balance_lt, hafter.abs_balance_weigh_le, level_after ht hsamples,
    abs_estimate_after_sub_le ht hsamples, hafter.low_le, hafter.le_high⟩

/-- A balance saved from before brings the first step early, and a sample at the estimate counts
for nothing. -/
theorem conserves_level_turning :
    let t : Tracker := ⟨10, -2⟩
    let samples : List Int := [9, 9, 30, 30, 30, 30]
    let u := t.after 3 samples
    |t.balance| < 3 ∧ u = ⟨10, 1⟩ ∧
      |u.balance| < 3 ∧ (∀ sample, |(u.weigh sample).balance| ≤ 3) ∧
      3 * u.estimate + u.balance = 3 * t.estimate + t.balance +
        ∑ i : Fin samples.length, (samples[i] - (t.after 3 (samples.take i)).estimate).sign ∧
      |u.estimate - t.estimate| ≤ (samples.length + |t.balance| + 3 - 1) / 3 ∧
      (t.estimate :: samples).min (List.cons_ne_nil _ _) ≤ u.estimate ∧
      u.estimate ≤ (t.estimate :: samples).max (List.cons_ne_nil _ _) := by
  intro t samples u
  have hbalance : |t.balance| < 3 := by decide
  exact ⟨hbalance, by decide, conserves_level hbalance samples⟩

end Tracker

end TpcTrigger
