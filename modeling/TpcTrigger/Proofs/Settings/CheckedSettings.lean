import TpcTrigger.Settings.Check
import Mathlib.Tactic

/-! # What the check of settings guarantees

Settings pass the check exactly if every option keeps to its limits.  Then a window is made of
at least one superchunk, and the filter has as many taps as are set, one at least.
-/

namespace TpcTrigger.Settings

/-- Every option keeps to its limits. -/
structure Checked (s : Settings) : Prop where
  windowTicks_ne_zero : s.windowTicks ≠ 0
  windowTicks_le : s.windowTicks ≤ maxWindowTicks
  windowTicks_mod : s.windowTicks % superchunkTicks = 0
  workers : 1 ≤ s.workers ∧ s.workers ≤ registerCount
  isPowerOfTwo : isPowerOfTwo s.tapCount = true
  tapCount_le : s.tapCount ≤ maxTapCount
  tapsFit : s.tapsFit = true
  tapExponent_le : s.tapExponent ≤ maxTapExponent
  cutoff : (0.0 < s.cutoff && s.cutoff ≤ 0.5) = true
  tapSum_le : s.filter.tapSum ≤ s.filter.tapSumLimit
  one_le_stepLimit : 1 ≤ s.stepLimit
  queueCapacity : s.queueCapacity ≠ 0
  workerQueueDepth : s.workerQueueDepth ≠ 0
  storeCapacity : s.storeCapacity ≠ 0

theorem ensure_bind_eq_ok {condition : Bool} {cause : SettingsError}
    {next : Except SettingsError Unit} :
    ((do ensure condition cause; next) = .ok ()) ↔ condition = true ∧ next = .ok () := by
  cases condition <;> simp [ensure, bind, Except.bind]

theorem ensure_eq_ok {condition : Bool} {cause : SettingsError} :
    ensure condition cause = .ok () ↔ condition = true := by
  cases condition <;> simp [ensure]

theorem check_eq_ok_iff {s : Settings} : s.check = .ok () ↔ s.Checked := by
  rw [check]
  simp only [ensure_bind_eq_ok, ensure_eq_ok, Bool.and_eq_true, decide_eq_true_eq, workersFit]
  constructor
  · rintro ⟨⟨⟨h₁, h₂⟩, h₃⟩, h₄, ⟨h₅, h₆⟩, h₇, h₈, ⟨h₉, h₁₀⟩, h₁₁, h₁₂, h₁₃, h₁₄, h₁₅⟩
    exact ⟨h₁, h₂, h₃, h₄, h₅, h₆, h₇, h₈, by simp [h₉, h₁₀], h₁₁, h₁₂, h₁₃, h₁₄, h₁₅⟩
  · intro h
    have hcutoff := h.cutoff
    simp only [Bool.and_eq_true, decide_eq_true_eq] at hcutoff
    exact ⟨⟨⟨h.windowTicks_ne_zero, h.windowTicks_le⟩, h.windowTicks_mod⟩, h.workers,
      ⟨h.isPowerOfTwo, h.tapCount_le⟩, h.tapsFit, h.tapExponent_le, hcutoff, h.tapSum_le,
      h.one_le_stepLimit, h.queueCapacity, h.workerQueueDepth, h.storeCapacity⟩

instance (s : Settings) : Decidable s.Checked :=
  match h : s.check with
  | .ok () => .isTrue (check_eq_ok_iff.mp h)
  | .error _ => .isFalse fun hs => by
    rw [check_eq_ok_iff.mpr hs] at h
    cases h

theorem tapCount_pos {s : Settings} (h : s.Checked) : 0 < s.tapCount := by
  rcases Nat.eq_zero_or_pos s.tapCount with hzero | hpos
  · have hpower := h.isPowerOfTwo
    rw [hzero] at hpower
    exact absurd hpower (by decide)
  · exact hpos

theorem superchunksPerWindow_pos {s : Settings} (h : s.Checked) :
    0 < s.superchunksPerWindow := by
  have hdvd : superchunkTicks ∣ s.windowTicks := Nat.dvd_of_mod_eq_zero h.windowTicks_mod
  apply Nat.div_pos
  · exact Nat.le_of_dvd (Nat.pos_of_ne_zero h.windowTicks_ne_zero) hdvd
  · decide

theorem superchunksPerWindow_mul {s : Settings} (h : s.Checked) :
    s.superchunksPerWindow * superchunkTicks = s.windowTicks :=
  Nat.div_mul_cancel (Nat.dvd_of_mod_eq_zero h.windowTicks_mod)

theorem length_lowPass (n : Nat) (cutoff : Float) (exponent : Nat) :
    (FirFilter.lowPass n cutoff exponent).length = n := by
  have hwindow : (LowPass.window n).size = n := by
    rw [LowPass.window]
    by_cases hn : n = 1
    · simp [hn]
    · simp [hn]
  have hresponse : (LowPass.response n cutoff).size = n := by
    rw [LowPass.response, Array.size_mapIdx, hwindow]
  have hnormalized : (LowPass.normalized n cutoff).size = n := by
    rw [LowPass.normalized]
    split
    · rw [Array.size_map, hresponse]
    · exact hresponse
  rw [FirFilter.length, FirFilter.lowPass, LowPass.taps, Array.size_map, hnormalized]

theorem length_filter {s : Settings} (h : s.Checked) : s.filter.length = s.tapCount := by
  have hfit := h.tapsFit
  rw [filter]
  cases htaps : s.taps with
  | none => exact length_lowPass _ _ _
  | some taps => simpa [tapsFit, htaps, FirFilter.length] using hfit

end TpcTrigger.Settings
