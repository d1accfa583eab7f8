import TpcTrigger.Proofs.Detection.ChannelHistory
import TpcTrigger.Proofs.Detection.WordRange

/-! # Ticks without overflow

Where numbers are stopped at the ends of the word range instead of wrapping round, a kernel call can
fail in its arithmetic too.  Under checked settings one number only is in danger: the tick count of
an excursion, once it has come to the greatest word.  All others that a tick works out are words.
-/

namespace TpcTrigger

/-- The balance and the estimate can go one step up or down. -/
structure Tracker.HasRoom (t : Tracker) : Prop where
  balance : InWord (t.balance - 1) ∧ InWord (t.balance + 1)
  estimate : InWord (t.estimate - 1) ∧ InWord (t.estimate + 1)

theorem Tracker.Within.hasRoom {limit : Int} {t : Tracker} (h : t.Within limit 0 maxSample)
    (hlimit : InWord limit) : t.HasRoom := by
  obtain ⟨hlow, hhigh, hbelow, habove⟩ := h
  obtain ⟨-, hlimit⟩ := hlimit
  simp only [maxWord, maxSample] at hlimit hhigh
  constructor <;> constructor <;> constructor <;> simp only [minWord, maxWord] <;> omega

namespace ChannelState

/-- Every number that a channel works out when it takes in a sample is a word, but for the count of
an excursion that has come to the greatest word. -/
structure TickInWord (p : DetectorParams) (c : ChannelState) (sample : UInt16) : Prop
    extends c.FitsWord p where
  exponent : p.filter.exponent < wordBits
  limit : InWord (-p.stepLimit)
  median : c.baseline.median.HasRoom
  lower : c.baseline.lower.HasRoom
  upper : c.baseline.upper.HasRoom
  difference : InWord (sample.toNat - (c.baseline.observe p.stepLimit sample.toNat).pedestal)
  spread :
    let b := c.baseline.observe p.stepLimit sample.toNat
    InWord (b.upper.estimate - b.lower.estimate)
  ticks : InWord (c.excursion.ticks + 1) ∨ c.excursion.ticks = maxWord

namespace Reached

variable {p : DetectorParams} {c : ChannelState}

/-- Samples of the readout lead on to states of the same kind. -/
theorem after (h : c.Reached p) {xs : List UInt16} (hxs : ∀ x ∈ xs, x.toNat ≤ maxSample) :
    (c.after (Tracker.observe p.stepLimit) p.detector xs).Reached p := by
  induction xs generalizing c with
  | nil => exact h
  | cons x xs ih =>
    exact ih (h.step (hxs x List.mem_cons_self)) fun y hy => hxs y (List.mem_cons_of_mem _ hy)

theorem inWord_ticks (h : c.Reached p) : InWord c.excursion.ticks := by
  have hzero : InWord 0 := by decide
  induction h with
  | fresh => exact hzero
  | seed _ _ ih => exact ih
  | @step c sample _ _ ih =>
    simp only [ChannelState.step, Excursion.step]
    split
    · exact inWord_wrap _
    · rw [Excursion.close]
      split
      · exact hzero
      · exact ih

/-- No tick of a channel under checked settings overflows, unless it counts beyond the words. -/
theorem tickInWord {s : Settings} (hs : s.Checked) (hlimit : InWord s.stepLimit)
    (hc : c.Reached s.detectorParams) {sample : UInt16} (hsample : sample.toNat ≤ maxSample) :
    c.TickInWord s.detectorParams sample := by
  have hfits := hc.fitsWord (Settings.check_eq_ok_iff.mpr hs)
  have hexponent : s.detectorParams.filter.exponent ≤ Settings.maxTapExponent := by
    rw [Settings.detectorParams, s.exponent_filter]
    exact hs.tapExponent_le
  have hnext : (c.baseline.observe s.detectorParams.stepLimit sample.toNat).Within
      s.detectorParams.stepLimit 0 maxSample :=
    hfits.baseline.observe (Int.natCast_nonneg _) (Int.ofNat_le.mpr hsample)
  have hpositive := hs.one_le_stepLimit
  have hticks := hc.inWord_ticks
  simp only [InWord, minWord, maxWord] at hlimit hticks
  refine { hfits with
    exponent := hexponent.trans_lt (by decide)
    limit := ?_
    median := hfits.baseline.median.hasRoom hlimit
    lower := hfits.baseline.lower.hasRoom hlimit
    upper := hfits.baseline.upper.hasRoom hlimit
    difference := ?_
    spread := ?_
    ticks := ?_ }
  · have hsame : s.detectorParams.stepLimit = s.stepLimit := rfl
    rw [hsame]
    simp only [InWord, minWord, maxWord]
    omega
  · obtain ⟨hlow, hhigh, -, -⟩ := hnext.median
    simp only [Baseline.pedestal, InWord, minWord, maxWord, maxSample] at hlow hhigh hsample ⊢
    omega
  · obtain ⟨hlow, hhigh, -, -⟩ := hnext.lower
    obtain ⟨hlow', hhigh', -, -⟩ := hnext.upper
    simp only [InWord, minWord, maxWord, maxSample] at hlow hhigh hlow' hhigh' ⊢
    omega
  · simp only [InWord, minWord, maxWord]
    omega

end Reached

end ChannelState

end TpcTrigger
