import TpcTrigger.Proofs.Settings.CheckedSettings
import TpcTrigger.Proofs.Signal.RingEntries
import TpcTrigger.Proofs.Signal.TrackerRange

/-! # Filters and thresholds in word range

Under checked settings a channel that sees samples of the readout only never leaves its
ranges: the trackers stay among the samples, and the delay line holds at most a full sample
below zero and the ceiling above.  The limit on the tap sum then keeps every product and every
partial sum of the filter in word range, and a threshold that is cut at the end of the range
decides as the exact one does.
-/

namespace TpcTrigger

theorem inWord_of_natAbs_le {x : Int} (h : (x.natAbs : Int) ≤ maxWord) : InWord x := by
  constructor <;> simp only [minWord, maxWord] at * <;> omega

/-- Cutting a number at the ends of the range does not change how it compares with a number that
lies strictly above the lower end. -/
theorem saturate_lt_iff {x y : Int} (hlow : minWord < y) (hhigh : y ≤ maxWord) :
    saturate x < y ↔ x < y := by
  simp only [saturate, minWord, maxWord] at *
  omega

namespace DelayLine

def Within (low high : Int) (line : DelayLine) : Prop := ∀ x ∈ line.cells, low ≤ x ∧ x ≤ high

variable {low high : Int} {line : DelayLine}

theorem within_zeros (hlow : low ≤ 0) (hhigh : 0 ≤ high) (n : Nat) :
    (zeros n).Within low high := by
  intro x hx
  obtain rfl : x = 0 := (Array.mem_replicate.mp hx).2
  exact ⟨hlow, hhigh⟩

theorem Within.push (h : line.Within low high) {sample : Int} (hlow : low ≤ sample)
    (hhigh : sample ≤ high) : (line.push sample).Within low high := by
  intro x hx
  rcases Array.mem_or_eq_of_mem_setIfInBounds hx with hold | rfl
  · exact h x hold
  · exact ⟨hlow, hhigh⟩

theorem Within.entry (h : line.Within low high) (hlow : low ≤ 0) (hhigh : 0 ≤ high) (k : Nat) :
    low ≤ line.entry k ∧ line.entry k ≤ high := by
  rw [DelayLine.entry, Array.getD]
  split
  · exact h _ (Array.getElem_mem _)
  · exact ⟨hlow, hhigh⟩

end DelayLine

def sizeSum (taps : Array Int) (n : Nat) : Nat := ((taps.toList.take n).map Int.natAbs).sum

theorem sizeSum_succ (taps : Array Int) (n : Nat) :
    sizeSum taps (n + 1) = sizeSum taps n + (taps.getD n 0).natAbs := by
  rw [sizeSum, sizeSum, List.take_add_one, List.map_append, List.sum_append, Array.getElem?_toList,
    Array.getD_eq_getD_getElem?]
  cases taps[n]? <;> simp

theorem sizeSum_le_succ (taps : Array Int) (n : Nat) : sizeSum taps n ≤ sizeSum taps (n + 1) := by
  rw [sizeSum_succ]
  exact Nat.le_add_right _ _

theorem sizeSum_mono (taps : Array Int) : Monotone (sizeSum taps) :=
  monotone_nat_of_le_succ (sizeSum_le_succ taps)

/-- The filter sum is at most the sum of the tap sizes times the greatest size of an entry. -/
theorem DelayLine.natAbs_partialSum_le {line : DelayLine} {peak : Nat}
    (h : ∀ k, (line.entry k).natAbs ≤ peak) (taps : Array Int) (n : Nat) :
    (line.partialSum taps n).natAbs ≤ sizeSum taps n * peak := by
  induction n with
  | zero => simp [partialSum]
  | succ n ih =>
    calc (line.partialSum taps (n + 1)).natAbs
        ≤ (line.partialSum taps n).natAbs + (taps.getD n 0 * line.entry n).natAbs := by
          rw [partialSum_succ]
          exact Int.natAbs_add_le _ _
      _ ≤ sizeSum taps n * peak + (taps.getD n 0).natAbs * peak := by
          rw [Int.natAbs_mul]
          exact Nat.add_le_add ih (Nat.mul_le_mul_left _ (h n))
      _ = sizeSum taps (n + 1) * peak := by rw [sizeSum_succ, Nat.add_mul]

namespace FirFilter

variable {f : FirFilter}

theorem tapSum_eq (f : FirFilter) : f.tapSum = sizeSum f.taps f.taps.size := by
  have hfold (l : List Int) (start : Int) :
      l.foldl (fun (sum : Int) tap => sum + tap.natAbs) start = start + ((l.map Int.natAbs).sum : Nat) := by
    induction l generalizing start with
    | nil => simp
    | cons tap l ih =>
      rw [List.foldl_cons, ih, List.map_cons, List.sum_cons, Nat.cast_add, Int.add_assoc]
  rw [tapSum, ← Array.foldl_toList, hfold, sizeSum, List.take_of_length_le (by simp), Int.zero_add]

theorem scale_eq (h : f.exponent ≤ Settings.maxTapExponent) : f.scale = 2 ^ f.exponent := by
  have hcast : ((Nat.pow 2 f.exponent : Nat) : Int) = 2 ^ f.exponent := by
    rw [Nat.pow_eq, Nat.cast_pow, Nat.cast_ofNat]
  have hpos : (0 : Int) < 2 ^ f.exponent := by positivity
  have hle : (2 : Int) ^ f.exponent ≤ 2 ^ Settings.maxTapExponent := pow_le_pow_right₀ one_le_two h
  have htop : (2 : Int) ^ Settings.maxTapExponent = 16384 := by norm_num
  have hbits : f.exponent % wordBits = f.exponent := Nat.mod_eq_of_lt (h.trans_lt (by decide))
  have hword : InWord (2 ^ f.exponent) := by
    constructor <;> simp only [minWord, maxWord] <;> omega
  rw [scale, hbits, hcast, wrap_of_inWord hword]

/-- Greatest size of an entry of the delay line. -/
def peak (f : FirFilter) : Int := max f.ceiling maxSample

theorem ceiling_nonneg (h : f.exponent ≤ Settings.maxTapExponent) : 0 ≤ f.ceiling := by
  rw [ceiling, scale_eq h]
  exact Int.tdiv_nonneg (by decide) (by positivity)

/-- Taps that keep to the limit keep every product and sum of their filter in word range. -/
theorem sizeSum_mul_peak_le (hsum : f.tapSum ≤ f.tapSumLimit) {n : Nat} (hn : n ≤ f.taps.size) :
    ((sizeSum f.taps n * f.peak.toNat : Nat) : Int) ≤ maxWord := by
  have hpos : 0 < f.peak := (by decide : (0 : Int) < maxSample).trans_le (Int.le_max_right _ _)
  have hlimit : f.tapSum * f.peak ≤ maxWord := by
    apply Int.mul_le_of_le_ediv hpos
    rw [tapSumLimit, Int.tdiv_eq_ediv_of_nonneg (by decide)] at hsum
    exact hsum
  have hle : (sizeSum f.taps n : Int) ≤ f.tapSum := by
    rw [tapSum_eq]
    exact_mod_cast sizeSum_mono f.taps hn
  rw [Nat.cast_mul, Int.toNat_of_nonneg hpos.le]
  exact (Int.mul_le_mul_of_nonneg_right hle hpos.le).trans hlimit

end FirFilter

namespace ChannelState

/-- The states that a channel comes to from a fresh one by starts and by samples of the
readout. -/
inductive Reached (p : DetectorParams) : ChannelState → Prop
  | fresh : Reached p (.fresh p.filter.length)
  | seed {c : ChannelState} {sample : UInt16} (h : Reached p c) (hsample : sample.toNat ≤ maxSample) :
      Reached p (c.seed sample)
  | step {c : ChannelState} {sample : UInt16} (h : Reached p c) (hsample : sample.toNat ≤ maxSample) :
      Reached p (c.step p.detector sample.toNat).1

structure InRange (p : DetectorParams) (c : ChannelState) : Prop where
  baseline : c.baseline.Within p.stepLimit 0 maxSample
  line : c.line.Within (-maxSample) p.filter.ceiling

variable {p : DetectorParams} {c : ChannelState}

/-- Starts and samples of the readout keep a channel in range. -/
theorem Reached.inRange (hlimit : 1 ≤ p.stepLimit) (hceiling : 0 ≤ p.filter.ceiling)
    (h : c.Reached p) : c.InRange p := by
  induction h with
  | fresh =>
    exact ⟨Baseline.within_start hlimit (by decide) (by decide),
      DelayLine.within_zeros (by decide) hceiling _⟩
  | seed _ hsample ih => exact ⟨Baseline.within_start hlimit (by omega) (by omega), ih.line⟩
  | @step c sample _ hsample ih =>
    have hbaseline : (c.baseline.observe p.stepLimit sample.toNat).Within p.stepLimit 0 maxSample :=
      ih.baseline.observe (by omega) (by omega)
    have hlow := hbaseline.median.low_le
    have hhigh := hbaseline.median.le_high
    have hfloor : -(maxSample : Int) ≤ 0 := by decide
    have hsame : p.detector.ceiling = p.filter.ceiling := by rw [DetectorParams.detector]
    have hstep : p.detector.stepLimit = p.stepLimit := rfl
    have hdifference : InWord (sample.toNat -
        (c.baseline.observe p.stepLimit sample.toNat).median.estimate) := by
      constructor <;> simp only [minWord, maxWord, maxSample] at * <;> omega
    refine ⟨hbaseline, ih.line.push (Int.le_min.mpr ⟨?_, ?_⟩) ?_⟩
    · rw [Baseline.pedestal, hstep, wrap_of_inWord hdifference]
      omega
    · rw [hsame]
      exact hfloor.trans hceiling
    · rw [← hsame]
      exact Int.min_le_right _ _

theorem InRange.natAbs_entry_le (hceiling : 0 ≤ p.filter.ceiling) (h : c.InRange p) (k : Nat) :
    (c.line.entry k).natAbs ≤ p.filter.peak.toNat := by
  have hentry := h.line.entry (by decide) hceiling k
  have hleft := Int.le_max_left p.filter.ceiling maxSample
  have hright := Int.le_max_right p.filter.ceiling maxSample
  rw [FirFilter.peak]
  omega

/-- Nothing that the hit finder works out at a state leaves the word range, and its output and its
decision are those of exact arithmetic. -/
structure FitsWord (p : DetectorParams) (c : ChannelState) : Prop extends c.InRange p where
  product : ∀ i < p.filter.length, InWord (p.filter.taps.getD i 0 * c.line.entry i)
  partialSum : ∀ n ≤ p.filter.length, InWord (c.line.partialSum p.filter.taps n)
  output : c.output p.detector = c.line.partialSum p.filter.taps p.filter.length
  isOver_iff : ∀ sample : UInt16, sample.toNat ≤ maxSample →
    let b := c.baseline.observe p.stepLimit sample.toNat
    (c.isOver p.detector sample.toNat = true ↔
      (b.upper.estimate - b.lower.estimate) * 2 ^ p.filter.exponent * p.thresholdFactor <
        c.line.partialSum p.filter.taps p.filter.length)

end ChannelState

/-- A threshold that is cut at the ends of the range decides as the exact one. -/
theorem Detector.threshold_lt_iff {d : Detector} {spread output : Int}
    (hscaled : InWord (spread * d.scale)) (hlow : minWord < output) (hhigh : output ≤ maxWord) :
    d.threshold spread < output ↔ spread * d.scale * d.thresholdFactor < output := by
  rw [threshold, saturatingMul, saturatingMul, saturate_of_inWord hscaled,
    saturate_lt_iff hlow hhigh]

/-- The noise of a baseline in range, scaled, is far from the ends of the word range. -/
theorem Baseline.Within.inWord_spread_mul {limit : Int} {b : Baseline}
    (h : b.Within limit 0 maxSample) {exponent : Nat} (hexponent : exponent ≤ Settings.maxTapExponent) :
    InWord (b.spread * 2 ^ exponent) := by
  have hspread : b.spread.natAbs ≤ maxSample := by
    have hlower := h.lower.low_le
    have hupper := h.upper.le_high
    have hlower' := h.lower.le_high
    have hupper' := h.upper.low_le
    rw [h.spread_eq (by decide)]
    omega
  have hpow : 2 ^ exponent ≤ 2 ^ Settings.maxTapExponent := Nat.pow_le_pow_right Nat.two_pos hexponent
  have hmul : (b.spread * 2 ^ exponent).natAbs ≤ maxSample * 2 ^ Settings.maxTapExponent := by
    rw [Int.natAbs_mul, Int.natAbs_pow]
    exact Nat.mul_le_mul hspread hpow
  apply inWord_of_natAbs_le
  exact (Int.ofNat_le.mpr hmul).trans (by decide)

theorem Settings.exponent_filter (s : Settings) : s.filter.exponent = s.tapExponent := by
  rw [filter]
  cases s.taps <;> rfl

/-- Filters that keep to the limits of checked settings stay in word range. -/
theorem ChannelState.InRange.fitsWord_of_limits {p : DetectorParams} {c : ChannelState} (hc : c.InRange p)
    (hexponent : p.filter.exponent ≤ Settings.maxTapExponent)
    (hsum : p.filter.tapSum ≤ p.filter.tapSumLimit) : c.FitsWord p := by
  have hentry := hc.natAbs_entry_le (FirFilter.ceiling_nonneg hexponent)
  have hpartial {n : Nat} (hn : n ≤ p.filter.length) :
      ((c.line.partialSum p.filter.taps n).natAbs : Int) ≤ maxWord :=
    (Int.ofNat_le.mpr (DelayLine.natAbs_partialSum_le hentry _ n)).trans
      (FirFilter.sizeSum_mul_peak_le hsum hn)
  have houtput : c.output p.detector = c.line.partialSum p.filter.taps p.filter.length := by
    rw [output, DetectorParams.detector, DelayLine.output_eq_wrap, FirFilter.length]
    exact wrap_of_inWord (inWord_of_natAbs_le (hpartial le_rfl))
  refine { hc with
    product := fun i hi => inWord_of_natAbs_le ?_
    partialSum := fun n hn => inWord_of_natAbs_le (hpartial hn)
    output := houtput
    isOver_iff := fun sample hsample => ?_ }
  · have htap : (p.filter.taps.getD i 0).natAbs ≤ sizeSum p.filter.taps (i + 1) := by
      rw [sizeSum_succ]
      exact Nat.le_add_left _ _
    have hproduct : (p.filter.taps.getD i 0 * c.line.entry i).natAbs ≤
        sizeSum p.filter.taps (i + 1) * p.filter.peak.toNat := by
      rw [Int.natAbs_mul]
      exact Nat.mul_le_mul htap (hentry i)
    exact (Int.ofNat_le.mpr hproduct).trans (FirFilter.sizeSum_mul_peak_le hsum hi)
  · have hbaseline : (c.baseline.observe p.stepLimit sample.toNat).Within p.stepLimit 0 maxSample :=
      hc.baseline.observe (by omega) (by omega)
    have hscale : p.detector.scale = 2 ^ p.filter.exponent := by
      rw [← FirFilter.scale_eq hexponent, DetectorParams.detector]
    have hscaled := hbaseline.inWord_spread_mul hexponent
    have hlast := hpartial (Nat.le_refl p.filter.length)
    intro b
    rw [← hbaseline.spread_eq (by decide)]
    rw [← hscale] at hscaled ⊢
    rw [isOver, decide_eq_true_eq, houtput]
    refine Detector.threshold_lt_iff hscaled ?_ ?_ <;> simp only [minWord, maxWord] at * <;> omega

/-- Checked settings keep all arithmetic of the hit finder exact. -/
theorem ChannelState.Reached.fitsWord {s : Settings} (hcheck : s.check = .ok ()) {c : ChannelState}
    (hc : c.Reached s.detectorParams) : c.FitsWord s.detectorParams := by
  have hs := Settings.check_eq_ok_iff.mp hcheck
  have hfilter : s.detectorParams.filter = s.filter := rfl
  have hexponent : s.detectorParams.filter.exponent ≤ Settings.maxTapExponent := by
    rw [hfilter, s.exponent_filter]
    exact hs.tapExponent_le
  have hsum : s.detectorParams.filter.tapSum ≤ s.detectorParams.filter.tapSumLimit := by
    rw [hfilter]
    exact hs.tapSum_le
  exact (hc.inRange hs.one_le_stepLimit (FirFilter.ceiling_nonneg hexponent)).fitsWord_of_limits
    hexponent hsum

/-- The greatest output that is possible, under the least threshold factor of the word range. -/
theorem ChannelState.Reached.fitsWord_greatest :
    let s : Settings := {
      windowTicks := superchunkTicks
      tapCount := 1
      tapExponent := 14
      taps := some #[-524416]
      cutoff := Float.ofBits 0x3FB999999999999A
      thresholdFactor := -2147483648 }
    let d := s.detectorParams.detector
    let c : ChannelState := (((ChannelState.fresh 1).seed 4095).step d (0 : UInt16).toNat).1
    s.check = .ok () ∧ c.Reached s.detectorParams ∧ c.output d = 2147483520 ∧
      c.FitsWord s.detectorParams := by
  intro s d c
  have hcheck : s.check = .ok () := Settings.check_eq_ok_iff.mpr (by decide +kernel)
  have hc : c.Reached s.detectorParams := ((Reached.fresh).seed (by decide)).step (by decide)
  exact ⟨hcheck, hc, by decide +kernel, hc.fitsWord hcheck⟩

end TpcTrigger
