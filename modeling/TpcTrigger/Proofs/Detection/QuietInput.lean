import TpcTrigger.Proofs.Detection.ChannelSearch
import TpcTrigger.Proofs.Detection.SlidingFilter
import TpcTrigger.Proofs.Detection.TickWords
import TpcTrigger.Proofs.Signal.QuartileOrder

/-! # Quiet input

A channel that sees one and the same sample for long enough settles: first its median reaches the
sample, then its delay line runs empty, and then the filter gives nothing.  Whether it is over
threshold is then up to the noise alone.  The noise is not negative as long as the quartiles are
in order, which a step limit of two or more guarantees; under a limit of one they can pass each
other, and then a channel stays over threshold on quiet input.
-/

namespace TpcTrigger

theorem Baseline.observe_settled {limit low high : Int} {b : Baseline} {v : UInt16}
    (hb : b.Within limit low high) (hsettled : b.pedestal = v.toNat) :
    b.observeBy (Tracker.observe limit) v.toNat = b := by
  rw [← hsettled]
  exact observe_median hb

/-- At the median samples put nothing into a delay line. -/
theorem Baseline.fed_settled {limit low high ceiling : Int} {b : Baseline} {v : UInt16}
    (hb : b.Within limit low high) (hsettled : b.pedestal = v.toNat) (hceiling : 0 ≤ ceiling)
    (n : Nat) :
    b.fed (Tracker.observe limit) ceiling (List.replicate n v) = List.replicate n 0 := by
  induction n with
  | zero => rfl
  | succ n ih =>
    rw [List.replicate_succ, fed, observe_settled hb hsettled, ih, hsettled, Int.sub_self, wrap_zero,
      Int.min_eq_left hceiling, List.replicate_succ]

theorem Excursion.isOpen_step (e : Excursion) (above : Bool) (height : Int) :
    (e.step above height).isOpen = above := by
  cases above <;> cases hopen : e.isOpen <;> simp [step, extend, close, Excursion.none, hopen]

theorem Excursion.close_eq_none {e : Excursion} (h : e.isOpen = false → e = .none) :
    e.close = .none := by
  cases hopen : e.isOpen with
  | true => rw [close, if_pos hopen]
  | false => rw [h hopen]; rfl

/-- Where the filter gives nothing, only a negative threshold is exceeded. -/
theorem DetectorParams.threshold_neg_iff {p : DetectorParams} {limit : Int} {b : Baseline}
    (hb : b.Within limit 0 maxSample) (hexponent : p.filter.exponent ≤ Settings.maxTapExponent)
    (hfactor : 0 ≤ p.thresholdFactor) :
    p.detector.threshold b.spread < 0 ↔ b.spread < 0 ∧ 0 < p.thresholdFactor := by
  have hscale : p.detector.scale = 2 ^ p.filter.exponent := by
    rw [← FirFilter.scale_eq hexponent, DetectorParams.detector]
  have hscaled := hb.inWord_spread_mul hexponent
  have hpos : (0 : Int) < 2 ^ p.filter.exponent := by positivity
  rw [← hscale] at hscaled hpos
  have hmin : minWord < 0 := by simp [minWord]
  have hmax : 0 ≤ maxWord := by simp [maxWord]
  have hsame : p.detector.thresholdFactor = p.thresholdFactor := rfl
  rw [Detector.threshold_lt_iff hscaled hmin hmax, hsame, mul_neg_iff, mul_neg_iff]
  constructor
  · rintro (⟨-, hneg⟩ | ⟨(⟨-, hneg⟩ | ⟨hspread, -⟩), hfactor'⟩)
    · omega
    · omega
    · exact ⟨hspread, hfactor'⟩
  · rintro ⟨hspread, hfactor'⟩
    exact .inr ⟨.inr ⟨hspread, hpos⟩, hfactor'⟩

@[simp] theorem DetectorParams.stepLimit_detector (p : DetectorParams) :
    p.detector.stepLimit = p.stepLimit :=
  rfl

namespace ChannelState

section Settled

variable {d : Detector} {s : ChannelState} {low high : Int} {v : UInt16}

theorem median_after_replicate (d : Detector) (s : ChannelState) (v : UInt16) (n : Nat) :
    (s.after (Tracker.observe d.stepLimit) d (List.replicate n v)).baseline.median =
      s.baseline.median.held d.stepLimit v.toNat n := by
  induction n generalizing s with
  | zero => rfl
  | succ n ih =>
    rw [List.replicate_succ, after_cons, ih]
    rfl

theorem baseline_after_settled (hs : s.baseline.Within d.stepLimit low high)
    (hsettled : s.baseline.pedestal = v.toNat) (n : Nat) :
    (s.after (Tracker.observe d.stepLimit) d (List.replicate n v)).baseline = s.baseline := by
  induction n generalizing s with
  | zero => rfl
  | succ n ih =>
    have hstay : (s.advance (Tracker.observe d.stepLimit) d v).baseline = s.baseline :=
      Baseline.observe_settled hs hsettled
    rw [← hstay] at hs hsettled
    rw [List.replicate_succ, after_cons, ih hs hsettled, hstay]

/-- Once the delay line has been filled at the median, the filter gives nothing. -/
theorem output_settled (hs : s.baseline.Within d.stepLimit low high)
    (hsettled : s.baseline.pedestal = v.toNat) (hfit : s.line.Fits d.taps.size)
    (hceiling : 0 ≤ d.ceiling) {n : Nat} (hn : d.taps.size ≤ n) :
    (s.after (Tracker.observe d.stepLimit) d (List.replicate n v)).output d = 0 := by
  have hlength : (List.replicate n v).length = n := List.length_replicate
  have hsum := outputAt_eq_sum (Tracker.observe d.stepLimit) d (List.replicate n v) hfit hlength.ge
  rw [outputAt, List.take_of_length_le hlength.le] at hsum
  rw [hsum, lineHistory, Baseline.fed_settled hs hsettled hceiling]
  refine congrArg wrap (Finset.sum_eq_zero fun i _ => ?_)
  have hbehind : s.line.entries.length ≤ n + i := by
    rw [DelayLine.length_entries, hfit.1]
    omega
  rw [List.getD_eq_getElem?_getD, List.getElem?_append_right hbehind, List.getElem?_replicate]
  split <;> exact Int.mul_zero _

end Settled

variable (rule : TrackerRule) (d : Detector) {s : ChannelState}

/-- Whether a channel is over threshold was decided by the tick that it has taken in last. -/
theorem isOpen_advance (s : ChannelState) (x : UInt16) :
    (s.advance rule d x).excursion.isOpen =
      decide (d.threshold (s.advance rule d x).baseline.spread < s.output d) :=
  Excursion.isOpen_step ..

theorem hitAt_of_isOpen (channel tick : Nat) (hopen : s.excursion.isOpen = true) (x : UInt16) :
    hitAt rule d channel tick s x =
      if (s.advance rule d x).excursion.isOpen then none
      else some (s.excursion.hit channel tick) := by
  have hbaseline : (s.advance rule d x).baseline = s.baseline.observeBy rule x.toNat := rfl
  rw [isOpen_advance, hbaseline, hitAt, stepBy]
  dsimp only
  generalize decide (d.threshold (s.baseline.observeBy rule x.toNat).spread < s.output d) = above
  cases above <;> simp [Excursion.closed?, hopen]

/-- An excursion that is open at the start of a stream and not at its end is handed out as the
first hit of the stream, at the tick up to which it has stayed open. -/
theorem head?_hitsFrom (channel tick : Nat) {xs : List UInt16} (hopen : s.excursion.isOpen = true)
    (hclosed : (s.after rule d xs).excursion.isOpen = false) :
    ∃ t < xs.length, (∀ u ≤ t, (s.after rule d (xs.take u)).excursion.isOpen = true) ∧
      (hitsFrom rule d channel tick s xs).head? =
        some ((s.after rule d (xs.take t)).excursion.hit channel (tick + t)) := by
  induction xs generalizing s tick with
  | nil =>
    rw [after_nil, hopen] at hclosed
    cases hclosed
  | cons x xs ih =>
    have hhit := hitAt_of_isOpen rule d channel tick hopen x
    cases hnext : (s.advance rule d x).excursion.isOpen with
    | true =>
      rw [hnext, if_pos rfl] at hhit
      obtain ⟨t, ht, hstays, hfirst⟩ := ih (tick + 1) hnext hclosed
      refine ⟨t + 1, Nat.succ_lt_succ ht, fun u hu => ?_, ?_⟩
      · cases u with
        | zero => exact hopen
        | succ u => exact hstays u (Nat.le_of_succ_le_succ hu)
      · rw [hitsFrom, hhit, Option.toList_none, List.nil_append, hfirst, List.take_succ_cons,
          after_cons, Nat.add_assoc, Nat.add_comm 1]
    | false =>
      rw [hnext, if_neg Bool.false_ne_true] at hhit
      refine ⟨0, Nat.succ_pos _, fun u hu => ?_, ?_⟩
      · rw [Nat.le_zero.mp hu]
        exact hopen
      · rw [hitsFrom, hhit]
        rfl

namespace Reached

variable {p : DetectorParams} {c : ChannelState}

theorem fits (htaps : 0 < p.filter.length) (h : c.Reached p) : c.line.Fits p.filter.length := by
  induction h with
  | fresh => exact fits_fresh htaps 0
  | seed _ _ ih => exact ih
  | step _ _ ih => exact ih.push _

/-- Under a step limit of two or more the quartiles of a channel are always in order. -/
theorem ordered (hlimit : 2 ≤ p.stepLimit) (hceiling : 0 ≤ p.filter.ceiling) (h : c.Reached p) :
    c.baseline.Ordered p.stepLimit := by
  induction h with
  | fresh => exact Baseline.ordered_start hlimit 0
  | seed _ _ _ => exact Baseline.ordered_start hlimit _
  | step h _ ih => exact ih.observe hlimit (h.inRange (by omega) hceiling).baseline _

theorem excursion_eq_none (h : c.Reached p) (hclosed : c.excursion.isOpen = false) :
    c.excursion = .none := by
  induction h with
  | fresh => rfl
  | seed _ _ ih => exact ih hclosed
  | @step c sample _ _ ih =>
    rw [ChannelState.step, Excursion.isOpen_step] at hclosed
    rw [ChannelState.step, hclosed]
    exact Excursion.close_eq_none ih

end Reached

theorem mem_replicate_le {v : UInt16} (hv : v.toNat ≤ maxSample) (n : Nat) :
    ∀ x ∈ List.replicate n v, x.toNat ≤ maxSample := fun x hx => by
  rwa [List.eq_of_mem_replicate hx]

section Quiet

variable {p : DetectorParams} {c : ChannelState} {v : UInt16} {n : Nat}
  (hlimit : 1 ≤ p.stepLimit) (hexponent : p.filter.exponent ≤ Settings.maxTapExponent)
  (hc : c.Reached p)
include hlimit hexponent hc

/-- The median comes to a sample that does not change within as many ticks as it has levels. -/
theorem Reached.pedestal_settled (hv : v.toNat ≤ maxSample) (hn : p.stepLimit * 4096 ≤ n + 1) :
    (c.after (Tracker.observe p.stepLimit) p.detector (List.replicate n v)).baseline.pedestal =
      v.toNat := by
  have hwithin := (hc.inRange hlimit (FirFilter.ceiling_nonneg hexponent)).baseline
  have hmedian := median_after_replicate p.detector c v n
  have hlevels : (maxSample : Int) - 0 + 1 = 4096 := by norm_num
  rw [p.stepLimit_detector] at hmedian
  rw [Baseline.pedestal, hmedian]
  exact Tracker.estimate_held hwithin.median (by omega) (by omega) (by rwa [hlevels])

variable (hfactor : 0 ≤ p.thresholdFactor) (htaps : 0 < p.filter.length)
include hfactor htaps

/-- A settled channel whose delay line has run empty is over threshold just if its quartiles have
passed each other. -/
theorem Reached.isOpen_settled_iff (hmedian : c.baseline.pedestal = v.toNat)
    (hn : p.filter.length < n) :
    (c.after (Tracker.observe p.stepLimit) p.detector (List.replicate n v)).excursion.isOpen =
        true ↔
      c.baseline.spread < 0 ∧ 0 < p.thresholdFactor := by
  obtain ⟨m, rfl⟩ := Nat.exists_eq_add_one_of_ne_zero (Nat.ne_zero_of_lt hn)
  have hwithin := (hc.inRange hlimit (FirFilter.ceiling_nonneg hexponent)).baseline
  have hceiling : 0 ≤ p.detector.ceiling := by
    dsimp only [DetectorParams.detector]
    exact FirFilter.ceiling_nonneg hexponent
  have hfit : c.line.Fits p.detector.taps.size := hc.fits htaps
  have houtput := output_settled (d := p.detector) hwithin hmedian hfit hceiling
    (Nat.le_of_lt_succ hn)
  have hstay := baseline_after_settled (d := p.detector) hwithin hmedian (m + 1)
  rw [p.stepLimit_detector] at houtput hstay
  rw [List.replicate_succ', after_append, after_cons, after_nil] at hstay ⊢
  rw [isOpen_advance, houtput, hstay, decide_eq_true_eq]
  exact DetectorParams.threshold_neg_iff hwithin hexponent hfactor

/-- So is any channel that has seen quiet input for long enough. -/
theorem Reached.isOpen_quiet_iff (hv : v.toNat ≤ maxSample)
    (hn : p.stepLimit * 4096 + p.filter.length ≤ n) :
    let quiet := c.after (Tracker.observe p.stepLimit) p.detector (List.replicate n v)
    quiet.excursion.isOpen = true ↔ quiet.baseline.spread < 0 ∧ 0 < p.thresholdFactor := by
  obtain ⟨climb, hclimb⟩ : ∃ climb : Nat, p.stepLimit * 4096 = climb + 1 :=
    ⟨(p.stepLimit * 4096 - 1).toNat, by omega⟩
  obtain ⟨m, rfl⟩ : ∃ m, n = climb + m := ⟨n - climb, by omega⟩
  have hsettling := hc.after (mem_replicate_le hv climb)
  have hmedian := hc.pedestal_settled hlimit hexponent hv hclimb.le
  have hwithin := (hsettling.inRange hlimit (FirFilter.ceiling_nonneg hexponent)).baseline
  have hstay := baseline_after_settled (d := p.detector) hwithin hmedian m
  rw [p.stepLimit_detector] at hstay
  intro quiet
  have hquiet : quiet = (c.after (Tracker.observe p.stepLimit) p.detector
      (List.replicate climb v)).after (Tracker.observe p.stepLimit) p.detector
        (List.replicate m v) := by
    rw [← after_append, ← List.replicate_add]
  rw [hquiet, hstay]
  exact hsettling.isOpen_settled_iff hlimit hexponent hfactor htaps hmedian (by omega)

end Quiet

/-- How a channel of checked settings comes out of quiet input that has lasted for long enough.
Whether it is over threshold depends on its noise, which is not negative from a step limit of two
on; and where it is not, no excursion is left, and one that was open has become a hit. -/
theorem Reached.quiet_closes {s : Settings} (hcheck : s.check = .ok ())
    (hfactor : 0 ≤ s.thresholdFactor) (kind : KernelKind) {c : ChannelState}
    (hc : c.Reached s.detectorParams) {v : UInt16} (hv : v.toNat ≤ maxSample) {n : Nat}
    (hn : s.stepLimit * 4096 + s.tapCount ≤ n) :
    let rule := kind.rule s.stepLimit
    let d := s.detectorParams.detector
    let ticks := List.replicate n v
    let quiet := c.after rule d ticks
    (2 ≤ s.stepLimit → 0 ≤ quiet.baseline.spread ∧ quiet.excursion.isOpen = false) ∧
      (quiet.excursion.isOpen = true ↔ quiet.baseline.spread < 0 ∧ 0 < s.thresholdFactor) ∧
      (quiet.excursion.isOpen = false → quiet.excursion = .none ∧
        ∀ channel tick, c.excursion.isOpen = true →
          ∃ t < n, (∀ u ≤ t, (c.after rule d (ticks.take u)).excursion.isOpen = true) ∧
            (hitsFrom rule d channel tick c ticks).head? =
              some ((c.after rule d (ticks.take t)).excursion.hit channel (tick + t))) := by
  intro rule d ticks quiet
  have hs := Settings.check_eq_ok_iff.mp hcheck
  have hrule : rule = Tracker.observe s.detectorParams.stepLimit :=
    KernelKind.rule_eq_of_one_le hs.one_le_stepLimit kind .channelwise
  have hexponent : s.detectorParams.filter.exponent ≤ Settings.maxTapExponent := by
    rw [Settings.detectorParams, s.exponent_filter]
    exact hs.tapExponent_le
  have htaps : s.detectorParams.filter.length = s.tapCount := Settings.length_filter hs
  have hpos := Settings.tapCount_pos hs
  have hreached : quiet.Reached s.detectorParams := by
    have hafter := hc.after (mem_replicate_le hv n)
    rwa [← hrule] at hafter
  have hopen : quiet.excursion.isOpen = true ↔
      quiet.baseline.spread < 0 ∧ 0 < s.thresholdFactor := by
    rw [← htaps] at hn hpos
    have hiff := hc.isOpen_quiet_iff hs.one_le_stepLimit hexponent hfactor hpos hv hn
    rwa [← hrule] at hiff
  refine ⟨fun hlimit => ?_, hopen, fun hclosed => ⟨hreached.excursion_eq_none hclosed, ?_⟩⟩
  · have hwithin := (hreached.inRange hs.one_le_stepLimit (FirFilter.ceiling_nonneg hexponent)).baseline
    have hspread := (hreached.ordered hlimit
      (FirFilter.ceiling_nonneg hexponent)).spread_nonneg hwithin (by decide)
    refine ⟨hspread, Bool.eq_false_iff.mpr fun hover => ?_⟩
    exact absurd (hopen.mp hover).1 hspread.not_gt
  · intro channel tick hgrowing
    obtain ⟨t, ht, hfirst⟩ := head?_hitsFrom rule d channel tick hgrowing hclosed
    exact ⟨t, by rwa [List.length_replicate] at ht, hfirst⟩

/-- A pulse that is still over threshold when the input becomes quiet. -/
theorem Reached.quiet_closes_pulse :
    let s : Settings := {
      windowTicks := superchunkTicks
      tapCount := 1
      tapExponent := 0
      taps := some #[1]
      cutoff := Float.ofBits 0x3FB999999999999A
      stepLimit := 2 }
    let d := s.detectorParams.detector
    let c := ((ChannelState.fresh 1).seed 100).after (Tracker.observe 2) d [100, 600, 600]
    let rule := KernelKind.lockstep.rule s.stepLimit
    let ticks := List.replicate 8193 (100 : UInt16)
    s.check = .ok () ∧ 0 ≤ s.thresholdFactor ∧ c.Reached s.detectorParams ∧
      (100 : UInt16).toNat ≤ maxSample ∧ s.stepLimit * 4096 + s.tapCount ≤ (8193 : Nat) ∧
      c.excursion.isOpen = true ∧ (c.after rule d ticks).excursion = .none ∧
      ∃ t < 8193, (hitsFrom rule d 7 3 c ticks).head? =
        some ((c.after rule d (ticks.take t)).excursion.hit 7 (3 + t)) := by
  intro s d c rule ticks
  have hcheck : s.check = .ok () := Settings.check_eq_ok_iff.mpr (by decide +kernel)
  have hfactor : 0 ≤ s.thresholdFactor := by decide
  have hc : c.Reached s.detectorParams :=
    ((Reached.fresh).seed (by decide)).after (by simp [maxSample])
  have hticks : s.stepLimit * 4096 + s.tapCount ≤ (8193 : Nat) := by decide
  have hv : (100 : UInt16).toNat ≤ maxSample := by decide
  have hopen : c.excursion.isOpen = true := by decide +kernel
  obtain ⟨hlimit, -, hclosed⟩ := hc.quiet_closes hcheck hfactor .lockstep hv hticks
  obtain ⟨hnone, hhit⟩ := hclosed (hlimit (by decide)).2
  obtain ⟨t, ht, -, hfirst⟩ := hhit 7 3 hopen
  exact ⟨hcheck, hfactor, hc, hv, hticks, hopen, hnone, t, ht, hfirst⟩

/-- Under a step limit of one the quartiles can pass each other, and quiet input closes nothing. -/
theorem Reached.quiet_stays_open :
    let s : Settings := {
      windowTicks := superchunkTicks
      tapCount := 1
      tapExponent := 0
      taps := some #[1]
      cutoff := Float.ofBits 0x3FB999999999999A
      stepLimit := 1 }
    let d := s.detectorParams.detector
    let rule := KernelKind.channelwise.rule s.stepLimit
    let c := ((ChannelState.fresh 1).seed 100).after rule d [100, 99, 98, 97, 96, 98, 97]
    s.check = .ok () ∧ 0 ≤ s.thresholdFactor ∧ c.Reached s.detectorParams ∧
      (97 : UInt16).toNat ≤ maxSample ∧ s.stepLimit * 4096 + s.tapCount ≤ (4097 : Nat) ∧
      (c.after rule d (List.replicate 4097 97)).excursion.isOpen = true := by
  intro s d rule c
  have hcheck : s.check = .ok () := Settings.check_eq_ok_iff.mpr (by decide +kernel)
  have hc : c.Reached s.detectorParams :=
    ((Reached.fresh).seed (by decide)).after (by simp [maxSample])
  have hticks : s.stepLimit * 4096 + s.tapCount ≤ (4097 : Nat) := by decide
  have hv : (97 : UInt16).toNat ≤ maxSample := by decide
  have hmedian : c.baseline.pedestal = (97 : UInt16).toNat := by decide +kernel
  have hspread : c.baseline.spread < 0 := by decide +kernel
  have hlimit : 1 ≤ s.detectorParams.stepLimit := by decide
  have hexponent : s.detectorParams.filter.exponent ≤ Settings.maxTapExponent := by decide
  have hfactor : 0 < s.detectorParams.thresholdFactor := by decide
  have htaps : 0 < s.detectorParams.filter.length := by decide
  have hopen := (hc.isOpen_settled_iff (n := 4097) hlimit hexponent hfactor.le htaps hmedian
    (by decide)).mpr ⟨hspread, hfactor⟩
  have hrule : rule = Tracker.observe s.detectorParams.stepLimit := rfl
  have hdetector : d = s.detectorParams.detector := rfl
  rw [← hrule, ← hdetector] at hopen
  exact ⟨hcheck, hfactor.le, hc, hv, hticks, hopen⟩

end ChannelState

end TpcTrigger
