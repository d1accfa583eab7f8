import TpcTrigger.Proofs.Detection.ReportedRuns
import TpcTrigger.Proofs.Detection.SlidingFilter

/-! # Raising the threshold factor

The threshold decides about excursions and about nothing else: baseline and delay line of a channel
go the same way whatever the factor is.  As long as neither the scale of the filter nor the noise is
negative, a larger factor makes the threshold of every tick larger, so that the runs over threshold
get shorter, fall apart or go, and none is added.

A scale is a power of two, but the greatest one that can be shifted into a word comes out negative.
Then a larger factor makes the threshold smaller and adds runs.
-/

namespace TpcTrigger

theorem saturate_mono : Monotone saturate :=
  fun _ _ h => max_le_max le_rfl (min_le_min le_rfl h)

def DetectorParams.withFactor (p : DetectorParams) (factor : Int) : DetectorParams :=
  { p with thresholdFactor := factor }

@[simp] theorem DetectorParams.scale_detector (p : DetectorParams) :
    p.detector.scale = p.filter.scale := by
  rw [detector]

namespace Detector

def withFactor (d : Detector) (factor : Int) : Detector := { d with thresholdFactor := factor }

theorem detector_withFactor (p : DetectorParams) (factor : Int) :
    (p.withFactor factor).detector = p.detector.withFactor factor := by
  simp only [DetectorParams.withFactor, withFactor, DetectorParams.detector]

variable {d : Detector} {factor spread : Int}

/-- Neither of the two products turns the order of the factors round. -/
theorem threshold_le_raised (hscale : 0 ≤ d.scale) (hspread : 0 ≤ spread)
    (hfactor : d.thresholdFactor ≤ factor) :
    d.threshold spread ≤ (d.withFactor factor).threshold spread := by
  have hnoise : 0 ≤ saturatingMul spread d.scale := saturate_mono (Int.mul_nonneg hspread hscale)
  exact saturate_mono (Int.mul_le_mul_of_nonneg_left hfactor hnoise)

end Detector

namespace ChannelState

/-- The same baseline and the same delay line; the excursions may differ. -/
structure SameSignal (s s' : ChannelState) : Prop where
  baseline : s.baseline = s'.baseline
  line : s.line = s'.line

namespace SameSignal

variable (rule : TrackerRule) (d : Detector) (factor : Int) {s s' : ChannelState}

theorem refl (s : ChannelState) : s.SameSignal s := ⟨rfl, rfl⟩

variable (h : s.SameSignal s')
include h

/-- The threshold has no part in what a sample does to the baseline and to the delay line. -/
theorem advance (x : UInt16) : (s.advance rule d x).SameSignal
    (s'.advance rule (d.withFactor factor) x) where
  baseline := by
    change s.baseline.observeBy rule x.toNat = s'.baseline.observeBy rule x.toNat
    rw [h.baseline]
  line := by
    change s.line.push (min (wrap (x.toNat - (s.baseline.observeBy rule x.toNat).pedestal)) d.ceiling) =
      s'.line.push (min (wrap (x.toNat - (s'.baseline.observeBy rule x.toNat).pedestal)) d.ceiling)
    rw [h.baseline, h.line]

theorem after (xs : List UInt16) : (s.after rule d xs).SameSignal
    (s'.after rule (d.withFactor factor) xs) := by
  induction xs generalizing s s' with
  | nil => exact h
  | cons x xs ih => exact ih (h.advance rule d factor x)

theorem output : s.output d = s'.output (d.withFactor factor) :=
  congrArg (DelayLine.output d.taps) h.line

end SameSignal

variable (rule : TrackerRule) (d : Detector) (s : ChannelState) (xs : List UInt16)

/-- The noise at a tick of a stream, after the baseline has taken in its sample. -/
def spreadAt (t : Nat) : Int := (s.after rule d (xs.take (t + 1))).baseline.spread

variable {rule d s xs}

theorem overAt_of_raised {factor : Int} {t : Nat} (hscale : 0 ≤ d.scale)
    (hspread : 0 ≤ spreadAt rule d s xs t) (hfactor : d.thresholdFactor ≤ factor)
    (hover : overAt rule (d.withFactor factor) s xs t = true) : overAt rule d s xs t = true := by
  have hthreshold : thresholdAt rule d s xs t ≤ thresholdAt rule (d.withFactor factor) s xs t := by
    rw [thresholdAt, thresholdAt, ← ((SameSignal.refl s).after rule d factor _).baseline]
    exact Detector.threshold_le_raised hscale hspread hfactor
  have houtput : outputAt rule d s xs t = outputAt rule (d.withFactor factor) s xs t :=
    ((SameSignal.refl s).after rule d factor _).output d factor
  rw [overAt, decide_eq_true_eq] at hover ⊢
  rw [houtput]
  exact hthreshold.trans_lt hover

end ChannelState

/-- Of two lists of hits that tell of the whole runs of two decisions on the same ticks, every run
of the first lies within one of the second, and no more ticks are over threshold. -/
structure ReportsLess (total : Nat) (less above : Nat → Bool) (fewer runs : List Hit) : Prop where
  tells : ∀ h ∈ runs, ∃ start, h.TellsOf above total start
  within : ∀ h ∈ fewer, ∃ start, h.TellsOf less total start ∧
    ∃ around ∈ runs, ∃ first, around.TellsOf above total first ∧
      first ≤ start ∧ h.endTick ≤ around.endTick
  ticks : (List.range total).countP less ≤ (List.range total).countP above
  /-- The lengths that are reported add up to no more either. -/
  lengths : total ≤ maxWord → (fewer.map (·.ticksOver)).sum ≤ (runs.map (·.ticksOver)).sum

theorem ChannelState.reportsLess_of_raised {rule : TrackerRule} {d : Detector} {factor : Int}
    {s : ChannelState} {xs : List UInt16} (channel : Nat) (hquiet : s.excursion = .none)
    (hscale : 0 ≤ d.scale) (hspread : ∀ t < xs.length, 0 ≤ spreadAt rule d s xs t)
    (hfactor : d.thresholdFactor ≤ factor) :
    ReportsLess xs.length (overAt rule (d.withFactor factor) s xs) (overAt rule d s xs)
      (runsFrom rule (d.withFactor factor) channel s xs) (runsFrom rule d channel s xs) := by
  have hraised (t : Nat) (ht : t < xs.length) :
      overAt rule (d.withFactor factor) s xs t = true → overAt rule d s xs t = true :=
    overAt_of_raised hscale (hspread t ht) hfactor
  have hticks : overTicks rule (d.withFactor factor) s xs ≤ overTicks rule d s xs :=
    List.countP_mono_left fun t ht => hraised t (List.mem_range.mp ht)
  refine ⟨fun h hmem => ?_, fun h hmem => ?_, hticks, fun hroom => ?_⟩
  · obtain ⟨start, stop, hrun, rfl⟩ := (mem_runsFrom _ _ channel hquiet).mp hmem
    exact ⟨start, hrun, rfl⟩
  · obtain ⟨start, stop, hrun, rfl⟩ := (mem_runsFrom _ _ channel hquiet).mp hmem
    obtain ⟨first, last, haround, hfirst, hlast⟩ := hrun.exists_around hraised
    exact ⟨start, ⟨hrun, rfl⟩, _, (mem_runsFrom _ _ channel hquiet).mpr ⟨first, last, haround, rfl⟩,
      first, ⟨haround, rfl⟩, hfirst, hlast⟩
  · rw [sum_ticksOver_runsFrom _ _ channel hquiet hroom,
      sum_ticksOver_runsFrom _ _ channel hquiet hroom]
    exact Int.ofNat_le.mpr hticks

namespace Channelwise

/-- Wherever two searches of the same windows have come to, the channel at a place of the calls has
the same baseline and the same delay line in both, and the same filter output is due. -/
def SameCourse (p q : DetectorParams) (registers : RegisterRange) (states : Array ChannelState)
    (windows : List Window) (i : Nat) : Prop :=
  ∀ k (_ : k < windows.length), ∃ before parts before' parts',
    KernelKind.channelwise.processAll p registers states (windows.take k) = .ok (before, parts) ∧
      KernelKind.channelwise.processAll q registers states (windows.take k) = .ok (before', parts') ∧
      ∀ tick ≤ windows[k].ticks,
        let s := (walkTo p.detector windows[k] (registers.firstChannel + i) (before.getD i default)
          tick).state
        let s' := (walkTo q.detector windows[k] (registers.firstChannel + i) (before'.getD i default)
          tick).state
        s.SameSignal s' ∧ s.output p.detector = s'.output q.detector

variable (p : DetectorParams) (factor : Int) (registers : RegisterRange)
  (states : Array ChannelState)

/-- The threshold never feeds back into what it is compared with. -/
theorem sameCourse (hshape : checkShape registers states p = .ok ()) (windows : List Window) {i : Nat}
    (hi : i < states.size) :
    SameCourse p (p.withFactor factor) registers states windows i := by
  intro k hk
  refine ⟨_, _, _, _, KernelKind.channelwise.processAll_eq p registers states hshape _,
    KernelKind.channelwise.processAll_eq (p.withFactor factor) registers states hshape
      _, fun tick _ => ?_⟩
  rw [walkTo, walkTo, ChannelWalk.run_eq, ChannelWalk.run_eq, KernelKind.getD_carried _ _ _ _ _ hi,
    KernelKind.getD_carried _ _ _ _ _ hi, Detector.detector_withFactor]
  have hsame := ((ChannelState.SameSignal.refl (states.getD i default)).after
    (Tracker.observe p.stepLimit) p.detector factor (channelStream (windows.take k)
      (registers.firstChannel + i))).after (Tracker.observe p.stepLimit) p.detector factor
        ((windows[k].block.channelSamples (registers.firstChannel + i)).take tick)
  exact ⟨hsame, hsame.output p.detector factor⟩

/-- Of two searches that differ in the threshold factor, the one with the larger factor takes all
channels through the same baselines, delay lines and outputs.  On a channel whose noise is never
negative every run over threshold that it reports, ended or still open, lies within one of the other
search, and it does not count more ticks over threshold. -/
theorem processAll_raised (hfactor : p.thresholdFactor ≤ factor)
    (hshape : checkShape registers states p = .ok ()) (hquiet : ∀ s ∈ states, s.excursion = .none)
    (windows : List Window) :
    let q := p.withFactor factor
    ∃ last parts last' parts',
      KernelKind.channelwise.processAll p registers states windows = .ok (last, parts) ∧
        KernelKind.channelwise.processAll q registers states windows = .ok (last', parts') ∧
        ∀ i < states.size,
          let channel := registers.firstChannel + i
          SameCourse p q registers states windows i ∧
            (last.getD i default).SameSignal (last'.getD i default) ∧
            (0 ≤ p.filter.scale →
              (∀ t < totalTicks windows, 0 ≤ ChannelState.spreadAt (Tracker.observe p.stepLimit)
                p.detector (states.getD i default) (channelStream windows channel) t) →
              ReportsLess (totalTicks windows)
                (KernelKind.channelwise.overIn q registers states windows i)
                (KernelKind.channelwise.overIn p registers states windows i)
                (runsOn channel windows (last'.getD i default) parts')
                (runsOn channel windows (last.getD i default) parts)) := by
  intro q
  refine ⟨_, _, _, _, KernelKind.channelwise.processAll_eq p registers states hshape windows,
    KernelKind.channelwise.processAll_eq q registers states hshape windows, ?_⟩
  intro i hi channel
  refine ⟨sameCourse p factor registers states hshape windows hi, ?_, fun hscale hspread => ?_⟩
  · rw [KernelKind.getD_carried _ _ _ _ _ hi, KernelKind.getD_carried _ _ _ _ _ hi,
      Detector.detector_withFactor]
    exact (ChannelState.SameSignal.refl _).after _ _ factor _
  · rw [KernelKind.runsOn_carried _ _ _ _ _ hi, KernelKind.runsOn_carried _ _ _ _ _ hi,
      KernelKind.overIn, KernelKind.overIn, Detector.detector_withFactor,
      ← channelStream_length windows channel]
    rw [← channelStream_length windows channel] at hspread
    rw [← p.scale_detector] at hscale
    exact ChannelState.reportsLess_of_raised channel (hquiet _ (getD_mem hi)) hscale hspread hfactor

/-- A run that lasts three ticks with a smaller factor and falls apart with a larger one. -/
theorem processAll_raised_split :
    let p : DetectorParams := ⟨⟨#[1], 0⟩, 1, 100⟩
    let registers : RegisterRange := ⟨3, 4⟩
    let states : Array ChannelState := .replicate 16
      ⟨⟨.start 100, .start 99, .start 101⟩, .zeros 1, .none⟩
    let windows := [Window.repeated [100, 150, 105], Window.repeated [150, 100, 100]]
    p.thresholdFactor ≤ 5 ∧ checkShape registers states p = .ok () ∧
      (∀ s ∈ states, s.excursion = .none) ∧ 0 ≤ p.filter.scale ∧
      ∃ last parts last' parts',
        KernelKind.channelwise.processAll p registers states windows = .ok (last, parts) ∧
          KernelKind.channelwise.processAll (p.withFactor 5) registers states windows =
            .ok (last', parts') ∧
          ∀ i < states.size,
            let channel := registers.firstChannel + i
            SameCourse p (p.withFactor 5) registers states windows i ∧
              (last.getD i default).SameSignal (last'.getD i default) ∧
              ReportsLess (totalTicks windows)
                (KernelKind.channelwise.overIn (p.withFactor 5) registers states windows i)
                (KernelKind.channelwise.overIn p registers states windows i)
                (runsOn channel windows (last'.getD i default) parts')
                (runsOn channel windows (last.getD i default) parts) := by
  intro p registers states windows
  have hfactor : p.thresholdFactor ≤ 5 := by decide
  have hshape : checkShape registers states p = .ok () := by decide
  have hquiet : ∀ s ∈ states, s.excursion = .none := by decide
  have hscale : 0 ≤ p.filter.scale := by decide +kernel
  obtain ⟨last, parts, last', parts', hp, hq, hraised⟩ :=
    processAll_raised p 5 registers states hfactor hshape hquiet windows
  refine ⟨hfactor, hshape, hquiet, hscale, last, parts, last', parts', hp, hq, fun i hi => ?_⟩
  obtain ⟨hcourse, hlast, hless⟩ := hraised i hi
  refine ⟨hcourse, hlast, hless hscale ?_⟩
  have hchannel := channel_lt_of_checkShape hshape hi
  have hstate : states.getD i default = ⟨⟨.start 100, .start 99, .start 101⟩, .zeros 1, .none⟩ := by
    rw [Array.getD, dif_pos hi]
    exact Array.getElem_replicate _
  have hstream : channelStream windows (registers.firstChannel + i) =
      [100, 150, 105] ++ [150, 100, 100] := by
    rw [channelStream_cons, channelStream_cons, channelStream_nil,
      Window.channelSamples_repeated _ hchannel, Window.channelSamples_repeated _ hchannel,
      List.append_nil]
  rw [hstate, hstream]
  decide +kernel

/-- With the exponent 31 the scale is the least word.  Under the same noise a tick is not over
threshold with the factor zero, and is with the factor one. -/
theorem raised_factor_adds_run :
    let p : DetectorParams := ⟨⟨#[1], 31⟩, 0, 1⟩
    let registers : RegisterRange := ⟨0, 1⟩
    let states : Array ChannelState := .replicate 16 ((ChannelState.fresh 1).seed 100)
    let windows := [Window.repeated [102]]
    p.thresholdFactor ≤ 1 ∧ checkShape registers states p = .ok () ∧
      (∀ s ∈ states, s.excursion = .none) ∧
      (∀ t < totalTicks windows, 0 ≤ ChannelState.spreadAt (Tracker.observe p.stepLimit)
        p.detector (states.getD 0 default) (channelStream windows 0) t) ∧
      ∃ last parts last' parts',
        KernelKind.channelwise.processAll p registers states windows = .ok (last, parts) ∧
          KernelKind.channelwise.processAll (p.withFactor 1) registers states windows =
            .ok (last', parts') ∧
          runsOn 0 windows (last.getD 0 default) parts = [] ∧
          runsOn 0 windows (last'.getD 0 default) parts' = [⟨0, 1, 0, 1⟩] ∧
          ¬ ReportsLess (totalTicks windows)
            (KernelKind.channelwise.overIn (p.withFactor 1) registers states windows 0)
            (KernelKind.channelwise.overIn p registers states windows 0)
            (runsOn 0 windows (last'.getD 0 default) parts')
            (runsOn 0 windows (last.getD 0 default) parts) := by
  intro p registers states windows
  have hshape : checkShape registers states p = .ok () := by decide
  have hshape' : checkShape registers states (p.withFactor 1) = .ok () := by decide
  have hsize : 0 < states.size := by decide
  have hfirst : registers.firstChannel + 0 = 0 := rfl
  have hstate : states.getD 0 default = (ChannelState.fresh 1).seed 100 := rfl
  have hstream : channelStream windows 0 = [102] := by
    rw [channelStream_cons, channelStream_nil, Window.channelSamples_repeated _ (by decide),
      List.append_nil]
  have hruns (q : DetectorParams) :=
    KernelKind.channelwise.runsOn_carried q registers states windows hsize
  simp only [hfirst, hstate, hstream] at hruns
  rw [hstate, hstream]
  refine ⟨by decide, hshape, by decide, by decide +kernel, _, _, _, _,
    KernelKind.channelwise.processAll_eq p registers states hshape windows,
    KernelKind.channelwise.processAll_eq (p.withFactor 1) registers states hshape' windows, ?_⟩
  rw [hruns, hruns]
  have hnone : ChannelState.runsFrom (KernelKind.channelwise.rule p.stepLimit) p.detector 0
      ((ChannelState.fresh 1).seed 100) [102] = [] := by decide +kernel
  have hone : ChannelState.runsFrom (KernelKind.channelwise.rule (p.withFactor 1).stepLimit)
      (p.withFactor 1).detector 0 ((ChannelState.fresh 1).seed 100) [102] = [⟨0, 1, 0, 1⟩] := by
    decide +kernel
  rw [hnone, hone]
  refine ⟨rfl, rfl, fun hless => ?_⟩
  obtain ⟨_, -, around, hmem, -⟩ := hless.within _ (List.mem_singleton_self _)
  cases hmem

end Channelwise

end TpcTrigger
