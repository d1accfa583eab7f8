import TpcTrigger.Proofs.Detection.ChannelHistory
import TpcTrigger.Proofs.Detection.MaskedLanes
import TpcTrigger.Proofs.Signal.RingEntries

/-! # A register is sixteen channels

Each lane of a register can be read as the state of a channel whose delay line is the lane's
share of the common ring.  A step of the register is then a step of every lane.  The lane of a
loaded register differs from the stored channel only in how far its ring is turned, which no
output and no hit depends on, and storing turns it back.
-/

namespace TpcTrigger

namespace TrackerLanes

theorem lane_gather (states : Lanes ChannelState) (tracker : Baseline → Tracker)
    (l : Fin lanesPerRegister) :
    (gather states tracker).lane l = tracker (states.get l).baseline := by
  simp [gather, lane]

theorem lane_observe (limit : Int) (t : TrackerLanes) (active : Mask) (sample : Lanes Int)
    (l : Fin lanesPerRegister) :
    (t.observe limit active sample).lane l =
      if active.test l then Tracker.observeAtOnce limit (t.lane l) (sample.get l) else t.lane l := by
  cases h : active.test l
  · simp [observe, lane, h]
  · simp only [observe, lane, Tracker.observeAtOnce, Tracker.weigh, Lanes.get_increment,
      Lanes.get_decrement, Lanes.get_replace, Lanes.get_splat, Lanes.test_less, Lanes.test_atLeast,
      Mask.test_both, Mask.test_either, h, Bool.true_and, Bool.or_eq_true, decide_eq_true_eq,
      if_true]
    congr

end TrackerLanes

namespace RegisterState

def lane (r : RegisterState) (l : Fin lanesPerRegister) : ChannelState where
  baseline := ⟨r.median.lane l, r.lower.lane l, r.upper.lane l⟩
  line := ⟨r.ring.map (·.get l), r.phase⟩
  excursion := ⟨r.isOpen.test l, r.charge.get l, r.ticks.get l⟩

theorem entry_lane (r : RegisterState) (l : Fin lanesPerRegister) (k : Nat) :
    (r.lane l).line.entry k = (r.entry k).get l := by
  simp only [DelayLine.entry, lane, entry, Array.size_map]
  by_cases h : (k + r.phase) % r.ring.size < r.ring.size
  · simp [Array.getD, h]
  · simp [Array.getD, h]

theorem output_lane (taps : Array Int) (r : RegisterState) (l : Fin lanesPerRegister) :
    (r.output taps).get l = (r.lane l).line.output taps := by
  have hsum (n : Nat) :
      (n.fold (fun i _ sum => sum.add ((r.entry i).scaleBy (taps.getD i 0)))
        (Lanes.splat 0)).get l =
          n.fold (fun i _ sum => wrap (sum + wrap (taps.getD i 0 * (r.lane l).line.entry i))) 0 := by
    induction n with
    | zero => exact Lanes.get_splat 0 l
    | succ n ih => rw [Nat.fold_succ, Nat.fold_succ, Lanes.get_add, Lanes.get_scaleBy, ih, entry_lane]
  exact hsum taps.size

variable (d : Detector) (r : RegisterState) (sample : Lanes Int) (l : Fin lanesPerRegister)

theorem baseline_lane_step :
    ((r.step d sample).1.lane l).baseline =
      (r.lane l).baseline.observeBy (Tracker.observeAtOnce d.stepLimit) (sample.get l) := by
  have hmedian := TrackerLanes.lane_observe d.stepLimit r.median .full sample l
  rw [Mask.test_full, if_pos rfl] at hmedian
  have hlevel : (r.median.observe d.stepLimit .full sample).estimate.get l =
      (Tracker.observeAtOnce d.stepLimit (r.median.lane l) (sample.get l)).estimate :=
    congrArg Tracker.estimate hmedian
  simp only [step, lane, Baseline.observeBy, TrackerLanes.lane_observe, Mask.test_full, if_true,
    Lanes.test_less, hlevel, decide_eq_true_eq]
  congr

theorem isOpen_step :
    (r.step d sample).1.isOpen.test l =
      decide (d.threshold ((r.step d sample).1.lane l).baseline.spread < (r.lane l).output d) := by
  have houtput := output_lane d.taps r l
  simp only [step, lane, Lanes.test_less, ChannelState.output, Baseline.spread, TrackerLanes.lane,
    Lanes.get_map, Lanes.get_sub, houtput]

theorem line_lane_step :
    ((r.step d sample).1.lane l).line =
      (r.lane l).line.push
        (min (wrap (sample.get l - ((r.step d sample).1.lane l).baseline.pedestal)) d.ceiling) := by
  simp only [step, lane, DelayLine.push, Array.map_setIfInBounds, Array.size_map,
    Baseline.pedestal, TrackerLanes.lane, Lanes.get_atMost, Lanes.get_sub]

/-- Charges and lengths that are counted and cleared by masks are those of one excursion in
each lane, and a lane that falls hands its excursion out. -/
theorem excursion_lane (isOpen above : Mask) (charge ticks height : Lanes Int)
    (l : Fin lanesPerRegister) :
    let charged := charge.replace above (charge.zipWith saturatingAdd height)
    let counted := ticks.tally above
    let falling := isOpen.both above.invert
    let e : Excursion := ⟨isOpen.test l, charge.get l, ticks.get l⟩
    (⟨above.test l, (charged.replace falling (.splat 0)).get l,
        (counted.replace falling (.splat 0)).get l⟩ : Excursion) = e.step (above.test l) (height.get l) ∧
      (if falling.test l then some ⟨true, charged.get l, counted.get l⟩ else none) =
        e.closed? (above.test l) := by
  cases habove : above.test l <;> cases hopen : isOpen.test l <;>
    simp [habove, hopen, Excursion.step, Excursion.extend, Excursion.close, Excursion.closed?,
      Excursion.none]

theorem excursion_lane_step :
    ((r.step d sample).1.lane l).excursion =
        (r.lane l).excursion.step ((r.step d sample).1.isOpen.test l)
          (d.height ((r.lane l).output d)) ∧
      (r.step d sample).2.get l =
        (r.lane l).excursion.closed? ((r.step d sample).1.isOpen.test l) := by
  have houtput : (r.output d.taps).get l = (r.lane l).output d := output_lane d.taps r l
  have h := excursion_lane r.isOpen (r.step d sample).1.isOpen r.charge r.ticks
    ((r.output d.taps).map d.height) l
  rw [Lanes.get_map, houtput] at h
  exact ⟨h.1, (Lanes.get_ofFn _ l).trans h.2⟩

theorem lane_step :
    ((r.step d sample).1.lane l, (r.step d sample).2.get l) =
      (r.lane l).stepBy (Tracker.observeAtOnce d.stepLimit) d (sample.get l) := by
  have hbaseline := baseline_lane_step d r sample l
  have hline := line_lane_step d r sample l
  have hexcursion := excursion_lane_step d r sample l
  rw [isOpen_step, hbaseline] at hexcursion
  rw [hbaseline] at hline
  obtain ⟨hstep, hclosed⟩ := hexcursion
  rw [hclosed, ChannelState.stepBy]
  generalize (r.step d sample).1.lane l = next at *
  obtain ⟨baseline, line, excursion⟩ := next
  subst hbaseline hline hstep
  rfl

end RegisterState

end TpcTrigger
