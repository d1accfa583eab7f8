import TpcTrigger.Proofs.Detection.CarriedStates

/-! # The search of started channels

The channels of a range of registers are started from the first tick of a window and then taken
through windows in turn.  What a kernel finds on the range in the next window is what is found
on each of its channels, one after the other, so it does not matter which kernel is run or into
which ranges the channels are divided.
-/

namespace TpcTrigger

def RegisterRange.channelList (r : RegisterRange) : List Nat :=
  (List.range r.channels).map (r.firstChannel + ·)

theorem RegisterRange.channelList_all :
    RegisterRange.all.channelList = List.range channelCount := by
  simp [channelList, channels, count, firstChannel, all, channelCount_eq_registers]

theorem ChannelState.fits_fresh {taps : Nat} (htaps : 0 < taps) (sample : UInt16) :
    ((fresh taps).seed sample).line.Fits taps :=
  ⟨DelayLine.cells_size_zeros taps, htaps⟩

namespace DetectorParams

variable (p : DetectorParams)

def stateOn (first : Window) (windows : List Window) (channel : Nat) : ChannelState :=
  ((ChannelState.fresh p.filter.length).seed (first.block.sample channel 0)).after
    (Tracker.observe p.stepLimit) p.detector (channelStream windows channel)

def hitsIn (first : Window) (before : List Window) (window : Window) (channel : Nat) : List Hit :=
  ChannelState.hitsFrom (Tracker.observe p.stepLimit) p.detector channel 0
    (p.stateOn first before channel) (window.block.channelSamples channel)

def statesOn (first : Window) (windows : List Window) (r : RegisterRange) : Array ChannelState :=
  (r.channelList.map (p.stateOn first windows)).toArray

theorem size_statesOn (first : Window) (windows : List Window) (r : RegisterRange) :
    (p.statesOn first windows r).size = r.channels := by
  simp [statesOn, RegisterRange.channelList]

theorem getD_statesOn (first : Window) (windows : List Window) {r : RegisterRange} {i : Nat}
    (hi : i < r.channels) :
    (p.statesOn first windows r).getD i default = p.stateOn first windows (r.firstChannel + i) := by
  have hsize : i < (p.statesOn first windows r).size := by
    rw [size_statesOn]
    exact hi
  rw [Array.getD, dif_pos hsize]
  simp [statesOn, RegisterRange.channelList]

/-- Fresh channels that are started from a window have gone through no window yet. -/
theorem statesOn_nil (first : Window) (r : RegisterRange) :
    p.statesOn first [] r = (p.freshStates r.count).mapIdx fun i s =>
      s.seed (first.block.sample (r.firstChannel + i) 0) := by
  apply Array.ext
  · simp [size_statesOn, freshStates, RegisterRange.channels]
  · intro i _ _
    simp [statesOn, stateOn, freshStates, RegisterRange.channelList]

theorem checkShape_statesOn (htaps : 0 < p.filter.length) {r : RegisterRange}
    (hr : r.first ≤ r.last ∧ r.last ≤ registerCount) (first : Window) (windows : List Window) :
    checkShape r (p.statesOn first windows r) p = .ok () := by
  refine checkShape_eq_ok_iff.mpr ⟨hr, p.size_statesOn first windows r, ?_⟩
  intro state hstate
  simp only [statesOn, List.mem_toArray, List.mem_map] at hstate
  obtain ⟨channel, -, rfl⟩ := hstate
  exact ChannelState.fits_after _ _ (ChannelState.fits_fresh htaps _) _

/-- Either kernel takes every channel of a range through the next window. -/
theorem process_statesOn (hlimit : 1 ≤ p.stepLimit) (htaps : 0 < p.filter.length)
    (kind : KernelKind) {r : RegisterRange} (hr : r.first ≤ r.last ∧ r.last ≤ registerCount)
    (first : Window) (before : List Window) (window : Window) :
    kind.process p r window (p.statesOn first before r) #[] =
      .ok ⟨p.statesOn first (before ++ [window]) r,
        (r.channelList.flatMap (p.hitsIn first before window)).toArray⟩ := by
  have hrule : kind.rule p.stepLimit = Tracker.observe p.stepLimit :=
    KernelKind.rule_eq_of_one_le hlimit kind .channelwise
  have hstates : (List.range r.channels).map (kind.stateAfter p r window (p.statesOn first before r)) =
      r.channelList.map (p.stateOn first (before ++ [window])) := by
    rw [RegisterRange.channelList, List.map_map]
    apply List.map_congr_left
    intro i hi
    rw [KernelKind.stateAfter, getD_statesOn p first before (List.mem_range.mp hi), hrule, stateOn,
      ← ChannelState.after_append, Function.comp_apply, stateOn, channelStream_append,
      channelStream_cons, channelStream_nil, List.append_nil]
  have hhits : (List.range r.channels).flatMap (kind.hitsOf p r window (p.statesOn first before r)) =
      r.channelList.flatMap (p.hitsIn first before window) := by
    rw [RegisterRange.channelList, List.flatMap_map]
    apply List.flatMap_congr
    intro i hi
    rw [KernelKind.hitsOf, getD_statesOn p first before (List.mem_range.mp hi), hrule, hitsIn]
  rw [kind.process_eq_ok (checkShape_statesOn p htaps hr first before)]
  simp only [KernelKind.found, size_statesOn, Array.empty_append, hstates, hhits]
  rfl

end DetectorParams

end TpcTrigger
