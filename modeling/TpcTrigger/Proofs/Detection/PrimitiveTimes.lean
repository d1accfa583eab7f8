import TpcTrigger.Proofs.Detection.ChannelSearch
import TpcTrigger.Proofs.Detection.HitRuns
import TpcTrigger.Proofs.Store.Batches

/-! # The times of primitives

If the time of a window is that of its first tick, the time at which a primitive ends is that of
the tick that ends its run.  Its length counts the ticks of earlier windows too, so the time at
which it starts is that of the first tick of the run, however many windows ago that was, provided
that the length fits a word.  A longer run seems to start later, but never before its first tick, so
on one channel every run begins after the one before it has ended.
-/

namespace TpcTrigger

theorem mem_runsEnding {above : Nat → Bool} {start stop : Nat} :
    start ∈ runsEnding above stop ↔ IsRun above start stop ∧ above stop = false := by
  rw [runsEnding, List.mem_filter, List.mem_range, decide_eq_true_eq]
  exact ⟨fun h => h.2, fun h => ⟨h.1.1, h⟩⟩

theorem IsRun.lt_of_lt {above : Nat → Bool} {stop start later : Nat} (hend : above stop = false)
    (h : IsRun above start later) (hlt : stop < later) : stop < start := by
  by_contra hle
  rw [h.2.1 stop hlt (Nat.le_of_not_lt hle)] at hend
  cases hend

/-- Whether a channel that is started from the first of its samples is over threshold at a tick. -/
def DetectorParams.overOn (p : DetectorParams) (samples : List UInt16) : Nat → Bool :=
  ChannelState.overAt (Tracker.observe p.stepLimit) p.detector
    ((ChannelState.fresh p.filter.length).seed (samples.headD 0)) samples

/-- Whether a primitive marks the run from tick `start` on that the tick `stop` ends, in a stream
that begins at time `t0`.  Its start is reckoned back from its end by a length that wraps round. -/
structure TriggerPrimitive.Marks (isOver : Nat → Nat → Bool) (t0 start stop : Nat)
    (t : TriggerPrimitive) : Prop where
  channel : t.hit.channel < channelCount
  run : IsRun (isOver t.hit.channel) start stop
  ended : isOver t.hit.channel stop = false
  length : t.hit.ticksOver = wrap (stop - start : Nat)
  endTime : t.endTime = t0 + clocksPerTick * stop
  /-- A run whose length fits a word starts when it has started. -/
  startTime : (stop - start : Nat) ≤ maxWord → t.startTime = t0 + clocksPerTick * start
  startTime_ge : t0 + clocksPerTick * start ≤ t.startTime
  unclipped : t.startTime + t.hit.ticksOver.toNat * clocksPerTick = t.endTime

theorem TriggerPrimitive.Marks.of_run {isOver : Nat → Nat → Bool} {t0 start stop : Nat}
    {t : TriggerPrimitive} (hchannel : t.hit.channel < channelCount)
    (hrun : IsRun (isOver t.hit.channel) start stop) (hended : isOver t.hit.channel stop = false)
    (hlength : t.hit.ticksOver = wrap (stop - start : Nat))
    (hend : t.endTime = t0 + clocksPerTick * stop) : t.Marks isOver t0 start stop := by
  have hlt := hrun.1
  have hle : t.hit.ticksOver.toNat ≤ stop - start := by
    rw [hlength]
    exact Int.toNat_le.mpr (wrap_le (Int.natCast_nonneg _))
  refine ⟨hchannel, hrun, hended, hlength, hend, fun hshort => ?_, ?_, ?_⟩
  · have hword : InWord (stop - start : Nat) := ⟨by simp only [minWord]; omega, hshort⟩
    rw [TriggerPrimitive.startTime, hend, hlength, wrap_of_inWord hword, Int.toNat_natCast]
    simp only [clocksPerTick]
    omega
  · rw [TriggerPrimitive.startTime, hend]
    simp only [clocksPerTick]
    omega
  · rw [TriggerPrimitive.startTime, hend]
    simp only [clocksPerTick]
    omega

/-- Primitives that mark runs of a stream of so many ticks, those of one channel in order. -/
structure MarksRuns (isOver : Nat → Nat → Bool) (t0 ticks : Nat)
    (primitives : List TriggerPrimitive) : Prop where
  marks : ∀ t ∈ primitives, ∃ start stop, stop < ticks ∧ t.Marks isOver t0 start stop
  ordered : primitives.Pairwise fun t u =>
    t.hit.channel = u.hit.channel → t.endTime < u.startTime
  /-- No time leaves the range of the clock if the stream does not. -/
  inRange : t0 + clocksPerTick * ticks ≤ UInt64.size → ∀ t ∈ primitives, t.endTime < UInt64.size

namespace MarksRuns

variable {isOver : Nat → Nat → Bool} {t0 ticks more : Nat} {xs ys : List TriggerPrimitive}

theorem nil : MarksRuns isOver t0 ticks [] where
  marks := by simp
  ordered := List.Pairwise.nil
  inRange := by simp

theorem of_endTime
    (hmarks : ∀ t ∈ xs, ∃ start stop, stop < ticks ∧ t.Marks isOver t0 start stop)
    (hordered : xs.Pairwise fun t u => t.hit.channel = u.hit.channel → t.endTime < u.endTime) :
    MarksRuns isOver t0 ticks xs where
  marks := hmarks
  ordered := by
    refine hordered.imp_of_mem fun {t u} ht hu hlt hchannel => ?_
    obtain ⟨_, stop, -, hfirst⟩ := hmarks t ht
    obtain ⟨start, later, -, hsecond⟩ := hmarks u hu
    have hbefore : stop < later := by
      have htimes := hlt hchannel
      rw [hfirst.endTime, hsecond.endTime] at htimes
      simp only [clocksPerTick] at htimes
      omega
    have hend := hfirst.ended
    rw [hchannel] at hend
    have hapart := hsecond.run.lt_of_lt hend hbefore
    have hstart := hsecond.startTime_ge
    rw [hfirst.endTime]
    simp only [clocksPerTick] at hstart ⊢
    omega
  inRange := by
    intro hrange t ht
    obtain ⟨start, stop, hstop, ht⟩ := hmarks t ht
    rw [ht.endTime]
    simp only [clocksPerTick] at hrange ⊢
    omega

theorem mono (h : MarksRuns isOver t0 ticks xs) (hle : ticks ≤ more) :
    MarksRuns isOver t0 more xs where
  marks := by
    intro t ht
    obtain ⟨start, stop, hstop, hmarks⟩ := h.marks t ht
    exact ⟨start, stop, hstop.trans_le hle, hmarks⟩
  ordered := h.ordered
  inRange := fun hrange => h.inRange (by simp only [clocksPerTick] at hrange ⊢; omega)

theorem suffix (h : MarksRuns isOver t0 ticks xs) (hys : ys <:+ xs) :
    MarksRuns isOver t0 ticks ys where
  marks := fun t ht => h.marks t (hys.subset ht)
  ordered := h.ordered.sublist hys.sublist
  inRange := fun hrange t ht => h.inRange hrange t (hys.subset ht)

theorem append (hxs : MarksRuns isOver t0 ticks xs) (hys : MarksRuns isOver t0 more ys)
    (hle : ticks ≤ more) (hlater : ∀ t ∈ ys, t0 + clocksPerTick * ticks ≤ t.endTime) :
    MarksRuns isOver t0 more (xs ++ ys) := by
  have hstart (t : TriggerPrimitive) : t.startTime ≤ t.endTime := Nat.sub_le _ _
  apply of_endTime
  · intro t ht
    rcases List.mem_append.mp ht with ht | ht
    · exact (hxs.mono hle).marks t ht
    · exact hys.marks t ht
  · refine List.pairwise_append.mpr ⟨?_, ?_, fun t ht u hu _ => ?_⟩
    · exact hxs.ordered.imp fun h hchannel => (h hchannel).trans_le (hstart _)
    · exact hys.ordered.imp fun h hchannel => (h hchannel).trans_le (hstart _)
    · obtain ⟨start, stop, hstop, hmarks⟩ := hxs.marks t ht
      have hend := hlater u hu
      rw [hmarks.endTime]
      simp only [clocksPerTick] at hend ⊢
      omega

end MarksRuns

namespace DetectorParams

variable (p : DetectorParams) {samples : Nat → List UInt16} {first window : Window}
  {before : List Window} {t0 : Nat}

/-- What the ticks of such a channel add to its charges. -/
def heightOn (samples : List UInt16) : Nat → Int :=
  ChannelState.heightAt (Tracker.observe p.stepLimit) p.detector
    ((ChannelState.fresh p.filter.length).seed (samples.headD 0)) samples

section Window

variable {channel : Nat} {xs : List UInt16}
  (hstream : channelStream (before ++ [window]) channel <+: xs)
  (hfirst : first.block.sample channel 0 = xs.headD 0)
include hstream hfirst

theorem hitsIn_eq_runs : p.hitsIn first before window channel =
    (List.range window.ticks).flatMap fun tick =>
      (runsEnding (p.overOn xs) (totalTicks before + tick)).map fun start =>
        ⟨channel, tick, gathered (p.heightOn xs) start (totalTicks before + tick),
          wrap (totalTicks before + tick - start : Nat)⟩ := by
  obtain ⟨later, hlater⟩ := hstream
  rw [channelStream_append, channelStream_cons, channelStream_nil, List.append_nil] at hlater
  have hruns := ChannelState.hitsFrom_eq_runs (Tracker.observe p.stepLimit) p.detector
    ((ChannelState.fresh p.filter.length).seed (xs.headD 0)) rfl channel
    (channelStream before channel) (window.block.channelSamples channel) later
  simp only [hlater, channelStream_length, SampleBlock.channelSamples_length] at hruns
  rw [hitsIn, stateOn, hfirst, hruns]
  rfl

theorem mem_hitsIn {h : Hit} (hmem : h ∈ p.hitsIn first before window channel) :
    ∃ start, h.endTick < window.ticks ∧ h.channel = channel ∧
      IsRun (p.overOn xs) start (totalTicks before + h.endTick) ∧
      p.overOn xs (totalTicks before + h.endTick) = false ∧
      h.ticksOver = wrap (totalTicks before + h.endTick - start : Nat) := by
  rw [p.hitsIn_eq_runs hstream hfirst, List.mem_flatMap] at hmem
  obtain ⟨tick, htick, hmem⟩ := hmem
  obtain ⟨start, hstart, rfl⟩ := List.mem_map.mp hmem
  obtain ⟨hrun, hend⟩ := mem_runsEnding.mp hstart
  exact ⟨start, List.mem_range.mp htick, rfl, hrun, hend, rfl⟩

theorem mem_hitsIn_of_isRun {start tick : Nat} (htick : tick < window.ticks)
    (hrun : IsRun (p.overOn xs) start (totalTicks before + tick))
    (hend : p.overOn xs (totalTicks before + tick) = false) :
    ⟨channel, tick, gathered (p.heightOn xs) start (totalTicks before + tick),
      wrap (totalTicks before + tick - start : Nat)⟩ ∈ p.hitsIn first before window channel := by
  rw [p.hitsIn_eq_runs hstream hfirst, List.mem_flatMap]
  refine ⟨tick, List.mem_range.mpr htick, ?_⟩
  rw [runsEnding_of_isRun hrun hend]
  exact List.mem_singleton_self _

end Window

theorem length_hitsIn_le (first : Window) (before : List Window) (window : Window) (channel : Nat) :
    (p.hitsIn first before window channel).length ≤ window.ticks :=
  (ChannelState.length_hitsFrom_le ..).trans (SampleBlock.channelSamples_length ..).le

theorem pairwise_hitsIn (r : RegisterRange) (first : Window) (before : List Window)
    (window : Window) :
    (r.channelList.flatMap (p.hitsIn first before window)).Pairwise Hit.Before := by
  rw [RegisterRange.channelList, List.flatMap_map]
  exact Hit.pairwise_flatMap (fun _ _ hmem => ChannelState.channel_of_mem_hitsFrom _ _ _ hmem)
    (fun _ => (ChannelState.pairwise_hitsFrom _ _ _ _ _ _).1) _

theorem marksRuns_hitsIn
    (hstream : ∀ channel < channelCount,
      channelStream (before ++ [window]) channel <+: samples channel)
    (hfirst : ∀ channel < channelCount,
      first.block.sample channel 0 = (samples channel).headD 0)
    (htime : window.timestamp.toNat = t0 + clocksPerTick * totalTicks before) :
    let batch := stamped window.timestamp
      (RegisterRange.all.channelList.flatMap (p.hitsIn first before window))
    MarksRuns (fun channel => p.overOn (samples channel)) t0
        (totalTicks (before ++ [window])) batch ∧
      ∀ t ∈ batch, t0 + clocksPerTick * totalTicks before ≤ t.endTime := by
  intro batch
  have hend (h : Hit) : TriggerPrimitive.endTime ⟨window.timestamp, h⟩ =
      t0 + clocksPerTick * (totalTicks before + h.endTick) := by
    rw [TriggerPrimitive.endTime, htime]
    simp only [clocksPerTick]
    omega
  have hticks := totalTicks_concat before window
  refine ⟨MarksRuns.of_endTime ?_ ?_, ?_⟩
  · intro t ht
    obtain ⟨h, hmem, rfl⟩ := List.mem_map.mp ht
    obtain ⟨channel, hchannel, hmem⟩ := List.mem_flatMap.mp hmem
    rw [RegisterRange.channelList_all, List.mem_range] at hchannel
    obtain ⟨start, htick, rfl, hrun, hover, hlength⟩ :=
      p.mem_hitsIn (hstream channel hchannel) (hfirst channel hchannel) hmem
    exact ⟨start, totalTicks before + h.endTick, by omega,
      .of_run hchannel hrun hover hlength (hend h)⟩
  · refine List.pairwise_map.mpr ((p.pairwise_hitsIn .all first before window).imp ?_)
    intro h h' hbefore hchannel
    rw [hend, hend]
    rcases hbefore with hother | ⟨-, hlt⟩
    · exact absurd hchannel (Nat.ne_of_lt hother)
    · simp only [clocksPerTick]
      omega
  · intro t ht
    obtain ⟨h, -, rfl⟩ := List.mem_map.mp ht
    rw [hend]
    simp only [clocksPerTick]
    omega

end DetectorParams

end TpcTrigger
