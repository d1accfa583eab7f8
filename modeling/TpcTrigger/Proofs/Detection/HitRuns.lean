import TpcTrigger.Proofs.Detection.CarriedStates
import TpcTrigger.Proofs.Signal.Runs

/-! # Hits are the runs over threshold

For a channel that starts with no excursion open, the hits found in a stream of windows are the
maximal runs of ticks over threshold that a later tick ends, each reported once, in the window
of the tick that ends it.  A run that reaches the end of the stream stays in the state.  Within
one call hits are ordered by channel and then by time.
-/

namespace TpcTrigger

namespace ChannelState

variable (rule : TrackerRule) (d : Detector) (s : ChannelState) (xs : List UInt16)

def outputAt (t : Nat) : Int := (s.after rule d (xs.take t)).output d

/-- The threshold at a tick of a stream, after the baseline has taken in its sample. -/
def thresholdAt (t : Nat) : Int := d.threshold (s.after rule d (xs.take (t + 1))).baseline.spread

/-- Whether the filter output at a tick of a stream exceeds the threshold. -/
def overAt (t : Nat) : Bool := thresholdAt rule d s xs t < outputAt rule d s xs t

/-- What a tick of a stream adds to a charge. -/
def heightAt (t : Nat) : Int := d.height (outputAt rule d s xs t)

variable {xs} in
theorem after_take_succ {t : Nat} (ht : t < xs.length) :
    s.after rule d (xs.take (t + 1)) = (s.after rule d (xs.take t)).advance rule d xs[t] := by
  rw [List.take_add_one, List.getElem?_eq_getElem ht, after_append]
  rfl

variable {xs} in
theorem excursion_after_take_succ {t : Nat} (ht : t < xs.length) :
    (s.after rule d (xs.take (t + 1))).excursion =
      (s.after rule d (xs.take t)).excursion.step (overAt rule d s xs t) (heightAt rule d s xs t) := by
  rw [overAt, thresholdAt, after_take_succ _ _ _ ht]
  rfl

variable {xs} in
theorem hitAt_take {t : Nat} (ht : t < xs.length) (channel tick : Nat) :
    hitAt rule d channel tick (s.after rule d (xs.take t)) xs[t] =
      ((s.after rule d (xs.take t)).excursion.closed? (overAt rule d s xs t)).map
        (Excursion.hit channel tick) := by
  rw [overAt, thresholdAt, after_take_succ _ _ _ ht]
  rfl

/-- Before every tick of a stream the excursion holds the run that reaches up to it. -/
theorem holds_after_take (hquiet : s.excursion = .none) {t : Nat} (ht : t ≤ xs.length) :
    (s.after rule d (xs.take t)).excursion.Holds (overAt rule d s xs) (heightAt rule d s xs) t := by
  induction t with
  | zero =>
    rw [List.take_zero, after_nil, hquiet]
    exact Excursion.holds_zero
  | succ t ih =>
    rw [excursion_after_take_succ _ _ _ ht]
    exact (ih (by omega)).step

theorem hitsFrom_eq_flatMap (channel tick : Nat) :
    hitsFrom rule d channel tick s xs = (List.range xs.length).flatMap fun t =>
      (xs[t]?.bind fun x => hitAt rule d channel (tick + t) (s.after rule d (xs.take t)) x).toList := by
  induction xs generalizing tick s with
  | nil => rfl
  | cons x xs ih =>
    rw [hitsFrom, ih, List.length_cons, List.range_succ_eq_map, List.flatMap_cons,
      List.flatMap_map]
    simp only [List.take_zero, after_nil, List.getElem?_cons_zero, Option.bind_some, Nat.add_zero,
      List.getElem?_cons_succ, List.take_succ_cons, after_cons, Nat.add_assoc, Nat.add_comm 1]

theorem hitsFrom_eq_runs (hquiet : s.excursion = .none) (channel : Nat)
    (before window later : List UInt16) :
    let xs := before ++ window ++ later
    hitsFrom rule d channel 0 (s.after rule d before) window =
      (List.range window.length).flatMap fun tick =>
        (runsEnding (overAt rule d s xs) (before.length + tick)).map fun start =>
          { channel, endTick := tick
            charge := gathered (heightAt rule d s xs) start (before.length + tick)
            ticksOver := wrap (before.length + tick - start : Nat) } := by
  intro xs
  rw [hitsFrom_eq_flatMap]
  apply List.flatMap_congr
  intro tick htick
  have htick : tick < window.length := List.mem_range.mp htick
  have hlength : before.length + tick < xs.length := by
    simp only [xs, List.length_append]
    omega
  have hget : window[tick]? = some xs[before.length + tick] := by
    simp [xs, htick]
  have htake : (s.after rule d before).after rule d (window.take tick) =
      s.after rule d (xs.take (before.length + tick)) := by
    rw [← after_append]
    simp [xs, List.take_append, List.take_of_length_le, Nat.sub_eq_zero_of_le htick.le]
  rw [hget, Option.bind_some, Nat.zero_add, htake, hitAt_take _ _ _ hlength, Option.toList_map,
    (holds_after_take rule d s xs hquiet hlength.le).closed?, List.map_map]
  rfl

theorem pairwise_hitsFrom (channel tick : Nat) :
    (hitsFrom rule d channel tick s xs).Pairwise (fun h h' => h.endTick < h'.endTick) ∧
      ∀ h ∈ hitsFrom rule d channel tick s xs, tick ≤ h.endTick := by
  induction xs generalizing tick s with
  | nil => exact ⟨List.Pairwise.nil, fun h hmem => by cases hmem⟩
  | cons x xs ih =>
    obtain ⟨hsorted, hlater⟩ := ih (s.advance rule d x) (tick + 1)
    rw [hitsFrom]
    cases hnow : hitAt rule d channel tick s x with
    | none =>
      exact ⟨hsorted, fun h hmem => (Nat.le_succ tick).trans (hlater h hmem)⟩
    | some hit =>
      have hend : hit.endTick = tick := by
        obtain ⟨e, -, rfl⟩ := Option.map_eq_some_iff.mp hnow
        rfl
      refine ⟨List.pairwise_cons.mpr ⟨fun h hmem => ?_, hsorted⟩, fun h hmem => ?_⟩
      · rw [hend]
        exact hlater h hmem
      · rcases List.mem_cons.mp hmem with rfl | hmem
        · exact hend.ge
        · exact (Nat.le_succ tick).trans (hlater h hmem)

end ChannelState

/-- The order in which a call reports its hits: by channel, and by time on one channel. -/
def Hit.Before (h h' : Hit) : Prop :=
  h.channel < h'.channel ∨ h.channel = h'.channel ∧ h.endTick < h'.endTick

theorem Hit.pairwise_flatMap {hits : Nat → List Hit} {first : Nat}
    (hchannel : ∀ i, ∀ h ∈ hits i, h.channel = first + i)
    (hticks : ∀ i, (hits i).Pairwise (·.endTick < ·.endTick)) (n : Nat) :
    ((List.range n).flatMap hits).Pairwise Hit.Before := by
  refine List.pairwise_flatMap.mpr ⟨fun i _ => ?_, ?_⟩
  · refine (hticks i).imp_of_mem fun hmem hmem' hlt => .inr ⟨?_, hlt⟩
    rw [hchannel i _ hmem, hchannel i _ hmem']
  · refine List.pairwise_lt_range.imp fun {i j} hlt h hmem h' hmem' => .inl ?_
    rw [hchannel i h hmem, hchannel j h' hmem']
    exact Nat.add_lt_add_left hlt first

namespace KernelKind

variable (kind : KernelKind) (p : DetectorParams) (registers : RegisterRange)
  (states : Array ChannelState)

theorem pairwise_hits_found (window : Window) (n : Nat) :
    (kind.found p registers window states #[] n).hits.toList.Pairwise Hit.Before := by
  simp only [found, Array.empty_append]
  exact Hit.pairwise_flatMap (fun _ _ hmem => kind.channel_of_mem_hitsOf p registers states hmem)
    (fun _ => (ChannelState.pairwise_hitsFrom _ _ _ _ _ _).1) n

/-- The decisions of a channel in a stream of windows, by its place in the call. -/
def overIn (windows : List Window) (i : Nat) : Nat → Bool :=
  ChannelState.overAt (kind.rule p.stepLimit) p.detector (states.getD i default)
    (channelStream windows (registers.firstChannel + i))

/-- What the ticks of a stream add to the charges of a channel, by its place in the call. -/
def heightIn (windows : List Window) (i : Nat) : Nat → Int :=
  ChannelState.heightAt (kind.rule p.stepLimit) p.detector (states.getD i default)
    (channelStream windows (registers.firstChannel + i))

/-- What a search of windows in turn reports of the runs over threshold: the states at its end
and the hits of every window. -/
structure ReportsRuns (windows : List Window) (last : Array ChannelState)
    (parts : List (Array Hit)) : Prop where
  /-- A channel's hits in a window are the runs that the window's ticks end, in order, each with its
  length as a word holds it. -/
  hits : ∀ i < states.size, parts.map (hitsOn (registers.firstChannel + i)) =
    windows.mapIdx fun k w => (List.range w.ticks).flatMap fun tick =>
      let stop := totalTicks (windows.take k) + tick
      (runsEnding (kind.overIn p registers states windows i) stop).map fun start =>
        { channel := registers.firstChannel + i
          endTick := tick
          charge := gathered (kind.heightIn p registers states windows i) start stop
          ticksOver := wrap (stop - start : Nat) }
  /-- The run that reaches the end of the stream, if any, is left in the state. -/
  held : ∀ i < states.size, (last.getD i default).excursion.Holds
    (kind.overIn p registers states windows i) (kind.heightIn p registers states windows i)
    (totalTicks windows)
  ordered : ∀ part ∈ parts, part.toList.Pairwise Hit.Before
  channels : ∀ part ∈ parts, ∀ h ∈ part,
    ∃ i < states.size, h.channel = registers.firstChannel + i

/-- The hits of a stream of windows are the runs over threshold that a later tick ends. -/
theorem processAll_runs (hshape : checkShape registers states p = .ok ())
    (hquiet : ∀ s ∈ states, s.excursion = .none) (windows : List Window) :
    ∃ last parts, kind.processAll p registers states windows = .ok (last, parts) ∧
      kind.ReportsRuns p registers states windows last parts := by
  have hstart {i : Nat} (hi : i < states.size) : (states.getD i default).excursion = .none :=
    hquiet _ (getD_mem hi)
  refine ⟨_, _, kind.processAll_eq p registers states hshape windows, ?_, ?_, ?_, ?_⟩
  · intro i hi
    apply List.ext_getElem
    · simp
    · intro k hk _
      have hk : k < windows.length := by simpa using hk
      have hwindows : channelStream windows (registers.firstChannel + i) =
          channelStream (windows.take k) (registers.firstChannel + i) ++
            windows[k].block.channelSamples (registers.firstChannel + i) ++
              channelStream (windows.drop (k + 1)) (registers.firstChannel + i) := by
        rw [List.append_assoc, ← channelStream_cons, ← channelStream_append,
          ← List.drop_eq_getElem_cons hk, List.take_append_drop]
      have hruns := ChannelState.hitsFrom_eq_runs (kind.rule p.stepLimit) p.detector
        (states.getD i default) (hstart hi) (registers.firstChannel + i)
        (channelStream (windows.take k) (registers.firstChannel + i))
        (windows[k].block.channelSamples (registers.firstChannel + i))
        (channelStream (windows.drop (k + 1)) (registers.firstChannel + i))
      simp only [← hwindows, channelStream_length, SampleBlock.channelSamples_length] at hruns
      rw [List.getElem_map, List.getElem_mapIdx, List.getElem_mapIdx, hitsOn_found _ _ _ _ _ hi,
        hitsOf, getD_carried _ _ _ _ _ hi, hruns]
      rfl
  · intro i hi
    have hheld := ChannelState.holds_after_take (kind.rule p.stepLimit) p.detector
      (states.getD i default) (channelStream windows (registers.firstChannel + i)) (hstart hi) le_rfl
    rw [List.take_length, channelStream_length] at hheld
    rw [getD_carried _ _ _ _ _ hi]
    exact hheld
  · intro part hpart
    obtain ⟨k, hk, rfl⟩ := List.mem_mapIdx.mp hpart
    exact kind.pairwise_hits_found p registers _ _ _
  · intro part hpart h hmem
    obtain ⟨k, hk, rfl⟩ := List.mem_mapIdx.mp hpart
    obtain ⟨i, hi, hof⟩ := (kind.mem_hits_found p registers _).mp hmem
    exact ⟨i, hi, kind.channel_of_mem_hitsOf p registers _ hof⟩

/-- A run that starts in the first window, lasts through the second and ends in the third. -/
theorem processAll_runs_across :
    let p : DetectorParams := ⟨⟨#[0, 64], 6⟩, 5, 100⟩
    let registers : RegisterRange := ⟨2, 3⟩
    let states : Array ChannelState := .replicate 16
      ⟨⟨.start 100, .start 99, .start 101⟩, .zeros 2, .none⟩
    let windows := [Window.ofChannels 0 0 (.replicate channelCount #[100, 150, 150]),
      Window.ofChannels 1 75 (.replicate channelCount #[150]),
      Window.ofChannels 2 100 (.replicate channelCount #[100, 100, 150])]
    checkShape registers states p = .ok () ∧ (∀ s ∈ states, s.excursion = .none) ∧
      ∃ last parts, KernelKind.lockstep.processAll p registers states windows = .ok (last, parts) ∧
        KernelKind.lockstep.ReportsRuns p registers states windows last parts := by
  intro p registers states windows
  have hshape : checkShape registers states p = .ok () := by decide
  have hquiet : ∀ s ∈ states, s.excursion = .none := by decide
  exact ⟨hshape, hquiet,
    KernelKind.lockstep.processAll_runs p registers states hshape hquiet windows⟩

end KernelKind

end TpcTrigger
