import TpcTrigger.Proofs.Detection.KernelForm

/-! # Windows in turn

A kernel that searches one window after the other and carries the states along takes every
channel through the history of its whole stream.  The hits of a channel in one of the windows
are those that this history ends there, counted from the start of the window.
-/

namespace TpcTrigger

/-- The samples of one channel in windows that follow each other. -/
def channelStream (windows : List Window) (channel : Nat) : List UInt16 :=
  windows.flatMap (·.block.channelSamples channel)

def totalTicks (windows : List Window) : Nat := (windows.map (·.ticks)).sum

def hitsOn (channel : Nat) (hits : Array Hit) : List Hit :=
  hits.toList.filter (·.channel = channel)

@[simp] theorem channelStream_nil (channel : Nat) : channelStream [] channel = [] := rfl

theorem channelStream_cons (w : Window) (ws : List Window) (channel : Nat) :
    channelStream (w :: ws) channel =
      w.block.channelSamples channel ++ channelStream ws channel :=
  List.flatMap_cons

theorem channelStream_append (ws vs : List Window) (channel : Nat) :
    channelStream (ws ++ vs) channel = channelStream ws channel ++ channelStream vs channel :=
  List.flatMap_append

@[simp] theorem channelStream_length (windows : List Window) (channel : Nat) :
    (channelStream windows channel).length = totalTicks windows := by
  simp [channelStream, totalTicks, List.length_flatMap]

theorem totalTicks_cons (w : Window) (ws : List Window) :
    totalTicks (w :: ws) = w.ticks + totalTicks ws :=
  List.sum_cons

theorem totalTicks_concat (ws : List Window) (w : Window) :
    totalTicks (ws ++ [w]) = totalTicks ws + w.ticks := by
  rw [totalTicks, List.map_append, List.map_singleton, List.sum_append, List.sum_singleton]
  rfl

namespace KernelKind

/-- Searches windows in turn with carried states, and hands out the states at the end and the
hits of every window. -/
def processAll (kind : KernelKind) (p : DetectorParams) (registers : RegisterRange) :
    Array ChannelState → List Window → Except KernelError (Array ChannelState × List (Array Hit))
  | states, [] => .ok (states, [])
  | states, w :: ws => do
    let found ← kind.process p registers w states #[]
    let (states, parts) ← processAll kind p registers found.states ws
    return (states, found.hits :: parts)

variable (kind : KernelKind) (p : DetectorParams) (registers : RegisterRange)
  (states : Array ChannelState)

/-- The states after windows that follow each other. -/
def carried (windows : List Window) : Array ChannelState :=
  ((List.range states.size).map fun i =>
    (states.getD i default).after (kind.rule p.stepLimit) p.detector
      (channelStream windows (registers.firstChannel + i))).toArray

@[simp] theorem size_carried (windows : List Window) :
    (kind.carried p registers states windows).size = states.size := by
  simp [carried]

theorem getD_carried (windows : List Window) {i : Nat} (hi : i < states.size) :
    (kind.carried p registers states windows).getD i default =
      (states.getD i default).after (kind.rule p.stepLimit) p.detector
        (channelStream windows (registers.firstChannel + i)) := by
  simp [carried, Array.getD, hi]

@[simp] theorem carried_nil : kind.carried p registers states [] = states := by
  apply Array.ext
  · simp
  · intro i _ hi
    simp [carried, Array.getD, hi]

theorem carried_append (ws vs : List Window) :
    kind.carried p registers states (ws ++ vs) =
      kind.carried p registers (kind.carried p registers states ws) vs := by
  rw [carried, carried, size_carried]
  congr 1
  apply List.map_congr_left
  intro i hi
  rw [getD_carried _ _ _ _ _ (List.mem_range.mp hi), channelStream_append,
    ChannelState.after_append]

/-- Carrying states through windows keeps them fit for the next call. -/
theorem checkShape_carried (hshape : checkShape registers states p = .ok ())
    (windows : List Window) :
    checkShape registers (kind.carried p registers states windows) p = .ok () := by
  obtain ⟨hrange, hsize, hfit⟩ := checkShape_eq_ok_iff.mp hshape
  refine checkShape_eq_ok_iff.mpr ⟨hrange, by rw [size_carried, hsize], ?_⟩
  intro s hs
  simp only [carried, List.mem_toArray, List.mem_map, List.mem_range] at hs
  obtain ⟨i, hi, rfl⟩ := hs
  exact ChannelState.fits_after _ _ (hfit _ (getD_mem hi)) _

theorem states_found (window : Window) (hits : Array Hit) :
    (kind.found p registers window states hits states.size).states =
      kind.carried p registers states [window] := by
  simp only [found, carried, channelStream, List.flatMap_cons, List.flatMap_nil, List.append_nil]
  rfl

theorem processAll_eq (hshape : checkShape registers states p = .ok ()) (windows : List Window) :
    kind.processAll p registers states windows =
      .ok (kind.carried p registers states windows, windows.mapIdx fun k w =>
        (kind.found p registers w (kind.carried p registers states (windows.take k)) #[]
          states.size).hits) := by
  induction windows generalizing states with
  | nil => simp [processAll]
  | cons w ws ih =>
    have hnext := kind.checkShape_carried p registers states hshape [w]
    rw [processAll, kind.process_eq_ok hshape]
    simp only [bind, Except.bind, states_found, ih _ hnext, pure, Except.pure, List.mapIdx_cons,
      List.take_zero, carried_nil, List.take_succ_cons, size_carried, ← carried_append,
      List.singleton_append]

theorem channel_of_mem_hitsOf {window : Window} {i : Nat} {h : Hit}
    (hmem : h ∈ kind.hitsOf p registers window states i) :
    h.channel = registers.firstChannel + i :=
  ChannelState.channel_of_mem_hitsFrom _ _ _ hmem

theorem mem_hits_found {window : Window} {n : Nat} {h : Hit} :
    h ∈ (kind.found p registers window states #[] n).hits ↔
      ∃ i < n, h ∈ kind.hitsOf p registers window states i := by
  simp [found]

theorem hitsOn_found (window : Window) {n i : Nat} (hi : i < n) :
    hitsOn (registers.firstChannel + i) (kind.found p registers window states #[] n).hits =
      kind.hitsOf p registers window states i := by
  have hkeep : (kind.hitsOf p registers window states i).filter
      (·.channel = registers.firstChannel + i) = kind.hitsOf p registers window states i :=
    List.filter_eq_self.mpr fun h hmem => by
      simpa using kind.channel_of_mem_hitsOf p registers states hmem
  have hdrop {j : Nat} (hj : j ≠ i) : (kind.hitsOf p registers window states j).filter
      (·.channel = registers.firstChannel + i) = [] :=
    List.filter_eq_nil_iff.mpr fun h hmem => by
      simpa [kind.channel_of_mem_hitsOf p registers states hmem] using hj
  -- channels before the one at place `i` add nothing, nor do those after it
  have hbefore {m : Nat} (hm : m ≤ i) : ((List.range m).flatMap
      (kind.hitsOf p registers window states)).filter
        (·.channel = registers.firstChannel + i) = [] := by
    rw [List.filter_flatMap, List.flatMap_eq_nil_iff]
    intro j hj
    exact hdrop (by have := List.mem_range.mp hj; omega)
  simp only [hitsOn, found, List.toList_toArray, Array.empty_append]
  induction n with
  | zero => omega
  | succ n ih =>
    rw [List.range_succ, List.flatMap_append, List.filter_append, List.flatMap_singleton]
    by_cases hlast : i = n
    · rw [hbefore hlast.ge, ← hlast, hkeep, List.nil_append]
    · rw [ih (by omega), hdrop (Ne.symm hlast), List.append_nil]

theorem hitsOn_found_outside (window : Window) {n channel : Nat}
    (h : ∀ i < n, registers.firstChannel + i ≠ channel) :
    hitsOn channel (kind.found p registers window states #[] n).hits = [] := by
  refine List.filter_eq_nil_iff.mpr fun hit hmem => ?_
  obtain ⟨i, hi, hof⟩ := (kind.mem_hits_found p registers states).mp (Array.mem_toList_iff.mp hmem)
  simpa [kind.channel_of_mem_hitsOf p registers states hof] using h i hi

end KernelKind

/-- The channel at a place of an accepted call is one of the frame's. -/
theorem channel_lt_of_checkShape {p : DetectorParams} {registers : RegisterRange}
    {states : Array ChannelState} (hshape : checkShape registers states p = .ok ()) {i : Nat}
    (hi : i < states.size) : registers.firstChannel + i < channelCount := by
  obtain ⟨⟨hfirst, hlast⟩, hsize, -⟩ := checkShape_eq_ok_iff.mp hshape
  simp only [hsize, RegisterRange.channels, RegisterRange.count, RegisterRange.firstChannel,
    lanesPerRegister_eq, registerCount_eq, channelCount_eq] at *
  omega

theorem ChannelState.hitsFrom_channelStream (rule : TrackerRule) (d : Detector)
    (channel tick : Nat) (s : ChannelState) (windows : List Window) :
    hitsFrom rule d channel tick s (channelStream windows channel) =
      (windows.mapIdx fun k w =>
        (hitsFrom rule d channel 0 (s.after rule d (channelStream (windows.take k) channel))
          (w.block.channelSamples channel)).map
            (Hit.later (tick + totalTicks (windows.take k)))).flatten := by
  induction windows generalizing tick s with
  | nil => rfl
  | cons w ws ih =>
    have hfirst := hitsFrom_later rule d channel 0 tick s (w.block.channelSamples channel)
    rw [Nat.zero_add] at hfirst
    rw [channelStream_cons, hitsFrom_append, ih, hfirst, SampleBlock.channelSamples_length,
      List.mapIdx_cons, List.flatten_cons]
    simp only [List.take_zero, channelStream_nil, after_nil, List.take_succ_cons,
      channelStream_cons, after_append, totalTicks_cons, Nat.add_assoc]
    rfl

end TpcTrigger
