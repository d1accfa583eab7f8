import TpcTrigger.Proofs.Detection.RegisterHistory

/-! # What a kernel call computes

An accepted call leaves, for each of its channels in order, the state after the history of the
channel's samples, and adds the hits of these histories channel by channel.  Both kernels have
this form, each with its own tracker rule, and refuse the same calls with the same error.
-/

namespace TpcTrigger

theorem checkShape_eq_ok_iff {registers : RegisterRange} {states : Array ChannelState}
    {p : DetectorParams} :
    checkShape registers states p = .ok () ↔
      (registers.first ≤ registers.last ∧ registers.last ≤ registerCount) ∧
        states.size = registers.channels ∧
          ∀ s ∈ states, s.line.Fits p.filter.length := by
  rw [checkShape]
  by_cases hrange : registers.last < registers.first ∨ registerCount < registers.last
  · rw [if_pos hrange]
    simp only [reduceCtorEq, false_iff]
    omega
  · rw [if_neg hrange]
    by_cases hsize : states.size = registers.channels
    · rw [if_neg (not_not.mpr hsize)]
      split
      case h_1 s i hbad =>
        have hmem := Array.mem_zipIdx_iff_getElem?.mp (Array.mem_of_find?_eq_some hbad)
        have hunfit := Array.find?_some hbad
        simp only [decide_eq_true_eq] at hunfit
        simp only [reduceCtorEq, false_iff]
        intro h
        exact hunfit (h.2.2 s (Array.mem_of_getElem? hmem))
      case h_2 hgood =>
        have hfit : ∀ s ∈ states, s.line.Fits p.filter.length := by
          intro s hs
          obtain ⟨i, hi⟩ := Array.mem_iff_getElem?.mp hs
          simpa using Array.find?_eq_none.mp hgood (s, i) (Array.mk_mem_zipIdx_iff_getElem?.mpr hi)
        simp only [true_iff]
        exact ⟨by omega, hsize, hfit⟩
    · rw [if_pos hsize]
      simp only [reduceCtorEq, false_iff]
      tauto

theorem getD_mem {states : Array ChannelState} {i : Nat} (hi : i < states.size) :
    states.getD i default ∈ states := by
  rw [Array.getD, dif_pos hi]
  exact Array.getElem_mem hi

theorem foldl_append_toArray {α β : Type} (f : α → List β) (xs : List α) (found : Array β) :
    xs.foldl (fun found x => found ++ (f x).toArray) found = found ++ (xs.flatMap f).toArray := by
  induction xs generalizing found with
  | nil => simp
  | cons x xs ih =>
    rw [List.foldl_cons, ih, List.flatMap_cons, ← List.append_toArray, Array.append_assoc]

namespace KernelKind

variable (kind : KernelKind) (p : DetectorParams) (registers : RegisterRange) (window : Window)
  (states : Array ChannelState)

def stateAfter (i : Nat) : ChannelState :=
  (states.getD i default).after (kind.rule p.stepLimit) p.detector
    (window.block.channelSamples (registers.firstChannel + i))

/-- The hits in a window of the channel at a place of a call. -/
def hitsOf (i : Nat) : List Hit :=
  ChannelState.hitsFrom (kind.rule p.stepLimit) p.detector (registers.firstChannel + i) 0
    (states.getD i default) (window.block.channelSamples (registers.firstChannel + i))

/-- What the first `n` channels of a call leave. -/
def found (hits : Array Hit) (n : Nat) : Detections where
  states := ((List.range n).map (kind.stateAfter p registers window states)).toArray
  hits := hits ++ ((List.range n).flatMap (kind.hitsOf p registers window states)).toArray

end KernelKind

namespace Channelwise

variable (p : DetectorParams) (registers : RegisterRange) (window : Window)
  (states : Array ChannelState) (hits : Array Hit)

theorem next_found (i : Fin states.size) :
    next p.detector window registers.firstChannel
        (KernelKind.channelwise.found p registers window states hits i) states[i] =
      KernelKind.channelwise.found p registers window states hits (i + 1) := by
  have hstate : states.getD i default = states[i] := by simp [Array.getD]
  simp only [next, walk, ChannelWalk.run_eq, KernelKind.found, List.size_toArray, List.length_map,
    List.length_range, List.range_succ, List.map_append, List.flatMap_append, List.map_cons,
    List.map_nil, List.flatMap_cons, List.flatMap_nil, List.append_nil, ← List.append_toArray,
    Array.append_assoc, KernelKind.stateAfter, KernelKind.hitsOf, hstate]
  simp [KernelKind.rule, DetectorParams.detector]

theorem foldl_next :
    states.foldl (next p.detector window registers.firstChannel) ⟨#[], hits⟩ =
      KernelKind.channelwise.found p registers window states hits states.size := by
  apply Array.foldl_induction (fun i done =>
    done = KernelKind.channelwise.found p registers window states hits i)
  · simp [KernelKind.found]
  · rintro i _ rfl
    exact next_found p registers window states hits i

end Channelwise

namespace Lockstep

variable (p : DetectorParams) (registers : RegisterRange) (window : Window)
  (states : Array ChannelState) (hits : Array Hit)

theorem registerSamples_lane {register : Nat} (hregister : register < registerCount)
    (l : Fin lanesPerRegister) :
    (registerSamples window register).map (·.get l) =
      window.block.channelSamples (register * lanesPerRegister + l) := by
  rw [registerSamples, List.map_map, SampleBlock.channelSamples]
  apply List.map_congr_left
  intro tick htick
  have hlanes := window.block.lanes?_eq hregister (List.mem_range.mp htick)
  simp [Window.lanes?, hlanes]

theorem walk_lane {register : Nat} (hregister : register < registerCount)
    (loaded : Lanes ChannelState) (l : Fin lanesPerRegister)
    (hfit : (loaded.get l).line.Fits p.filter.length) :
    let xs := window.block.channelSamples (register * lanesPerRegister + l)
    let w := walk p.detector window register loaded
    w.state.store window.ticks l (loaded.get l) =
        (loaded.get l).after (Tracker.observeAtOnce p.stepLimit) p.detector xs ∧
      w.hits.get l = (ChannelState.hitsFrom (Tracker.observeAtOnce p.stepLimit) p.detector
        (register * lanesPerRegister + l) 0 (loaded.get l) xs).toArray := by
  have hload := RegisterState.alike_load p.detector.taps.size loaded l hfit
  have hwalk := RegisterWalk.lane_foldl p.detector (register * lanesPerRegister)
    ⟨.load p.detector.taps.size loaded, 0, .splat #[]⟩ (registerSamples window register) l
  rw [registerSamples_lane window hregister] at hwalk
  have hstate : (walk p.detector window register loaded).state.lane l =
      ((RegisterState.load p.detector.taps.size loaded).lane l).after
        (Tracker.observeAtOnce p.stepLimit) p.detector
        (window.block.channelSamples (register * lanesPerRegister + l)) := hwalk.1
  have hafter := hload.after (Tracker.observeAtOnce p.stepLimit)
    (window.block.channelSamples (register * lanesPerRegister + l))
  rw [← hstate] at hafter
  refine ⟨RegisterState.store_eq hafter ?_, ?_⟩
  · rw [ChannelState.phase_after _ hfit, SampleBlock.channelSamples_length]
    rfl
  · rw [← hload.hitsFrom]
    refine hwalk.2.trans ?_
    simp only [Lanes.get_splat, Array.empty_append]
    rfl

theorem toList_lanes {α : Type} (f : Nat → α) (lanes : Lanes α)
    (h : ∀ l : Fin lanesPerRegister, lanes.get l = f l) :
    lanes.toList = (List.range lanesPerRegister).map f := by
  apply List.ext_getElem
  · simp
  · intro l hl _
    have hl' : l < lanesPerRegister := by simpa using hl
    rw [Vector.getElem_toList, List.getElem_map, List.getElem_range]
    exact h ⟨l, hl'⟩

theorem foldl_append_lanes (f : Nat → List Hit) (lanes : Lanes (Array Hit))
    (h : ∀ l : Fin lanesPerRegister, lanes.get l = (f l).toArray) (hits : Array Hit) :
    lanes.foldl (· ++ ·) hits = hits ++ ((List.range lanesPerRegister).flatMap f).toArray := by
  rw [← Vector.foldl_toList, toList_lanes (fun l => (f l).toArray) lanes h, List.foldl_map,
    foldl_append_toArray]

theorem next_found (hshape : checkShape registers states p = .ok ()) {i : Nat}
    (hi : i < registers.count) :
    next p.detector window registers states
        (KernelKind.lockstep.found p registers window states hits (i * lanesPerRegister)) i =
      KernelKind.lockstep.found p registers window states hits ((i + 1) * lanesPerRegister) := by
  obtain ⟨⟨hfirst, hlast⟩, hsize, hfit⟩ := checkShape_eq_ok_iff.mp hshape
  have hregister : registers.first + i < registerCount := by
    rw [RegisterRange.count] at hi
    omega
  have hplace (l : Fin lanesPerRegister) : i * lanesPerRegister + l < states.size := by
    have hl := l.isLt
    rw [hsize, RegisterRange.channels]
    simp only [lanesPerRegister_eq] at hl ⊢
    omega
  have hchannel (l : Nat) : (registers.first + i) * lanesPerRegister + l =
      registers.firstChannel + (i * lanesPerRegister + l) := by
    rw [RegisterRange.firstChannel, Nat.add_mul, Nat.add_assoc]
  generalize hloaded : (Vector.ofFn fun l : Fin lanesPerRegister =>
    states.getD (i * lanesPerRegister + l) default) = loaded
  have hload (l : Fin lanesPerRegister) :
      loaded.get l = states.getD (i * lanesPerRegister + l) default := by
    rw [← hloaded, Lanes.get_ofFn]
  have hwalk (l : Fin lanesPerRegister) := walk_lane p window hregister loaded l (by
    rw [hload]
    exact hfit _ (getD_mem (hplace l)))
  have hstored := toList_lanes
    (fun l => KernelKind.lockstep.stateAfter p registers window states (i * lanesPerRegister + l))
    (.ofFn fun l =>
      (walk p.detector window (registers.first + i) loaded).state.store window.ticks l (loaded.get l))
    (by
    intro l
    rw [Lanes.get_ofFn, (hwalk l).1, hload, hchannel]
    rfl)
  have hhits := foldl_append_lanes
    (fun l => KernelKind.lockstep.hitsOf p registers window states (i * lanesPerRegister + l))
    (walk p.detector window (registers.first + i) loaded).hits
    (by
    intro l
    rw [(hwalk l).2, hload, hchannel]
    rfl)
  have hrange : List.range ((i + 1) * lanesPerRegister) =
      List.range (i * lanesPerRegister) ++
        (List.range lanesPerRegister).map (i * lanesPerRegister + ·) := by
    rw [Nat.add_mul, Nat.one_mul, List.range_add]
  rw [next, hloaded, hhits, ← Vector.toArray_toList, hstored]
  simp only [KernelKind.found, hrange, List.map_append, List.map_map, List.flatMap_append,
    List.flatMap_map, ← List.append_toArray, Array.append_assoc]
  rfl

theorem foldl_next (hshape : checkShape registers states p = .ok ()) {n : Nat}
    (hn : n ≤ registers.count) :
    (List.range n).foldl (next p.detector window registers states) ⟨#[], hits⟩ =
      KernelKind.lockstep.found p registers window states hits (n * lanesPerRegister) := by
  induction n with
  | zero => simp [KernelKind.found]
  | succ n ih =>
    rw [List.range_succ, List.foldl_append, ih (by omega), List.foldl_cons, List.foldl_nil,
      next_found p registers window states hits hshape (by omega)]

end Lockstep

theorem KernelKind.process_eq (kind : KernelKind) (p : DetectorParams) (registers : RegisterRange)
    (window : Window) (states : Array ChannelState) (hits : Array Hit) :
    kind.process p registers window states hits =
      (checkShape registers states p).map fun () =>
        kind.found p registers window states hits states.size := by
  cases hshape : checkShape registers states p with
  | error cause =>
    cases kind <;> simp only [process, Channelwise.process, Lockstep.process, hshape] <;> rfl
  | ok u =>
    cases kind with
    | channelwise =>
      simp only [process, Channelwise.process, hshape, Except.map]
      rw [Channelwise.foldl_next]
    | lockstep =>
      have hsize := (checkShape_eq_ok_iff.mp hshape).2.1
      simp only [process, Lockstep.process, hshape, Except.map]
      rw [Lockstep.foldl_next p registers window states hits hshape le_rfl, hsize]
      rfl

theorem KernelKind.process_eq_ok (kind : KernelKind) {p : DetectorParams}
    {registers : RegisterRange} {states : Array ChannelState}
    (hshape : checkShape registers states p = .ok ()) (window : Window) (hits : Array Hit) :
    kind.process p registers window states hits =
      .ok (kind.found p registers window states hits states.size) := by
  rw [process_eq, hshape]
  rfl

/-- From a step limit of one on, the kernels give the same outcome: the same error, or the same
hits in the same order and the same states, down to the slots of every delay line. -/
theorem lockstep_process_eq_channelwise (p : DetectorParams) (hlimit : 1 ≤ p.stepLimit)
    (registers : RegisterRange) (window : Window) (states : Array ChannelState)
    (hits : Array Hit) :
    Lockstep.process p registers window states hits =
      Channelwise.process p registers window states hits := by
  have hrule := KernelKind.rule_eq_of_one_le hlimit .lockstep .channelwise
  have hlockstep := KernelKind.lockstep.process_eq p registers window states hits
  have hchannelwise := KernelKind.channelwise.process_eq p registers window states hits
  have hfound : KernelKind.lockstep.found p registers window states hits states.size =
      KernelKind.channelwise.found p registers window states hits states.size := by
    unfold KernelKind.found KernelKind.stateAfter KernelKind.hitsOf
    rw [hrule]
  rw [hfound, ← hchannelwise] at hlockstep
  exact hlockstep

/-- A register whose channels all have different phases, with a hit left open in one of them. -/
theorem lockstep_process_eq_channelwise_turned :
    let p : DetectorParams := ⟨⟨#[1, -2, 64], 6⟩, 5, 1⟩
    let states : Array ChannelState := .ofFn fun i : Fin 16 =>
      ⟨⟨⟨100, 0⟩, ⟨99, 0⟩, ⟨101, 0⟩⟩, ⟨#[7, i, -3], i % 3⟩, ⟨i = 5, 40, 2⟩⟩
    let window := Window.ofChannels 0 0 (.replicate channelCount #[100, 160, 90, 100])
    1 ≤ p.stepLimit ∧ checkShape ⟨6, 7⟩ states p = .ok () ∧
      Lockstep.process p ⟨6, 7⟩ window states #[⟨0, 0, 1, 1⟩] =
        Channelwise.process p ⟨6, 7⟩ window states #[⟨0, 0, 1, 1⟩] := by
  intro p states window
  have hlimit : 1 ≤ p.stepLimit := by decide
  exact ⟨hlimit, by decide,
    lockstep_process_eq_channelwise p hlimit ⟨6, 7⟩ window states #[⟨0, 0, 1, 1⟩]⟩

end TpcTrigger
