import TpcTrigger.Proofs.Detection.HitRuns

/-! # Runs that are longer than a word can count

A channel whose baseline and delay line do not change under a sample stays over threshold for as long
as the sample comes.  So a run can be of any length, while the excursion counts its ticks in a word:
from the greatest word on, the length that a hit reports is not that of its run.
-/

namespace TpcTrigger

namespace ChannelState

variable (rule : TrackerRule) (d : Detector) (s : ChannelState)

/-- What comes later does not change a decision. -/
theorem overAt_append {xs : List UInt16} {t : Nat} (ht : t < xs.length) (ys : List UInt16) :
    overAt rule d s (xs ++ ys) t = overAt rule d s xs t := by
  rw [overAt, overAt, thresholdAt, thresholdAt, outputAt, outputAt,
    List.take_append_of_le_length (Nat.succ_le_of_lt ht), List.take_append_of_le_length ht.le]

theorem overAt_length_add (xs ys : List UInt16) (t : Nat) :
    overAt rule d s (xs ++ ys) (xs.length + t) = overAt rule d (s.after rule d xs) ys t := by
  rw [overAt, overAt, thresholdAt, thresholdAt, outputAt, outputAt, Nat.add_assoc,
    List.take_length_add_append, List.take_length_add_append, after_append, after_append]

theorem overAt_cons_zero (x : UInt16) (xs : List UInt16) :
    overAt rule d s (x :: xs) 0 =
      decide (d.threshold (s.baseline.observeBy rule x.toNat).spread < s.output d) :=
  rfl

/-- A sample that leaves a channel as it is, apart from its excursion. -/
structure Holds (x : UInt16) : Prop where
  baseline : s.baseline.observeBy rule x.toNat = s.baseline
  line : s.line.push (min (wrap (x.toNat - s.baseline.pedestal)) d.ceiling) = s.line

variable {rule d s} {x y : UInt16} (h : s.Holds rule d x)
include h

theorem Holds.after (n : Nat) :
    (s.after rule d (List.replicate n x)).baseline = s.baseline ∧
      (s.after rule d (List.replicate n x)).line = s.line := by
  induction n with
  | zero => exact ⟨rfl, rfl⟩
  | succ n ih =>
    obtain ⟨hbaseline, hline⟩ := ih
    have hnext (t : ChannelState) (ht : t.baseline = s.baseline ∧ t.line = s.line) :
        (t.advance rule d x).baseline = s.baseline ∧ (t.advance rule d x).line = s.line := by
      rw [advance, stepBy]
      dsimp only
      rw [ht.1, ht.2, h.baseline]
      exact ⟨rfl, h.line⟩
    rw [List.replicate_succ', after_append, after_cons, after_nil]
    exact hnext _ ⟨hbaseline, hline⟩

theorem Holds.overAt_replicate (n : Nat) (ys : List UInt16) :
    overAt rule d s (List.replicate n x ++ y :: ys) n =
      decide (d.threshold (s.baseline.observeBy rule y.toNat).spread < s.output d) := by
  obtain ⟨hbaseline, hline⟩ := h.after n
  have hlength : (List.replicate n x).length = n := List.length_replicate
  have hlast := overAt_length_add rule d s (List.replicate n x) (y :: ys) 0
  rw [hlength, Nat.add_zero] at hlast
  have houtput : (s.after rule d (List.replicate n x)).output d = s.output d :=
    congrArg (DelayLine.output d.taps) hline
  rw [hlast, overAt_cons_zero, hbaseline, houtput]

theorem Holds.overAt_of_lt (hover : d.threshold s.baseline.spread < s.output d) {n t : Nat}
    (ht : t < n) (ys : List UInt16) : overAt rule d s (List.replicate n x ++ ys) t = true := by
  obtain ⟨more, rfl⟩ : ∃ more, n = t + (more + 1) := ⟨n - t - 1, by omega⟩
  rw [List.replicate_add, List.append_assoc, List.replicate_succ, List.cons_append,
    h.overAt_replicate, h.baseline]
  exact decide_eq_true hover

omit h in
/-- A run that is open when a channel begins to hold lasts for as long as the sample comes. -/
theorem Holds.isRun {before : List UInt16} (h : (s.after rule d before).Holds rule d x) {start : Nat}
    (hrun : IsRun (overAt rule d s before) start before.length)
    (hover : d.threshold (s.after rule d before).baseline.spread < (s.after rule d before).output d)
    (hend : ¬ d.threshold ((s.after rule d before).baseline.observeBy rule y.toNat).spread <
      (s.after rule d before).output d) (n : Nat) (later : List UInt16) :
    let xs := before ++ (List.replicate n x ++ y :: later)
    IsRun (overAt rule d s xs) start (before.length + n) ∧
      overAt rule d s xs (before.length + n) = false := by
  intro xs
  obtain ⟨hlt, habove, hleft⟩ := hrun
  have hfront {t : Nat} (ht : t < before.length) : overAt rule d s xs t = overAt rule d s before t :=
    overAt_append rule d s ht _
  refine ⟨⟨by omega, fun t ht hstart => ?_, ?_⟩, ?_⟩
  · by_cases hearly : t < before.length
    · rw [hfront hearly]
      exact habove t hearly hstart
    · obtain ⟨u, rfl⟩ := Nat.exists_eq_add_of_le (Nat.le_of_not_lt hearly)
      rw [overAt_length_add]
      exact h.overAt_of_lt hover (by omega) _
  · rwa [hfront (by omega)]
  · rw [overAt_length_add, h.overAt_replicate]
    exact decide_eq_false hend

end ChannelState

namespace KernelKind

theorem ReportsRuns.mem_of_isRun {kind : KernelKind} {p : DetectorParams} {registers : RegisterRange}
    {states last : Array ChannelState} {windows : List Window} {parts : List (Array Hit)}
    (h : kind.ReportsRuns p registers states windows last parts) {i : Nat} (hi : i < states.size)
    {k : Nat} {w : Window} (hw : windows[k]? = some w) {start tick : Nat} (htick : tick < w.ticks)
    (hrun : IsRun (kind.overIn p registers states windows i) start
      (totalTicks (windows.take k) + tick))
    (hend : kind.overIn p registers states windows i (totalTicks (windows.take k) + tick) = false) :
    ∃ part, parts[k]? = some part ∧
      ⟨registers.firstChannel + i, tick, gathered (kind.heightIn p registers states windows i) start
        (totalTicks (windows.take k) + tick), wrap (totalTicks (windows.take k) + tick - start : Nat)⟩ ∈
          hitsOn (registers.firstChannel + i) part := by
  have hhits := congrArg (·[k]?) (h.hits i hi)
  simp only [List.getElem?_map, List.getElem?_mapIdx, hw, Option.map_some] at hhits
  obtain ⟨part, hpart, hlist⟩ := Option.map_eq_some_iff.mp hhits
  refine ⟨part, hpart, ?_⟩
  rw [hlist, List.mem_flatMap]
  refine ⟨tick, List.mem_range.mpr htick, ?_⟩
  rw [runsEnding_of_isRun hrun hend]
  exact List.mem_singleton_self _

/-- A channel whose quartiles have passed each other is over threshold for as long as the sample at
its median comes. -/
theorem held_run_found (n : Nat) :
    let p : DetectorParams := ⟨⟨#[1], 0⟩, 5, 1⟩
    let registers : RegisterRange := ⟨0, 1⟩
    let states : Array ChannelState := .replicate 16 ((ChannelState.fresh 1).seed 100)
    let windows := [Window.repeated ([100, 99, 98, 97, 96, 98, 97] ++ (List.replicate n 97 ++ [0]))]
    checkShape registers states p = .ok () ∧ (∀ s ∈ states, s.excursion = .none) ∧
      IsRun (channelwise.overIn p registers states windows 0) 5 (7 + n) ∧
      channelwise.overIn p registers states windows 0 (7 + n) = false ∧
      ∃ last hits charge, channelwise.processAll p registers states windows = .ok (last, [hits]) ∧
        ⟨0, 7 + n, charge, wrap (7 + n - 5 : Nat)⟩ ∈ hitsOn 0 hits := by
  intro p registers states windows
  have hshape : checkShape registers states p = .ok () := by decide
  have hquiet : ∀ s ∈ states, s.excursion = .none := by decide
  obtain ⟨last, parts, hprocess, hreports⟩ :=
    channelwise.processAll_runs p registers states hshape hquiet windows
  have hruns : IsRun (channelwise.overIn p registers states windows 0) 5 (7 + n) ∧
      channelwise.overIn p registers states windows 0 (7 + n) = false := by
    have hstate : states.getD 0 default = (ChannelState.fresh 1).seed 100 := rfl
    have hfirst : registers.firstChannel + 0 = 0 := rfl
    rw [overIn, hfirst, channelStream_cons, channelStream_nil, List.append_nil,
      Window.channelSamples_repeated _ (by decide), hstate]
    refine ChannelState.Holds.isRun ⟨?_, ?_⟩ ?_ ?_ ?_ n []
    all_goals decide
  have hone : parts.length = 1 := by
    have hhits := congrArg List.length (hreports.hits 0 (by decide))
    rwa [List.length_map, List.length_mapIdx] at hhits
  obtain ⟨hits, rfl⟩ := List.length_eq_one_iff.mp hone
  have hstates : 0 < states.size := by decide
  have hplace : totalTicks (windows.take 0) + (7 + n) = 7 + n := Nat.zero_add _
  have hticks : 7 + n < (Window.repeated
      ([100, 99, 98, 97, 96, 98, 97] ++ (List.replicate n 97 ++ [0]))).ticks := by
    simp only [Window.repeated, List.length_append, List.length_replicate, List.length_cons,
      List.length_nil]
    omega
  rw [← hplace] at hruns
  obtain ⟨part, hpart, hmem⟩ :=
    hreports.mem_of_isRun (k := 0) hstates rfl hticks hruns.1 hruns.2
  obtain rfl := Option.some.inj hpart
  rw [hplace] at hruns hmem
  exact ⟨hshape, hquiet, hruns.1, hruns.2, last, hits, _, hprocess, hmem⟩

/-- After 2147483648 ticks over threshold the length that is reported is negative. -/
theorem run_outlasts_count :
    let p : DetectorParams := ⟨⟨#[1], 0⟩, 5, 1⟩
    let registers : RegisterRange := ⟨0, 1⟩
    let states : Array ChannelState := .replicate 16 ((ChannelState.fresh 1).seed 100)
    let windows := [Window.repeated
      ([100, 99, 98, 97, 96, 98, 97] ++ (List.replicate 2147483646 97 ++ [0]))]
    checkShape registers states p = .ok () ∧ (∀ s ∈ states, s.excursion = .none) ∧
      IsRun (channelwise.overIn p registers states windows 0) 5 2147483653 ∧
      channelwise.overIn p registers states windows 0 2147483653 = false ∧
      ∃ last hits charge, channelwise.processAll p registers states windows = .ok (last, [hits]) ∧
        ⟨0, 2147483653, charge, -2147483648⟩ ∈ hitsOn 0 hits ∧
        (-2147483648 : Int) ≠ (2147483653 - 5 : Nat) := by
  obtain ⟨hshape, hquiet, hrun, hend, last, hits, charge, hprocess, hmem⟩ :=
    held_run_found 2147483646
  have hlength : wrap (2147483653 - 5 : Nat) = -2147483648 := by decide
  have hstop : 7 + 2147483646 = 2147483653 := by norm_num
  rw [hstop] at hrun hend hmem
  rw [hlength] at hmem
  exact ⟨hshape, hquiet, hrun, hend, last, hits, charge, hprocess, hmem, by decide⟩

end KernelKind

end TpcTrigger
