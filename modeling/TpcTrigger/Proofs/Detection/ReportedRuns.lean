import TpcTrigger.Proofs.Detection.PrimitiveTimes
import TpcTrigger.Proofs.Detection.WindowCuts
import TpcTrigger.Proofs.Signal.WholeRuns

/-! # The runs that a search reports

What a search of windows says of the runs over threshold on a channel is in two places: the hits of
the windows are the runs that have ended, and the state at the end has the one that is still open.
Together they are the whole runs of the stream.  Unless the stream is too long for a word to count
its ticks, their lengths add up to the number of ticks over threshold.
-/

namespace TpcTrigger

/-- A hit that tells of the whole run from tick `start` on: it ends with the run, and its length is
that of the run, as far as a word can count it. -/
structure Hit.TellsOf (above : Nat → Bool) (total start : Nat) (h : Hit) : Prop where
  run : IsWholeRun above total start h.endTick
  ticksOver : h.ticksOver = wrap (h.endTick - start : Nat)

namespace Excursion

variable {e : Excursion} (above : Bool) (height : Int)

/-- An excursion gives its ticks to the hit that it becomes, or keeps them. -/
theorem ticks_step (hword : InWord (e.ticks + 1)) :
    (e.closed? above).elim 0 ticks + (e.step above height).ticks =
      e.ticks + if above then 1 else 0 := by
  cases above with
  | true => simp [closed?, step, extend, wrap_of_inWord hword]
  | false =>
    cases hopen : e.isOpen with
    | true => simp [closed?, step, close, none, hopen]
    | false => simp [closed?, step, close, hopen]

theorem ticks_step_mem (hword : InWord (e.ticks + 1)) (hlow : 0 ≤ e.ticks) :
    0 ≤ (e.step above height).ticks ∧ (e.step above height).ticks ≤ e.ticks + 1 := by
  cases above with
  | true =>
    have hcount : (e.step true height).ticks = e.ticks + 1 := wrap_of_inWord hword
    omega
  | false =>
    have hkept : (e.step false height).ticks = 0 ∨ (e.step false height).ticks = e.ticks := by
      cases hopen : e.isOpen with
      | true => exact .inl (by simp [step, close, none, hopen])
      | false => exact .inr (by simp [step, close, hopen])
    omega

end Excursion

namespace ChannelState

variable (rule : TrackerRule) (d : Detector) (channel : Nat) (s : ChannelState) (xs : List UInt16)

/-- The runs over threshold in a history: its hits, and what is still open at its end as a hit that
ends there. -/
def runsFrom : List Hit :=
  hitsFrom rule d channel 0 s xs ++
    (((s.after rule d xs).excursion.closed? false).map (Excursion.hit channel xs.length)).toList

def overTicks : Nat := (List.range xs.length).countP (overAt rule d s xs)

theorem overTicks_cons (x : UInt16) :
    overTicks rule d s (x :: xs) = overTicks rule d (s.advance rule d x) xs +
      if overAt rule d s (x :: xs) 0 then 1 else 0 := by
  rw [overTicks, List.length_cons, List.range_succ_eq_map, List.countP_cons, List.countP_map]
  rfl

theorem sum_ticksOver_hitAt (tick : Nat) (x : UInt16) :
    ((hitAt rule d channel tick s x).toList.map (·.ticksOver)).sum =
      (s.excursion.closed? (overAt rule d s (x :: xs) 0)).elim 0 Excursion.ticks := by
  change (((s.excursion.closed? (overAt rule d s (x :: xs) 0)).map
    (Excursion.hit channel tick)).toList.map (·.ticksOver)).sum = _
  cases s.excursion.closed? (overAt rule d s (x :: xs) 0) with
  | none => rfl
  | some e => exact List.sum_singleton

/-- No tick over threshold gets lost or is counted twice. -/
theorem sum_ticksOver_hitsFrom (tick : Nat) (hlow : 0 ≤ s.excursion.ticks)
    (hroom : s.excursion.ticks + xs.length ≤ maxWord) :
    ((hitsFrom rule d channel tick s xs).map (·.ticksOver)).sum +
      (s.after rule d xs).excursion.ticks = s.excursion.ticks + overTicks rule d s xs := by
  induction xs generalizing tick s with
  | nil => simp [hitsFrom, overTicks]
  | cons x xs ih =>
    rw [List.length_cons, Nat.cast_succ] at hroom
    have hword : InWord (s.excursion.ticks + 1) := inWord_of_nonneg (by omega) (by omega)
    have hstep := Excursion.ticks_step (overAt rule d s (x :: xs) 0)
      (heightAt rule d s (x :: xs) 0) hword
    have hcount := Excursion.ticks_step_mem (overAt rule d s (x :: xs) 0)
      (heightAt rule d s (x :: xs) 0) hword hlow
    have hnext : (s.advance rule d x).excursion = s.excursion.step
      (overAt rule d s (x :: xs) 0) (heightAt rule d s (x :: xs) 0) := rfl
    rw [← hnext] at hstep hcount
    have hrest := ih (s.advance rule d x) (tick + 1) hcount.1 (by omega)
    rw [hitsFrom, List.map_append, List.sum_append, sum_ticksOver_hitAt rule d channel s xs,
      after_cons, overTicks_cons]
    push_cast
    omega

variable {s xs}

theorem mem_runsFrom (hquiet : s.excursion = .none) {h : Hit} :
    h ∈ runsFrom rule d channel s xs ↔
      ∃ start stop, IsWholeRun (overAt rule d s xs) xs.length start stop ∧
        h = (Excursion.spanning (heightAt rule d s xs) start stop).hit channel stop := by
  have hhits := hitsFrom_eq_runs rule d s hquiet channel [] xs []
  have hheld := holds_after_take rule d s xs hquiet le_rfl
  simp only [List.nil_append, List.append_nil, List.length_nil, Nat.zero_add, after_nil] at hhits
  rw [List.take_length] at hheld
  rw [runsFrom, hhits, List.mem_append, List.mem_flatMap, Option.mem_toList, Option.map_eq_some_iff]
  constructor
  · rintro (⟨stop, hstop, hended⟩ | ⟨e, he, rfl⟩)
    · obtain ⟨start, hstart, rfl⟩ := List.mem_map.mp hended
      obtain ⟨hrun, hend⟩ := mem_runsEnding.mp hstart
      exact ⟨start, stop, ⟨hrun, (List.mem_range.mp hstop).le, .inr hend⟩, rfl⟩
    · obtain ⟨start, hrun, rfl⟩ := (hheld.closed?_false e).mp he
      exact ⟨start, xs.length, ⟨hrun, le_rfl, .inl rfl⟩, rfl⟩
  · rintro ⟨start, stop, ⟨hrun, hwithin, hends⟩, rfl⟩
    by_cases hlast : stop = xs.length
    · subst hlast
      exact .inr ⟨_, (hheld.closed?_false _).mpr ⟨start, hrun, rfl⟩, rfl⟩
    · have hend := hends.resolve_left hlast
      exact .inl ⟨stop, List.mem_range.mpr (by omega),
        List.mem_map.mpr ⟨start, mem_runsEnding.mpr ⟨hrun, hend⟩, rfl⟩⟩

theorem sum_ticksOver_runsFrom (hquiet : s.excursion = .none) (hroom : xs.length ≤ maxWord) :
    ((runsFrom rule d channel s xs).map (·.ticksOver)).sum = overTicks rule d s xs := by
  have hnone : s.excursion.ticks = 0 := by rw [hquiet, Excursion.none]
  have hhits := sum_ticksOver_hitsFrom rule d channel s xs 0 hnone.ge (by omega)
  have hheld := holds_after_take rule d s xs hquiet le_rfl
  rw [List.take_length] at hheld
  rw [hquiet] at hhits
  have hopen : ((((s.after rule d xs).excursion.closed? false).map
      (Excursion.hit channel xs.length)).toList.map (·.ticksOver)).sum =
        (s.after rule d xs).excursion.ticks := by
    by_cases hrun : ∃ start, IsRun (overAt rule d s xs) start xs.length
    · obtain ⟨start, hrun⟩ := hrun
      rw [hheld.1 start hrun]
      exact List.sum_singleton
    · rw [hheld.2 (not_exists.mp hrun)]
      rfl
  rw [runsFrom, List.map_append, List.sum_append, hopen, hhits]
  exact Int.zero_add _

end ChannelState

/-- The runs over threshold on a channel that a search of windows reports: its hits, counted from
the start of the stream, and what the state at the end has open, as a hit that ends with the
stream. -/
def runsOn (channel : Nat) (windows : List Window) (last : ChannelState)
    (parts : List (Array Hit)) : List Hit :=
  (rejoin windows parts).filter (·.channel = channel) ++
    ((last.excursion.closed? false).map (Excursion.hit channel (totalTicks windows))).toList

theorem KernelKind.runsOn_carried (kind : KernelKind) (p : DetectorParams)
    (registers : RegisterRange) (states : Array ChannelState) (windows : List Window) {i : Nat}
    (hi : i < states.size) :
    runsOn (registers.firstChannel + i) windows
        ((kind.carried p registers states windows).getD i default)
        (windows.mapIdx fun k w => (kind.found p registers w
          (kind.carried p registers states (windows.take k)) #[] states.size).hits) =
      ChannelState.runsFrom (kind.rule p.stepLimit) p.detector (registers.firstChannel + i)
        (states.getD i default) (channelStream windows (registers.firstChannel + i)) := by
  rw [runsOn, filter_rejoin, List.mapIdx_mapIdx, getD_carried _ _ _ _ _ hi, ChannelState.runsFrom,
    ChannelState.hitsFrom_channelStream, channelStream_length]
  simp only [Function.comp_def, Nat.zero_add, hitsOn_found _ _ _ _ _ hi, hitsOf,
    getD_carried _ _ _ _ _ hi]

end TpcTrigger
