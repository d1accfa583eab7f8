import TpcTrigger.Proofs.Detection.LaneSimulation
import TpcTrigger.Proofs.Samples.BlockLayout

/-! # Histories of a register

Sixteen channels that are loaded into a register, walk through a window in lockstep and are
stored again have each gone through the history of their own samples.  In between a lane is
only alike to its channel: the ring is common to all lanes and starts at slot zero.
-/

namespace TpcTrigger

namespace ChannelState

/-- Both channels hold the same values, up to the turn of their rings. -/
structure Alike (taps : Nat) (s t : ChannelState) : Prop where
  baseline : s.baseline = t.baseline
  line : DelayLine.Alike taps s.line t.line
  excursion : s.excursion = t.excursion

variable (rule : TrackerRule) {d : Detector} {s t : ChannelState}

theorem Alike.stepBy (h : Alike d.taps.size s t) (sample : Int) :
    Alike d.taps.size (s.stepBy rule d sample).1 (t.stepBy rule d sample).1 ∧
      (s.stepBy rule d sample).2 = (t.stepBy rule d sample).2 := by
  have houtput : s.output d = t.output d := h.line.output
  simp only [ChannelState.stepBy, h.baseline, h.excursion, houtput]
  exact ⟨⟨rfl, h.line.push _, rfl⟩, trivial⟩

theorem Alike.after (h : Alike d.taps.size s t) (xs : List UInt16) :
    Alike d.taps.size (s.after rule d xs) (t.after rule d xs) := by
  induction xs generalizing s t with
  | nil => exact h
  | cons x xs ih => exact ih (h.stepBy rule _).1

theorem Alike.hitsFrom (h : Alike d.taps.size s t) (channel tick : Nat) (xs : List UInt16) :
    ChannelState.hitsFrom rule d channel tick s xs =
      ChannelState.hitsFrom rule d channel tick t xs := by
  induction xs generalizing s t tick with
  | nil => rfl
  | cons x xs ih =>
    obtain ⟨hnext, hclosed⟩ := h.stepBy rule x.toNat
    rw [ChannelState.hitsFrom, ChannelState.hitsFrom, hitAt, hitAt, hclosed]
    exact congrArg _ (ih hnext (tick + 1))

theorem phase_after {taps : Nat} (h : s.line.Fits taps) (xs : List UInt16) :
    (s.after rule d xs).line.phase = (s.line.phase + xs.length) % taps := by
  induction xs generalizing s with
  | nil => exact (Nat.mod_eq_of_lt h.2).symm
  | cons x xs ih =>
    have hnext : (s.advance rule d x).line.phase = (s.line.phase + 1) % taps :=
      DelayLine.phase_push h _
    rw [after_cons, ih (h.push _), hnext, Nat.mod_add_mod, List.length_cons, Nat.add_assoc,
      Nat.add_comm 1]

end ChannelState

namespace RegisterState

/-- Loading turns every ring so that its oldest entry comes first. -/
theorem alike_load (taps : Nat) (states : Lanes ChannelState) (l : Fin lanesPerRegister)
    (h : (states.get l).line.Fits taps) :
    ChannelState.Alike taps ((load taps states).lane l) (states.get l) where
  baseline := by simp only [lane, load, TrackerLanes.lane_gather]
  line :=
    { left := by
        refine ⟨by simp [lane, load], ?_⟩
        exact Nat.lt_of_le_of_lt (Nat.zero_le _) h.2
      right := h
      entry := by
        intro k hk
        rw [entry_lane]
        simp [entry, load, Array.getD, Nat.mod_eq_of_lt hk, hk] }
  excursion := by simp [lane, load]

/-- Storing turns a ring to the phase of the channel, and gives the channel back. -/
theorem store_eq {taps : Nat} {r : RegisterState} {l : Fin lanesPerRegister}
    {s t : ChannelState} (h : ChannelState.Alike taps (r.lane l) t) {walked : Nat}
    (hphase : t.line.phase = (s.line.phase + walked) % taps) : r.store walked l s = t := by
  have hsize : r.ring.size = taps := by
    have := h.line.left.1
    rwa [lane, Array.size_map] at this
  have hline : DelayLine.ofEntries taps t.line.phase (fun k => (r.entry k).get l) = t.line :=
    DelayLine.ofEntries_entry h.line.right fun k hk => by rw [← entry_lane, h.line.entry k hk]
  obtain ⟨baseline, line, excursion⟩ := t
  have hbaseline : (r.lane l).baseline = baseline := h.baseline
  have hexcursion : (r.lane l).excursion = excursion := h.excursion
  simp only at hline hphase
  rw [store, hsize, ← hphase, hline, ← hbaseline, ← hexcursion]
  rfl

end RegisterState

namespace RegisterWalk

variable (d : Detector) (firstChannel : Nat)

theorem lane_step (w : RegisterWalk) (sample : Lanes UInt16) (l : Fin lanesPerRegister) :
    (w.step d firstChannel sample).state.lane l =
        (w.state.lane l).advance (Tracker.observeAtOnce d.stepLimit) d (sample.get l) ∧
      (w.step d firstChannel sample).hits.get l =
        w.hits.get l ++ (ChannelState.hitAt (Tracker.observeAtOnce d.stepLimit) d (firstChannel + l)
          w.tick (w.state.lane l) (sample.get l)).toList.toArray := by
  have hlane := RegisterState.lane_step d w.state (sample.map fun x => Int.ofNat x.toNat) l
  rw [Lanes.get_map] at hlane
  rw [ChannelState.advance, ChannelState.hitAt, ← Int.ofNat_eq_natCast, ← hlane, step]
  generalize w.state.step d _ = next
  obtain ⟨state, closed⟩ := next
  refine ⟨rfl, ?_⟩
  dsimp only
  cases hl : closed.get l with
  | none =>
    by_cases hany : closed.any Option.isSome = true
    · simp [hany, hl]
    · simp [hany]
  | some e =>
    have hany : closed.any Option.isSome = true :=
      Vector.any_eq_true.mpr ⟨l, l.isLt, (congrArg Option.isSome hl).trans rfl⟩
    simp [hany, hl, Excursion.hit]

theorem lane_foldl (w : RegisterWalk) (samples : List (Lanes UInt16)) (l : Fin lanesPerRegister) :
    let xs := samples.map (·.get l)
    let w' := samples.foldl (step d firstChannel) w
    w'.state.lane l = (w.state.lane l).after (Tracker.observeAtOnce d.stepLimit) d xs ∧
      w'.hits.get l = w.hits.get l ++ (ChannelState.hitsFrom (Tracker.observeAtOnce d.stepLimit) d
        (firstChannel + l) w.tick (w.state.lane l) xs).toArray := by
  induction samples generalizing w with
  | nil => simp [ChannelState.hitsFrom]
  | cons sample samples ih =>
    obtain ⟨hstate, hhits⟩ := lane_step d firstChannel w sample l
    obtain ⟨ihstate, ihhits⟩ := ih (w.step d firstChannel sample)
    simp only [List.map_cons, List.foldl_cons, ChannelState.after_cons, ChannelState.hitsFrom]
    rw [ihstate, ihhits, hstate, hhits]
    refine ⟨rfl, ?_⟩
    simp only [← List.append_toArray, Array.append_assoc]
    rfl

end RegisterWalk

end TpcTrigger
