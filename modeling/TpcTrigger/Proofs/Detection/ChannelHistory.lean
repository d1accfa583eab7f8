import TpcTrigger.Proofs.Signal.TrackerRule

/-! # Histories of one channel

A channel that takes in a list of samples reaches a state and hands out hits.  Both are
defined here sample by sample for any tracker rule.  A history can be cut anywhere: the state
at the cut is all that the rest depends on, and the hits of the rest are those of the rest
alone, only later.
-/

namespace TpcTrigger

def Hit.later (ticks : Nat) (h : Hit) : Hit := { h with endTick := h.endTick + ticks }

/-- The hit that an excursion becomes when it is closed at a tick. -/
def Excursion.hit (channel tick : Nat) (e : Excursion) : Hit := ⟨channel, tick, e.charge, e.ticks⟩

namespace ChannelState

def stepBy (rule : TrackerRule) (d : Detector) (s : ChannelState) (sample : Int) :
    ChannelState × Option Excursion :=
  let baseline := s.baseline.observeBy rule sample
  let above := d.threshold baseline.spread < s.output d
  ({ baseline
     line := s.line.push (min (wrap (sample - baseline.pedestal)) d.ceiling)
     excursion := s.excursion.step above (d.height (s.output d)) },
    s.excursion.closed? above)

theorem step_eq_stepBy (d : Detector) (s : ChannelState) (sample : Int) :
    s.step d sample = s.stepBy (Tracker.observe d.stepLimit) d sample :=
  rfl

variable (rule : TrackerRule) (d : Detector) (channel : Nat)

def advance (s : ChannelState) (sample : UInt16) : ChannelState := (s.stepBy rule d sample.toNat).1

def hitAt (tick : Nat) (s : ChannelState) (sample : UInt16) : Option Hit :=
  (s.stepBy rule d sample.toNat).2.map (Excursion.hit channel tick)

def after (s : ChannelState) (samples : List UInt16) : ChannelState :=
  samples.foldl (advance rule d) s

/-- The hits that a list of raw samples ends; its first sample is that of tick `tick`. -/
def hitsFrom : Nat → ChannelState → List UInt16 → List Hit
  | _, _, [] => []
  | tick, s, x :: xs =>
    (hitAt rule d channel tick s x).toList ++ hitsFrom (tick + 1) (s.advance rule d x) xs

@[simp] theorem after_nil (s : ChannelState) : s.after rule d [] = s := rfl

@[simp] theorem after_cons (s : ChannelState) (x : UInt16) (xs : List UInt16) :
    s.after rule d (x :: xs) = (s.advance rule d x).after rule d xs :=
  rfl

theorem after_append (s : ChannelState) (xs ys : List UInt16) :
    s.after rule d (xs ++ ys) = (s.after rule d xs).after rule d ys :=
  List.foldl_append

theorem hitAt_later (tick ticks : Nat) (s : ChannelState) (x : UInt16) :
    hitAt rule d channel (tick + ticks) s x =
      (hitAt rule d channel tick s x).map (Hit.later ticks) := by
  simp only [hitAt, Option.map_map]
  rfl

theorem hitsFrom_later (tick ticks : Nat) (s : ChannelState) (xs : List UInt16) :
    hitsFrom rule d channel (tick + ticks) s xs =
      (hitsFrom rule d channel tick s xs).map (Hit.later ticks) := by
  induction xs generalizing tick s with
  | nil => rfl
  | cons x xs ih =>
    rw [hitsFrom, hitsFrom, List.map_append, hitAt_later, Nat.add_right_comm, ih]
    cases hitAt rule d channel tick s x <;> rfl

theorem hitsFrom_append (tick : Nat) (s : ChannelState) (xs ys : List UInt16) :
    hitsFrom rule d channel tick s (xs ++ ys) =
      hitsFrom rule d channel tick s xs ++
        hitsFrom rule d channel (tick + xs.length) (s.after rule d xs) ys := by
  induction xs generalizing tick s with
  | nil => simp [hitsFrom]
  | cons x xs ih =>
    rw [List.cons_append, hitsFrom, hitsFrom, ih, List.append_assoc, after_cons, List.length_cons,
      Nat.add_assoc tick 1, Nat.add_comm 1]

theorem channel_of_mem_hitsFrom {tick : Nat} {s : ChannelState} {xs : List UInt16} {h : Hit}
    (hmem : h ∈ hitsFrom rule d channel tick s xs) : h.channel = channel := by
  induction xs generalizing tick s with
  | nil => cases hmem
  | cons x xs ih =>
    rw [hitsFrom, List.mem_append] at hmem
    rcases hmem with hnow | hrest
    · simp only [hitAt, Option.mem_toList, Option.map_eq_some_iff] at hnow
      obtain ⟨e, -, rfl⟩ := hnow
      rfl
    · exact ih hrest

theorem length_hitsFrom_le (tick : Nat) (s : ChannelState) (xs : List UInt16) :
    (hitsFrom rule d channel tick s xs).length ≤ xs.length := by
  induction xs generalizing tick s with
  | nil => exact Nat.le_refl 0
  | cons x xs ih =>
    have hnow : (hitAt rule d channel tick s x).toList.length ≤ 1 := by
      cases hitAt rule d channel tick s x <;> simp
    have hlater := ih (tick + 1) (s.advance rule d x)
    rw [hitsFrom, List.length_append, List.length_cons]
    omega

/-- A history keeps the shape of the delay line. -/
theorem fits_after {taps : Nat} {s : ChannelState} (h : s.line.Fits taps) (xs : List UInt16) :
    (s.after rule d xs).line.Fits taps := by
  induction xs generalizing s with
  | nil => exact h
  | cons x xs ih => exact ih (h.push _)

end ChannelState

namespace ChannelWalk

theorem run_eq (d : Detector) (channel : Nat) (w : ChannelWalk) (xs : List UInt16) :
    w.run d channel xs =
      { state := w.state.after (Tracker.observe d.stepLimit) d xs
        tick := w.tick + xs.length
        hits := w.hits ++ (ChannelState.hitsFrom (Tracker.observe d.stepLimit) d channel w.tick
          w.state xs).toArray } := by
  induction xs generalizing w with
  | nil => simp [run, ChannelState.hitsFrom]
  | cons x xs ih =>
    have hstep : w.step d channel x =
        { state := w.state.advance (Tracker.observe d.stepLimit) d x
          tick := w.tick + 1
          hits := w.hits ++ (ChannelState.hitAt (Tracker.observe d.stepLimit) d channel w.tick
            w.state x).toList.toArray } := by
      rw [step, ChannelState.step_eq_stepBy]
      generalize hclosed : w.state.stepBy (Tracker.observe d.stepLimit) d x.toNat = next
      obtain ⟨state, closed⟩ := next
      cases closed <;> simp [ChannelState.advance, ChannelState.hitAt, Excursion.hit, hclosed]
    rw [run, List.foldl_cons, ← run, ih, hstep]
    simp only [ChannelState.after_cons, ChannelState.hitsFrom, List.length_cons,
      ← List.append_toArray, Array.append_assoc, Nat.add_assoc, Nat.add_comm 1]

end ChannelWalk

end TpcTrigger
