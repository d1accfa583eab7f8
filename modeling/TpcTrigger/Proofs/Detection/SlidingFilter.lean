import TpcTrigger.Proofs.Detection.HitRuns
import TpcTrigger.Proofs.Signal.SlidingEntries
import Mathlib.Data.List.DropRight

/-! # The filter slides over the stream

What a channel has in its delay line when a search starts, followed by what its samples put into
the line, is one sequence for the whole search.  Both kernels compute, at every tick, the sum of
the taps times a stretch of this sequence that ends right before the sample of the tick.  The sum is
taken in words, so it is exact wherever it is a word itself.  One of them turns the ring of each channel and the other turns a common ring and puts it back at the end
of every window, but what is left in the states is always the end of the sequence, at the phase
that the channel would have come to by itself.
-/

namespace TpcTrigger

/-- The sum of the taps times a stretch of a sequence that begins at the entry `t`. -/
def sumFrom (taps : Array Int) (entries : List Int) (t : Nat) : Int :=
  ∑ i ∈ Finset.range taps.size, taps.getD i 0 * entries.getD (t + i) 0

namespace Baseline

variable (rule : TrackerRule) (ceiling : Int)

/-- What raw samples put into a delay line: each sample less the pedestal that has taken it in, cut
at the ceiling. -/
def fed : Baseline → List UInt16 → List Int
  | _, [] => []
  | b, x :: xs =>
    let next := b.observeBy rule x.toNat
    min (wrap (x.toNat - next.pedestal)) ceiling :: fed next xs

@[simp] theorem length_fed (b : Baseline) (xs : List UInt16) :
    (b.fed rule ceiling xs).length = xs.length := by
  induction xs generalizing b with
  | nil => rfl
  | cons x xs ih => rw [fed, List.length_cons, ih, List.length_cons]

theorem fed_take (b : Baseline) (xs : List UInt16) (t : Nat) :
    b.fed rule ceiling (xs.take t) = (b.fed rule ceiling xs).take t := by
  induction xs generalizing b t with
  | nil => simp [fed]
  | cons x xs ih =>
    cases t with
    | zero => rfl
    | succ t => simp only [List.take_succ_cons, fed, ih]

end Baseline

namespace ChannelState

variable (rule : TrackerRule) (d : Detector) {s : ChannelState} (xs : List UInt16)

/-- Everything that the delay line of a channel holds in the course of a stream: what it held at
first, oldest first, and what the samples put into it. -/
def lineHistory (s : ChannelState) : List Int := s.line.entries ++ s.baseline.fed rule d.ceiling xs

theorem line_after (s : ChannelState) :
    (s.after rule d xs).line = (s.baseline.fed rule d.ceiling xs).foldl DelayLine.push s.line := by
  induction xs generalizing s with
  | nil => rfl
  | cons x xs ih =>
    rw [after_cons, ih]
    rfl

/-- The filter output is the sum of the taps times a stretch of the history, which ends right
before the sample of the tick. -/
theorem outputAt_eq_sum (h : s.line.Fits d.taps.size) {t : Nat} (ht : t ≤ xs.length) :
    outputAt rule d s xs t = wrap (sumFrom d.taps (s.lineHistory rule d xs) t) := by
  have hfed : t ≤ (s.baseline.fed rule d.ceiling xs).length := by rwa [Baseline.length_fed]
  rw [outputAt, output, DelayLine.output_eq_sum]
  refine congrArg wrap (Finset.sum_congr rfl fun i hi => ?_)
  rw [line_after, Baseline.fed_take, DelayLine.entry_pushes h _ hfed (Finset.mem_range.mp hi),
    lineHistory]

end ChannelState

def Channelwise.walkTo (d : Detector) (window : Window) (channel : Nat) (s : ChannelState)
    (tick : Nat) : ChannelWalk :=
  ChannelWalk.run d channel ⟨s, 0, #[]⟩ ((window.block.channelSamples channel).take tick)

def Lockstep.walkTo (d : Detector) (window : Window) (register : Nat) (states : Lanes ChannelState)
    (tick : Nat) : RegisterWalk :=
  ((registerSamples window register).take tick).foldl
    (RegisterWalk.step d (register * lanesPerRegister)) ⟨.load d.taps.size states, 0, .splat #[]⟩

theorem Channelwise.walkTo_ticks (d : Detector) (window : Window) (channel : Nat)
    (s : ChannelState) : walkTo d window channel s window.ticks = walk d window channel s #[] := by
  rw [walkTo, walk, List.take_of_length_le (by rw [SampleBlock.channelSamples_length])]

theorem Lockstep.walkTo_ticks (d : Detector) (window : Window) (register : Nat)
    (states : Lanes ChannelState) :
    walkTo d window register states window.ticks = walk d window register states := by
  rw [walkTo, walk, List.take_of_length_le (by simp [registerSamples])]

namespace KernelKind

variable (kind : KernelKind) (p : DetectorParams) (registers : RegisterRange)
  (states : Array ChannelState)

/-- The filter output that a kernel call computes at a tick of a window, for the channel at a place
of the call. -/
def outputAt (window : Window) (i tick : Nat) : Int :=
  match kind with
  | channelwise =>
    (Channelwise.walkTo p.detector window (registers.firstChannel + i) (states.getD i default)
      tick).state.output p.detector
  | lockstep =>
    let register := i / lanesPerRegister
    let loaded : Lanes ChannelState :=
      .ofFn fun l => states.getD (register * lanesPerRegister + l) default
    ((Lockstep.walkTo p.detector window (registers.first + register) loaded
      tick).state.output p.detector.taps).get ⟨i % lanesPerRegister, Nat.mod_lt _ (by decide)⟩

/-- The history of a channel's delay line over a stream of windows, by its place in the call. -/
def lineHistory (windows : List Window) (i : Nat) : List Int :=
  (states.getD i default).lineHistory (kind.rule p.stepLimit) p.detector
    (channelStream windows (registers.firstChannel + i))

end KernelKind

end TpcTrigger
