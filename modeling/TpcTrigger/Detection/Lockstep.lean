import TpcTrigger.Detection.Channelwise
import TpcTrigger.Detection.Lanes

/-! # The lockstep kernel

The sixteen channels of a register move through the window together, one tick at a time, with
masks in place of branches.  Their delay lines share one ring and one phase; the phase of
each lane's own line is applied when the register is loaded and stored.  Hits are gathered
lane by lane and joined at the end of each register, so they come out in the same order as
from the channelwise kernel.
-/

namespace TpcTrigger

structure TrackerLanes where
  estimate : Lanes Int
  balance : Lanes Int
deriving Repr, DecidableEq

namespace TrackerLanes

def gather (states : Lanes ChannelState) (tracker : Baseline → Tracker) : TrackerLanes where
  estimate := states.map fun s => (tracker s.baseline).estimate
  balance := states.map fun s => (tracker s.baseline).balance

/-- Takes in one sample in every active lane.

Upward and downward steps are both decided by the balance after the count. -/
def observe (limit : Int) (t : TrackerLanes) (active : Mask) (sample : Lanes Int) :
    TrackerLanes :=
  let balance := (t.balance.increment (active.both (t.estimate.less sample))).decrement
    (active.both (sample.less t.estimate))
  let up := active.both (balance.atLeast (.splat limit))
  let down := active.both ((Lanes.splat (-limit)).atLeast balance)
  { estimate := (t.estimate.increment up).decrement down
    balance := balance.replace (up.either down) (.splat 0) }

def lane (t : TrackerLanes) (l : Fin lanesPerRegister) : Tracker :=
  ⟨t.estimate.get l, t.balance.get l⟩

end TrackerLanes

/-- The states of a register's sixteen channels, loaded into lanes. -/
structure RegisterState where
  median : TrackerLanes
  lower : TrackerLanes
  upper : TrackerLanes
  /-- The delay lines, slot by slot. -/
  ring : Array (Lanes Int)
  /-- The slot of the ring that is written next. -/
  phase : Nat
  isOpen : Mask
  charge : Lanes Int
  ticks : Lanes Int
deriving Repr, DecidableEq

namespace RegisterState

/-- Loads sixteen channels, each delay line turned so that its oldest entry comes first. -/
def load (taps : Nat) (states : Lanes ChannelState) : RegisterState where
  median := .gather states (·.median)
  lower := .gather states (·.lower)
  upper := .gather states (·.upper)
  ring := .ofFn fun k : Fin taps => states.map fun s => s.line.entry k
  phase := 0
  isOpen := .ofBools (states.map (·.excursion.isOpen))
  charge := states.map (·.excursion.charge)
  ticks := states.map (·.excursion.ticks)

def entry (r : RegisterState) (k : Nat) : Lanes Int :=
  r.ring.getD ((k + r.phase) % r.ring.size) (.splat 0)

def output (taps : Array Int) (r : RegisterState) : Lanes Int :=
  taps.size.fold (fun i _ sum => sum.add ((r.entry i).scaleBy (taps.getD i 0))) (.splat 0)

/-- Takes in one sample in every lane, and hands out the lanes whose excursion ends together
with their charges and lengths. -/
def step (d : Detector) (r : RegisterState) (sample : Lanes Int) :
    RegisterState × Lanes (Option Excursion) :=
  let median := r.median.observe d.stepLimit .full sample
  let lower := r.lower.observe d.stepLimit (sample.less median.estimate) sample
  let upper := r.upper.observe d.stepLimit (median.estimate.less sample) sample
  let output := r.output d.taps
  let spread := upper.estimate.sub lower.estimate
  let above := Lanes.less (spread.map d.threshold) output
  let charge := r.charge.replace above (r.charge.zipWith saturatingAdd (output.map d.height))
  let ticks := r.ticks.tally above
  let falling := r.isOpen.both above.invert
  ({ median, lower, upper
     ring := r.ring.setIfInBounds r.phase ((sample.sub median.estimate).atMost d.ceiling)
     phase := (r.phase + 1) % r.ring.size
     isOpen := above
     charge := charge.replace falling (.splat 0)
     ticks := ticks.replace falling (.splat 0) },
    .ofFn fun l => if falling.test l then some ⟨true, charge.get l, ticks.get l⟩ else none)

/-- Stores one lane, its delay line turned to the phase that its own walk would have reached. -/
def store (r : RegisterState) (walked : Nat) (l : Fin lanesPerRegister) (s : ChannelState) :
    ChannelState where
  baseline := ⟨r.median.lane l, r.lower.lane l, r.upper.lane l⟩
  line := .ofEntries r.ring.size ((s.line.phase + walked) % r.ring.size)
    fun k => (r.entry k).get l
  excursion := ⟨r.isOpen.test l, r.charge.get l, r.ticks.get l⟩

end RegisterState

/-- A register on its way through a window. -/
structure RegisterWalk where
  state : RegisterState
  /-- The tick that comes next. -/
  tick : Nat
  hits : Lanes (Array Hit)
deriving Repr, DecidableEq

namespace RegisterWalk

/-- Walks over the samples of one tick; lanes whose excursion ends get a hit. -/
def step (d : Detector) (firstChannel : Nat) (w : RegisterWalk) (sample : Lanes UInt16) :
    RegisterWalk :=
  let (state, closed) := w.state.step d (sample.map fun x => Int.ofNat x.toNat)
  { state
    tick := w.tick + 1
    hits :=
      if closed.any Option.isSome then
        .ofFn fun l => match closed.get l with
          | some e => (w.hits.get l).push ⟨firstChannel + l, w.tick, e.charge, e.ticks⟩
          | none => w.hits.get l
      else w.hits }

end RegisterWalk

namespace Lockstep

def registerSamples (window : Window) (register : Nat) : List (Lanes UInt16) :=
  (List.range window.ticks).map fun tick => (window.lanes? register tick).getD (Lanes.splat 0)

def walk (d : Detector) (window : Window) (register : Nat) (states : Lanes ChannelState) :
    RegisterWalk :=
  (registerSamples window register).foldl
    (RegisterWalk.step d (register * lanesPerRegister))
    ⟨.load d.taps.size states, 0, .splat #[]⟩

def next (d : Detector) (window : Window) (registers : RegisterRange)
    (states : Array ChannelState) (done : Detections) (i : Nat) : Detections :=
  let loaded : Lanes ChannelState := .ofFn fun l => states.getD (i * lanesPerRegister + l) default
  let w := walk d window (registers.first + i) loaded
  let stored : Lanes ChannelState := .ofFn fun l => w.state.store window.ticks l (loaded.get l)
  ⟨done.states ++ stored.toArray, w.hits.foldl (· ++ ·) done.hits⟩

/-- Finds the hits of a range of registers and adds them to those already found. -/
def process (p : DetectorParams) (registers : RegisterRange) (window : Window)
    (states : Array ChannelState) (hits : Array Hit) : Except KernelError Detections :=
  (checkShape registers states p).map fun () =>
    (List.range registers.count).foldl (next p.detector window registers states) ⟨#[], hits⟩

end Lockstep

end TpcTrigger
