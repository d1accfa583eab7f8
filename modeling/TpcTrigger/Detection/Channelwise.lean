import TpcTrigger.Detection.Shape
import TpcTrigger.Samples.Window

/-! # The channelwise kernel

The reference way to find hits: one channel after the other walks through the whole window,
so hits come out ordered by channel and then by time.
-/

namespace TpcTrigger

/-- The states that a kernel leaves and the hits gathered so far. -/
structure Detections where
  states : Array ChannelState
  hits : Array Hit
deriving Repr, DecidableEq, Inhabited

namespace Channelwise

def walk (d : Detector) (window : Window) (channel : Nat) (s : ChannelState) (hits : Array Hit) :
    ChannelWalk :=
  ChannelWalk.run d channel ⟨s, 0, hits⟩ (window.block.channelSamples channel)

def next (d : Detector) (window : Window) (firstChannel : Nat) (done : Detections)
    (s : ChannelState) : Detections :=
  let w := walk d window (firstChannel + done.states.size) s done.hits
  ⟨done.states.push w.state, w.hits⟩

/-- Finds the hits of a range of registers and adds them to those already found. -/
def process (p : DetectorParams) (registers : RegisterRange) (window : Window)
    (states : Array ChannelState) (hits : Array Hit) : Except KernelError Detections :=
  (checkShape registers states p).map fun () =>
    states.foldl (next p.detector window registers.firstChannel) ⟨#[], hits⟩

end Channelwise

end TpcTrigger
