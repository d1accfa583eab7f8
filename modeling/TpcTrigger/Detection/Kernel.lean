import TpcTrigger.Detection.Lockstep

/-! # Kernels

A kernel is any way to find hits in a window.  The two that are built in give the same
answers; others may refuse a call or crash in the middle of one, and then the states they
leave count while the hits are dropped by the caller.
-/

namespace TpcTrigger

inductive KernelKind where
  | channelwise
  | lockstep
deriving Repr, DecidableEq, Inhabited

inductive KernelFault where
  | refused (cause : KernelError)
  | crashed
deriving Repr, DecidableEq, Inhabited

/-- What a kernel call leaves behind. -/
structure KernelOutcome where
  states : Array ChannelState
  hits : Array Hit
  fault : Option KernelFault
deriving Repr, DecidableEq, Inhabited

/-- A way to find hits in a window. -/
structure Kernel where
  name : String
  /-- Runs on a range of registers with their states, adding to the hits already found. -/
  run : DetectorParams → RegisterRange → Window → Array ChannelState → Array Hit → KernelOutcome

namespace KernelKind

def name : KernelKind → String
  | channelwise => "scalar"
  | lockstep => "vector"

def process (kind : KernelKind) (p : DetectorParams) (registers : RegisterRange)
    (window : Window) (states : Array ChannelState) (hits : Array Hit) :
    Except KernelError Detections :=
  match kind with
  | channelwise => Channelwise.process p registers window states hits
  | lockstep => Lockstep.process p registers window states hits

/-- A built-in kernel; a refused call leaves states and hits as they were. -/
def kernel (kind : KernelKind) : Kernel where
  name := kind.name
  run p registers window states hits :=
    match kind.process p registers window states hits with
    | .ok found => ⟨found.states, found.hits, none⟩
    | .error cause => ⟨states, hits, some (.refused cause)⟩

end KernelKind

namespace Kernel

/-- The kernel that works like another one and then fails on the windows of one number. -/
def failingOn (k : Kernel) (sequence : UInt64) (fault : KernelFault) : Kernel where
  name := "faulty"
  run p registers window states hits :=
    let outcome := k.run p registers window states hits
    if window.sequence = sequence then { outcome with fault := some fault } else outcome

end Kernel

end TpcTrigger
