import TpcTrigger.Detection.Channel

/-! # Shapes of kernel calls

A kernel is given a range of registers, one state for each of their channels and the settings
of the filter.  The range is checked first, then the number of states, then every state's
delay line in channel order.
-/

namespace TpcTrigger

/-- A range of registers: `first` belongs to it and `last` does not. -/
structure RegisterRange where
  first : Nat
  last : Nat
deriving Repr, DecidableEq, Inhabited

namespace RegisterRange

/-- Number of registers; a range that ends before it starts has none. -/
def count (r : RegisterRange) : Nat := r.last - r.first

def channels (r : RegisterRange) : Nat := r.count * lanesPerRegister

def firstChannel (r : RegisterRange) : Nat := r.first * lanesPerRegister

def all : RegisterRange := ⟨0, registerCount⟩

end RegisterRange

inductive KernelError where
  /-- The number of states is not sixteen for every register. -/
  | stateCount (found registers : Nat)
  /-- The range is turned round or leaves the frame. -/
  | registerRange (first last : Nat)
  /-- The delay line of a channel has the wrong length or its phase lies outside. -/
  | delayLine (channel found expected : Nat)
deriving Repr, DecidableEq, Inhabited

namespace KernelError

def message : KernelError → String
  | stateCount found registers =>
      s!"Kernel was given {found} channel states for {registers} registers; " ++
        s!"expected {registers * lanesPerRegister}"
  | registerRange first last =>
      s!"Kernel was given registers {first}..{last} outside of the window"
  | delayLine channel found expected =>
      s!"Channel {channel} has a delay line of length {found}; expected {expected}"

end KernelError

def DetectorParams.freshStates (p : DetectorParams) (registers : Nat) : Array ChannelState :=
  .replicate (registers * lanesPerRegister) (.fresh p.filter.length)

/-- Accepts a call whose registers, states and delay lines line up. -/
def checkShape (registers : RegisterRange) (states : Array ChannelState) (p : DetectorParams) :
    Except KernelError Unit :=
  if registers.last < registers.first ∨ registerCount < registers.last then
    .error (.registerRange registers.first registers.last)
  else if states.size ≠ registers.channels then
    .error (.stateCount states.size registers.count)
  else
    match states.zipIdx.find? fun (s, _) => ¬ s.line.Fits p.filter.length with
    | some (s, i) =>
        .error (.delayLine (registers.firstChannel + i) s.line.cells.size p.filter.length)
    | none => .ok ()

end TpcTrigger
