import TpcTrigger.Word

/-! # Delay lines

A delay line keeps the last samples of a channel in a ring.  The phase is the slot written
next, which is also the slot of the oldest entry, so entry `k` counts from the oldest.
-/

namespace TpcTrigger

/-- The last samples of a channel and the slot that the next one takes. -/
structure DelayLine where
  cells : Array Int
  phase : Nat
deriving Repr, DecidableEq, Inhabited

namespace DelayLine

def zeros (n : Nat) : DelayLine := ⟨.replicate n 0, 0⟩

def entry (line : DelayLine) (k : Nat) : Int :=
  line.cells.getD ((k + line.phase) % line.cells.size) 0

/-- Replaces the oldest entry by a new youngest one. -/
def push (line : DelayLine) (sample : Int) : DelayLine where
  cells := line.cells.setIfInBounds line.phase sample
  phase := (line.phase + 1) % line.cells.size

/-- The line of `n` slots at a phase below `n` that holds the given entries, oldest first. -/
def ofEntries (n phase : Nat) (entry : Nat → Int) : DelayLine where
  cells := .ofFn fun slot : Fin n => entry ((slot + (n - phase)) % n)
  phase

/-- The filter output: the taps laid over the entries, oldest first.  Every product and every sum
is a word. -/
def output (taps : Array Int) (line : DelayLine) : Int :=
  taps.size.fold (fun i _ sum => wrap (sum + wrap (taps.getD i 0 * line.entry i))) 0

def Fits (line : DelayLine) (taps : Nat) : Prop := line.cells.size = taps ∧ line.phase < taps

instance (line : DelayLine) (taps : Nat) : Decidable (line.Fits taps) :=
  inferInstanceAs (Decidable (_ ∧ _))

@[simp] theorem cells_size_zeros (n : Nat) : (zeros n).cells.size = n := by simp [zeros]

@[simp] theorem cells_size_push (line : DelayLine) (sample : Int) :
    (line.push sample).cells.size = line.cells.size := by
  simp [push]

theorem Fits.push {line : DelayLine} {taps : Nat} (h : line.Fits taps) (sample : Int) :
    (line.push sample).Fits taps := by
  refine ⟨by simpa using h.1, ?_⟩
  have pos : 0 < line.cells.size := by
    have := h.1
    have := h.2
    omega
  simpa [DelayLine.push, h.1] using Nat.mod_lt (line.phase + 1) (h.1 ▸ pos)

end DelayLine

end TpcTrigger
