import TpcTrigger.Superchunk

/-! # Windows and their assembly

Superchunks are gathered, in order of arrival, into windows of a fixed number of superchunks.
A window is stamped with the time and link of its first superchunk and numbered in order of
completion.
-/

namespace TpcTrigger

/-- A contiguous run of ticks of every channel. -/
structure Window where
  /-- Position among the windows of a stream, from zero. -/
  sequence : UInt64
  timestamp : UInt64
  link : Link
  ticks : Nat
  block : SampleBlock ticks
deriving Repr, DecidableEq

namespace Window

/-- The window whose channels hold the given samples.

The first channel sets the number of ticks; the others are cut to it or filled up with zeros,
and channels that are not given are all zero. -/
def ofChannels (sequence timestamp : UInt64) (channels : Array (Array UInt16)) : Window :=
  let ticks := (channels[0]?.map Array.size).getD 0
  { sequence, timestamp, link := .zero, ticks
    block := .ofFn ticks fun channel tick => ((channels[channel]?.bind (·[tick]?)).getD 0) }

def sample? (w : Window) (channel tick : Nat) : Option UInt16 := w.block.sample? channel tick

def lanes? (w : Window) (register tick : Nat) : Option (Vector UInt16 lanesPerRegister) :=
  w.block.lanes? register tick

end Window

structure Assembly where
  /-- Superchunks that make up one window. -/
  perWindow : Nat
  /-- The number that the next window gets. -/
  nextSequence : UInt64 := 0
  gathered : Array Superchunk := #[]
deriving Repr

namespace Assembly

/-- Whether a superchunk fits at all: a window of no superchunks has no room for one. -/
def hasRoom (a : Assembly) : Bool := 0 < a.perWindow

def pending (a : Assembly) : Nat := a.gathered.size

def finish (sequence : UInt64) (chunks : Array Superchunk) : Window :=
  let ticks := chunks.size * superchunkTicks
  { sequence
    timestamp := (chunks[0]?.map (·.timestamp)).getD 0
    link := (chunks[0]?.map (·.header.link)).getD .zero
    ticks
    block := .ofFn ticks fun channel tick =>
      ((chunks[tick / superchunkTicks]?.map
        fun chunk => chunk.block.sample channel (tick % superchunkTicks)).getD 0) }

def push (a : Assembly) (chunk : Superchunk) : Assembly × Option Window :=
  let gathered := a.gathered.push chunk
  if gathered.size < a.perWindow then ({ a with gathered }, none)
  else
    ({ a with nextSequence := a.nextSequence + 1, gathered := #[] },
      some (finish a.nextSequence gathered))

end Assembly

end TpcTrigger
