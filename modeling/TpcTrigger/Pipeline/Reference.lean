import TpcTrigger.Settings.Basic
import TpcTrigger.Store
import TpcTrigger.Samples.Window

/-! # The pipeline on a single thread

What a pipeline comes to if one superchunk after the other is worked off completely before
the next is looked at: it is decoded and gathered, and a window that it completes is searched
channel by channel over all registers at once.
-/

namespace TpcTrigger

/-- Where the work on a single thread stands. -/
structure Reference where
  assembly : Assembly
  states : Array ChannelState
  store : PrimitiveStore
  /-- Windows worked off so far. -/
  windows : Nat := 0
deriving Repr

namespace Reference

def start (s : Settings) : Reference where
  assembly := { perWindow := s.superchunksPerWindow }
  states := s.detectorParams.freshStates registerCount
  store := { capacity := s.storeCapacity }

/-- The states started from the first tick of a window, channel by channel. -/
def seeded (states : Array ChannelState) (window : Window) : Array ChannelState :=
  states.mapIdx fun channel s => s.seed (window.block.sample channel 0)

/-- Works off a window; the first one also starts the baselines. -/
def search (p : DetectorParams) (r : Reference) (window : Window) : Reference :=
  let states := if r.windows = 0 then seeded r.states window else r.states
  match Channelwise.process p .all window states #[] with
  | .error _ => { r with states, windows := r.windows + 1 }
  | .ok found =>
    { r with
      states := found.states
      store := r.store.pushBatch window.timestamp found.hits
      windows := r.windows + 1 }

/-- Works off a superchunk; a buffer that is none is passed over. -/
def accept (p : DetectorParams) (r : Reference) (bytes : ByteArray) : Reference :=
  match Superchunk.decode bytes with
  | .error _ => r
  | .ok chunk =>
    match r.assembly.push chunk with
    | (assembly, none) => { r with assembly }
    | (assembly, some window) => ({ r with assembly }).search p window

def run (p : DetectorParams) (r : Reference) (superchunks : List ByteArray) : Reference :=
  superchunks.foldl (accept p) r

@[simp] theorem run_nil (p : DetectorParams) (r : Reference) : r.run p [] = r := rfl

@[simp] theorem run_cons (p : DetectorParams) (r : Reference) (bytes : ByteArray)
    (rest : List ByteArray) : r.run p (bytes :: rest) = (r.accept p bytes).run p rest := rfl

end Reference

end TpcTrigger
