import TpcTrigger.Frame.Codec
import TpcTrigger.Samples.Block

/-! # Superchunks

A superchunk is twelve consecutive frames of a link sent back to back.  Decoding keeps the
header of the first frame and all samples; the headers of the later frames are not read.
-/

namespace TpcTrigger

structure Superchunk where
  header : Header
  block : SampleBlock superchunkTicks
deriving Repr, DecidableEq

namespace Superchunk

def timestamp (chunk : Superchunk) : UInt64 := chunk.header.timestamp

/-- Accepts a buffer of exactly one superchunk, whatever its bytes. -/
def checkSize (bytes : ByteArray) : Except FrameError Unit :=
  if bytes.size = superchunkBytes then .ok () else .error (.superchunkSize bytes.size)

/-- The samples of every frame of a buffer, in register order. -/
def blockOfBytes (bytes : ByteArray) : SampleBlock superchunkTicks :=
  .ofFn superchunkTicks fun channel tick =>
    UInt16.ofNat (Frame.sampleIn bytes (tick * frameBytes) channel)

def decode (bytes : ByteArray) : Except FrameError Superchunk :=
  (checkSize bytes).map fun () => ⟨.ofBytes bytes, blockOfBytes bytes⟩

def frameAt (link : Link) (timestamp : UInt64) (sample : Nat → Nat → UInt16) (tick : Nat) :
    Frame where
  header := .start link (timestamp + UInt64.ofNat (tick * clocksPerTick))
  samples := .ofFn fun channel => sample channel tick

/-- Encodes the superchunk that starts at `timestamp` and holds `sample channel tick`. -/
def encode (link : Link) (timestamp : UInt64) (sample : Nat → Nat → UInt16) : ByteArray :=
  let frames := Vector.ofFn fun tick : Fin superchunkTicks =>
    frameAt link timestamp sample tick
  bytesOfFn superchunkBytes fun i =>
    match frames[i / frameBytes]? with
    | some frame => frame.byte (i % frameBytes)
    | none => 0

@[simp] theorem encode_size (link : Link) (timestamp : UInt64) (sample : Nat → Nat → UInt16) :
    (encode link timestamp sample).size = superchunkBytes := by
  simp only [encode, bytesOfFn_size]

end Superchunk

end TpcTrigger
