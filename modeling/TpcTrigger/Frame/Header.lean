import TpcTrigger.Bytes
import TpcTrigger.Geometry

/-! # Frame headers

A header is sixteen bytes.  Its first word packs the marker (8 bits), the version (5), and
the fiber (3), crate (5) and slot (3) of the link; its second word holds two flags and the
error bits; the last eight bytes are the timestamp.  All numbers are little-endian.  Fields
wider than their place are cut to it when written.
-/

namespace TpcTrigger

/-- What is wrong with a buffer that should hold a frame or a superchunk. -/
inductive FrameError where
  /-- The buffer is not exactly one superchunk long. -/
  | superchunkSize (found : Nat)
  /-- The buffer is not exactly one frame long. -/
  | frameSize (found : Nat)
  /-- The buffer ends before the header does. -/
  | headerCutShort
  /-- The header does not fit into the buffer. -/
  | headerDoesNotFit
deriving Repr, DecidableEq, Inhabited

namespace FrameError

def message : FrameError → String
  | superchunkSize n =>
      s!"Incorrect buffer size {n} found for superchunk; expected {superchunkBytes}"
  | frameSize n => s!"Incorrect buffer size {n} found for WibFrame; expected {frameBytes}"
  | headerCutShort => "Failed to parse buffer into WibFrame: failed to fill whole buffer"
  | headerDoesNotFit => "Failed to parse buffer into WibFrame: failed to write whole buffer"

end FrameError

/-- Where on the detector a frame was read out. -/
structure Link where
  crate : UInt8
  slot : UInt8
  fiber : UInt8
deriving Repr, DecidableEq, Inhabited

namespace Link

def zero : Link := ⟨0, 0, 0⟩

def describe (link : Link) : String :=
  s!"crate {link.crate} slot {link.slot} fiber {link.fiber}"

end Link

structure Header where
  marker : UInt8
  version : UInt8
  link : Link
  mismatch : Bool
  outOfSync : Bool
  errors : UInt16
  timestamp : UInt64
deriving Repr, DecidableEq, Inhabited

namespace Header

/-- The header that a frame source writes for a link at a time. -/
def start (link : Link) (timestamp : UInt64) : Header where
  marker := UInt8.ofNat frameMarker
  version := UInt8.ofNat frameVersion
  link
  mismatch := false
  outOfSync := false
  errors := 0
  timestamp

/-- Byte `i` of the written header; zero past its end. -/
def byte (h : Header) : Nat → Nat
  | 0 => h.marker.toNat
  | 1 => h.version.toNat % 32 + 32 * (h.link.fiber.toNat % 8)
  | 2 => h.link.crate.toNat % 32 + 32 * (h.link.slot.toNat % 8)
  | 3 => 0
  | 4 => h.mismatch.toNat + 2 * h.outOfSync.toNat
  | 5 => 0
  | 6 => byteOf h.errors.toNat 0
  | 7 => byteOf h.errors.toNat 1
  | i + 8 => if i < 8 then byteOf h.timestamp.toNat i else 0

/-- The little-endian number in the eight bytes from index `i` on. -/
def timestampAt (bytes : ByteArray) (i : Nat) : Nat :=
  (List.range 8).foldr (fun k n => byteAt bytes (i + k) + 256 * n) 0

/-- The header found at the front of a buffer, whatever its length. -/
def ofBytes (bytes : ByteArray) : Header where
  marker := UInt8.ofNat (byteAt bytes 0)
  version := UInt8.ofNat (byteAt bytes 1 % 32)
  link :=
    { crate := UInt8.ofNat (byteAt bytes 2 % 32)
      slot := UInt8.ofNat (byteAt bytes 2 / 32)
      fiber := UInt8.ofNat (byteAt bytes 1 / 32) }
  mismatch := byteAt bytes 4 % 2 == 1
  outOfSync := byteAt bytes 4 / 2 % 2 == 1
  errors := UInt16.ofNat (byteAt bytes 6 + 256 * byteAt bytes 7)
  timestamp := UInt64.ofNat (timestampAt bytes 8)

def read (bytes : ByteArray) : Except FrameError Header :=
  if bytes.size < headerBytes then .error .headerCutShort else .ok (ofBytes bytes)

/-- Overwrites the front of a buffer with the header; the bytes behind it stay. -/
def write (h : Header) (buffer : ByteArray) : Except FrameError ByteArray :=
  if buffer.size < headerBytes then .error .headerDoesNotFit
  else .ok (bytesOfFn buffer.size fun i => if i < headerBytes then h.byte i else byteAt buffer i)

end Header

end TpcTrigger
