import TpcTrigger.Frame.Header

/-! # Frames on the wire

Behind its header a frame carries four data blocks.  Each block opens with sixteen bytes
that are not interpreted and written as zeros; then its 64 samples follow as one stream of
12-bit fields, low bits first.  Two samples share three bytes, so the sample of an even
channel starts on a byte and that of an odd channel half way through one.
-/

namespace TpcTrigger

/-- One tick of every channel of a link. -/
structure Frame where
  header : Header
  samples : Vector UInt16 channelCount
deriving Repr, DecidableEq

namespace Frame

/-- Where the packed samples of a block start within a frame. -/
def blockOffset (block : Nat) : Nat := headerBytes + block * blockBytes + blockHeaderBytes

/-- The sample of a channel in the frame that starts at index `base` of a buffer. -/
def sampleIn (bytes : ByteArray) (base channel : Nat) : Nat :=
  let lane := channel % channelsPerBlock
  let start := base + blockOffset (channel / channelsPerBlock) + lane / 2 * 3
  if lane % 2 = 0 then
    byteAt bytes start + 256 * (byteAt bytes (start + 1) % 16)
  else
    byteAt bytes (start + 1) / 16 + 16 * byteAt bytes (start + 2)

def sentSample (frame : Frame) (channel : Nat) : Nat :=
  (frame.samples[channel]?.getD 0).toNat % (maxSample + 1)

def packedByte (frame : Frame) (block i : Nat) : Nat :=
  let even := frame.sentSample (block * channelsPerBlock + i / 3 * 2)
  let odd := frame.sentSample (block * channelsPerBlock + i / 3 * 2 + 1)
  match i % 3 with
  | 0 => even % 256
  | 1 => even / 256 + 16 * (odd % 16)
  | _ => odd / 16

def byte (frame : Frame) (i : Nat) : Nat :=
  if i < headerBytes then frame.header.byte i
  else
    let block := (i - headerBytes) / blockBytes
    let place := (i - headerBytes) % blockBytes
    if place < blockHeaderBytes then 0 else frame.packedByte block (place - blockHeaderBytes)

def encode (frame : Frame) : ByteArray := bytesOfFn frameBytes frame.byte

@[simp] theorem encode_size (frame : Frame) : frame.encode.size = frameBytes :=
  bytesOfFn_size _ _

/-- Fills a buffer of exactly one frame with the frame's bytes, whatever it held before. -/
def encodeInto (frame : Frame) (buffer : ByteArray) : Except FrameError ByteArray :=
  if buffer.size = frameBytes then .ok frame.encode else .error (.frameSize buffer.size)

/-- Reads a buffer that holds exactly one frame. -/
def decode (bytes : ByteArray) : Except FrameError Frame :=
  if bytes.size = frameBytes then
    .ok ⟨.ofBytes bytes, .ofFn fun channel => UInt16.ofNat (sampleIn bytes 0 channel)⟩
  else .error (.frameSize bytes.size)

end Frame

end TpcTrigger
