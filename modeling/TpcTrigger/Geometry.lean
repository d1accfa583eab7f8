/-! # Readout geometry

The fixed sizes of the wire format, of the register layout of decoded samples, and the
limits that a configuration must respect.  A frame holds one tick of every channel of a
link; twelve frames make a superchunk; sixteen channels make a register.
-/

namespace TpcTrigger

abbrev headerBytes : Nat := 16

abbrev blocksPerFrame : Nat := 4

abbrev blockHeaderBytes : Nat := 16

abbrev blockSampleBytes : Nat := 96

abbrev blockBytes : Nat := blockHeaderBytes + blockSampleBytes

abbrev channelsPerBlock : Nat := 64

abbrev sampleBits : Nat := 12

abbrev maxSample : Nat := 4095

abbrev frameBytes : Nat := headerBytes + blocksPerFrame * blockBytes

/-- The byte that opens a new header. -/
abbrev frameMarker : Nat := 0x3C

/-- The format version written into a new header. -/
abbrev frameVersion : Nat := 1

abbrev channelCount : Nat := blocksPerFrame * channelsPerBlock

abbrev clocksPerTick : Nat := 25

abbrev superchunkTicks : Nat := 12

abbrev superchunkBytes : Nat := frameBytes * superchunkTicks

abbrev superchunkClocks : Nat := superchunkTicks * clocksPerTick

abbrev lanesPerRegister : Nat := 16

abbrev registerCount : Nat := channelCount / lanesPerRegister

abbrev superchunkSamples : Nat := channelCount * superchunkTicks

abbrev maxWindowTicks : Nat := 1024 * superchunkTicks

abbrev maxTapCount : Nat := 1024

theorem frameBytes_eq : frameBytes = 464 := rfl

theorem superchunkBytes_eq : superchunkBytes = 5568 := rfl

theorem lanesPerRegister_eq : lanesPerRegister = 16 := rfl

theorem registerCount_eq : registerCount = 16 := rfl

theorem channelCount_eq : channelCount = 256 := rfl

theorem channelCount_eq_registers : channelCount = registerCount * lanesPerRegister := rfl

end TpcTrigger
