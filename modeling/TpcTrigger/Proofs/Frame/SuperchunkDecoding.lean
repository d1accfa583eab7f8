import TpcTrigger.Proofs.Frame.RoundTrip
import TpcTrigger.Proofs.Samples.BlockLayout
import TpcTrigger.Proofs.Samples.WindowSequence

/-! # Superchunks frame by frame

A superchunk is cut into its twelve frames, and each of them is a frame in its own right.  The
samples of a superchunk are those that its frames decode to, put in register order, and a
superchunk that is built from a function of channel and tick gives that function back.
-/

namespace TpcTrigger

namespace Frame

def packedSamples (bytes : ByteArray) (block : Nat) : ByteArray :=
  bytes.extract (blockOffset block) (blockOffset block + blockSampleBytes)

theorem sampleIn_eq_packed (bytes : ByteArray) {channel : Nat} (hchannel : channel < channelCount) :
    sampleIn bytes 0 channel =
      bitField (packedSamples bytes (channel / channelsPerBlock))
        (sampleBits * (channel % channelsPerBlock)) sampleBits := by
  have hlane : channel % channelsPerBlock < channelsPerBlock := Nat.mod_lt _ (by decide)
  have hroom : sampleBits * (channel % channelsPerBlock) + sampleBits ≤ 8 * blockSampleBytes := by
    simp only [sampleBits, channelsPerBlock, blockSampleBytes] at hlane ⊢
    omega
  rw [sampleIn_eq_bitField bytes 0 hchannel, Nat.zero_add, packedSamples, bitField_extract]
  omega

/-- A frame that stands somewhere in a buffer has the samples of the frame cut out there. -/
theorem sampleIn_extract (bytes : ByteArray) (base : Nat) {channel : Nat}
    (hchannel : channel < channelCount) :
    sampleIn (bytes.extract base (base + frameBytes)) 0 channel = sampleIn bytes base channel := by
  have hblock : channel / channelsPerBlock < blocksPerFrame := Nat.div_lt_of_lt_mul hchannel
  have hlane : channel % channelsPerBlock < channelsPerBlock := Nat.mod_lt _ (by decide)
  have hroom : 8 * blockOffset (channel / channelsPerBlock) +
      sampleBits * (channel % channelsPerBlock) + sampleBits ≤ 8 * frameBytes := by
    simp only [blockOffset, frameBytes, blocksPerFrame, blockBytes, headerBytes, blockHeaderBytes,
      blockSampleBytes, sampleBits, channelsPerBlock] at hblock hlane ⊢
    omega
  rw [sampleIn_eq_bitField _ 0 hchannel, sampleIn_eq_bitField _ base hchannel, Nat.zero_add,
    bitField_extract bytes (by omega), Nat.mul_add, Nat.add_assoc]

theorem samples_ofBytes (bytes : ByteArray) {channel : Nat} (hchannel : channel < channelCount) :
    (ofBytes bytes).samples[channel] = UInt16.ofNat (sampleIn bytes 0 channel) := by
  simp only [ofBytes, Vector.getElem_ofFn]

end Frame

namespace Superchunk

def frameSlice (bytes : ByteArray) (tick : Nat) : ByteArray :=
  bytes.extract (tick * frameBytes) (tick * frameBytes + frameBytes)

theorem frameSlice_size {bytes : ByteArray} (hsize : bytes.size = superchunkBytes) {tick : Nat}
    (htick : tick < superchunkTicks) : (frameSlice bytes tick).size = frameBytes := by
  rw [frameSlice, ByteArray.size_extract, hsize]
  simp only [superchunkBytes_eq, superchunkTicks, frameBytes_eq] at htick ⊢
  omega

theorem decode_frameSlice {bytes : ByteArray} (hsize : bytes.size = superchunkBytes) {tick : Nat}
    (htick : tick < superchunkTicks) :
    Frame.decode (frameSlice bytes tick) = .ok (.ofBytes (frameSlice bytes tick)) :=
  Frame.decode_eq (frameSlice_size hsize htick)

theorem sample?_blockOfBytes (bytes : ByteArray) {channel tick : Nat}
    (hchannel : channel < channelCount) (htick : tick < superchunkTicks) :
    (blockOfBytes bytes).sample? channel tick =
      some (Frame.ofBytes (frameSlice bytes tick)).samples[channel] := by
  rw [SampleBlock.sample?_eq _ hchannel htick, blockOfBytes,
    SampleBlock.sample_ofFn _ hchannel htick, Frame.samples_ofBytes _ hchannel, frameSlice,
    Frame.sampleIn_extract bytes _ hchannel]

theorem header_frameSlice (bytes : ByteArray) :
    Header.ofBytes (frameSlice bytes 0) = Header.ofBytes bytes := by
  have hbyte (i : Nat) (hi : i < headerBytes) : byteAt (frameSlice bytes 0) i = byteAt bytes i := by
    rw [frameSlice, byteAt_extract bytes, Nat.zero_mul, Nat.zero_add]
    simp only [headerBytes, frameBytes] at hi ⊢
    omega
  have htimestamp : Header.timestampAt (frameSlice bytes 0) 8 = Header.timestampAt bytes 8 := by
    apply List.foldr_ext
    intro k hk rest
    have hk8 := List.mem_range.mp hk
    rw [hbyte (8 + k) (by simp only [headerBytes]; omega)]
  simp only [Header.ofBytes, htimestamp, hbyte 0 (by decide), hbyte 1 (by decide),
    hbyte 2 (by decide), hbyte 4 (by decide), hbyte 6 (by decide), hbyte 7 (by decide)]

theorem frameSlice_encode (link : Link) (timestamp : UInt64) (sample : Nat → Nat → UInt16)
    {tick : Nat} (htick : tick < superchunkTicks) :
    frameSlice (encode link timestamp sample) tick =
      (frameAt link timestamp sample tick).encode := by
  have hsize := frameSlice_size (encode_size link timestamp sample) htick
  apply ext_byteAt
  · rw [hsize, Frame.encode_size]
  intro i hi
  rw [hsize] at hi
  have hplace : tick * frameBytes + i < superchunkBytes := by
    simp only [superchunkBytes_eq, superchunkTicks, frameBytes_eq] at htick hi ⊢
    omega
  obtain ⟨hframe, hbyte⟩ :
      (tick * frameBytes + i) / frameBytes = tick ∧ (tick * frameBytes + i) % frameBytes = i :=
    (Nat.div_mod_unique (by decide)).mpr ⟨by rw [Nat.add_comm, Nat.mul_comm], hi⟩
  have hwithin : tick * frameBytes + i < tick * frameBytes + frameBytes :=
    Nat.add_lt_add_left hi _
  rw [Frame.byteAt_encode _ hi, frameSlice, byteAt_extract _ hwithin, encode,
    byteAt_bytesOfFn _ hplace]
  simp only [hframe, hbyte, Vector.getElem?_eq_getElem htick, Vector.getElem_ofFn]
  exact Nat.mod_eq_of_lt (Frame.byte_lt _ _)

theorem toNat_timestamp_frameAt (link : Link) {timestamp : UInt64} (sample : Nat → Nat → UInt16)
    {tick : Nat} (htick : tick < superchunkTicks) (htime : timestamp.toNat + 275 < 2 ^ 64) :
    (frameAt link timestamp sample tick).header.timestamp.toNat =
      timestamp.toNat + clocksPerTick * tick := by
  have hlate : tick * clocksPerTick ≤ 275 := by
    simp only [superchunkTicks, clocksPerTick] at htick ⊢
    omega
  rw [Nat.mul_comm clocksPerTick]
  simp only [frameAt, Header.start, UInt64.toNat_add, UInt64.toNat_ofNat']
  omega

/-- A sample that is decoded is the one that was encoded, cut to the bits that are sent. -/
theorem sample?_encode (link : Link) (timestamp : UInt64) (sample : Nat → Nat → UInt16)
    {channel tick : Nat} (hchannel : channel < channelCount) (htick : tick < superchunkTicks) :
    (blockOfBytes (encode link timestamp sample)).sample? channel tick =
      some (sample channel tick &&& 0xFFF) := by
  rw [sample?_blockOfBytes _ hchannel htick, frameSlice_encode link timestamp sample htick,
    Frame.ofBytes_encode]
  simp only [Frame.cut, frameAt, Vector.getElem_map, Vector.getElem_ofFn]

/-- A superchunk decodes to the samples of its frames and the header of the first, and one that is
built from a function of channel and tick decodes to that function, cut to the bits of a sample. -/
theorem decode_frame_by_frame :
    (∀ bytes : ByteArray, bytes.size = superchunkBytes →
      ∃ chunk first, decode bytes = .ok chunk ∧ Frame.decode (frameSlice bytes 0) = .ok first ∧
        chunk.header = first.header ∧
        ∀ channel < channelCount, ∀ tick < superchunkTicks, ∃ frame sample,
          Frame.decode (frameSlice bytes tick) = .ok frame ∧
          frame.samples[channel]? = some sample ∧ chunk.block.sample? channel tick = some sample ∧
          sample.toNat =
            bitField (Frame.packedSamples (frameSlice bytes tick) (channel / channelsPerBlock))
              (sampleBits * (channel % channelsPerBlock)) sampleBits) ∧
      ∀ (link : Link) (timestamp : UInt64) (f : Nat → Nat → UInt16),
        timestamp.toNat + 275 < 2 ^ 64 →
          ∃ chunk, decode (encode link timestamp f) = .ok chunk ∧
            ∀ tick < superchunkTicks,
              (∀ channel < channelCount,
                chunk.block.sample? channel tick = some (f channel tick &&& 0xFFF)) ∧
              ∃ frame, Frame.decode (frameSlice (encode link timestamp f) tick) = .ok frame ∧
                frame.header.timestamp.toNat = timestamp.toNat + clocksPerTick * tick := by
  constructor
  · intro bytes hsize
    refine ⟨ofBytes bytes, .ofBytes (frameSlice bytes 0), decode_eq (checkSize_eq_ok_iff.mpr hsize),
      decode_frameSlice hsize (by decide), (header_frameSlice bytes).symm, ?_⟩
    intro channel hchannel tick htick
    refine ⟨.ofBytes (frameSlice bytes tick), _, decode_frameSlice hsize htick,
      Vector.getElem?_eq_getElem hchannel, sample?_blockOfBytes bytes hchannel htick, ?_⟩
    have hlt := Frame.sampleIn_lt (frameSlice bytes tick) 0 channel
    rw [Frame.samples_ofBytes _ hchannel, UInt16.toNat_ofNat', Nat.mod_eq_of_lt (by omega),
      Frame.sampleIn_eq_packed _ hchannel]
  · intro link timestamp f htime
    have hsize := encode_size link timestamp f
    refine ⟨ofBytes (encode link timestamp f), decode_eq (checkSize_eq_ok_iff.mpr hsize), ?_⟩
    intro tick htick
    refine ⟨fun channel hchannel => sample?_encode link timestamp f hchannel htick, _,
      decode_frameSlice hsize htick, ?_⟩
    rw [frameSlice_encode link timestamp f htick, Frame.ofBytes_encode]
    exact toNat_timestamp_frameAt link f htick htime

/-- A ramp over channels and ticks that leaves the range of a sample: what is decoded at its last
place, and which bits of the buffer that is. -/
theorem decode_frame_by_frame_ramp :
    let ramp := encode ⟨1, 2, 1⟩ 500 fun channel tick => UInt16.ofNat (channel * 16 + tick * 7)
    ∃ chunk frame, decode ramp = .ok chunk ∧ chunk.block.sample? 255 11 = some 61 ∧
      bitField (Frame.packedSamples (frameSlice ramp 11) 3) 756 12 = 61 ∧
      Frame.decode (frameSlice ramp 11) = .ok frame ∧ frame.header.timestamp.toNat = 775 := by
  intro ramp
  obtain ⟨chunk, -, hdecode, -, -, hframes⟩ := decode_frame_by_frame.1 ramp (encode_size ..)
  obtain ⟨-, sample, -, -, hsample, hbits⟩ := hframes 255 (by decide) 11 (by decide)
  obtain ⟨built, hbuilt, hticks⟩ := decode_frame_by_frame.2 ⟨1, 2, 1⟩ 500
    (fun channel tick => UInt16.ofNat (channel * 16 + tick * 7)) (by decide)
  obtain ⟨hsamples, frame, hframe, htime⟩ := hticks 11 (by decide)
  obtain rfl : chunk = built := Except.ok.inj (hdecode.symm.trans hbuilt)
  have hlast : chunk.block.sample? 255 11 = some 61 := hsamples 255 (by decide)
  obtain rfl : sample = 61 := Option.some.inj (hsample.symm.trans hlast)
  exact ⟨chunk, frame, hdecode, hlast, hbits.symm, hframe, htime⟩

end Superchunk

end TpcTrigger
