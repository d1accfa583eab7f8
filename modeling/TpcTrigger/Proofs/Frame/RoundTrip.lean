import TpcTrigger.Proofs.Frame.HeaderBytes

/-! # Frames on the wire and back

Two channels of a block share three bytes, and every sample is a field of twelve bits in the
stream of its block.  Reading and writing a frame undo each other up to what is not sent: a
frame that is written and read again is cut to the widths of its fields, and a buffer that is
read and written again has its reserved bits cleared and all others as they were.
-/

namespace TpcTrigger

namespace Frame

/-- The frame with its fields and samples cut to the bits that are sent. -/
def cut (frame : Frame) : Frame where
  header := frame.header.cut
  samples := frame.samples.map (· &&& 0xFFF)

/-- Whether every field and every sample has room on the wire. -/
structure Fits (frame : Frame) : Prop where
  header : frame.header.Fits
  samples : ∀ sample ∈ frame.samples, sample.toNat ≤ maxSample

theorem sentSample_lt (frame : Frame) (channel : Nat) : frame.sentSample channel < 4096 :=
  Nat.mod_lt _ (by decide)

theorem packedByte_lt (frame : Frame) (block i : Nat) : frame.packedByte block i < 256 := by
  have heven := frame.sentSample_lt (block * channelsPerBlock + i / 3 * 2)
  have hodd := frame.sentSample_lt (block * channelsPerBlock + i / 3 * 2 + 1)
  rw [packedByte]
  split <;> omega

theorem byte_lt (frame : Frame) (i : Nat) : frame.byte i < 256 := by
  rw [byte]
  split
  · exact frame.header.byte_lt i
  · dsimp only
    split
    · decide
    · exact packedByte_lt ..

theorem byteAt_encode (frame : Frame) {i : Nat} (hi : i < frameBytes) :
    byteAt frame.encode i = frame.byte i := by
  rw [encode, byteAt_bytesOfFn _ hi, Nat.mod_eq_of_lt (frame.byte_lt i)]

theorem byte_blockOffset (frame : Frame) (block : Nat) {i : Nat} (hi : i < blockSampleBytes) :
    frame.byte (blockOffset block + i) = frame.packedByte block i := by
  have hbody : blockOffset block + i - headerBytes =
      block * blockBytes + (blockHeaderBytes + i) := by
    rw [blockOffset]
    omega
  have hlt : blockHeaderBytes + i < blockBytes := by simp only [blockBytes]; omega
  obtain ⟨hblock, hplace⟩ : (block * blockBytes + (blockHeaderBytes + i)) / blockBytes = block ∧
      (block * blockBytes + (blockHeaderBytes + i)) % blockBytes = blockHeaderBytes + i :=
    (Nat.div_mod_unique (by decide)).mpr ⟨by rw [Nat.add_comm, Nat.mul_comm], hlt⟩
  rw [byte, if_neg (by rw [blockOffset]; omega)]
  simp only [hbody, hblock, hplace]
  rw [if_neg (by omega), Nat.add_sub_cancel_left]

theorem channel_div_mod (block : Nat) {lane : Nat} (h : lane < channelsPerBlock) :
    (block * channelsPerBlock + lane) / channelsPerBlock = block ∧
      (block * channelsPerBlock + lane) % channelsPerBlock = lane :=
  (Nat.div_mod_unique (by decide)).mpr ⟨by rw [Nat.add_comm, Nat.mul_comm], h⟩

theorem sampleIn_pair (bytes : ByteArray) (base block : Nat) {pair : Nat}
    (hpair : 2 * pair + 1 < channelsPerBlock) :
    let start := base + (blockOffset block + 3 * pair)
    sampleIn bytes base (block * channelsPerBlock + 2 * pair) =
        byteAt bytes start + 256 * (byteAt bytes (start + 1) % 16) ∧
      sampleIn bytes base (block * channelsPerBlock + (2 * pair + 1)) =
        byteAt bytes (start + 1) / 16 + 16 * byteAt bytes (start + 2) := by
  intro start
  have hstart (half : Nat) (hhalf : half = pair) :
      base + blockOffset block + half * 3 = start := by omega
  constructor
  · obtain ⟨hdiv, hmod⟩ := channel_div_mod block (Nat.lt_of_succ_lt hpair)
    rw [sampleIn, hdiv, hmod, if_pos (by omega), hstart _ (by omega)]
  · obtain ⟨hdiv, hmod⟩ := channel_div_mod block hpair
    rw [sampleIn, hdiv, hmod, if_neg (by omega), hstart _ (by omega)]

theorem packedByte_triple (frame : Frame) (block pair : Nat) :
    let even := frame.sentSample (block * channelsPerBlock + 2 * pair)
    let odd := frame.sentSample (block * channelsPerBlock + (2 * pair + 1))
    frame.packedByte block (3 * pair) = even % 256 ∧
      frame.packedByte block (3 * pair + 1) = even / 256 + 16 * (odd % 16) ∧
      frame.packedByte block (3 * pair + 2) = odd / 16 := by
  intro even odd
  have hpair (k : Nat) (hk : k < 3) :
      (3 * pair + k) / 3 * 2 = 2 * pair ∧ (3 * pair + k) % 3 = k := by omega
  refine ⟨?_, ?_, ?_⟩
  · have h := hpair 0 (by decide)
    rw [Nat.add_zero] at h
    simp only [packedByte, h]
    rfl
  · simp only [packedByte, hpair 1 (by decide)]
    rfl
  · simp only [packedByte, hpair 2 (by decide)]
    rfl

theorem exists_pair {channel : Nat} (hchannel : channel < channelCount) :
    ∃ block pair, block < blocksPerFrame ∧ 2 * pair + 1 < channelsPerBlock ∧
      (channel = block * channelsPerBlock + 2 * pair ∨
        channel = block * channelsPerBlock + (2 * pair + 1)) := by
  refine ⟨channel / channelsPerBlock, channel % channelsPerBlock / 2,
    Nat.div_lt_of_lt_mul hchannel, ?_, ?_⟩ <;> simp only [channelsPerBlock] <;> omega

theorem sampleIn_eq_bitField (bytes : ByteArray) (base : Nat) {channel : Nat}
    (hchannel : channel < channelCount) :
    sampleIn bytes base channel =
      bitField bytes (8 * (base + blockOffset (channel / channelsPerBlock)) +
        sampleBits * (channel % channelsPerBlock)) sampleBits := by
  obtain ⟨block, pair, -, hpair, hchannel⟩ := exists_pair hchannel
  obtain ⟨heven, hodd⟩ := sampleIn_pair bytes base block hpair
  obtain ⟨start, hstart⟩ : ∃ start, start = base + (blockOffset block + 3 * pair) := ⟨_, rfl⟩
  rw [← hstart] at heven hodd
  rcases hchannel with rfl | rfl
  · obtain ⟨hdiv, hmod⟩ := channel_div_mod block (Nat.lt_of_succ_lt hpair)
    have hplace : 8 * (base + blockOffset block) + sampleBits * (2 * pair) = 8 * start + 0 := by
      simp only [sampleBits]
      omega
    have hacross : bitField bytes (8 * start + 0) (8 + 4) =
        byteAt bytes start / 2 ^ 0 + 2 ^ 8 * (byteAt bytes (start + 1) % 2 ^ 4) :=
      bitField_across bytes start rfl (by decide)
    rw [heven, hdiv, hmod, hplace, hacross]
    omega
  · obtain ⟨hdiv, hmod⟩ := channel_div_mod block hpair
    have hplace : 8 * (base + blockOffset block) + sampleBits * (2 * pair + 1) =
        8 * (start + 1) + 4 := by
      simp only [sampleBits]
      omega
    have hacross : bitField bytes (8 * (start + 1) + 4) (4 + 8) =
        byteAt bytes (start + 1) / 2 ^ 4 + 2 ^ 4 * (byteAt bytes (start + 2) % 2 ^ 8) :=
      bitField_across bytes (start + 1) rfl (by decide)
    have hlast := byteAt_lt bytes (start + 2)
    rw [hodd, hdiv, hmod, hplace, hacross]
    omega

/-- A written sample is found again, cut to the bits that are sent. -/
theorem sampleIn_encode (frame : Frame) {channel : Nat} (hchannel : channel < channelCount) :
    sampleIn frame.encode 0 channel = frame.sentSample channel := by
  obtain ⟨block, pair, hblock, hpair, hchannel⟩ := exists_pair hchannel
  obtain ⟨heven, hodd⟩ := sampleIn_pair frame.encode 0 block hpair
  obtain ⟨hfirst, hsecond, hthird⟩ := packedByte_triple frame block pair
  have hbyte (k : Nat) (hk : k < 3) :
      byteAt frame.encode (0 + (blockOffset block + 3 * pair) + k) =
        frame.packedByte block (3 * pair + k) := by
    have hplace : 3 * pair + k < blockSampleBytes := by
      simp only [channelsPerBlock, blockSampleBytes] at hpair ⊢
      omega
    have hlast : blockOffset block + (3 * pair + k) < frameBytes := by
      simp only [blockOffset, blocksPerFrame, blockBytes, headerBytes, blockHeaderBytes,
        blockSampleBytes, frameBytes] at hblock hplace ⊢
      omega
    rw [Nat.zero_add, Nat.add_assoc, frame.byteAt_encode hlast, frame.byte_blockOffset block hplace]
  have hbyte0 := hbyte 0 (by decide)
  rw [Nat.add_zero, Nat.add_zero, hfirst] at hbyte0
  have hbyte1 := hbyte 1 (by decide)
  rw [hsecond] at hbyte1
  have hbyte2 := hbyte 2 (by decide)
  rw [hthird] at hbyte2
  have hevenLt := frame.sentSample_lt (block * channelsPerBlock + 2 * pair)
  rcases hchannel with rfl | rfl
  · rw [heven, hbyte0, hbyte1]
    omega
  · rw [hodd, hbyte1, hbyte2]
    omega

theorem sampleIn_lt (bytes : ByteArray) (base channel : Nat) :
    sampleIn bytes base channel < 4096 := by
  have hlt := byteAt_lt bytes
  rw [sampleIn]
  split
  · have := hlt (base + blockOffset (channel / channelsPerBlock) +
      channel % channelsPerBlock / 2 * 3)
    omega
  · have := hlt (base + blockOffset (channel / channelsPerBlock) +
      channel % channelsPerBlock / 2 * 3 + 1)
    have := hlt (base + blockOffset (channel / channelsPerBlock) +
      channel % channelsPerBlock / 2 * 3 + 2)
    omega

def ofBytes (bytes : ByteArray) : Frame :=
  ⟨.ofBytes bytes, .ofFn fun channel => UInt16.ofNat (sampleIn bytes 0 channel)⟩

theorem decode_eq {bytes : ByteArray} (hsize : bytes.size = frameBytes) :
    decode bytes = .ok (ofBytes bytes) :=
  if_pos hsize

theorem sentSample_ofBytes (bytes : ByteArray) {channel : Nat} (hchannel : channel < channelCount) :
    (ofBytes bytes).sentSample channel = sampleIn bytes 0 channel := by
  have hlt := sampleIn_lt bytes 0 channel
  rw [sentSample, ofBytes, Vector.getElem?_eq_getElem hchannel, Vector.getElem_ofFn,
    Option.getD_some, UInt16.toNat_ofNat']
  simp only [maxSample]
  omega

theorem packedByte_ofBytes (bytes : ByteArray) {block i : Nat} (hblock : block < blocksPerFrame)
    (hi : i < blockSampleBytes) :
    (ofBytes bytes).packedByte block i = byteAt bytes (blockOffset block + i) := by
  obtain ⟨pair, k, hk, rfl⟩ : ∃ pair k, k < 3 ∧ i = 3 * pair + k :=
    ⟨i / 3, i % 3, Nat.mod_lt _ (by decide), (Nat.div_add_mod i 3).symm⟩
  have hpair : 2 * pair + 1 < channelsPerBlock := by
    simp only [channelsPerBlock, blockSampleBytes] at hi ⊢
    omega
  have hchannel (lane : Nat) (hlane : lane < channelsPerBlock) :
      block * channelsPerBlock + lane < channelCount := by
    simp only [channelsPerBlock, channelCount, blocksPerFrame] at hlane hblock ⊢
    omega
  obtain ⟨heven, hodd⟩ := sampleIn_pair bytes 0 block hpair
  obtain ⟨hfirst, hsecond, hthird⟩ := packedByte_triple (ofBytes bytes) block pair
  rw [sentSample_ofBytes bytes (hchannel _ (Nat.lt_of_succ_lt hpair)), heven, Nat.zero_add]
    at hfirst hsecond
  rw [sentSample_ofBytes bytes (hchannel _ hpair), hodd, Nat.zero_add] at hsecond hthird
  have hlt := byteAt_lt bytes
  have h0 := hlt (blockOffset block + 3 * pair)
  have h1 := hlt (blockOffset block + 3 * pair + 1)
  have h2 := hlt (blockOffset block + 3 * pair + 2)
  rw [← Nat.add_assoc]
  interval_cases k
  · rw [Nat.add_zero, Nat.add_zero, hfirst]
    omega
  · rw [hsecond]
    omega
  · rw [hthird]
    omega

theorem toNat_and_twelve (x : UInt16) : (x &&& 0xFFF).toNat = x.toNat % 4096 :=
  (UInt16.toNat_and x 0xFFF).trans (Nat.and_two_pow_sub_one_eq_mod _ 12)

theorem ofBytes_encode (frame : Frame) : ofBytes frame.encode = frame.cut := by
  have hheader : Header.ofBytes frame.encode = frame.header.cut := by
    apply Header.ofBytes_of_byte
    intro i hi
    rw [frame.byteAt_encode (hi.trans (by decide)), byte, if_pos hi]
  have hsamples : Vector.ofFn (fun channel : Fin channelCount =>
      UInt16.ofNat (sampleIn frame.encode 0 channel)) = frame.samples.map (· &&& 0xFFF) := by
    apply Vector.ext
    intro i hi
    rw [Vector.getElem_ofFn, Vector.getElem_map, ← UInt16.toNat_inj, toNat_and_twelve,
      sampleIn_encode _ hi, sentSample, Vector.getElem?_eq_getElem hi, Option.getD_some,
      UInt16.toNat_ofNat']
    simp only [maxSample]
    omega
  rw [ofBytes, cut, hheader, hsamples]

theorem cut_of_fits {frame : Frame} (h : frame.Fits) : frame.cut = frame := by
  have hsamples : frame.samples.map (· &&& 0xFFF) = frame.samples := by
    apply Vector.ext
    intro i hi
    have hsample := h.samples _ (Vector.getElem_mem hi)
    rw [Vector.getElem_map, ← UInt16.toNat_inj, toNat_and_twelve]
    exact Nat.mod_eq_of_lt (Nat.lt_succ_of_le hsample)
  rw [cut, Header.cut_of_fits h.header, hsamples]

/-- Whether a bit of a frame belongs to no field: the last byte of the first header word, fourteen
bits of the second, and the header of every block. -/
def Reserved (bit : Nat) : Prop :=
  (24 ≤ bit ∧ bit < 32) ∨ (32 + 2 ≤ bit ∧ bit < 32 + 16) ∨
    ∃ block < blocksPerFrame, 8 * (headerBytes + block * blockBytes) ≤ bit ∧
      bit < 8 * (headerBytes + block * blockBytes + blockHeaderBytes)

/-- What is left of each byte of a buffer that is read as a frame and written again. -/
theorem byte_ofBytes (bytes : ByteArray) {i : Nat} (hi : i < frameBytes) :
    (ofBytes bytes).byte i =
      if i = 3 ∨ i = 5 then 0
      else if i = 4 then byteAt bytes 4 % 4
      else if headerBytes ≤ i ∧ (i - headerBytes) % blockBytes < blockHeaderBytes then 0
      else byteAt bytes i := by
  rw [byte]
  by_cases hheader : i < headerBytes
  · have hbody : ¬ (headerBytes ≤ i ∧ (i - headerBytes) % blockBytes < blockHeaderBytes) :=
      fun h => absurd h.1 (Nat.not_le.mpr hheader)
    rw [if_pos hheader, if_neg hbody]
    exact Header.byte_ofBytes bytes hheader
  · have hplace : headerBytes ≤ i := Nat.not_lt.mp hheader
    have hnot : ¬ (i = 3 ∨ i = 5) ∧ i ≠ 4 := by
      simp only [headerBytes] at hplace
      omega
    rw [if_neg hheader, if_neg hnot.1, if_neg hnot.2]
    simp only [hplace, true_and]
    by_cases hlead : (i - headerBytes) % blockBytes < blockHeaderBytes
    · rw [if_pos hlead, if_pos hlead]
    · have hsplit := Nat.div_add_mod (i - headerBytes) blockBytes
      have hlt := Nat.mod_lt (i - headerBytes) (show 0 < blockBytes by decide)
      have hblock : (i - headerBytes) / blockBytes < blocksPerFrame := by
        have hframe : frameBytes = headerBytes + blockBytes * blocksPerFrame := rfl
        apply Nat.div_lt_of_lt_mul
        omega
      rw [if_neg hlead, if_neg hlead, packedByte_ofBytes bytes hblock]
      · congr 1
        rw [blockOffset, Nat.mul_comm]
        omega
      · simp only [blockBytes] at hlt hlead ⊢
        omega

theorem reserved_iff {bit : Nat} (hbit : bit < 8 * frameBytes) :
    Reserved bit ↔ (bit / 8 = 3 ∨ bit / 8 = 5) ∨ (bit / 8 = 4 ∧ 2 ≤ bit % 8) ∨
      (headerBytes ≤ bit / 8 ∧ (bit / 8 - headerBytes) % blockBytes < blockHeaderBytes) := by
  simp only [Reserved, frameBytes, blocksPerFrame, blockBytes, headerBytes, blockHeaderBytes,
    blockSampleBytes] at hbit ⊢
  constructor
  · rintro (hword | hflags | ⟨block, -, hfirst, hlast⟩) <;> omega
  · rintro (hbyte | hflags | hlead)
    · omega
    · omega
    · exact .inr (.inr ⟨(bit / 8 - 16) / 112, by omega, by omega, by omega⟩)

theorem bitAt_encode_ofBytes (bytes : ByteArray) {bit : Nat} (hbit : bit < 8 * frameBytes) :
    (Reserved bit → bitAt (ofBytes bytes).encode bit = false) ∧
      (¬ Reserved bit → bitAt (ofBytes bytes).encode bit = bitAt bytes bit) := by
  have hbyte : bit / 8 < frameBytes := by omega
  rw [reserved_iff hbit, bitAt, bitAt, byteAt_encode _ hbyte, byte_ofBytes bytes hbyte]
  by_cases hunused : bit / 8 = 3 ∨ bit / 8 = 5
  · rw [if_pos hunused]
    exact ⟨fun _ => Nat.zero_testBit _, fun hread => absurd (.inl hunused) hread⟩
  rw [if_neg hunused]
  by_cases hflags : bit / 8 = 4
  · have hlow : (byteAt bytes 4 % 4).testBit (bit % 8) =
        (decide (bit % 8 < 2) && (byteAt bytes 4).testBit (bit % 8)) :=
      Nat.testBit_mod_two_pow _ 2 _
    rw [if_pos hflags, hlow, hflags]
    by_cases hsent : bit % 8 < 2 <;> simp [hsent, headerBytes]
  rw [if_neg hflags]
  by_cases hlead : headerBytes ≤ bit / 8 ∧ (bit / 8 - headerBytes) % blockBytes < blockHeaderBytes
  · rw [if_pos hlead]
    exact ⟨fun _ => Nat.zero_testBit _, fun hread => absurd (.inr (.inr hlead)) hread⟩
  · rw [if_neg hlead]
    refine ⟨?_, fun _ => rfl⟩
    rintro (hword | hflag | hblock)
    · exact absurd hword hunused
    · exact absurd hflag.1 hflags
    · exact absurd hblock hlead

/-- Reading and writing a frame undo each other up to what is not sent: a written frame is read
with its fields cut to their widths, and a buffer is written back with its reserved bits cleared. -/
theorem codec_round_trips :
    (∀ frame : Frame, decode frame.encode = .ok frame.cut ∧ (frame.Fits → frame.cut = frame)) ∧
      ∀ bytes : ByteArray, bytes.size = frameBytes →
        ∃ frame, decode bytes = .ok frame ∧ frame.encode.size = frameBytes ∧
          ∀ bit < 8 * frameBytes,
            (Reserved bit → bitAt frame.encode bit = false) ∧
              (¬ Reserved bit → bitAt frame.encode bit = bitAt bytes bit) := by
  constructor
  · intro frame
    rw [decode_eq frame.encode_size, ofBytes_encode]
    exact ⟨rfl, cut_of_fits⟩
  · intro bytes hsize
    exact ⟨ofBytes bytes, decode_eq hsize, encode_size _, fun bit => bitAt_encode_ofBytes bytes⟩

/-- A frame that fits, and a buffer in which every bit is set. -/
theorem codec_round_trips_full :
    let frame : Frame := ⟨.start ⟨31, 7, 7⟩ 0x0123456789ABCDEF, .replicate _ 4095⟩
    let bytes : ByteArray := ⟨.replicate frameBytes 0xFF⟩
    decode frame.encode = .ok frame ∧
      ∃ other, decode bytes = .ok other ∧ bitAt other.encode 23 = true ∧
        bitAt other.encode 24 = false := by
  intro frame bytes
  have hfits : frame.Fits := by
    refine ⟨⟨by decide, by decide, by decide, by decide⟩, fun sample hsample => ?_⟩
    rw [(Vector.mem_replicate.mp hsample).2]
    decide
  have hset : bitAt bytes 23 = true := by decide +kernel
  obtain ⟨hcut, hsame⟩ := codec_round_trips.1 frame
  obtain ⟨other, hdecode, -, hbits⟩ := codec_round_trips.2 bytes (by decide +kernel)
  have hread : ¬ Reserved 23 := by
    rw [reserved_iff (by decide)]
    decide
  refine ⟨hcut.trans (congrArg Except.ok (hsame hfits)), other, hdecode, ?_, ?_⟩
  · exact ((hbits 23 (by decide)).2 hread).trans hset
  · exact (hbits 24 (by decide)).1 (.inl (by decide))

end Frame

end TpcTrigger

