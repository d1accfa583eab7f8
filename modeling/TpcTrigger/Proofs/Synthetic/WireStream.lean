import TpcTrigger.Proofs.Pipeline.ContiguousStream
import TpcTrigger.Proofs.Pipeline.GapCounts
import TpcTrigger.Proofs.Synthetic.SampleWalk

/-! # Synthetic streams on the wire

The settings are checked so that pedestal, noise and pulse together fit a sample.  So a sample of
the stream is never cut, neither by its upper bound nor by the width that it has on the wire, and
what the superchunks decode to are the samples that were drawn, at times that follow each other.
-/

namespace TpcTrigger

/-- A source whose draws keep to the bounds that they are asked for. -/
structure DrawSource.Bounded {σ : Type} (source : DrawSource σ) : Prop where
  pedestal : ∀ low high draws, low ≤ high →
    low ≤ (source.pedestal low high draws).1 ∧ (source.pedestal low high draws).1 ≤ high
  noise : ∀ size draws, (source.noise size draws).1.natAbs ≤ size

theorem DrawSource.bounded_random : DrawSource.random.Bounded where
  pedestal low high draws hle := by
    have hdraw := WordStream.belowWithin_lt (WordStream.widestZone (high - low + 1))
      (high - low + 1) WordStream.drawLimit (Nat.succ_pos _) draws
    have hnumber : (DrawSource.random.pedestal low high draws).1 = low +
        (WordStream.belowWithin (WordStream.widestZone (high - low + 1)) (high - low + 1)
          WordStream.drawLimit draws).1 := rfl
    rw [hnumber]
    omega
  noise size draws := by
    have hdraw := WordStream.belowWithin_lt (WordStream.shiftedZone (2 * size + 1))
      (2 * size + 1) WordStream.drawLimit (Nat.succ_pos _) draws
    have hnumber : (DrawSource.random.noise size draws).1 =
        ((WordStream.belowWithin (WordStream.shiftedZone (2 * size + 1)) (2 * size + 1)
          WordStream.drawLimit draws).1 : Int) - size := rfl
    rw [hnumber]
    omega

namespace ContinuityCheck

def answers (c : ContinuityCheck) : List UInt64 → List Continuity
  | [] => []
  | time :: times => (c.observe time).2 :: (c.observe time).1.answers times

theorem observe_next (last : UInt64) :
    observe ⟨some last⟩ (last + UInt64.ofNat superchunkClocks) =
      (⟨some (last + UInt64.ofNat superchunkClocks)⟩, .contiguous) := by
  rw [observe, compare]
  dsimp only
  rw [if_pos rfl]

end ContinuityCheck

namespace Synthetic

variable {σ : Type} {source : DrawSource σ} {g : Synthetic σ} {s : SyntheticSettings} {draws : σ}

theorem drawPedestals_succ (source : DrawSource σ) (s : SyntheticSettings) (channels : Nat)
    (draws : σ) :
    let earlier := drawPedestals source s channels draws
    let last := source.pedestal s.pedestalMin s.pedestalMax earlier.2
    drawPedestals source s (channels + 1) draws = (earlier.1.push last.1, last.2) := by
  intro earlier last
  rw [drawPedestals, List.range_succ, List.foldl_append]
  rfl

theorem drawPedestals_bounded (hsource : source.Bounded) (hle : s.pedestalMin ≤ s.pedestalMax)
    (channels : Nat) (draws : σ) :
    (drawPedestals source s channels draws).1.size = channels ∧
      ∀ pedestal ∈ (drawPedestals source s channels draws).1,
        s.pedestalMin ≤ pedestal ∧ pedestal ≤ s.pedestalMax := by
  induction channels with
  | zero => exact ⟨rfl, by simp [drawPedestals]⟩
  | succ channels ih =>
    obtain ⟨hsize, hrange⟩ := ih
    rw [drawPedestals_succ]
    refine ⟨by rw [Array.size_push, hsize], fun pedestal hpedestal => ?_⟩
    rcases Array.mem_push.mp hpedestal with hearlier | rfl
    · exact hrange pedestal hearlier
    · exact hsource.pedestal _ _ _ hle

theorem natAbs_noise_drawSample_le (hsource : source.Bounded) (chance : Chance) (remaining : Nat) :
    (drawSample source s chance remaining draws).1.noise.natAbs ≤ s.noise := by
  by_cases hnoise : 0 < s.noise
  · have hfirst := hsource.noise s.noise draws
    have hsecond := hsource.noise s.noise (source.noise s.noise draws).2
    have hmean : (drawSample source s chance remaining draws).1.noise =
        ((source.noise s.noise draws).1 +
          (source.noise s.noise (source.noise s.noise draws).2).1).tdiv 2 := by
      rw [drawSample, if_pos hnoise]
      cases s.mayStart remaining <;> rfl
    have hsum : ((source.noise s.noise draws).1 +
        (source.noise s.noise (source.noise s.noise draws).2).1).natAbs ≤ 2 * s.noise := by omega
    rw [hmean, Int.natAbs_tdiv]
    exact Nat.div_le_of_le_mul hsum
  · have hnone : (drawSample source s chance remaining draws).1.noise = 0 := by
      rw [drawSample, if_neg hnoise]
      cases s.mayStart remaining <;> rfl
    rw [hnone]
    exact Nat.zero_le _

theorem toNat_clamped {value : Int} (hvalue : value ≤ maxSample) :
    ((UInt16.ofNat (max 0 (min (maxSample : Int) value)).toNat).toNat : Int) = max 0 value := by
  rw [min_eq_right hvalue, UInt16.toNat_ofNat_of_lt', Int.toNat_of_nonneg (le_max_left 0 value)]
  simp only [maxSample, UInt16.size] at hvalue ⊢
  omega

theorem sampleAt_eq (hsource : source.Bounded) (hstart : start source s draws = .ok g)
    {channel : Nat} (hchannel : channel < channelCount) (tick : Nat) :
    ∃ pedestal, g.pedestals[channel]? = some pedestal ∧
      s.pedestalMin ≤ pedestal ∧ pedestal ≤ s.pedestalMax ∧
      (g.noiseAt source channel tick).natAbs ≤ s.noise ∧
      ((g.sampleAt source channel tick).toNat : Int) = max 0 (pedestal +
        g.noiseAt source channel tick +
          (if g.raisedAt source channel tick then s.pulseHeight else 0 : Nat)) ∧
      (g.sampleAt source channel tick).toNat ≤ maxSample := by
  obtain ⟨hcheck, hg⟩ := start_eq_ok_iff.mp hstart
  obtain ⟨hle, -, hpeak⟩ := SyntheticSettings.check_eq_ok_iff.mp hcheck
  obtain ⟨hsettings, hpedestals⟩ : g.settings = s ∧
      g.pedestals = (drawPedestals source s channelCount draws).1 := by simp [hg]
  obtain ⟨hsize, hrange⟩ := drawPedestals_bounded hsource hle channelCount draws
  rw [← hpedestals] at hsize hrange
  have hthere : channel < g.pedestals.size := by rwa [hsize]
  have hpedestal := hrange _ (Array.getElem_mem hthere)
  have hnoise : (g.noiseAt source channel tick).natAbs ≤ s.noise := by
    rw [← hsettings, ← g.settings_walk source (tick * channelCount + channel)]
    exact natAbs_noise_drawSample_le hsource ..
  have hsample := g.sample_emitted source (tick * channelCount + channel)
  rw [sample_mod hchannel, Array.getElem?_eq_getElem hthere, Option.getD_some, hsettings] at hsample
  have hheight : (if g.raisedAt source channel tick then s.pulseHeight else 0) ≤ s.pulseHeight := by
    split <;> simp
  have hvalue : (g.pedestals[channel] : Int) + g.noiseAt source channel tick +
      (if g.raisedAt source channel tick then s.pulseHeight else 0 : Nat) ≤ maxSample := by
    rw [SyntheticSettings.peak] at hpeak
    omega
  have hexact : ((g.sampleAt source channel tick).toNat : Int) =
      max 0 ((g.pedestals[channel] : Int) + g.noiseAt source channel tick +
        (if g.raisedAt source channel tick then s.pulseHeight else 0 : Nat)) :=
    (congrArg (fun sample : UInt16 => (sample.toNat : Int)) hsample).trans (toNat_clamped hvalue)
  refine ⟨_, Array.getElem?_eq_getElem hthere, hpedestal.1, hpedestal.2, hnoise, hexact, ?_⟩
  omega

theorem sampleAt_and_twelve (hsource : source.Bounded) (hstart : start source s draws = .ok g)
    {channel : Nat} (hchannel : channel < channelCount) (tick : Nat) :
    g.sampleAt source channel tick &&& 0xFFF = g.sampleAt source channel tick := by
  obtain ⟨-, -, -, -, -, -, hle⟩ := sampleAt_eq hsource hstart hchannel tick
  rw [← UInt16.toNat_inj, Frame.toNat_and_twelve]
  exact Nat.mod_eq_of_lt (Nat.lt_succ_of_le hle)

variable (source g)

theorem nextSample_eq {channel tick : Nat} (hchannel : channel < channelCount)
    (htick : tick < superchunkTicks) :
    g.nextSample source channel tick = g.sampleAt source channel tick := by
  have hplace : tick * channelCount + channel < superchunkSamples := by
    simp only [superchunkSamples, superchunkTicks, channelCount, blocksPerFrame,
      channelsPerBlock] at *
    omega
  rw [nextSample, List.getElem?_toArray, List.getElem?_map, List.getElem?_range hplace]
  rfl

theorem sampleAt_after (k channel tick : Nat) :
    (g.after source k).sampleAt source channel tick =
      g.sampleAt source channel (k * superchunkTicks + tick) := by
  have hplace : k * superchunkSamples + (tick * channelCount + channel) =
      (k * superchunkTicks + tick) * channelCount + channel := by
    simp only [superchunkSamples, superchunkTicks, channelCount, blocksPerFrame, channelsPerBlock]
    omega
  rw [sampleAt, emitted_after, hplace, sampleAt]

theorem nextTime_after (k : Nat) :
    (g.after source k).nextTime = g.nextTime + UInt64.ofNat (k * superchunkClocks) := by
  rw [after_eq, nextTime_retimed]

theorem timeOf_next : timeOf (g.next source).1 = g.nextTime := by
  rw [timeOf, fst_next, Superchunk.timestamp_encode]

theorem answers_take {last : UInt64} (hlast : g.nextTime = last + UInt64.ofNat superchunkClocks)
    (n : Nat) :
    ContinuityCheck.answers ⟨some last⟩ ((take source n g).map timeOf) =
      .replicate n .contiguous := by
  induction n generalizing g last with
  | zero => rfl
  | succ n ih =>
    have hnext : (g.next source).2.nextTime =
        g.nextTime + UInt64.ofNat superchunkClocks := by rw [snd_next, nextTime_retimed]
    rw [take_succ source g n rfl, List.map_cons, timeOf_next, hlast, ContinuityCheck.answers,
      ContinuityCheck.observe_next, ← hlast, ih _ hnext, List.replicate_succ]

variable {source g}

/-- A synthetic stream survives the wire, whatever is drawn.  Every sample is its pedestal, its
noise and the pulse if there is one, cut at zero only; every superchunk decodes to the samples that
were drawn for it, at its time in the stream; and no gap is ever reported. -/
theorem survives_the_wire (hsource : source.Bounded) (hstart : start source s draws = .ok g) :
    (∀ channel < channelCount, ∀ tick, ∃ pedestal, g.pedestals[channel]? = some pedestal ∧
      s.pedestalMin ≤ pedestal ∧ pedestal ≤ s.pedestalMax ∧
      (g.noiseAt source channel tick).natAbs ≤ s.noise ∧
      ((g.sampleAt source channel tick).toNat : Int) = max 0 (pedestal +
        g.noiseAt source channel tick +
          (if g.raisedAt source channel tick then s.pulseHeight else 0 : Nat)) ∧
      (g.sampleAt source channel tick).toNat ≤ maxSample ∧
      g.sampleAt source channel tick &&& 0xFFF = g.sampleAt source channel tick) ∧
    (∀ n k, k < n → ∃ bytes chunk, (take source n g)[k]? = some bytes ∧
      Superchunk.decode bytes = .ok chunk ∧
      (∀ channel < channelCount, ∀ tick < superchunkTicks,
        chunk.block.sample? channel tick =
          some (g.sampleAt source channel (k * superchunkTicks + tick))) ∧
      (s.startTime.toNat + k * superchunkClocks < 2 ^ 64 →
        chunk.timestamp.toNat = s.startTime.toNat + k * superchunkClocks)) ∧
    ∀ n, ContinuityCheck.answers {} ((take source (n + 1) g).map timeOf) =
      .first :: .replicate n .contiguous := by
  refine ⟨fun channel hchannel tick => ?_, fun n k hk => ?_, fun n => ?_⟩
  · obtain ⟨pedestal, hthere, hmin, hmax, hnoise, hexact, hle⟩ :=
      sampleAt_eq hsource hstart hchannel tick
    exact ⟨pedestal, hthere, hmin, hmax, hnoise, hexact, hle,
      sampleAt_and_twelve hsource hstart hchannel tick⟩
  · have hsize : ((g.after source k).next source).1.size = superchunkBytes := by
      rw [fst_next, Superchunk.encode_size]
    refine ⟨_, _, g.getElem?_take source hk,
      Superchunk.decode_eq (Superchunk.checkSize_eq_ok_iff.mpr hsize), ?_, fun htime => ?_⟩
    · intro channel hchannel tick htick
      have hblock : (Superchunk.ofBytes ((g.after source k).next source).1).block =
          Superchunk.blockOfBytes ((g.after source k).next source).1 := rfl
      rw [hblock, fst_next, Superchunk.sample?_encode _ _ _ hchannel htick,
        nextSample_eq source _ hchannel htick, sampleAt_after,
        sampleAt_and_twelve hsource hstart hchannel]
    · have hstamp : (Superchunk.ofBytes ((g.after source k).next source).1).timestamp =
          s.startTime + UInt64.ofNat (k * superchunkClocks) := by
        have hfirst := timeOf_next source (g.after source k)
        rw [nextTime_after, (start_eq_ok_iff.mp hstart).2, nextTime_opening] at hfirst
        rw [(start_eq_ok_iff.mp hstart).2]
        exact hfirst
      rw [hstamp, UInt64.toNat_add, UInt64.toNat_ofNat']
      omega
  · have hnext : (g.next source).2.nextTime = g.nextTime + UInt64.ofNat superchunkClocks := by
      rw [snd_next, nextTime_retimed]
    rw [take_succ source g n rfl, List.map_cons, timeOf_next, ContinuityCheck.answers]
    exact congrArg (Continuity.first :: ·) (answers_take source _ hnext n)

/-- Pulses without a break on pedestals up to the last that fits, at the end of the clock. -/
theorem survives_the_wire_edge :
    let s : SyntheticSettings := {
      startTime := 18446744073709551015
      pedestalMin := 0
      pedestalMax := 3791
      pulseProbability := 1.0
      pulseTicks := 40 }
    DrawSource.random.Bounded ∧ ∃ g, start .random s (.ofSeed 7) = .ok g ∧
      (g.sampleAt .random 255 30).toNat ≤ maxSample ∧
      (∃ bytes chunk, (take .random 3 g)[2]? = some bytes ∧ Superchunk.decode bytes = .ok chunk ∧
        chunk.block.sample? 255 6 = some (g.sampleAt .random 255 30) ∧
        chunk.timestamp.toNat = 18446744073709551615) ∧
      ContinuityCheck.answers {} ((take .random 3 g).map timeOf) =
        [.first, .contiguous, .contiguous] := by
  intro s
  have hcheck : s.check = .ok () :=
    SyntheticSettings.check_eq_ok_iff.mpr ⟨by decide, by decide +kernel, by decide⟩
  have hstart : start .random s (.ofSeed 7) = .ok (opening s _) :=
    start_eq_ok_iff.mpr ⟨hcheck, rfl⟩
  obtain ⟨hsamples, hchunks, htimes⟩ := survives_the_wire DrawSource.bounded_random hstart
  obtain ⟨-, -, -, -, -, -, hle, -⟩ := hsamples 255 (by decide) 30
  obtain ⟨bytes, chunk, hbytes, hchunk, hdecoded, htime⟩ := hchunks 3 2 (by decide)
  exact ⟨DrawSource.bounded_random, _, hstart, hle,
    ⟨bytes, chunk, hbytes, hchunk, hdecoded 255 (by decide) 6 (by decide), htime (by decide)⟩,
    htimes 2⟩

end Synthetic

end TpcTrigger
