import TpcTrigger.Proofs.Detection.LongRuns
import TpcTrigger.Proofs.Frame.SuperchunkDecoding
import TpcTrigger.Proofs.Pipeline.Refinement

/-! # Streams without gaps

In a stream of superchunks whose times are a superchunk apart, the time of every window is that of
its first tick in the numbering of the whole stream.  So the primitives in the store, after any
number of windows, mark runs over threshold of the stream at the right times, as long as a word can
count the ticks of a run.  A longer run is stored with its right end and with a start that is late.
-/

namespace TpcTrigger

/-- Superchunks whose times are a superchunk apart, from `t0` on. -/
structure Contiguous (t0 : Nat) (superchunks : List ByteArray) : Prop where
  size : ∀ bytes ∈ superchunks, Superchunk.checkSize bytes = .ok ()
  time : ∀ (k : Nat) (bytes : ByteArray), superchunks[k]? = some bytes →
    (Header.ofBytes bytes).timestamp.toNat = t0 + superchunkClocks * k

theorem Superchunk.timestamp_encode (link : Link) (timestamp : UInt64)
    (sample : Nat → Nat → UInt16) :
    (Header.ofBytes (encode link timestamp sample)).timestamp = timestamp := by
  have hframe : Frame.ofBytes (frameSlice (encode link timestamp sample) 0) =
      (frameAt link timestamp sample 0).cut := by
    rw [frameSlice_encode link timestamp sample (by decide), Frame.ofBytes_encode]
  have hheader := congrArg (fun frame => frame.header.timestamp) hframe
  rw [← header_frameSlice]
  refine hheader.trans ?_
  simp [Frame.cut, Header.cut, frameAt, Header.start]

/-- The samples of superchunks that are sent one after the other, each cut to the bits that are
sent. -/
theorem chunkStream_encode (link : Link) (time : Nat → UInt64) (sample : Nat → Nat → Nat → UInt16)
    (n : Nat) {channel : Nat} (hchannel : channel < channelCount) :
    chunkStream (((List.range n).map fun k =>
        Superchunk.encode link (time k) (sample k)).map .ofBytes) channel =
      (List.range n).flatMap fun k =>
        (List.range superchunkTicks).map fun tick => sample k channel tick &&& 0xFFF := by
  rw [chunkStream, List.map_map, List.flatMap_map]
  apply List.flatMap_congr
  intro k _
  apply List.map_congr_left
  intro tick htick
  have hdecoded := Superchunk.sample?_encode link (time k) (sample k) hchannel
    (List.mem_range.mp htick)
  exact congrArg (Option.getD · 0) hdecoded

theorem contiguous_encode (link : Link) (sample : Nat → Nat → Nat → UInt16) {t0 n : Nat}
    (htime : t0 + superchunkClocks * n ≤ UInt64.size) :
    Contiguous t0 ((List.range n).map fun k =>
      Superchunk.encode link (UInt64.ofNat (t0 + superchunkClocks * k)) (sample k)) where
  size := by
    intro bytes hbytes
    obtain ⟨k, -, rfl⟩ := List.mem_map.mp hbytes
    exact Superchunk.checkSize_eq_ok_iff.mpr (Superchunk.encode_size ..)
  time := by
    intro k bytes hbytes
    rw [List.getElem?_map] at hbytes
    obtain ⟨j, hj, rfl⟩ := Option.map_eq_some_iff.mp hbytes
    obtain ⟨hlt, rfl⟩ := List.getElem?_eq_some_iff.mp hj
    rw [List.length_range] at hlt
    rw [Superchunk.timestamp_encode, List.getElem_range, UInt64.toNat_ofNat_of_lt']
    simp only [superchunkClocks, superchunkTicks, clocksPerTick] at htime ⊢
    omega

namespace Assembly

variable {n k t0 : Nat} {superchunks : List ByteArray} {window : Window}

theorem timestamp_completed (hn : 0 < n) (hstream : Contiguous t0 superchunks)
    (hwindow : ((start n).completed (superchunks.map .ofBytes))[k]? = some window) :
    window.timestamp.toNat = t0 + clocksPerTick *
      totalTicks (((start n).completed (superchunks.map .ofBytes)).take k) := by
  have hk : k < superchunks.length / n := by
    have hlt := (List.getElem?_eq_some_iff.mp hwindow).1
    rwa [length_completed hn, List.length_map] at hlt
  have hend : (k + 1) * n ≤ (superchunks.map Superchunk.ofBytes).length := by
    rw [List.length_map]
    exact Nat.mul_le_of_le_div _ _ _ hk
  have hnth : window = nthWindow n (superchunks.map .ofBytes) k := by
    rw [(after_start hn _).2, List.length_map, List.getElem?_map, List.getElem?_range hk] at hwindow
    exact (Option.some.inj hwindow).symm
  obtain ⟨chunk, hchunk, htime, -⟩ := (spans_nthWindow hn hend).first
  rw [List.getElem?_map, Option.map_eq_some_iff] at hchunk
  obtain ⟨bytes, hbytes, rfl⟩ := hchunk
  have hfirst : (Superchunk.ofBytes bytes).timestamp = (Header.ofBytes bytes).timestamp := rfl
  rw [totalTicks_completed hn (by rw [List.length_map]; exact hk.le), hnth, htime, hfirst,
    hstream.time _ bytes hbytes]
  simp only [superchunkClocks, clocksPerTick, superchunkTicks]
  omega

end Assembly

namespace Settings

variable {s : Settings} {t0 : Nat} {superchunks : List ByteArray}

theorem timestamp_window (hs : s.Checked) (hstream : Contiguous t0 superchunks) {n : Nat}
    {window : Window} (hwindow : ((Assembly.start s.superchunksPerWindow).completed
      (superchunks.map .ofBytes))[n]? = some window) :
    window.timestamp.toNat = t0 + clocksPerTick * (n * s.windowTicks) := by
  have hpos := superchunksPerWindow_pos hs
  have hlt := (List.getElem?_eq_some_iff.mp hwindow).1
  rw [Assembly.length_completed hpos] at hlt
  rw [Assembly.timestamp_completed hpos hstream hwindow, totalTicks_take_completed hs hlt.le]

theorem marksRuns_storeAfter (hs : s.Checked) (hstream : Contiguous t0 superchunks)
    (kind : KernelKind) {n : Nat} (hn : n ≤ superchunks.length / s.superchunksPerWindow) :
    let windows := (Assembly.start s.superchunksPerWindow).completed (superchunks.map .ofBytes)
    MarksRuns (s.overIn superchunks) t0 (totalTicks (windows.take n))
      (s.storeAfter (s.method kind.kernel) windows n).primitives.toList := by
  intro windows
  have hpos := superchunksPerWindow_pos hs
  have hlength : windows.length = superchunks.length / s.superchunksPerWindow := by
    rw [Assembly.length_completed hpos, List.length_map]
  induction n with
  | zero => exact .nil
  | succ n ih =>
    obtain ⟨window, hwindow⟩ : ∃ window, windows[n]? = some window :=
      ⟨_, List.getElem?_eq_getElem (by omega)⟩
    have htake : windows.take (n + 1) = windows.take n ++ [window] := by
      rw [List.take_add_one, hwindow]
      rfl
    obtain ⟨first, rest, hwindows⟩ : ∃ first rest, windows = first :: rest :=
      List.exists_cons_of_length_pos (by omega)
    have hmem : first ∈ windows := by
      rw [hwindows]
      exact List.mem_cons_self ..
    have hticks : 0 < first.ticks := Assembly.ticks_pos_of_mem_completed hpos hmem
    obtain ⟨htime, hhits⟩ := batchAt_eq hs kind hticks rest (hwindows ▸ hwindow)
    rw [← hwindows] at htime hhits
    have hchannels (channel : Nat) (hchannel : channel < channelCount) :
        channelStream (windows.take n ++ [window]) channel <+:
          chunkStream (superchunks.map .ofBytes) channel := by
      rw [← htake]
      exact Assembly.channelStream_completed_prefix hpos (by rwa [List.length_map]) hchannel
    obtain ⟨hbatch, hlater⟩ := s.detectorParams.marksRuns_hitsIn hchannels
      (fun channel hchannel => Assembly.sample_first_completed hpos hwindows hchannel)
      (Assembly.timestamp_completed hpos hstream hwindow)
    rw [← htake] at hbatch
    have hle : totalTicks (windows.take n) ≤ totalTicks (windows.take (n + 1)) := by
      rw [htake, totalTicks_concat]
      exact Nat.le_add_right _ _
    rw [storeAfter_succ, htime, hhits]
    exact ((ih (by omega)).append hbatch hle hlater).suffix (PrimitiveStore.suffix_pushBatch ..)

/-- The single thread after any number of windows of a stream without gaps. -/
theorem marksRuns_referenceAfter (hs : s.Checked) (hstream : Contiguous t0 superchunks) {n : Nat}
    (hn : n ≤ superchunks.length / s.superchunksPerWindow) :
    MarksRuns (s.overIn superchunks) t0 (superchunks.length * superchunkTicks)
      (s.referenceAfter superchunks n).store.primitives.toList := by
  have hpos := superchunksPerWindow_pos hs
  have hle : totalTicks (((Assembly.start s.superchunksPerWindow).completed
      (superchunks.map .ofBytes)).take n) ≤ superchunks.length * superchunkTicks := by
    rw [Assembly.totalTicks_completed hpos (by rwa [List.length_map])]
    exact Nat.mul_le_mul_right _ (Nat.mul_le_of_le_div _ _ _ hn)
  rw [store_referenceAfter hs hstream.size .channelwise hn]
  exact (marksRuns_storeAfter hs hstream .channelwise hn).mono hle

end Settings

namespace Finder

variable {s : Settings} {f : Finder}

/-- Every primitive that is ever in the store marks a run of the stream that was taken in.  It ends
at the time that the tick behind the run has in the stream, and starts at that of the first tick if
a word can count the ticks of the run. -/
theorem primitives_mark_runs (hstart : start s = .ok f) {t0 : Nat} {superchunks : List ByteArray}
    (hstream : Contiguous t0 superchunks) :
    let ticks := superchunks.length * superchunkTicks
    (∀ n ≤ superchunks.length / s.superchunksPerWindow,
      MarksRuns (s.overIn superchunks) t0 ticks
        (s.referenceAfter superchunks n).store.primitives.toList) ∧
    ∀ moves p, f.pipeline.run? f.method moves = some p →
      f.pipeline.accepted f.method moves <+: superchunks →
        MarksRuns (s.overIn superchunks) t0 ticks p.store.primitives.toList := by
  obtain ⟨hs, -, hmethod, hpipeline, -⟩ := start_eq_ok hstart
  rw [hmethod, hpipeline]
  intro ticks
  refine ⟨fun n hn => Settings.marksRuns_referenceAfter hs hstream hn,
    fun moves p hrun haccepted => ?_⟩
  obtain ⟨h, hafter, hp⟩ := (Pipeline.follows_start s _).run hrun
  rw [List.nil_append] at hafter
  obtain ⟨hle, -, hstore⟩ := hp.store_eq hs s.kernel
  rw [hafter] at hle hstore
  obtain ⟨later, hlater⟩ := haccepted
  have hfront : (Pipeline.start s).accepted (s.method s.kernel.kernel) moves <+: superchunks :=
    ⟨later, hlater⟩
  have hwindows := hle.trans (Nat.div_le_div_right hfront.length_le)
  have hsame : s.referenceAfter superchunks p.windowsStored =
      s.referenceAfter ((Pipeline.start s).accepted (s.method s.kernel.kernel) moves)
        p.windowsStored := by
    rw [Settings.referenceAfter, ← hlater,
      List.take_append_of_le_length (Nat.mul_le_of_le_div _ _ _ hle)]
    rfl
  rw [hstore, ← hsame]
  exact Settings.marksRuns_referenceAfter hs hstream hwindows

/-- Two superchunks of pulses between two that are silent, one superchunk to a window.  The run of a
channel begins in the second window and ends in the fourth. -/
theorem primitives_mark_runs_across :
    let s : Settings := {
      windowTicks := superchunkTicks
      tapCount := 2
      taps := some #[-3, 64]
      cutoff := Float.ofBits 0x3FB999999999999A }
    let superchunks : List ByteArray := (List.range 4).map fun k =>
      Superchunk.encode .zero (UInt64.ofNat (1000 + superchunkClocks * k)) fun _ _ =>
        if k = 1 ∨ k = 2 then 4095 else 0
    Contiguous 1000 superchunks ∧ ∃ f, start s = .ok f ∧
      ⟨1900, ⟨0, 1, 11712, 24⟩⟩ ∈ (s.referenceAfter superchunks 4).store.primitives ∧
      IsRun (s.overIn superchunks 0) 13 37 ∧
      TriggerPrimitive.startTime ⟨1900, ⟨0, 1, 11712, 24⟩⟩ = 1000 + clocksPerTick * 13 ∧
      (∀ n ≤ 4, MarksRuns (s.overIn superchunks) 1000 48
        (s.referenceAfter superchunks n).store.primitives.toList) ∧
      ∀ moves p, f.pipeline.run? f.method moves = some p →
        f.pipeline.accepted f.method moves <+: superchunks →
          MarksRuns (s.overIn superchunks) 1000 48 p.store.primitives.toList := by
  intro s superchunks
  have hs : s.Checked := by decide +kernel
  have hstart := start_of_checked hs
  have hstream : Contiguous 1000 superchunks := contiguous_encode .zero _ (by decide)
  have hlength : superchunks.length = 4 := by simp [superchunks]
  have hone : s.superchunksPerWindow = 1 := by decide
  have hsamples : chunkStream (superchunks.map .ofBytes) 0 = (List.range 4).flatMap fun k =>
      (List.range superchunkTicks).map fun _ => (if k = 1 ∨ k = 2 then 4095 else 0) &&& 0xFFF :=
    chunkStream_encode .zero _ (fun k _ _ => if k = 1 ∨ k = 2 then 4095 else 0) 4 (by decide)
  have hrun : IsRun (s.overIn superchunks 0) 13 37 := by
    rw [Settings.overIn, hsamples]
    decide +kernel
  have hend : s.overIn superchunks 0 37 = false := by
    rw [Settings.overIn, hsamples]
    decide +kernel
  have hcharge : gathered (s.heightIn superchunks 0) 13 37 = 11712 := by
    rw [Settings.heightIn, hsamples]
    decide +kernel
  have hwindows : 3 < superchunks.length / s.superchunksPerWindow := by
    rw [hlength, hone]
    decide
  have hplace : 3 * s.windowTicks + 1 = 37 := by decide
  rw [← hplace] at hrun hend
  obtain ⟨window, hwindow, hmem⟩ := Settings.mem_referenceAfter hs hstream.size hwindows
    (by decide) (by decide) hrun hend (by decide)
  have htime : window.timestamp = 1900 :=
    UInt64.toNat_inj.mp (Settings.timestamp_window hs hstream hwindow)
  have hticks : wrap (37 - 13 : Nat) = 24 := by decide
  rw [hplace] at hrun hmem
  rw [hcharge, hticks, htime] at hmem
  have hmarks := primitives_mark_runs hstart hstream
  rw [hlength, hone] at hmarks
  exact ⟨hstream, _, hstart, hmem, hrun, by decide, hmarks⟩

/-- Samples that leave a channel over threshold, then `n` superchunks of a sample that holds it there,
and one that does not. -/
def heldSample (n k tick : Nat) : UInt16 :=
  if k = 0 then [100, 99, 98, 97, 96, 98, 97].getD tick 97 else if k ≤ n then 97 else 0

theorem flatMap_heldSample (n : Nat) :
    ((List.range (n + 2)).flatMap fun k =>
      (List.range superchunkTicks).map fun tick => heldSample n k tick &&& 0xFFF) =
        [100, 99, 98, 97, 96, 98, 97, 97, 97, 97, 97, 97] ++
          (List.replicate (n * superchunkTicks) 97 ++ 0 :: List.replicate 11 0) := by
  have hheld : ((List.range n).map (· + 1)).flatMap (fun k =>
      (List.range superchunkTicks).map fun tick => heldSample n k tick &&& 0xFFF) =
        List.replicate (n * superchunkTicks) 97 := by
    refine List.eq_replicate_iff.mpr
      ⟨by simp [List.length_flatMap, Function.comp_def], fun sample hsample => ?_⟩
    obtain ⟨k, hk, hsample⟩ := List.mem_flatMap.mp hsample
    obtain ⟨j, hj, rfl⟩ := List.mem_map.mp hk
    obtain ⟨tick, -, rfl⟩ := List.mem_map.mp hsample
    have hle : j + 1 ≤ n := List.mem_range.mp hj
    rw [heldSample, if_neg (Nat.succ_ne_zero j), if_pos hle]
    rfl
  have hfirst : ((List.range superchunkTicks).map fun tick => heldSample n 0 tick &&& 0xFFF) =
      [100, 99, 98, 97, 96, 98, 97, 97, 97, 97, 97, 97] := by
    simp only [heldSample, if_true]
    decide +kernel
  have hlast : ((List.range superchunkTicks).map fun tick => heldSample n (n + 1) tick &&& 0xFFF) =
      0 :: List.replicate 11 0 := by
    simp only [heldSample, if_neg (Nat.succ_ne_zero n), if_neg (Nat.not_succ_le_self n)]
    rfl
  have hrange : List.range (n + 2) = 0 :: (List.range n).map (· + 1) ++ [n + 1] := by
    rw [List.range_succ, List.range_succ_eq_map]
  rw [hrange, List.flatMap_append, List.flatMap_cons, List.flatMap_singleton, hfirst, hheld, hlast,
    List.append_assoc]

/-- The run that the held samples make ends in the last window and is stored there. -/
theorem held_run_stored {n : Nat} (htime : superchunkClocks * (n + 2) ≤ UInt64.size) :
    let s : Settings := {
      windowTicks := superchunkTicks
      tapCount := 1
      tapExponent := 0
      taps := some #[1]
      cutoff := Float.ofBits 0x3FB999999999999A
      stepLimit := 1 }
    let superchunks : List ByteArray := (List.range (n + 2)).map fun k =>
      Superchunk.encode .zero (UInt64.ofNat (0 + superchunkClocks * k)) fun _ => heldSample n k
    let stop := 12 + n * superchunkTicks
    (∃ f, start s = .ok f) ∧ Contiguous 0 superchunks ∧ IsRun (s.overIn superchunks 0) 5 stop ∧
      s.overIn superchunks 0 stop = false ∧
      ∃ time : UInt64, time.toNat = 0 + clocksPerTick * stop ∧ ∃ charge,
        ⟨time, ⟨0, 0, charge, wrap (stop - 5 : Nat)⟩⟩ ∈
          (s.referenceAfter superchunks (n + 2)).store.primitives := by
  intro s superchunks stop
  have hs : s.Checked := by decide +kernel
  have hstart := start_of_checked hs
  have hstream : Contiguous 0 superchunks :=
    contiguous_encode .zero (fun k _ => heldSample n k) (by rwa [Nat.zero_add])
  have hchannel : 0 < channelCount := by decide
  have hsamples := chunkStream_encode .zero (fun k => UInt64.ofNat (0 + superchunkClocks * k))
    (fun k _ => heldSample n k) (n + 2) hchannel
  rw [flatMap_heldSample] at hsamples
  have hruns : IsRun (s.overIn superchunks 0) 5 stop ∧ s.overIn superchunks 0 stop = false := by
    have hfirst : ([100, 99, 98, 97, 96, 98, 97, 97, 97, 97, 97, 97] ++
        (List.replicate (n * superchunkTicks) (97 : UInt16) ++ 0 :: List.replicate 11 0)).headD 0 =
          100 := rfl
    rw [Settings.overIn, hsamples, DetectorParams.overOn, hfirst]
    refine ChannelState.Holds.isRun ⟨?_, ?_⟩ ?_ ?_ ?_ (n * superchunkTicks) _
    all_goals decide +kernel
  have hwindows : n + 1 < superchunks.length / s.superchunksPerWindow := by
    have hone : s.superchunksPerWindow = 1 := by decide
    rw [hone, Nat.div_one, List.length_map, List.length_range]
    omega
  have hplace : (n + 1) * s.windowTicks + 0 = stop := by
    have hwindow : s.windowTicks = 12 := rfl
    simp only [stop, hwindow, superchunkTicks]
    omega
  obtain ⟨hrun, hend⟩ := hruns
  rw [← hplace] at hrun hend
  obtain ⟨window, hwindow, hmem⟩ := Settings.mem_referenceAfter hs hstream.size hwindows
    (by decide) (by decide) hrun hend (by decide)
  have htime := Settings.timestamp_window hs hstream hwindow
  rw [hplace] at hrun hend hmem
  rw [Nat.add_zero] at hplace
  rw [hplace] at htime
  exact ⟨⟨_, hstart⟩, hstream, hrun, hend, window.timestamp, htime, _, hmem⟩

/-- A run of 2147483659 ticks is stored with a negative length, and its primitive starts when it
ends. -/
theorem long_run_starts_late :
    let s : Settings := {
      windowTicks := superchunkTicks
      tapCount := 1
      tapExponent := 0
      taps := some #[1]
      cutoff := Float.ofBits 0x3FB999999999999A
      stepLimit := 1 }
    let superchunks : List ByteArray := (List.range (178956971 + 2)).map fun k =>
      Superchunk.encode .zero (UInt64.ofNat (0 + superchunkClocks * k)) fun _ =>
        heldSample 178956971 k
    (∃ f, start s = .ok f) ∧ Contiguous 0 superchunks ∧
      IsRun (s.overIn superchunks 0) 5 2147483664 ∧ s.overIn superchunks 0 2147483664 = false ∧
      ∃ t ∈ (s.referenceAfter superchunks (178956971 + 2)).store.primitives,
        t.hit.channel = 0 ∧ t.hit.ticksOver = -2147483637 ∧
          t.endTime = 0 + clocksPerTick * 2147483664 ∧ t.startTime = t.endTime ∧
            t.startTime ≠ 0 + clocksPerTick * 5 := by
  obtain ⟨hstart, hstream, hrun, hend, time, htime, charge, hmem⟩ :=
    held_run_stored (n := 178956971) (by decide)
  have hstop : 12 + 178956971 * superchunkTicks = 2147483664 := by decide
  have hlength : wrap (2147483664 - 5 : Nat) = -2147483637 := by decide
  rw [hstop] at hrun hend htime hmem
  rw [hlength] at hmem
  have hlast : TriggerPrimitive.endTime ⟨time, ⟨0, 0, charge, -2147483637⟩⟩ =
      0 + clocksPerTick * 2147483664 := by
    rw [TriggerPrimitive.endTime, htime, Nat.zero_mul, Nat.add_zero]
  have hlate : TriggerPrimitive.startTime ⟨time, ⟨0, 0, charge, -2147483637⟩⟩ =
      TriggerPrimitive.endTime ⟨time, ⟨0, 0, charge, -2147483637⟩⟩ :=
    Nat.sub_zero _
  refine ⟨hstart, hstream, hrun, hend, _, hmem, rfl, rfl, hlast, hlate, ?_⟩
  rw [hlate, hlast]
  decide

end Finder

end TpcTrigger
