import TpcTrigger.Proofs.Detection.LongRuns
import TpcTrigger.Proofs.Detection.PrimitiveTimes
import TpcTrigger.Proofs.Pipeline.SequentialSearch
import TpcTrigger.Proofs.Samples.StreamSamples

/-! # Runs that are stored

A single thread that has worked off a number of windows has in its store what the workers have after
as many windows, and as long as there is room every run that the last of these windows ends.
-/

namespace TpcTrigger

theorem Superchunk.checkSize_replicate (b : UInt8) :
    checkSize ⟨.replicate superchunkBytes b⟩ = .ok () :=
  checkSize_eq_ok_iff.mpr (by simp [ByteArray.size])

/-- In a superchunk of one and the same byte the first channel takes in one and the same sample. -/
theorem Superchunk.channelSamples_replicate (b : UInt8) :
    (ofBytes ⟨.replicate superchunkBytes b⟩).block.channelSamples 0 =
      List.replicate superchunkTicks (UInt16.ofNat (b.toNat + 256 * (b.toNat % 16))) := by
  refine List.eq_replicate_iff.mpr ⟨SampleBlock.channelSamples_length _ _, fun x hx => ?_⟩
  obtain ⟨tick, htick, rfl⟩ := List.mem_map.mp hx
  have htick := List.mem_range.mp htick
  have hbyte (i : Nat) (hi : i < superchunkBytes) :
      byteAt ⟨.replicate superchunkBytes b⟩ i = b.toNat := by
    have hsize : i < (ByteArray.mk (.replicate superchunkBytes b)).size := by
      simpa [ByteArray.size] using hi
    rw [byteAt, dif_pos hsize]
    simp [ByteArray.getElem_eq_getElem_data]
  have hblock : (ofBytes ⟨.replicate superchunkBytes b⟩).block =
      blockOfBytes ⟨.replicate superchunkBytes b⟩ := rfl
  rw [hblock, blockOfBytes, SampleBlock.sample_ofFn _ (by decide) htick, Frame.sampleIn]
  simp only [Nat.zero_mod, Nat.zero_div, Nat.zero_mul, Nat.add_zero, if_true]
  rw [hbyte, hbyte]
  all_goals
    simp only [Frame.blockOffset, headerBytes, blockHeaderBytes, superchunkBytes_eq, frameBytes_eq,
      superchunkTicks] at htick ⊢
    omega

namespace Assembly

variable {n : Nat}

theorem sample_first_completed (hn : 0 < n) {chunks : List Superchunk} {first : Window}
    {rest : List Window} (hwindows : (start n).completed chunks = first :: rest) {channel : Nat}
    (hchannel : channel < channelCount) :
    first.block.sample channel 0 = (chunkStream chunks channel).headD 0 := by
  have hone : 1 ≤ chunks.length / n := by
    rw [← length_completed hn, hwindows, List.length_cons]
    exact Nat.le_add_left _ _
  have hticks : 0 < first.ticks :=
    ticks_pos_of_mem_completed hn (by rw [hwindows]; exact List.mem_cons_self ..)
  have hstream := channelStream_completed hn hone hchannel
  rw [hwindows, List.take_one, List.head?_cons, Option.toList_some, channelStream_cons,
    channelStream_nil, List.append_nil] at hstream
  obtain ⟨ticks, hticks⟩ := Nat.exists_eq_succ_of_ne_zero hticks.ne'
  have hhead : (first.block.channelSamples channel).head? =
      some (first.block.sample channel 0) := by
    rw [SampleBlock.channelSamples, List.head?_map, List.head?_range, if_neg (by omega)]
    rfl
  have hfront : (chunkStream chunks channel).head? = some (first.block.sample channel 0) := by
    have hsplit := chunkStream_append (chunks.take (1 * n)) (chunks.drop (1 * n)) channel
    rw [List.take_append_drop] at hsplit
    rw [hsplit, List.head?_append, ← hstream, hhead]
    rfl
  rw [List.headD_eq_head?_getD, hfront]
  rfl

end Assembly

namespace Settings

variable {s : Settings} {superchunks : List ByteArray}

/-- Whether a channel is over threshold at a tick of a stream of superchunks. -/
def overIn (s : Settings) (superchunks : List ByteArray) (channel : Nat) : Nat → Bool :=
  s.detectorParams.overOn (chunkStream (superchunks.map .ofBytes) channel)

def heightIn (s : Settings) (superchunks : List ByteArray) (channel : Nat) : Nat → Int :=
  s.detectorParams.heightOn (chunkStream (superchunks.map .ofBytes) channel)

/-- The single thread after the superchunks of the first `n` windows. -/
def referenceAfter (s : Settings) (superchunks : List ByteArray) (n : Nat) : Reference :=
  (Reference.start s).run s.detectorParams (superchunks.take (n * s.superchunksPerWindow))

/-- The single thread goes through the windows that the superchunks complete. -/
theorem referenceAfter_eq (hs : s.Checked)
    (hsize : ∀ bytes ∈ superchunks, Superchunk.checkSize bytes = .ok ()) {n : Nat}
    (hn : n ≤ superchunks.length / s.superchunksPerWindow) :
    let windows := (Assembly.start s.superchunksPerWindow).completed (superchunks.map .ofBytes)
    (s.referenceAfter superchunks n).windows = (Reference.afterWindows s (windows.take n)).windows ∧
      (s.referenceAfter superchunks n).store = (Reference.afterWindows s (windows.take n)).store ∧
      (s.referenceAfter superchunks n).states =
        (Reference.afterWindows s (windows.take n)).states := by
  intro windows
  have hcompleted : (Assembly.start s.superchunksPerWindow).completed
      ((superchunks.map .ofBytes).take (n * s.superchunksPerWindow)) = windows.take n :=
    Assembly.completed_take (superchunksPerWindow_pos hs) (by rwa [List.length_map])
  have hrun := Reference.run_eq s.detectorParams (Reference.start s)
    (superchunks.take (n * s.superchunksPerWindow)) fun bytes hbytes =>
      hsize bytes (List.mem_of_mem_take hbytes)
  have hstart : (Reference.start s).assembly = .start s.superchunksPerWindow := rfl
  rw [List.map_take, hstart, hcompleted] at hrun
  rw [referenceAfter, hrun]
  exact ⟨rfl, rfl, rfl⟩

theorem store_referenceAfter (hs : s.Checked)
    (hsize : ∀ bytes ∈ superchunks, Superchunk.checkSize bytes = .ok ()) (kind : KernelKind) {n : Nat}
    (hn : n ≤ superchunks.length / s.superchunksPerWindow) :
    (s.referenceAfter superchunks n).store = s.storeAfter (s.method kind.kernel)
      ((Assembly.start s.superchunksPerWindow).completed (superchunks.map .ofBytes)) n := by
  have hpos := superchunksPerWindow_pos hs
  have hlength : n ≤ ((Assembly.start s.superchunksPerWindow).completed
      (superchunks.map .ofBytes)).length := by
    rwa [Assembly.length_completed hpos, List.length_map]
  obtain ⟨-, hstore, -⟩ := referenceAfter_eq hs hsize hn
  rw [hstore]
  cases hwindows : (Assembly.start s.superchunksPerWindow).completed (superchunks.map .ofBytes) with
  | nil =>
    rw [hwindows, List.length_nil, Nat.le_zero] at hlength
    rw [hlength]
    rfl
  | cons first rest =>
    have hticks : 0 < first.ticks :=
      Assembly.ticks_pos_of_mem_completed hpos (by rw [hwindows]; exact List.mem_cons_self ..)
    rw [hwindows] at hlength
    exact (Reference.afterWindows_take hs kind hticks rest hlength).2.1

/-- The windows of checked settings are all of one length. -/
theorem totalTicks_take_completed (hs : s.Checked) {chunks : List Superchunk} {n : Nat}
    (hn : n ≤ chunks.length / s.superchunksPerWindow) :
    totalTicks (((Assembly.start s.superchunksPerWindow).completed chunks).take n) =
      n * s.windowTicks := by
  rw [Assembly.totalTicks_completed (superchunksPerWindow_pos hs) hn, Nat.mul_assoc,
    superchunksPerWindow_mul hs]

theorem ticks_completed (hs : s.Checked) {chunks : List Superchunk} {n : Nat} {window : Window}
    (hwindow : ((Assembly.start s.superchunksPerWindow).completed chunks)[n]? = some window) :
    window.ticks = s.windowTicks := by
  have hn : n < chunks.length / s.superchunksPerWindow := by
    have hlt := (List.getElem?_eq_some_iff.mp hwindow).1
    rwa [Assembly.length_completed (superchunksPerWindow_pos hs)] at hlt
  have hnext := totalTicks_take_completed hs hn
  rw [List.take_add_one, hwindow, Option.toList_some, totalTicks_concat,
    totalTicks_take_completed hs hn.le, Nat.succ_mul] at hnext
  exact Nat.add_left_cancel hnext

/-- What a worker finds in a window is in the store after it, if the store has room for as many hits
as the ticks of the window can end. -/
theorem mem_storeAfter_succ (hs : s.Checked) (kind : KernelKind) {first window : Window}
    (hticks : 0 < first.ticks) (rest : List Window) {n channel : Nat}
    (hwindow : (first :: rest)[n]? = some window) (hchannel : channel < channelCount) {h : Hit}
    (hmem : h ∈ s.detectorParams.hitsIn first ((first :: rest).take n) window channel)
    (hroom : channelCount * window.ticks ≤ s.storeCapacity) :
    ⟨window.timestamp, h⟩ ∈
      (s.storeAfter (s.method kind.kernel) (first :: rest) (n + 1)).primitives := by
  have hcapacity (m : Nat) :
      (s.storeAfter (s.method kind.kernel) (first :: rest) m).capacity = s.storeCapacity := by
    induction m with
    | zero => rfl
    | succ m ih => rw [storeAfter_succ, PrimitiveStore.capacity_pushBatch, ih]
  obtain ⟨htime, hhits⟩ := batchAt_eq hs kind hticks rest hwindow
  rw [storeAfter_succ, htime, hhits]
  apply PrimitiveStore.mem_pushBatch
  · rw [List.mem_toArray, RegisterRange.channelList_all, List.mem_flatMap]
    exact ⟨channel, List.mem_range.mpr hchannel, hmem⟩
  · rw [hcapacity, List.size_toArray, RegisterRange.channelList_all, List.length_flatMap]
    refine le_trans (List.sum_le_card_nsmul _ window.ticks ?_) ?_
    · intro count hcount
      obtain ⟨c, -, rfl⟩ := List.mem_map.mp hcount
      exact s.detectorParams.length_hitsIn_le ..
    · rwa [List.length_map, List.length_range, smul_eq_mul]

theorem mem_referenceAfter (hs : s.Checked)
    (hsize : ∀ bytes ∈ superchunks, Superchunk.checkSize bytes = .ok ()) {n : Nat}
    (hn : n < superchunks.length / s.superchunksPerWindow) {channel start tick : Nat}
    (hchannel : channel < channelCount) (htick : tick < s.windowTicks)
    (hrun : IsRun (s.overIn superchunks channel) start (n * s.windowTicks + tick))
    (hend : s.overIn superchunks channel (n * s.windowTicks + tick) = false)
    (hroom : channelCount * s.windowTicks ≤ s.storeCapacity) :
    ∃ window, ((Assembly.start s.superchunksPerWindow).completed
        (superchunks.map .ofBytes))[n]? = some window ∧
      ⟨window.timestamp, ⟨channel, tick,
        gathered (s.heightIn superchunks channel) start (n * s.windowTicks + tick),
        wrap (n * s.windowTicks + tick - start : Nat)⟩⟩ ∈
          (s.referenceAfter superchunks (n + 1)).store.primitives := by
  have hpos := superchunksPerWindow_pos hs
  rw [store_referenceAfter hs hsize .channelwise hn]
  have hlength : n < (superchunks.map Superchunk.ofBytes).length / s.superchunksPerWindow := by
    rwa [List.length_map]
  obtain ⟨window, hwindow⟩ : ∃ window, ((Assembly.start s.superchunksPerWindow).completed
      (superchunks.map .ofBytes))[n]? = some window :=
    ⟨_, List.getElem?_eq_getElem (by rwa [Assembly.length_completed hpos])⟩
  have hticks := ticks_completed hs hwindow
  have hbefore := totalTicks_take_completed hs hlength.le
  have hprefix := Assembly.channelStream_completed_prefix hpos hlength hchannel
  rw [List.take_add_one, hwindow, Option.toList_some] at hprefix
  obtain ⟨first, rest, hwindows⟩ : ∃ first rest, (Assembly.start s.superchunksPerWindow).completed
      (superchunks.map .ofBytes) = first :: rest :=
    List.exists_cons_of_ne_nil fun hnone => by rw [hnone] at hwindow; cases hwindow
  have hstart := Assembly.sample_first_completed hpos hwindows hchannel
  have hfirst : 0 < first.ticks :=
    Assembly.ticks_pos_of_mem_completed hpos (by rw [hwindows]; exact List.mem_cons_self ..)
  rw [← hbefore] at hrun hend
  have hmem := s.detectorParams.mem_hitsIn_of_isRun hprefix hstart (hticks ▸ htick) hrun hend
  rw [hwindows] at hwindow hmem hbefore ⊢
  refine ⟨window, hwindow, ?_⟩
  rw [← hbefore]
  exact mem_storeAfter_succ hs .channelwise hfirst rest hwindow hchannel hmem (hticks ▸ hroom)

/-- A filter whose last tap is negative is over threshold for one tick behind a fall from the greatest
sample to zero, and the window of the tick behind has the hit. -/
theorem fall_stored (hs : s.Checked) (hparams : s.detectorParams = ⟨⟨#[64, -3], 6⟩, 5, 10⟩)
    (hroom : channelCount * s.windowTicks ≤ s.storeCapacity) {rest : List ByteArray}
    (hsize : ∀ bytes ∈ rest, Superchunk.checkSize bytes = .ok ()) {n tick : Nat}
    (htick : tick < s.windowTicks) (hplace : n * s.windowTicks + tick = 14)
    (hn : n < (rest.length + 2) / s.superchunksPerWindow) :
    ∃ time charge, ⟨time, ⟨0, tick, charge, 1⟩⟩ ∈ (s.referenceAfter
      (⟨.replicate superchunkBytes 255⟩ :: ⟨.replicate superchunkBytes 0⟩ :: rest)
        (n + 1)).store.primitives := by
  have hsamples : chunkStream ((⟨.replicate superchunkBytes 255⟩ ::
      ⟨.replicate superchunkBytes 0⟩ :: rest).map .ofBytes) 0 =
        (List.replicate 12 4095 ++ List.replicate 12 0) ++ chunkStream (rest.map .ofBytes) 0 := by
    simp only [chunkStream, List.map_cons, List.flatMap_cons, Superchunk.channelSamples_replicate,
      List.append_assoc]
    rfl
  have hover (t : Nat) (ht : t < 24) :
      s.overIn (⟨.replicate superchunkBytes 255⟩ :: ⟨.replicate superchunkBytes 0⟩ :: rest) 0 t =
        ChannelState.overAt (Tracker.observe 10) (DetectorParams.mk ⟨#[64, -3], 6⟩ 5 10).detector
          ((ChannelState.fresh 2).seed 4095) (List.replicate 12 4095 ++ List.replicate 12 0) t := by
    rw [overIn, DetectorParams.overOn, hsamples, hparams]
    exact ChannelState.overAt_append _ _ _ (by simpa using ht) _
  have hrun : IsRun (s.overIn (⟨.replicate superchunkBytes 255⟩ ::
      ⟨.replicate superchunkBytes 0⟩ :: rest) 0) 13 14 := by
    refine ⟨by decide, fun t ht hstart => ?_, .inr ?_⟩
    · obtain rfl : t = 13 := by omega
      rw [hover 13 (by decide)]
      decide +kernel
    · rw [hover 12 (by decide)]
      decide +kernel
  have hend : s.overIn (⟨.replicate superchunkBytes 255⟩ ::
      ⟨.replicate superchunkBytes 0⟩ :: rest) 0 14 = false := by
    rw [hover 14 (by decide)]
    decide +kernel
  rw [← hplace] at hrun hend
  have hall : ∀ bytes ∈ (⟨.replicate superchunkBytes 255⟩ :: ⟨.replicate superchunkBytes 0⟩ :: rest),
      Superchunk.checkSize bytes = .ok () := by
    intro bytes hbytes
    rcases List.mem_cons.mp hbytes with rfl | hbytes
    · exact Superchunk.checkSize_replicate 255
    · rcases List.mem_cons.mp hbytes with rfl | hbytes
      · exact Superchunk.checkSize_replicate 0
      · exact hsize bytes hbytes
  obtain ⟨window, -, hmem⟩ := mem_referenceAfter hs hall hn (by decide) htick hrun hend hroom
  rw [hplace] at hmem
  exact ⟨_, _, hmem⟩

end Settings

end TpcTrigger
