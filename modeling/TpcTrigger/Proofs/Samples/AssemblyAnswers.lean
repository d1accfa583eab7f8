import TpcTrigger.Proofs.Samples.BufferAssembly

/-! # What an assembly answers

Of the superchunks that are pushed into a new assembly of `n` to a window, every `n`-th is
answered by a window and no other is.  The windows are cut from the stream without a gap: number
`k` holds the samples of the superchunks from `k * n` on, each in its place.
-/

namespace TpcTrigger

/-- Whether a window is number `k` of a stream with `n` superchunks to each. -/
structure Window.Spans (w : Window) (n : Nat) (chunks : List Superchunk) (k : Nat) : Prop where
  sequence : w.sequence = UInt64.ofNat k
  first : ∃ chunk, chunks[k * n]? = some chunk ∧
    w.timestamp = chunk.timestamp ∧ w.link = chunk.header.link
  ticks : w.ticks = superchunkTicks * n
  samples : ∀ j < n, ∃ chunk, chunks[k * n + j]? = some chunk ∧
    ∀ channel < channelCount, ∀ i < superchunkTicks, ∃ sample,
      chunk.block.sample? channel i = some sample ∧
        w.sample? channel (superchunkTicks * j + i) = some sample

namespace Assembly

theorem getElem?_chunks {n j : Nat} (hj : j < n) (chunks : List Superchunk) (k : Nat) :
    ((chunks.drop (k * n)).take n).toArray[j]? = chunks[k * n + j]? := by
  rw [List.getElem?_toArray, List.getElem?_take_of_lt hj, List.getElem?_drop]

theorem spans_nthWindow {n k : Nat} (hn : 0 < n) {chunks : List Superchunk}
    (hk : (k + 1) * n ≤ chunks.length) : (nthWindow n chunks k).Spans n chunks k := by
  rw [Nat.succ_mul] at hk
  have hsize : ((chunks.drop (k * n)).take n).toArray.size = n := by
    rw [List.size_toArray, List.length_take, List.length_drop]
    omega
  have hchunk (j : Nat) (hj : j < n) : chunks[k * n + j]? = some chunks[k * n + j] :=
    List.getElem?_eq_getElem _
  have hfirst := (getElem?_chunks hn chunks k).trans (hchunk 0 hn)
  constructor
  · rfl
  · refine ⟨_, hchunk 0 hn, ?_, ?_⟩
    · rw [nthWindow, finish, hfirst]
      rfl
    · rw [nthWindow, finish, hfirst]
      rfl
  · exact (congrArg (· * superchunkTicks) hsize).trans (Nat.mul_comm _ _)
  · intro j hj
    refine ⟨_, hchunk j hj, fun channel hchannel i hi => ?_⟩
    have htick : superchunkTicks * j + i <
        ((chunks.drop (k * n)).take n).toArray.size * superchunkTicks := by
      rw [hsize]
      simp only [superchunkTicks] at hi ⊢
      omega
    obtain ⟨hdiv, hmod⟩ : (superchunkTicks * j + i) / superchunkTicks = j ∧
        (superchunkTicks * j + i) % superchunkTicks = i :=
      (Nat.div_mod_unique (by decide)).mpr ⟨Nat.add_comm _ _, hi⟩
    refine ⟨_, SampleBlock.sample?_eq _ hchannel hi, ?_⟩
    rw [nthWindow, Window.sample?, finish, SampleBlock.sample?_eq _ hchannel htick,
      SampleBlock.sample_ofFn _ hchannel htick, hdiv, hmod, getElem?_chunks hj, hchunk j hj]
    rfl

theorem pending_after {n : Nat} (hn : 0 < n) (chunks : List Superchunk) :
    ((start n).after chunks).pending = chunks.length % n := by
  have hsplit := Nat.div_add_mod' chunks.length n
  rw [(after_start hn chunks).1, pending, List.size_toArray, List.length_drop]
  omega

theorem getElem?_answers (a : Assembly) {chunks : List Superchunk} {i : Nat}
    (hi : i < chunks.length) :
    (a.answers chunks)[i]? = some ((a.after (chunks.take i)).push chunks[i]).2 := by
  induction chunks generalizing a i with
  | nil => exact absurd hi (Nat.not_lt_zero i)
  | cons chunk chunks ih =>
    cases i with
    | zero => rfl
    | succ i =>
      rw [answers, List.getElem?_cons_succ, ih _ (Nat.lt_of_succ_lt_succ hi)]
      rfl

theorem completed_front {n i : Nat} (hn : 0 < n) {chunks : List Superchunk}
    (hi : i ≤ chunks.length) :
    (start n).completed (chunks.take i) = (List.range (i / n)).map (nthWindow n chunks) := by
  have hlength : (chunks.take i).length = i := List.length_take_of_le hi
  rw [(after_start hn _).2, hlength]
  apply List.map_congr_left
  intro k hk
  have happend := nthWindow_append (hlength.symm ▸ List.mem_range.mp hk) (chunks.drop i)
  rw [← happend, List.take_append_drop]

theorem push_after_take {n i : Nat} (hn : 0 < n) {chunks : List Superchunk}
    (hi : i < chunks.length) :
    (((start n).after (chunks.take i)).push chunks[i]).2 =
      if n ∣ i + 1 then some (nthWindow n chunks (i / n)) else none := by
  -- One more superchunk completes exactly its own answer.
  have hone : (start n).completed (chunks.take (i + 1)) =
      (start n).completed (chunks.take i) ++
        (((start n).after (chunks.take i)).push chunks[i]).2.toList := by
    rw [← List.take_append_getElem hi, completed_append, completed, completed, List.append_nil]
  rw [completed_front hn hi, completed_front hn (Nat.le_of_lt hi)] at hone
  by_cases hlast : n ∣ i + 1
  · rw [Nat.succ_div_of_dvd hlast, List.range_succ, List.map_append, List.append_cancel_left_eq]
      at hone
    rw [if_pos hlast]
    exact (Option.toList_eq_singleton_iff.mp hone.symm)
  · rw [Nat.succ_div_of_not_dvd hlast] at hone
    rw [if_neg hlast]
    exact Option.toList_eq_nil_iff.mp (List.self_eq_append_right.mp hone)

/-- Whether superchunks are gathered or laid out as they arrive, every `n`-th of a stream is
answered by a window, and the windows hold the stream from its front on. -/
theorem answers_of_stream {n : Nat} (hn : 0 < n) (chunks : List Superchunk) :
    ((start n).after chunks).pending = chunks.length % n ∧
      (∃ buffer : BufferAssembly n,
        BufferAssembly.run? {} chunks = some (buffer, (start n).answers chunks) ∧
          buffer.filled = chunks.length % n) ∧
      (∀ i < chunks.length, ∃ answer, ((start n).answers chunks)[i]? = some answer ∧
        (answer.isSome ↔ n ∣ i + 1)) ∧
      ∀ k, (k + 1) * n ≤ chunks.length →
        ∃ window, ((start n).answers chunks)[(k + 1) * n - 1]? = some (some window) ∧
          window.Spans n chunks k := by
  refine ⟨pending_after hn chunks, ?_, ?_, ?_⟩
  · obtain ⟨buffer, hrun, hholds⟩ := (BufferAssembly.holds_start hn).run chunks
    exact ⟨buffer, hrun, hholds.filled.trans (pending_after hn chunks)⟩
  · intro i hi
    refine ⟨_, getElem?_answers _ hi, ?_⟩
    rw [push_after_take hn hi]
    by_cases hlast : n ∣ i + 1 <;> simp [hlast]
  · intro k hk
    have hpos : 0 < (k + 1) * n := Nat.mul_pos (Nat.succ_pos k) hn
    have hi : (k + 1) * n - 1 < chunks.length := by omega
    have hlast : n ∣ (k + 1) * n - 1 + 1 := by
      rw [Nat.sub_add_cancel hpos]
      exact Nat.dvd_mul_left n (k + 1)
    have hnumber : ((k + 1) * n - 1) / n = k := by
      apply Nat.div_eq_of_lt_le
      · rw [Nat.succ_mul]
        omega
      · exact Nat.sub_one_lt_of_lt hpos
    refine ⟨nthWindow n chunks k, ?_, spans_nthWindow hn hk⟩
    rw [getElem?_answers _ hi, push_after_take hn hi, if_pos hlast, hnumber]

/-- A ramp that goes on from superchunk to superchunk, two to a window. -/
theorem answers_of_stream_ramp :
    let chunk (tick : Nat) : Superchunk :=
      ⟨.start ⟨1, 2, 1⟩ (UInt64.ofNat (1000 + clocksPerTick * tick)),
        .ofFn _ fun channel i => UInt16.ofNat (channel + tick + i)⟩
    let chunks := [chunk 0, chunk 12, chunk 24]
    ((start 2).after chunks).pending = 1 ∧
      ∃ window, ((start 2).answers chunks)[1]? = some (some window) ∧ window.timestamp = 1000 ∧
        window.ticks = 24 ∧ window.sample? 17 23 = some 40 := by
  intro chunk chunks
  obtain ⟨hpending, -, -, hwindows⟩ := answers_of_stream (show 0 < 2 by decide) chunks
  have hlength : chunks.length = 3 := rfl
  rw [hlength] at hpending
  obtain ⟨window, hanswer, hspans⟩ := hwindows 0 (by decide)
  obtain ⟨first, hfirst, htimestamp, -⟩ := hspans.first
  obtain ⟨second, hsecond, hsamples⟩ := hspans.samples 1 (by decide)
  obtain ⟨sample, hsample, hplace⟩ := hsamples 17 (by decide) 11 (by decide)
  obtain rfl : chunk 0 = first := Option.some.inj hfirst
  obtain rfl : chunk 12 = second := Option.some.inj hsecond
  refine ⟨hpending, window, hanswer, htimestamp, hspans.ticks, hplace.trans (hsample.symm.trans ?_)⟩
  rw [SampleBlock.sample?_eq _ (by decide) (by decide),
    SampleBlock.sample_ofFn _ (by decide) (by decide)]
  rfl

end Assembly

end TpcTrigger
