import TpcTrigger.Proofs.Frame.RoundTrip
import TpcTrigger.Proofs.Samples.WindowSequence

/-! # Samples of the readout

A sample has twelve bits on the wire.  So whatever bytes a superchunk is decoded from, and whatever
window it comes to be in, its samples do not exceed the greatest sample.
-/

namespace TpcTrigger

def SampleBlock.Readout {ticks : Nat} (b : SampleBlock ticks) : Prop :=
  ∀ x ∈ b.cells, x.toNat ≤ maxSample

namespace SampleBlock

variable {ticks : Nat} {b : SampleBlock ticks}

theorem Readout.sample_le (h : b.Readout) (channel tick : Nat) :
    (b.sample channel tick).toNat ≤ maxSample := by
  rw [sample, sample?]
  cases hcell : b.cells[place ticks channel tick]? with
  | none => exact Nat.zero_le _
  | some x => exact h x (Vector.mem_of_getElem? hcell)

theorem Readout.channelSamples_le (h : b.Readout) (channel : Nat) :
    ∀ x ∈ b.channelSamples channel, x.toNat ≤ maxSample := by
  intro x hx
  obtain ⟨tick, -, rfl⟩ := List.mem_map.mp hx
  exact h.sample_le channel tick

theorem readout_ofFn (ticks : Nat) {f : Nat → Nat → UInt16}
    (h : ∀ channel tick, (f channel tick).toNat ≤ maxSample) : (ofFn ticks f).Readout := by
  intro x hx
  obtain ⟨i, rfl⟩ := Vector.mem_ofFn.mp hx
  exact h _ _

end SampleBlock

theorem Superchunk.readout_ofBytes (bytes : ByteArray) : (ofBytes bytes).block.Readout := by
  have hsample (channel tick : Nat) :
      (UInt16.ofNat (Frame.sampleIn bytes (tick * frameBytes) channel)).toNat ≤ maxSample := by
    have hlt := Frame.sampleIn_lt bytes (tick * frameBytes) channel
    rw [UInt16.toNat_ofNat', Nat.mod_eq_of_lt (by omega)]
    exact Nat.le_of_lt_succ hlt
  have hblock : (blockOfBytes bytes).Readout := by
    rw [blockOfBytes]
    exact SampleBlock.readout_ofFn superchunkTicks hsample
  exact hblock

theorem Assembly.readout_of_mem_completed {n : Nat} (hn : 0 < n) {chunks : List Superchunk}
    (hchunks : ∀ chunk ∈ chunks, chunk.block.Readout) {window : Window}
    (hwindow : window ∈ (start n).completed chunks) : window.block.Readout := by
  rw [(after_start hn chunks).2] at hwindow
  obtain ⟨k, -, rfl⟩ := List.mem_map.mp hwindow
  refine SampleBlock.readout_ofFn _ fun channel tick => ?_
  cases hchunk : ((chunks.drop (k * n)).take n).toArray[tick / superchunkTicks]? with
  | none => exact Nat.zero_le _
  | some chunk =>
    have hmem : chunk ∈ (chunks.drop (k * n)).take n := by
      rw [List.getElem?_toArray] at hchunk
      exact List.mem_of_getElem? hchunk
    exact (hchunks chunk (List.mem_of_mem_drop (List.mem_of_mem_take hmem))).sample_le _ _

end TpcTrigger
