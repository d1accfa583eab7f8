import TpcTrigger.Proofs.Detection.CarriedStates
import TpcTrigger.Proofs.Samples.AssemblyAnswers

/-! # The samples of a stream

The windows of a stream hold, channel by channel, the samples of the superchunks that they are
made of, one superchunk after the other.  So a tick of a window has a place in the whole stream:
it comes behind all ticks of the windows before it.
-/

namespace TpcTrigger

def chunkStream (chunks : List Superchunk) (channel : Nat) : List UInt16 :=
  chunks.flatMap (·.block.channelSamples channel)

theorem chunkStream_append (xs ys : List Superchunk) (channel : Nat) :
    chunkStream (xs ++ ys) channel = chunkStream xs channel ++ chunkStream ys channel :=
  List.flatMap_append

theorem length_chunkStream (chunks : List Superchunk) (channel : Nat) :
    (chunkStream chunks channel).length = chunks.length * superchunkTicks := by
  induction chunks with
  | nil => rfl
  | cons chunk chunks ih =>
    rw [chunkStream, List.flatMap_cons, List.length_append, SampleBlock.channelSamples_length,
      ← chunkStream, ih, List.length_cons, Nat.succ_mul, Nat.add_comm]

theorem getElem?_chunkStream (chunks : List Superchunk) (channel j : Nat) {i : Nat}
    (hi : i < superchunkTicks) :
    (chunkStream chunks channel)[j * superchunkTicks + i]? =
      chunks[j]?.map fun chunk => chunk.block.sample channel i := by
  induction chunks generalizing j with
  | nil => rfl
  | cons chunk chunks ih =>
    rw [chunkStream, List.flatMap_cons, ← chunkStream]
    cases j with
    | zero =>
      rw [Nat.zero_mul, Nat.zero_add, List.getElem?_append_left (by simpa using hi)]
      simp [SampleBlock.channelSamples, hi]
    | succ j =>
      have hplace : (j + 1) * superchunkTicks + i =
          superchunkTicks + (j * superchunkTicks + i) := by
        rw [Nat.succ_mul]
        omega
      rw [hplace, List.getElem?_append_right (by simp), SampleBlock.channelSamples_length,
        Nat.add_sub_cancel_left, ih, List.getElem?_cons_succ]

namespace Assembly

theorem channelSamples_finish (sequence : UInt64) (chunks : Array Superchunk) {channel : Nat}
    (hchannel : channel < channelCount) :
    (finish sequence chunks).block.channelSamples channel = chunkStream chunks.toList channel := by
  apply List.ext_getElem?
  intro t
  by_cases ht : t < chunks.size * superchunkTicks
  · have hplace : t / superchunkTicks * superchunkTicks + t % superchunkTicks = t :=
      Nat.div_add_mod' _ _
    have hstream := getElem?_chunkStream chunks.toList channel (t / superchunkTicks)
      (Nat.mod_lt t (by decide : 0 < superchunkTicks))
    rw [hplace] at hstream
    rw [hstream, SampleBlock.channelSamples, List.getElem?_map,
      List.getElem?_range (by exact ht), Option.map_some, finish,
      SampleBlock.sample_ofFn _ hchannel ht]
    have hin : t / superchunkTicks < chunks.size :=
      Nat.div_lt_of_lt_mul (by rwa [Nat.mul_comm])
    simp [hin]
  · rw [List.getElem?_eq_none, List.getElem?_eq_none]
    · rw [length_chunkStream, Array.length_toList]
      omega
    · rw [SampleBlock.channelSamples_length]
      exact Nat.le_of_not_lt ht

/-- The first windows hold the first superchunks. -/
theorem channelStream_completed {n k : Nat} (hn : 0 < n) {chunks : List Superchunk}
    (hk : k ≤ chunks.length / n) {channel : Nat} (hchannel : channel < channelCount) :
    channelStream (((start n).completed chunks).take k) channel =
      chunkStream (chunks.take (k * n)) channel := by
  rw [← completed_take hn hk, completed_front hn (Nat.mul_le_of_le_div _ _ _ hk),
    Nat.mul_div_cancel _ hn, channelStream, List.flatMap_map]
  induction k with
  | zero => simp [chunkStream]
  | succ k ih =>
    rw [List.range_succ, List.flatMap_append, ih (by omega), List.flatMap_singleton, nthWindow,
      channelSamples_finish _ _ hchannel, Nat.succ_mul, List.take_add, chunkStream_append]

theorem channelStream_completed_prefix {n k : Nat} (hn : 0 < n) {chunks : List Superchunk}
    (hk : k ≤ chunks.length / n) {channel : Nat} (hchannel : channel < channelCount) :
    channelStream (((start n).completed chunks).take k) channel <+: chunkStream chunks channel := by
  have hsplit := chunkStream_append (chunks.take (k * n)) (chunks.drop (k * n)) channel
  rw [List.take_append_drop] at hsplit
  rw [channelStream_completed hn hk hchannel]
  exact ⟨_, hsplit.symm⟩

theorem totalTicks_completed {n k : Nat} (hn : 0 < n) {chunks : List Superchunk}
    (hk : k ≤ chunks.length / n) :
    totalTicks (((start n).completed chunks).take k) = k * n * superchunkTicks := by
  have hlength : k * n ≤ chunks.length := Nat.mul_le_of_le_div _ _ _ hk
  rw [← channelStream_length _ 0, channelStream_completed hn hk (by decide), length_chunkStream,
    List.length_take_of_le hlength]

end Assembly

end TpcTrigger
