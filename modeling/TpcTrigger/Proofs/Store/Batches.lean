import TpcTrigger.Store
import Mathlib.Tactic

/-! # What a batch does to the store

A batch is added behind what is there, and then as many primitives go at the front as are too
many.  What is left is a suffix, and what has gone is counted.
-/

namespace TpcTrigger

def stamped (windowTime : UInt64) (hits : List Hit) : List TriggerPrimitive :=
  hits.map fun h => ⟨windowTime, h⟩

namespace PrimitiveStore

variable (s : PrimitiveStore) (windowTime : UInt64) (hits : Array Hit)

theorem toList_evict :
    s.evict.primitives.toList = s.primitives.toList.drop (s.size - s.capacity) := by
  by_cases hzero : s.size - s.capacity = 0
  · simp [evict, hzero]
  · simp [evict, hzero, Array.toList_extract]

theorem capacity_evict : s.evict.capacity = s.capacity := by
  simp only [evict]
  split <;> rfl

theorem capacity_pushBatch : (s.pushBatch windowTime hits).capacity = s.capacity := by
  rw [pushBatch, capacity_evict]

theorem size_add_evicted_evict : s.evict.size + s.evict.evicted = s.size + s.evicted := by
  by_cases hzero : s.size - s.capacity = 0
  · simp [evict, hzero]
  · have hsize : (s.primitives.extract (s.size - s.capacity)).size =
        s.size - (s.size - s.capacity) := by
      rw [Array.size_extract, size, Nat.min_self]
    simp only [evict, hzero, if_false]
    rw [size, hsize]
    omega

/-- The store keeps an end of what it held before and the batch. -/
theorem suffix_pushBatch :
    (s.pushBatch windowTime hits).primitives.toList <:+
      s.primitives.toList ++ stamped windowTime hits.toList := by
  rw [pushBatch, toList_evict]
  simp only [Array.toList_append, Array.toList_map]
  exact List.drop_suffix _ _

/-- A batch for which the store has room stays as a whole. -/
theorem mem_pushBatch {h : Hit} (hmem : h ∈ hits) (hroom : hits.size ≤ s.capacity) :
    ⟨windowTime, h⟩ ∈ (s.pushBatch windowTime hits).primitives := by
  have hdrop : s.primitives.size + hits.size - s.capacity ≤ s.primitives.toList.length := by
    rw [Array.length_toList]
    omega
  rw [← Array.mem_toList_iff, pushBatch, toList_evict]
  simp only [size, Array.size_append, Array.size_map, Array.toList_append, Array.toList_map]
  rw [List.drop_append_of_le_length hdrop]
  exact List.mem_append_right _ (List.mem_map_of_mem (Array.mem_toList_iff.mpr hmem))

theorem size_add_evicted_pushBatch :
    (s.pushBatch windowTime hits).size + (s.pushBatch windowTime hits).evicted =
      s.size + s.evicted + hits.size := by
  rw [pushBatch, size_add_evicted_evict]
  simp only [size, Array.size_append, Array.size_map]
  omega

end PrimitiveStore

end TpcTrigger
