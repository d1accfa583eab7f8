import TpcTrigger.Proofs.Store.Batches
import Mathlib.Data.List.DropRight

/-! # A store holds the newest primitives

Whatever a store is asked, and in whatever order, it holds the newest of all primitives that
were ever pushed, as many as it has room for and in the order in which they came.  The others
have been counted.  A query hands out those of a span of time and leaves no trace.
-/

namespace TpcTrigger

/-- The end of a list can be cut to its length before or after more is added behind it. -/
theorem rtake_rtake_append {α : Type} (n : Nat) (xs ys : List α) :
    (xs.rtake n ++ ys).rtake n = (xs ++ ys).rtake n := by
  have hless : min (n - ys.reverse.length) n = n - ys.reverse.length := by omega
  simp only [List.rtake_eq_reverse_take_reverse, List.reverse_append, List.reverse_reverse,
    List.take_append, List.take_take, hless]

namespace PrimitiveStore

inductive Request where
  /-- Takes in the hits of one window. -/
  | push (windowTime : UInt64) (hits : Array Hit)
  /-- Hands out the primitives whose window starts between two times. -/
  | query (first last : UInt64)

def Request.pushed : Request → List TriggerPrimitive
  | push windowTime hits => stamped windowTime hits.toList
  | query _ _ => []

def handle (s : PrimitiveStore) : Request → PrimitiveStore × Option (Array TriggerPrimitive)
  | .push windowTime hits => (s.pushBatch windowTime hits, none)
  | .query first last => (s, some (s.inRange first last))

def after (s : PrimitiveStore) (requests : List Request) : PrimitiveStore :=
  requests.foldl (fun s request => (s.handle request).1) s

theorem toList_pushBatch (s : PrimitiveStore) (windowTime : UInt64) (hits : Array Hit) :
    (s.pushBatch windowTime hits).primitives.toList =
      (s.primitives.toList ++ stamped windowTime hits.toList).rtake s.capacity := by
  rw [pushBatch, toList_evict, List.rtake]
  simp [size, stamped]

/-- A store that has room for `capacity` primitives holds the newest of those pushed. -/
structure Newest (capacity : Nat) (pushed : List TriggerPrimitive) (s : PrimitiveStore) : Prop where
  capacity_eq : s.capacity = capacity
  toList_eq : s.primitives.toList = pushed.rtake capacity
  size_add_evicted : s.size + s.evicted = pushed.length

namespace Newest

variable {capacity : Nat} {pushed : List TriggerPrimitive} {s : PrimitiveStore}

theorem start (capacity : Nat) : Newest capacity [] { capacity } where
  capacity_eq := rfl
  toList_eq := (List.rtake_nil capacity).symm
  size_add_evicted := rfl

theorem handle (h : s.Newest capacity pushed) (request : Request) :
    (s.handle request).1.Newest capacity (pushed ++ request.pushed) := by
  cases request with
  | push windowTime hits =>
    refine ⟨(s.capacity_pushBatch windowTime hits).trans h.capacity_eq, ?_, ?_⟩
    · rw [PrimitiveStore.handle, toList_pushBatch, h.capacity_eq, h.toList_eq, rtake_rtake_append]
      rfl
    · have hlength : (stamped windowTime hits.toList).length = hits.size := by simp [stamped]
      rw [PrimitiveStore.handle, size_add_evicted_pushBatch, h.size_add_evicted, List.length_append,
        Request.pushed, hlength]
  | query first last =>
    rw [Request.pushed, List.append_nil]
    exact h

theorem after (h : s.Newest capacity pushed) (requests : List Request) :
    (s.after requests).Newest capacity (pushed ++ requests.flatMap Request.pushed) := by
  induction requests generalizing s pushed with
  | nil =>
    rw [List.flatMap_nil, List.append_nil]
    exact h
  | cons request requests ih =>
    rw [List.flatMap_cons, ← List.append_assoc]
    exact ih (h.handle request)

theorem size_eq (h : s.Newest capacity pushed) : s.size = min capacity pushed.length := by
  rw [size, ← Array.length_toList, h.toList_eq, List.rtake, List.length_drop]
  omega

end Newest

/-- After any requests a store holds the newest primitives that its capacity allows, in the order
in which they were pushed, and has counted the others.  A query hands out those of them whose
window starts between its times, and changes nothing. -/
theorem holds_newest (capacity : Nat) (requests : List Request) :
    let pushed := requests.flatMap Request.pushed
    let s := ({ capacity } : PrimitiveStore).after requests
    s.primitives.toList = pushed.rtake (min capacity pushed.length) ∧
      s.size = min capacity pushed.length ∧
      s.evicted = pushed.length - s.size ∧
      ∀ first last, s.handle (.query first last) =
        (s, some (s.primitives.toList.filter fun p =>
          first ≤ p.windowTime ∧ p.windowTime ≤ last).toArray) := by
  intro pushed s
  have h : s.Newest capacity pushed := (Newest.start capacity).after requests
  have hcut : pushed.rtake (min capacity pushed.length) = pushed.rtake capacity := by
    rw [List.rtake, List.rtake]
    congr 1
    omega
  refine ⟨h.toList_eq.trans hcut.symm, h.size_eq, ?_, fun first last => ?_⟩
  · have hcount := h.size_add_evicted
    omega
  · rw [PrimitiveStore.handle, inRange, ← Array.toList_filter]

/-- Three windows overflow a store of two; the earliest time came last and is found. -/
example : (({ capacity := 2 } : PrimitiveStore).after
    [.push 300 #[⟨1, 0, 0, 1⟩], .push 400 #[⟨2, 0, 0, 1⟩, ⟨3, 0, 0, 1⟩], .query 0 500,
      .push 100 #[⟨4, 0, 0, 1⟩]]).handle (.query 100 300) =
    (⟨2, #[⟨400, ⟨3, 0, 0, 1⟩⟩, ⟨100, ⟨4, 0, 0, 1⟩⟩], 2⟩, some #[⟨100, ⟨4, 0, 0, 1⟩⟩]) := by
  decide +kernel

end PrimitiveStore

end TpcTrigger
