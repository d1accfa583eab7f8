import TpcTrigger.Pipeline.Merger
import TpcTrigger.Proofs.Pipeline.DispatchCourse

/-! # The merger's course

The results that all workers give for one window make up its batch, and the store after a
number of windows is that into which their batches were pushed in order.  The merger holds the
first results of the batch next in turn, and later windows change neither it nor the store.
-/

namespace TpcTrigger

namespace Settings

variable (s : Settings) (m : Method)

/-- The results of all workers for the window number `k`. -/
def batchAt (windows : List Window) (k : Nat) : List WindowResult :=
  s.crew.map (·.resultAt m windows k)

def storeAfter (windows : List Window) (n : Nat) : PrimitiveStore :=
  (List.range n).foldl (fun store k =>
    store.pushBatch (batchTime (s.batchAt m windows k)) (batchHits (s.batchAt m windows k)))
    { capacity := s.storeCapacity }

theorem batchAt_append {windows : List Window} {k : Nat} (hk : k < windows.length)
    (more : List Window) : s.batchAt m (windows ++ more) k = s.batchAt m windows k := by
  apply List.map_congr_left
  intro w _
  exact w.resultAt_append m hk more

theorem storeAfter_succ (windows : List Window) (n : Nat) :
    s.storeAfter m windows (n + 1) = (s.storeAfter m windows n).pushBatch
      (batchTime (s.batchAt m windows n)) (batchHits (s.batchAt m windows n)) := by
  rw [storeAfter, List.range_succ, List.foldl_append]
  rfl

theorem storeAfter_append {windows : List Window} {n : Nat} (hn : n ≤ windows.length)
    (more : List Window) : s.storeAfter m (windows ++ more) n = s.storeAfter m windows n := by
  induction n with
  | zero => rfl
  | succ n ih =>
    rw [storeAfter_succ, storeAfter_succ, ih (by omega), batchAt_append s m (by omega)]

end Settings

namespace Merger

structure Follows (s : Settings) (m : Method) (windows : List Window) (stored : Nat)
    (store : PrimitiveStore) (g : Merger) : Prop where
  batch : g.batch = (s.batchAt m windows stored).take g.batch.length
  store : store = s.storeAfter m windows stored
  stored_le : stored ≤ windows.length
  started : g.batch ≠ [] → stored < windows.length
  idle : g.phase ≠ .collecting → g.batch = []

namespace Follows

variable {s : Settings} {m : Method} {windows : List Window} {stored : Nat}
  {store : PrimitiveStore} {g : Merger}

theorem extend (hg : g.Follows s m windows stored store) (more : List Window) :
    g.Follows s m (windows ++ more) stored store := by
  refine ⟨?_, ?_, ?_, ?_, hg.idle⟩
  · by_cases hbatch : g.batch = []
    · simp [hbatch]
    · rw [s.batchAt_append m (hg.started hbatch)]
      exact hg.batch
  · rw [s.storeAfter_append m hg.stored_le]
    exact hg.store
  · rw [List.length_append]
    exact hg.stored_le.trans (Nat.le_add_right _ _)
  · intro hbatch
    rw [List.length_append]
    exact Nat.lt_add_right _ (hg.started hbatch)

theorem collect (hg : g.Follows s m windows stored store) (hphase : g.phase = .collecting)
    (hstored : stored < windows.length) {w : Worker} (hw : s.crew[g.batch.length]? = some w) :
    { g with batch := g.batch ++ [w.resultAt m windows stored] }.Follows s m windows stored
      store := by
  refine ⟨?_, hg.store, hg.stored_le, fun _ => hstored, fun h => absurd hphase h⟩
  have hnext : (s.batchAt m windows stored)[g.batch.length]? =
      some (w.resultAt m windows stored) := by
    rw [Settings.batchAt, List.getElem?_map, hw]
    rfl
  rw [List.length_append, List.length_singleton, List.take_add_one, hnext, ← hg.batch]
  rfl

/-- A full batch holds the results of all workers for the window next in turn. -/
theorem batch_of_full (hg : g.Follows s m windows stored store)
    (hfull : s.crew.length ≤ g.batch.length) : g.batch = s.batchAt m windows stored := by
  rw [hg.batch, List.take_of_length_le]
  rw [Settings.batchAt, List.length_map]
  exact hfull

theorem storeBatch (hg : g.Follows s m windows stored store)
    (hfull : s.crew.length ≤ g.batch.length) (hcrew : s.crew ≠ []) (hits faults : Nat) :
    (⟨[], .counting hits faults⟩ : Merger).Follows s m windows (stored + 1)
      (store.pushBatch (batchTime g.batch) (batchHits g.batch)) := by
  have hall := hg.batch_of_full hfull
  have hbatch : g.batch ≠ [] := by
    apply List.ne_nil_of_length_pos
    exact (List.length_pos_of_ne_nil hcrew).trans_le hfull
  refine ⟨rfl, ?_, hg.started hbatch, fun h => absurd rfl h, fun _ => rfl⟩
  rw [s.storeAfter_succ, ← hall, ← hg.store]

theorem turn (hg : g.Follows s m windows stored store) (hbatch : g.batch = [])
    (phase : MergerPhase) : { g with phase }.Follows s m windows stored store :=
  { hg with idle := fun _ => hbatch }

end Follows

end Merger

end TpcTrigger
