import TpcTrigger.Proofs.Pipeline.SequentialSearch
import TpcTrigger.Proofs.Pipeline.Tally
import TpcTrigger.Proofs.Store.Batches

/-! # What the merger has counted

A worker adds up the hits of its results and counts those it failed on.  The merger adds up the
same results, batch by batch instead of worker by worker, and counts a batch a little later than it
stores it.  So both come to the same sums once every result is merged, and the store holds or has
given up as many hits as were counted.
-/

namespace TpcTrigger

namespace WindowResult

def hitCount (r : WindowResult) : Nat := r.hits.size

def faultCount (r : WindowResult) : Nat := r.faulted.toNat

end WindowResult

theorem size_batchHits (batch : List WindowResult) :
    (batchHits batch).size = (batch.map (·.hitCount)).sum := by
  rw [batchHits_eq, List.size_toArray, List.length_flatMap]
  rfl

theorem batchFaults_eq (batch : List WindowResult) :
    batchFaults batch = (batch.map (·.faultCount)).sum := by
  induction batch with
  | nil => rfl
  | cons r batch ih =>
    rw [batchFaults, List.countP_cons, ← batchFaults, ih, List.map_cons, List.sum_cons,
      Nat.add_comm, WindowResult.faultCount]
    cases r.faulted <;> rfl

namespace Worker

structure Counts (w : Worker) (results : List WindowResult) (after : Worker) : Prop where
  hits : after.hits = w.hits + (results.map (·.hitCount)).sum
  faults : after.faults = w.faults + (results.map (·.faultCount)).sum
  windows : after.windows + after.faults = w.windows + w.faults + results.length

variable (m : Method) (w : Worker)

theorem Counts.refl : w.Counts [] w := ⟨rfl, rfl, rfl⟩

theorem Counts.trans {w next after : Worker} {xs ys : List WindowResult}
    (hfirst : w.Counts xs next) (hrest : next.Counts ys after) : w.Counts (xs ++ ys) after where
  hits := by rw [hrest.hits, hfirst.hits, List.map_append, List.sum_append, Nat.add_assoc]
  faults := by rw [hrest.faults, hfirst.faults, List.map_append, List.sum_append, Nat.add_assoc]
  windows := by rw [hrest.windows, hfirst.windows, List.length_append, Nat.add_assoc]

theorem counts_process (window : Window) :
    w.Counts [(w.process m window).2] (w.process m window).1 := by
  cases hfault : (m.kernel.run m.params w.registers window w.states #[]).fault with
  | none =>
    constructor <;>
      simp [process, hfault, countWindow, WindowResult.hitCount, WindowResult.faultCount,
        Nat.add_right_comm]
  | some fault =>
    constructor <;>
      simp [process, hfault, countFault, WindowResult.hitCount, WindowResult.faultCount,
        Nat.add_assoc]

theorem counts_seed (window : Window) : w.Counts [] ((w.seed? window).getD w) := by
  rcases w.exists_states_seed window with ⟨states, hseed⟩
  rw [hseed]
  exact ⟨rfl, rfl, rfl⟩

theorem counts_after (messages : List WorkerMessage) :
    w.Counts (w.results m messages) (w.after m messages) := by
  induction messages generalizing w with
  | nil => exact .refl w
  | cons message messages ih =>
    apply Counts.trans _ (ih (w.handle m message).1)
    cases message with
    | seed window => exact w.counts_seed window
    | window window => exact w.counts_process m window
    | shutdown => exact .refl w

theorem map_resultAt_range (windows : List Window) :
    (List.range windows.length).map (w.resultAt m windows) =
      w.results m (ordersFor windows false) := by
  have hlength := w.length_results_ordersFor m windows false
  apply List.ext_getElem
  · rw [List.length_map, List.length_range, hlength]
  · intro k _ hk
    rw [List.getElem_map, List.getElem_range, resultAt, List.getD_eq_getElem?_getD,
      List.getElem?_eq_getElem hk, Option.getD_some]

end Worker

namespace Settings

variable (s : Settings) (m : Method) (measure : WindowResult → Nat)

/-- The sum of something over the results of all workers for the first `n` windows. -/
def total (windows : List Window) (n : Nat) : Nat :=
  ((List.range n).map fun k => ((s.batchAt m windows k).map measure).sum).sum

theorem total_succ (windows : List Window) (n : Nat) :
    s.total m measure windows (n + 1) =
      s.total m measure windows n + ((s.batchAt m windows n).map measure).sum := by
  rw [total, List.range_succ, List.map_append, List.sum_append, List.map_singleton,
    List.sum_singleton, total]

theorem total_append {windows : List Window} {n : Nat} (hn : n ≤ windows.length)
    (more : List Window) : s.total m measure (windows ++ more) n = s.total m measure windows n := by
  rw [total, total]
  congr 1
  apply List.map_congr_left
  intro k hk
  rw [s.batchAt_append m ((List.mem_range.mp hk).trans_le hn)]

/-- Batch by batch or worker by worker, the sum over all results is the same. -/
theorem total_length (windows : List Window) :
    s.total m measure windows windows.length =
      (s.crew.map fun w => ((w.results m (ordersFor windows false)).map measure).sum).sum := by
  have hswap (crew : List Worker) :
      ((List.range windows.length).map fun k =>
          ((crew.map (·.resultAt m windows k)).map measure).sum).sum =
        (crew.map fun w => ((w.results m (ordersFor windows false)).map measure).sum).sum := by
    induction crew with
    | nil => simp
    | cons w crew ih =>
      simp only [List.map_cons, List.sum_cons]
      rw [List.sum_map_add, ih, ← w.map_resultAt_range, List.map_map]
      rfl
  exact hswap s.crew

theorem size_add_evicted_storeAfter (windows : List Window) (n : Nat) :
    (s.storeAfter m windows n).size + (s.storeAfter m windows n).evicted =
      s.total m (·.hitCount) windows n := by
  induction n with
  | zero => rfl
  | succ n ih =>
    rw [s.storeAfter_succ, PrimitiveStore.size_add_evicted_pushBatch, ih, total_succ,
      size_batchHits]

end Settings

namespace MergerPhase

def hits : MergerPhase → Nat
  | .counting hits _ => hits
  | _ => 0

def faults : MergerPhase → Nat
  | .counting _ faults => faults
  | _ => 0

end MergerPhase

namespace Pipeline

/-- The counters of the merger, with the batch that it is about to count. -/
structure Summed (s : Settings) (m : Method) (h : Intake) (p : Pipeline) : Prop where
  hits : p.metrics.hits + p.merger.phase.hits =
    s.total m (·.hitCount) (h.windows s) p.windowsStored
  faults : p.metrics.faults + p.merger.phase.faults =
    s.total m (·.faultCount) (h.windows s) p.windowsStored

theorem summed_start (s : Settings) (m : Method) : (start s).Summed s m ⟨[], [], false⟩ :=
  ⟨rfl, rfl⟩

namespace Summed

variable {s : Settings} {m : Method} {h after : Intake} {p q : Pipeline}

theorem congr (hp : p.Summed s m h) (hwindows : after.windows s = h.windows s)
    (hstored : q.windowsStored = p.windowsStored) (hhits : q.metrics.hits = p.metrics.hits)
    (hfaults : q.metrics.faults = p.metrics.faults)
    (hpending : q.merger.phase.hits = p.merger.phase.hits ∧
      q.merger.phase.faults = p.merger.phase.faults) : q.Summed s m after where
  hits := by rw [hhits, hpending.1, hp.hits, hwindows, hstored]
  faults := by rw [hfaults, hpending.2, hp.faults, hwindows, hstored]

theorem take (hp : p.Summed s m h) (haccount : p.Account s m h) (task : Task) {queue : IngestQueue}
    {dispatcher : Dispatcher} : { p with queue, dispatcher }.Summed s m (h.take task) := by
  cases task with
  | shutdown => exact hp.congr rfl rfl rfl rfl ⟨rfl, rfl⟩
  | superchunk timestamp bytes =>
    have hwindows := haccount.follows.dispatcher.windows_take timestamp bytes
    have hle := haccount.follows.merger.stored_le
    constructor
    · rw [hwindows]
      exact hp.hits.trans (s.total_append m _ hle _).symm
    · rw [hwindows]
      exact hp.faults.trans (s.total_append m _ hle _).symm

theorem storeBatch (hp : p.Summed s m h) (haccount : p.Account s m h)
    (hphase : p.merger.phase = .collecting) (hfull : s.crew.length ≤ p.merger.batch.length) :
    p.storeBatch.Summed s m h := by
  have hall := haccount.follows.merger.batch_of_full hfull
  have hhits := hp.hits
  have hfaults := hp.faults
  have hstored : p.windowsStored = p.metrics.merged := by simp only [windowsStored, hphase]; rfl
  rw [hphase, hstored] at hhits hfaults
  rw [hstored] at hall
  rw [haccount.follows.storeBatch_eq hfull]
  constructor
  · simp only [MergerPhase.hits, windowsStored]
    rw [s.total_succ, ← hhits, ← hall, size_batchHits]
    rfl
  · simp only [MergerPhase.faults, windowsStored]
    rw [s.total_succ, ← hfaults, ← hall, batchFaults_eq]
    rfl

theorem move (hp : p.Summed s m h) (haccount : p.Account s m h) {move : Move}
    (hmove : p.move? m move = some q) : q.Summed s m (p.intakeAfter h move) := by
  cases step_of_move? hmove with
  | @count _ c hcall => cases c <;> exact hp.congr rfl rfl rfl rfl ⟨rfl, rfl⟩
  | take hthere hacts hnext =>
    rw [intakeAfter_of_next hthere hacts hnext]
    exact hp.take haccount _
  | @note _ act _ hthere hacts hnote =>
    rw [intakeAfter_of_acts hacts]
    cases act <;> exact hp.congr rfl rfl rfl rfl ⟨rfl, rfl⟩
  | send hthere hacts hnode hsend | pass hthere hacts hgone | leave hthere hacts =>
    rw [intakeAfter_of_acts hacts]
    exact hp.congr rfl rfl rfl rfl ⟨rfl, rfl⟩
  | @merged hits faults hphase =>
    have hhits := hp.hits
    have hfaults := hp.faults
    have hstored : p.windowsStored = p.metrics.merged + 1 := by simp only [windowsStored, hphase]
    rw [hphase, hstored] at hhits hfaults
    exact ⟨hhits, hfaults⟩
  | storeBatch hphase hfull =>
    apply hp.storeBatch haccount hphase
    rw [← haccount.follows.size]
    exact Array.getElem?_eq_none_iff.mp hfull
  | stopMerger hphase hnode hitems hgone =>
    refine hp.congr rfl ?_ rfl rfl ?_
    · simp [stopMerger, windowsStored, hphase]
    · rw [hphase]
      exact ⟨rfl, rfl⟩
  | _ => exact hp.congr rfl rfl rfl rfl ⟨rfl, rfl⟩

end Summed

end Pipeline

end TpcTrigger
