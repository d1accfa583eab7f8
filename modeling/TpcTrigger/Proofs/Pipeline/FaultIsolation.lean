import TpcTrigger.Proofs.Pipeline.LogCourse
import TpcTrigger.Proofs.Pipeline.Progress
import TpcTrigger.Proofs.Pipeline.Refinement

/-! # Faults do not put workers out of step

A worker reports every window once, in the order in which the windows were sent, also where its
kernel fails or crashes half way.  So the batches that the merger pairs by place alone are those
of the windows one after the other, and what is stored for a window is what the calls that did not
fail found in it.
-/

namespace TpcTrigger

theorem getElem?_of_prefix {α : Type} {xs ys : List α} (h : xs <+: ys) {k : Nat} {x : α}
    (hx : xs[k]? = some x) : ys[k]? = some x := by
  obtain ⟨zs, rfl⟩ := h
  rw [List.getElem?_append_left (List.getElem?_eq_some_iff.mp hx).1, hx]

/-- A list of which everything is kept keeps its order. -/
theorem getElem?_filterMap {α β : Type} {f : α → Option β} {xs : List α}
    (h : ∀ x ∈ xs, (f x).isSome) (k : Nat) : (xs.filterMap f)[k]? = xs[k]?.bind f := by
  induction xs generalizing k with
  | nil => rfl
  | cons x xs ih =>
    obtain ⟨y, hy⟩ := Option.isSome_iff_exists.mp (h x (List.mem_cons_self ..))
    rw [List.filterMap_cons_some hy]
    cases k with
    | zero => exact hy.symm
    | succ k => exact ih (fun x hx => h x (List.mem_cons_of_mem _ hx)) k

namespace Log

/-- The windows are numbered from zero.  Every worker is sent them in order, calls its kernel once
for each of them, and reports each call once.  Every batch holds the reports of one window. -/
structure InStep (workers : Nat) (windows : List Window) (log : Log) : Prop where
  numbered : ∀ (k : Nat) (window : Window), windows[k]? = some window →
    window.sequence = UInt64.ofNat k
  sent : ∀ i < workers, windowsOf (log.messagesTo i) <+: windows
  called : ∀ i < workers, (log.callsOf i).map (·.window) <+: windowsOf (log.messagesTo i)
  reported : ∀ i < workers, log.reportsOf i <+: (log.callsOf i).map (·.result i)
  batched : ∀ (k : Nat) (batch : List WindowResult), log.batches[k]? = some batch →
    batch.length = workers ∧
      ∀ i < workers, ∃ result, batch[i]? = some result ∧ (log.reportsOf i)[k]? = some result

/-- The calls of all workers for the window number `k`, in worker order. -/
def callsOn (workers k : Nat) (log : Log) : List KernelCall :=
  (List.range workers).filterMap fun i => (log.callsOf i)[k]?

/-- What the calls that did not fail found. -/
def foundBy (calls : List KernelCall) : List Hit :=
  (calls.filter fun c => !c.failed).flatMap (·.outcome.hits.toList)

theorem foundBy_eq (calls : List KernelCall) :
    foundBy calls = (calls.map (·.hits)).flatMap Array.toList := by
  induction calls with
  | nil => rfl
  | cons c calls ih =>
    rw [List.map_cons, List.flatMap_cons, ← ih, KernelCall.hits]
    cases hfailed : c.failed <;> simp [foundBy, hfailed]

namespace InStep

variable {workers : Nat} {windows : List Window} {log : Log}

theorem exists_call (h : log.InStep workers windows) {k : Nat} {batch : List WindowResult}
    (hbatch : log.batches[k]? = some batch) {i : Nat} (hi : i < workers) :
    ∃ call, (log.callsOf i)[k]? = some call ∧ windows[k]? = some call.window ∧
      batch[i]? = some (call.result i) := by
  obtain ⟨result, hplace, hreport⟩ := (h.batched k batch hbatch).2 i hi
  have hresult := getElem?_of_prefix (h.reported i hi) hreport
  rw [List.getElem?_map, Option.map_eq_some_iff] at hresult
  obtain ⟨call, hcall, rfl⟩ := hresult
  have hwindow : ((log.callsOf i).map (·.window))[k]? = some call.window := by
    rw [List.getElem?_map, hcall]
    rfl
  exact ⟨call, hcall, getElem?_of_prefix ((h.called i hi).trans (h.sent i hi)) hwindow, hplace⟩

/-- No batch mixes the results of different windows, and none is left out. -/
theorem sequence_of_mem (h : log.InStep workers windows) {k : Nat} {batch : List WindowResult}
    (hbatch : log.batches[k]? = some batch) {result : WindowResult} (hresult : result ∈ batch) :
    result.sequence = UInt64.ofNat k := by
  obtain ⟨i, hi, rfl⟩ := List.mem_iff_getElem.mp hresult
  have hlength := (h.batched k batch hbatch).1
  obtain ⟨call, -, hwindow, hplace⟩ := h.exists_call hbatch (hlength ▸ hi)
  rw [List.getElem?_eq_getElem hi, Option.some.injEq] at hplace
  rw [hplace]
  exact h.numbered k call.window hwindow

theorem batchHits_eq (h : log.InStep workers windows) {k : Nat} {batch : List WindowResult}
    (hbatch : log.batches[k]? = some batch) :
    batchHits batch = (foundBy (log.callsOn workers k)).toArray := by
  have hcalls (i : Nat) : (log.callsOn workers k)[i]? =
      if i < workers then (log.callsOf i)[k]? else none := by
    rw [callsOn, getElem?_filterMap]
    · by_cases hi : i < workers <;> simp [hi]
    · intro j hj
      obtain ⟨call, hcall, -⟩ := h.exists_call hbatch (List.mem_range.mp hj)
      rw [hcall]
      rfl
  have hhits : batch.map (·.hits) = (log.callsOn workers k).map (·.hits) := by
    apply List.ext_getElem?
    intro i
    rw [List.getElem?_map, List.getElem?_map, hcalls]
    by_cases hi : i < workers
    · obtain ⟨call, hcall, -, hplace⟩ := h.exists_call hbatch hi
      rw [if_pos hi, hcall, hplace]
      rfl
    · rw [if_neg hi, List.getElem?_eq_none]
      · rfl
      · rw [(h.batched k batch hbatch).1]
        exact Nat.le_of_not_lt hi
  rw [TpcTrigger.batchHits_eq, foundBy_eq, ← hhits, List.flatMap_map]

theorem batchTime_eq (h : log.InStep workers windows) (hworkers : 0 < workers) {k : Nat}
    {batch : List WindowResult} (hbatch : log.batches[k]? = some batch) :
    ∃ window, windows[k]? = some window ∧ batchTime batch = window.timestamp := by
  obtain ⟨call, -, hwindow, hfirst⟩ := h.exists_call hbatch hworkers
  refine ⟨call.window, hwindow, ?_⟩
  rw [batchTime, List.head?_eq_getElem?, hfirst]
  rfl

end InStep

end Log

namespace Pipeline

namespace Logged

variable {s : Settings} {m : Method} {h : Intake} {log : Log} {p : Pipeline}

theorem windowsOf_sent (hp : p.Logged s h log) {i : Nat} (hi : i < s.crew.length) :
    windowsOf (log.messagesTo i) ++ windowsOf (messagesFor i p.dispatcher.acts) =
      h.windows s := by
  rw [← windowsOf_append, hp.sent i hi, windowsOf_ordersFor]

theorem inStep (hp : p.Logged s h log) (hpos : 0 < s.superchunksPerWindow)
    (hsize : p.nodes.size = s.crew.length) : log.InStep s.crew.length (h.windows s) := by
  have hnode (i : Nat) (hi : i < s.crew.length) : ∃ n, p.nodes[i]? = some n :=
    ⟨_, Array.getElem?_eq_getElem (hsize ▸ hi)⟩
  constructor
  · intro k window hwindow
    exact Intake.sequence_of_window hpos hwindow
  · intro i hi
    rw [← hp.windowsOf_sent hi]
    exact List.prefix_append _ _
  · intro i hi
    obtain ⟨n, hn⟩ := hnode i hi
    rw [← (hp.nodes i n hn).searched]
    exact List.prefix_append _ _
  · intro i hi
    obtain ⟨n, hn⟩ := hnode i hi
    rw [(hp.nodes i n hn).reported]
    exact List.prefix_append _ _
  · intro k batch hbatch
    have hlength := hp.full batch (List.mem_of_getElem? hbatch)
    refine ⟨hlength, fun i hi => ?_⟩
    obtain ⟨n, hn⟩ := hnode i hi
    have hplace : batch[i]? = some batch[i] := List.getElem?_eq_getElem (hlength ▸ hi)
    have htaken : (log.batches.filterMap (·[i]?))[k]? = some batch[i] := by
      rw [getElem?_filterMap, hbatch]
      · exact hplace
      · intro other hother
        rw [List.getElem?_eq_getElem (hp.full other hother ▸ hi)]
        rfl
    refine ⟨batch[i], hplace, getElem?_of_prefix ?_ htaken⟩
    rw [(hp.nodes i n hn).collected, Log.takenFrom_eq, List.append_assoc]
    exact List.prefix_append _ _

theorem length_reportsOf (hp : p.Logged s h log) {i : Nat} (hi : i < s.crew.length)
    {n : WorkerNode} (hn : p.nodes[i]? = some n) :
    (log.reportsOf i).length + n.toReport.length +
      (windowsOf (n.inHand ++ n.inbox.items ++ messagesFor i p.dispatcher.acts)).length =
        (h.windows s).length := by
  have hnode := hp.nodes i n hn
  have hcalls := congrArg List.length hnode.reported
  have hwindows := congrArg List.length hnode.searched
  have hsent := congrArg List.length (hp.windowsOf_sent hi)
  rw [List.length_map, List.length_append] at hcalls
  rw [List.length_append, List.length_map, hcalls] at hwindows
  rw [List.length_append, ← hwindows] at hsent
  rw [windowsOf_append, List.length_append, ← Nat.add_assoc]
  exact hsent

theorem length_of_atRest (hp : p.Logged s h log) (hsize : p.nodes.size = s.crew.length)
    (hrest : p.AtRest) :
    (∀ i < s.crew.length, (log.reportsOf i).length = (h.windows s).length) ∧
      log.batches.length = (h.windows s).length := by
  have hall (i : Nat) (hi : i < s.crew.length) :
      (log.reportsOf i).length = (h.windows s).length := by
    have hn : p.nodes[i]? = some p.nodes[i] := Array.getElem?_eq_getElem (hsize ▸ hi)
    have hnode := hrest.nodes _ (Array.mem_of_getElem? hn)
    have hcount := hp.length_reportsOf hi hn
    rw [hnode.toReport, hnode.inHand, hnode.inbox, hrest.acts] at hcount
    exact hcount
  refine ⟨hall, ?_⟩
  have hpos : 0 < s.crew.length := List.length_pos_of_ne_nil s.crew_ne_nil
  have hn : p.nodes[0]? = some p.nodes[0] := Array.getElem?_eq_getElem (hsize ▸ hpos)
  have hcollected := congrArg List.length (hp.nodes 0 _ hn).collected
  have hfull : (log.batches.filterMap (·[0]?)).length = log.batches.length := by
    rw [List.filterMap_length_eq_length]
    intro batch hbatch
    rw [List.getElem?_eq_getElem (hp.full batch hbatch ▸ hpos)]
    rfl
  rw [Log.takenFrom_eq, hrest.batch, (hrest.nodes _ (Array.mem_of_getElem? hn)).outbox,
    List.append_nil, List.length_append, hfull, hall 0 hpos] at hcollected
  exact hcollected.symm

theorem store_eq (hp : p.Logged s h log) (hstep : log.InStep s.crew.length (h.windows s)) :
    p.store = ((h.windows s).take log.batches.length).zipIdx.foldl
      (fun store (window, k) =>
        store.pushBatch window.timestamp (Log.foundBy (log.callsOn s.crew.length k)).toArray)
      { capacity := s.storeCapacity } := by
  have hpos : 0 < s.crew.length := List.length_pos_of_ne_nil s.crew_ne_nil
  have hbatches : log.batches.map (fun batch => (batchTime batch, batchHits batch)) =
      ((h.windows s).take log.batches.length).zipIdx.map fun (window, k) =>
        (window.timestamp, (Log.foundBy (log.callsOn s.crew.length k)).toArray) := by
    apply List.ext_getElem?
    intro k
    rw [List.getElem?_map, List.getElem?_map, List.getElem?_zipIdx]
    by_cases hk : k < log.batches.length
    · have hbatch : log.batches[k]? = some log.batches[k] := List.getElem?_eq_getElem hk
      obtain ⟨window, hwindow, htime⟩ := hstep.batchTime_eq hpos hbatch
      rw [List.getElem?_take_of_lt hk, hbatch, hwindow]
      simp [htime, hstep.batchHits_eq hbatch]
    · have hnone : log.batches[k]? = none := List.getElem?_eq_none (Nat.le_of_not_lt hk)
      rw [hnone, List.getElem?_take_eq_none (Nat.le_of_not_lt hk)]
      rfl
  have hpush := congrArg (List.foldl (fun store (batch : UInt64 × Array Hit) =>
    store.pushBatch batch.1 batch.2) ({ capacity := s.storeCapacity } : PrimitiveStore)) hbatches
  rw [List.foldl_map, List.foldl_map] at hpush
  exact hp.store.trans hpush

end Logged

end Pipeline

namespace Finder

variable {s : Settings} {kernel : Kernel} {f : Finder}

/-- Whatever the kernel does and however the parts of a finder are interleaved, its workers report
the same windows in the same order, one report for each; the batches are those of the windows
number zero, one, two and so on; and for each of them the hits of the calls that did not fail are
stored in worker order.  No report is missing once nothing can move any more. -/
theorem faults_keep_step (hstart : startWith s kernel = .ok f) {moves : List Move} {p : Pipeline}
    (hrun : f.pipeline.run? f.method moves = some p) :
    let log := f.pipeline.log f.method moves
    let workers := f.pipeline.nodes.size
    ∃ windows : List Window,
      windows <+: (Assembly.start s.superchunksPerWindow).completed
        ((f.pipeline.accepted f.method moves).map .ofBytes) ∧
      p.metrics.dispatched + p.dispatcher.acts.count .countDispatched = windows.length ∧
      log.InStep workers windows ∧
      (∀ i node, p.nodes[i]? = some node →
        (log.reportsOf i).length + node.toReport.length +
          (windowsOf (node.inHand ++ node.inbox.items ++ messagesFor i p.dispatcher.acts)).length =
            windows.length) ∧
      (∀ k batch, log.batches[k]? = some batch →
        ∀ result ∈ batch, result.sequence = UInt64.ofNat k) ∧
      p.store = (windows.take log.batches.length).zipIdx.foldl
        (fun store (window, k) =>
          store.pushBatch window.timestamp (Log.foundBy (log.callsOn workers k)).toArray)
        { capacity := s.storeCapacity } ∧
      (¬ p.CanMove f.method →
        (∀ i < workers, (log.reportsOf i).length = windows.length) ∧
          log.batches.length = windows.length) := by
  obtain ⟨hs, -, hmethod, hpipeline, -⟩ := startWith_eq_ok hstart
  rw [hmethod, hpipeline] at hrun ⊢
  intro log workers
  have hworkers : workers = s.crew.length := (Pipeline.follows_start s (s.method kernel)).size
  have hlog := (Pipeline.logged_start s).run (Pipeline.follows_start s _) hrun
  rw [List.nil_append] at hlog
  obtain ⟨haccount, -⟩ := (Pipeline.account_start s (s.method kernel)).run_induction
    (I := fun _ _ => True) trivial (fun _ _ _ _ _ _ _ _ => trivial) hrun
  have haccepted := Pipeline.accepted_intake hrun ⟨[], [], false⟩
  rw [List.nil_append] at haccepted
  generalize (Pipeline.start s).intake (s.method kernel) ⟨[], [], false⟩ moves = h at *
  have hsize := haccount.follows.size
  have hstep := hlog.inStep (Settings.superchunksPerWindow_pos hs) hsize
  rw [hworkers]
  refine ⟨h.windows s, haccepted ▸ haccount.follows.dispatcher.windows_prefix,
    haccount.tally.dispatched, hstep, ?_, ?_, hlog.store_eq hstep, ?_⟩
  · intro i node hnode
    exact hlog.length_reportsOf (hsize ▸ (Array.getElem?_eq_some_iff.mp hnode).1) hnode
  · intro k batch hbatch result hresult
    exact hstep.sequence_of_mem hbatch hresult
  · intro hstuck
    exact hlog.length_of_atRest hsize (haccount.rest_of_stuck hs.workerQueueDepth hstuck).1

/-- Two windows, on the first of which the second worker's kernel crashes with a hit found. -/
theorem faults_keep_step_crash :
    let s : Settings := {
      windowTicks := superchunkTicks
      tapCount := 2
      taps := some #[-3, 64]
      cutoff := Float.ofBits 0x3FB999999999999A }
    let kernel : Kernel := {
      name := "faulty"
      run := fun _ registers window states _ =>
        { states
          hits := #[⟨registers.firstChannel, 1, 5, 1⟩]
          fault := if registers.first ≠ 0 ∧ window.sequence = 0 then some .crashed else none } }
    let bytes (b : UInt8) : ByteArray := ⟨.replicate superchunkBytes b⟩
    let moves : List Move := .offer (bytes 7) :: .offer (bytes 9) ::
      List.replicate 15 (.dispatch 0) ++ List.replicate 7 (.work 1) ++
        List.replicate 7 (.work 0) ++ List.replicate 8 .merge
    ∃ f p windows, startWith s kernel = .ok f ∧ f.pipeline.run? f.method moves = some p ∧
      windows.length = 2 ∧ (f.pipeline.log f.method moves).InStep f.pipeline.nodes.size windows ∧
        p.store.primitives.map (fun t => (t.windowTime, t.hit.channel)) =
          #[(0x0707070707070707, 0), (0x0909090909090909, 0), (0x0909090909090909, 128)] := by
  intro s kernel bytes moves
  have hs : s.Checked := by decide +kernel
  have hstart := startWith_of_checked hs kernel
  have hmoves : ((Pipeline.start s).run? (s.method kernel) moves).map (fun p =>
      (p.metrics.dispatched + p.dispatcher.acts.count .countDispatched,
        p.store.primitives.map fun t => (t.windowTime, t.hit.channel))) =
      some (2, #[(0x0707070707070707, 0), (0x0909090909090909, 0), (0x0909090909090909, 128)]) := by
    decide +kernel
  obtain ⟨p, hrun, hend⟩ := Option.map_eq_some_iff.mp hmoves
  obtain ⟨hdispatched, hstored⟩ := Prod.mk.inj hend
  obtain ⟨windows, -, hcount, hstep, -⟩ := faults_keep_step hstart hrun
  exact ⟨_, p, windows, hstart, hrun, hcount.symm.trans hdispatched, hstep, hstored⟩

end Finder

end TpcTrigger
