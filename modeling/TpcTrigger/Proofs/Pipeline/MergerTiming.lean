import TpcTrigger.Proofs.Pipeline.Handover
import TpcTrigger.Proofs.Pipeline.LogCourse
import TpcTrigger.Proofs.Pipeline.MergedTotals

/-! # The timing of the merger

It does not matter when the workers send their results and when they hang up.  The merger takes
the results of every worker in order, so every merge joins the results of one number, in worker order
and under the time of the first worker's; and it leaves once the shortest list is used up, also if it
has begun a batch by then.
-/

namespace TpcTrigger

/-- The results number `k` of all workers that have so many, in worker order. -/
def batchOf (results : List (List WindowResult)) (k : Nat) : List WindowResult :=
  results.filterMap (·[k]?)

/-- The store after the first `n` merges.  Each pushes the hits of the results of one number, worker
after worker, with the time of the first worker's result. -/
def PrimitiveStore.afterMerges (store : PrimitiveStore) (results : List (List WindowResult)) :
    Nat → PrimitiveStore
  | 0 => store
  | n + 1 => (store.afterMerges results n).pushBatch ((results.headD []).getD n default).timestamp
      (results.flatMap fun list => (list.getD n default).hits.toList).toArray

def sumOfFirst (results : List (List WindowResult)) (n : Nat) (measure : WindowResult → Nat) : Nat :=
  (results.map fun list => ((list.take n).map measure).sum).sum

def Metrics.afterMerges (m : Metrics) (results : List (List WindowResult)) (n : Nat) : Metrics :=
  { m with
    merged := m.merged + n
    hits := m.hits + sumOfFirst results n (·.hitCount)
    faults := m.faults + sumOfFirst results n (·.faultCount) }

section

variable {results : List (List WindowResult)} {n : Nat} (hn : ∀ list ∈ results, n < list.length)
include hn

/-- As long as every worker has a result of the number, the batch has one of each worker. -/
theorem batchOf_eq_map : batchOf results n = results.map (·.getD n default) := by
  rw [batchOf, ← List.filterMap_eq_map]
  refine List.filterMap_congr fun list hlist => ?_
  rw [Function.comp_apply, List.getD_eq_getElem?_getD, List.getElem?_eq_getElem (hn list hlist),
    Option.getD_some]

theorem PrimitiveStore.pushBatch_batchOf (hsome : results ≠ []) (store : PrimitiveStore) :
    (store.afterMerges results n).pushBatch (batchTime (batchOf results n))
      (batchHits (batchOf results n)) = store.afterMerges results (n + 1) := by
  obtain ⟨first, rest, rfl⟩ := List.exists_cons_of_ne_nil hsome
  rw [batchOf_eq_map hn, batchHits_eq, List.flatMap_map]
  rfl

theorem sumOfFirst_succ (measure : WindowResult → Nat) :
    sumOfFirst results (n + 1) measure =
      sumOfFirst results n measure + ((batchOf results n).map measure).sum := by
  induction results with
  | nil => rfl
  | cons list results ih =>
    obtain ⟨hlist, hresults⟩ := List.forall_mem_cons.mp hn
    have hrest := ih hresults
    rw [sumOfFirst, sumOfFirst, batchOf] at hrest ⊢
    rw [List.map_cons, List.sum_cons, hrest, List.take_add_one, List.filterMap_cons,
      List.getElem?_eq_getElem hlist]
    simp only [List.map_cons, List.sum_cons, Option.toList_some, List.map_append, List.sum_append,
      List.map_nil, List.sum_nil]
    omega

theorem Metrics.countMerged_batchOf (m : Metrics) :
    (m.afterMerges results n).countMerged (batchHits (batchOf results n)).size
      (batchFaults (batchOf results n)) = m.afterMerges results (n + 1) := by
  rw [countMerged, afterMerges, afterMerges, sumOfFirst_succ hn, sumOfFirst_succ hn, size_batchHits,
    batchFaults_eq]
  simp only [Nat.add_assoc]

end

/-- The counters when the merger is done with the batch that it has stored. -/
def MergerPhase.settled (phase : MergerPhase) (m : Metrics) : Metrics :=
  match phase with
  | .counting hits faults => m.countMerged hits faults
  | _ => m

namespace WorkerNode

/-- A worker with a list of results, so many of which the merger has taken, and some of which are
still to be sent. -/
structure HandsOver (list : List WindowResult) (taken : Nat) (unsent : List WindowResult)
    (n : WorkerNode) : Prop where
  rest : list.drop taken = n.outbox.items ++ unsent
  taken_le : taken ≤ list.length
  receiver : n.outbox.receiverOpen = true
  room : n.outbox.capacity ≠ some 0
  hungUp : n.outbox.senderOpen = false → unsent = []

namespace HandsOver

variable {list unsent rest : List WindowResult} {taken : Nat} {n : WorkerNode}
  {result : WindowResult}

theorem send {outbox : Fifo WindowResult} (h : n.HandsOver list taken (result :: rest))
    (hsend : n.outbox.send result = .done outbox) :
    { n with outbox }.HandsOver list taken rest := by
  obtain ⟨-, -, rfl⟩ := Fifo.send_eq_done_iff.mp hsend
  refine ⟨?_, h.taken_le, h.receiver, h.room, fun hgone => ?_⟩
  · rw [h.rest, List.append_assoc]
    rfl
  · cases h.hungUp hgone

theorem hangUp (h : n.HandsOver list taken []) :
    { n with outbox := n.outbox.closeSender }.HandsOver list taken [] :=
  ⟨h.rest, h.taken_le, h.receiver, h.room, fun _ => rfl⟩

theorem getElem?_taken (h : n.HandsOver list taken unsent) (hitems : n.outbox.items = result :: rest) :
    list[taken]? = some result := by
  have hhead := congrArg List.head? h.rest
  rw [List.head?_drop, hitems] at hhead
  exact hhead

theorem take (h : n.HandsOver list taken unsent) (hitems : n.outbox.items = result :: rest) :
    { n with outbox := { n.outbox with items := rest } }.HandsOver list (taken + 1) unsent := by
  have hnext := List.getElem?_eq_some_iff.mp (h.getElem?_taken hitems)
  refine ⟨?_, hnext.1, h.receiver, h.room, h.hungUp⟩
  rw [← List.drop_drop, h.rest, hitems]
  rfl

/-- A worker that has hung up and of which nothing is left has handed over all that it had. -/
theorem eq_length (h : n.HandsOver list taken unsent) (hitems : n.outbox.items = [])
    (hgone : n.outbox.senderOpen = false) : taken = list.length := by
  have hrest := h.rest
  rw [hitems, h.hungUp hgone, List.append_nil, List.drop_eq_nil_iff] at hrest
  exact Nat.le_antisymm h.taken_le hrest

theorem exists_send (h : n.HandsOver list taken unsent) (hitems : n.outbox.items = [])
    (result : WindowResult) : ∃ outbox, n.outbox.send result = .done outbox := by
  refine ⟨_, Fifo.send_eq_done_iff.mpr ⟨h.receiver, ?_, rfl⟩⟩
  have hroom := h.room
  rw [Fifo.isFull, hitems]
  cases hcapacity : n.outbox.capacity with
  | none => rfl
  | some c =>
    rw [hcapacity] at hroom
    exact decide_eq_false fun hfull => hroom (congrArg some (Nat.le_zero.mp hfull))

end HandsOver

end WorkerNode

/-- A pipeline whose merger has not begun, with one worker for each of the lists of results.  No
outbox is without room; the check of the settings refuses such queues. -/
structure Pipeline.AwaitsResults (results : List (List WindowResult)) (p : Pipeline) : Prop where
  size : p.nodes.size = results.length
  outbox : ∀ node ∈ p.nodes, node.outbox.items = [] ∧ node.outbox.senderOpen = true ∧
    node.outbox.receiverOpen = true ∧ node.outbox.capacity ≠ some 0
  merger : p.merger = {}
  storeUsable : p.storeUsable = true

namespace Handover

structure Follows (p : Pipeline) (results : List (List WindowResult)) (stored : Nat)
    (h : Handover) : Prop where
  there : h.pipeline.merger.phase ≠ .stopped
  workers : ∀ (i : Nat) (n : WorkerNode), h.pipeline.nodes[i]? = some n → ∃ list unsent,
    results[i]? = some list ∧ h.unsent[i]? = some unsent ∧
      n.HandsOver list (stored + if i < h.pipeline.merger.batch.length then 1 else 0) unsent
  size : h.pipeline.nodes.size = results.length
  batch : h.pipeline.merger.batch =
    batchOf (results.take h.pipeline.merger.batch.length) stored
  idle : h.pipeline.merger.phase ≠ .collecting → h.pipeline.merger.batch = []
  store : h.pipeline.store = p.store.afterMerges results stored
  counted : h.pipeline.merger.phase.settled h.pipeline.metrics =
    p.metrics.afterMerges results stored
  storeUsable : h.pipeline.storeUsable = true

structure Left (p : Pipeline) (results : List (List WindowResult)) (stored : Nat)
    (h : Handover) : Prop where
  stopped : h.pipeline.merger.phase = .stopped
  store : h.pipeline.store = p.store.afterMerges results stored
  counted : h.pipeline.metrics = p.metrics.afterMerges results stored

variable {p : Pipeline} {results : List (List WindowResult)} {stored : Nat} {h next : Handover}

theorem follows_start (hp : p.AwaitsResults results) :
    (⟨p, results⟩ : Handover).Follows p results 0 := by
  have hmerger := hp.merger
  refine ⟨?_, fun i n hn => ?_, hp.size, ?_, ?_, rfl, ?_, hp.storeUsable⟩
  · rw [hmerger]
    exact MergerPhase.noConfusion
  · have hi : i < results.length := hp.size ▸ (Array.getElem?_eq_some_iff.mp hn).1
    obtain ⟨hitems, hsender, hreceiver, hroom⟩ := hp.outbox n (Array.mem_of_getElem? hn)
    refine ⟨results[i], results[i], List.getElem?_eq_getElem hi, List.getElem?_eq_getElem hi, ?_⟩
    rw [hmerger]
    refine ⟨?_, Nat.zero_le _, hreceiver, hroom, fun hgone => ?_⟩
    · rw [hitems]
      rfl
    · rw [hsender] at hgone
      cases hgone
  · rw [hmerger]
    rfl
  · rw [hmerger]
    exact fun hphase => absurd rfl hphase
  · rw [hmerger]
    simp [MergerPhase.settled, Metrics.afterMerges, sumOfFirst]

theorem sum_outboxEffort_start (hp : p.AwaitsResults results) :
    (p.nodes.toList.map outboxEffort).sum = results.length := by
  have hone : p.nodes.toList.map outboxEffort = List.replicate results.length 1 := by
    refine List.eq_replicate_iff.mpr ⟨?_, fun effort heffort => ?_⟩
    · rw [List.length_map, Array.length_toList, hp.size]
    · obtain ⟨node, hnode, rfl⟩ := List.mem_map.mp heffort
      obtain ⟨hitems, hsender, -⟩ := hp.outbox node (Array.mem_toList_iff.mp hnode)
      rw [outboxEffort, hitems, hsender]
      rfl
  rw [hone, List.sum_replicate, smul_eq_mul, Nat.mul_one]

namespace Follows

theorem handedOver_le (hf : h.Follows p results stored) {i : Nat} (hi : i < results.length) :
    stored + (if i < h.pipeline.merger.batch.length then 1 else 0) ≤ results[i].length := by
  have hnode : i < h.pipeline.nodes.size := hf.size ▸ hi
  obtain ⟨list, unsent, hlist, -, hworker⟩ := hf.workers i _ (Array.getElem?_eq_getElem hnode)
  rw [List.getElem?_eq_getElem hi, Option.some.injEq] at hlist
  rw [hlist]
  exact hworker.taken_le

theorem stored_le (hf : h.Follows p results stored) {list : List WindowResult}
    (hlist : list ∈ results) : stored ≤ list.length := by
  obtain ⟨i, hi, rfl⟩ := List.mem_iff_getElem.mp hlist
  exact (Nat.le_add_right _ _).trans (hf.handedOver_le hi)

/-- A turn of a worker leaves the merger alone. -/
theorem replace (hf : h.Follows p results stored) {worker : Nat} {node new : WorkerNode}
    {before rest : List WindowResult} (hnode : h.pipeline.nodes[worker]? = some node)
    (hunsent : h.unsent[worker]? = some before)
    (hnew : ∀ {list taken}, node.HandsOver list taken before → new.HandsOver list taken rest) :
    (h.replace worker new rest).Follows p results stored := by
  refine ⟨hf.there, forall_setIfInBounds (fun i n hi hn => ?_) ?_, ?_, hf.batch, hf.idle, hf.store,
    hf.counted, hf.storeUsable⟩
  · obtain ⟨list, unsent, hlist, hrest, hworker⟩ := hf.workers i n hn
    refine ⟨list, unsent, hlist, ?_, hworker⟩
    rw [Handover.replace, List.getElem?_set_ne (Ne.symm hi)]
    exact hrest
  · obtain ⟨list, unsent, hlist, hrest, hworker⟩ := hf.workers worker node hnode
    rw [hunsent, Option.some.injEq] at hrest
    subst hrest
    refine ⟨list, rest, hlist, ?_, hnew hworker⟩
    exact List.getElem?_set_self (List.getElem?_eq_some_iff.mp hunsent).1
  · rw [Handover.replace, Array.size_setIfInBounds]
    exact hf.size

theorem collect (hf : h.Follows p results stored) (hphase : h.pipeline.merger.phase = .collecting)
    {node : WorkerNode} {result : WindowResult} {rest : List WindowResult}
    (hnode : h.pipeline.nodes[h.pipeline.merger.batch.length]? = some node)
    (hitems : node.outbox.items = result :: rest) :
    ({ h with pipeline := { h.pipeline with
        nodes := h.pipeline.nodes.setIfInBounds h.pipeline.merger.batch.length
          { node with outbox := { node.outbox with items := rest } }
        merger := { h.pipeline.merger with batch := h.pipeline.merger.batch ++ [result] } } } :
      Handover).Follows p results stored := by
  obtain ⟨list, unsent, hlist, hunsent, hworker⟩ := hf.workers _ node hnode
  rw [if_neg (lt_irrefl _), Nat.add_zero] at hworker
  refine ⟨hf.there, forall_setIfInBounds (fun i n hi hn => ?_) ?_, ?_, ?_,
    fun hother => absurd hphase hother, hf.store, hf.counted, hf.storeUsable⟩
  · obtain ⟨list, unsent, hlist, hunsent, hworker⟩ := hf.workers i n hn
    have hturn : i < h.pipeline.merger.batch.length + 1 ↔ i < h.pipeline.merger.batch.length := by
      omega
    refine ⟨list, unsent, hlist, hunsent, ?_⟩
    simp only [List.length_append, List.length_singleton, hturn]
    exact hworker
  · refine ⟨list, unsent, hlist, hunsent, ?_⟩
    simp only [List.length_append, List.length_singleton, Nat.lt_succ_self, if_true]
    exact hworker.take hitems
  · rw [Array.size_setIfInBounds]
    exact hf.size
  · dsimp only
    rw [List.length_append, List.length_singleton, List.take_add_one, batchOf, List.filterMap_append,
      ← batchOf, ← hf.batch, hlist, Option.toList_some, List.filterMap_cons,
      hworker.getElem?_taken hitems]
    rfl

theorem storeBatch (hf : h.Follows p results stored) (hsome : results ≠ [])
    (hphase : h.pipeline.merger.phase = .collecting)
    (hfull : h.pipeline.nodes[h.pipeline.merger.batch.length]? = none) :
    ({ h with pipeline := h.pipeline.storeBatch } : Handover).Follows p results (stored + 1) := by
  have hlength : results.length ≤ h.pipeline.merger.batch.length := by
    rw [← hf.size]
    exact Array.getElem?_eq_none_iff.mp hfull
  have hbatch := hf.batch
  rw [List.take_of_length_le hlength] at hbatch
  have hnonempty : h.pipeline.merger.batch ≠ [] :=
    List.ne_nil_of_length_pos ((List.length_pos_of_ne_nil hsome).trans_le hlength)
  have hworkers (i : Nat) (n : WorkerNode) (hn : h.pipeline.nodes[i]? = some n) :
      ∃ list unsent, results[i]? = some list ∧ h.unsent[i]? = some unsent ∧
        n.HandsOver list (stored + 1) unsent := by
    obtain ⟨list, unsent, hlist, hunsent, hworker⟩ := hf.workers i n hn
    rw [if_pos ((List.getElem?_eq_some_iff.mp hlist).1.trans_le hlength)] at hworker
    exact ⟨list, unsent, hlist, hunsent, hworker⟩
  have hmore : ∀ list ∈ results, stored < list.length := by
    intro list hlist
    obtain ⟨i, hi, rfl⟩ := List.mem_iff_getElem.mp hlist
    have hle := hf.handedOver_le hi
    rwa [if_pos (hi.trans_le hlength)] at hle
  have hcounted := hf.counted
  rw [hphase] at hcounted
  rw [Pipeline.storeBatch, if_neg (by simp [hnonempty, hf.storeUsable])]
  refine ⟨MergerPhase.noConfusion, hworkers, hf.size, rfl, fun _ => rfl, ?_, ?_, hf.storeUsable⟩
  · rw [← p.store.pushBatch_batchOf hmore hsome, ← hf.store, ← hbatch]
  · rw [← p.metrics.countMerged_batchOf hmore, ← hcounted, ← hbatch]
    rfl

theorem stopMerger (hf : h.Follows p results stored) {shortest : Nat}
    (hshortest : (results.map List.length).min? = some shortest)
    (hphase : h.pipeline.merger.phase = .collecting) {node : WorkerNode}
    (hnode : h.pipeline.nodes[h.pipeline.merger.batch.length]? = some node)
    (hitems : node.outbox.items = []) (hgone : node.outbox.senderOpen = false) :
    ({ h with pipeline := h.pipeline.stopMerger } : Handover).Left p results shortest := by
  obtain ⟨list, unsent, hlist, -, hworker⟩ := hf.workers _ node hnode
  have hused := hworker.eq_length hitems hgone
  rw [if_neg (lt_irrefl _), Nat.add_zero] at hused
  obtain ⟨hmem, hle⟩ := List.min?_eq_some_iff.mp hshortest
  obtain ⟨short, hshort, hlength⟩ := List.mem_map.mp hmem
  have heq : stored = shortest := by
    apply Nat.le_antisymm
    · rw [← hlength]
      exact hf.stored_le hshort
    · rw [hused]
      exact hle _ (List.mem_map_of_mem (List.mem_of_getElem? hlist))
  have hcounted := hf.counted
  rw [hphase] at hcounted
  subst heq
  exact ⟨rfl, hf.store, hcounted⟩

/-- Every turn keeps the account, or the merger leaves. -/
theorem turn (hf : h.Follows p results stored) {shortest : Nat}
    (hshortest : (results.map List.length).min? = some shortest) {turn : Turn}
    (hturn : h.turn? turn = some next) :
    (∃ more, next.Follows p results more) ∨ next.Left p results shortest := by
  cases step_of_turn? hturn with
  | sent hnode hunsent hsend =>
    exact .inl ⟨stored, hf.replace hnode hunsent fun hworker => hworker.send hsend⟩
  | @lost worker node result rest hnode hunsent hgone =>
    obtain ⟨list, unsent, -, -, hworker⟩ := hf.workers _ node hnode
    rw [hworker.receiver] at hgone
    cases hgone
  | hungUp hnode hunsent hopen =>
    exact .inl ⟨stored, hf.replace hnode hunsent fun hworker => hworker.hangUp⟩
  | merged hmerge =>
    cases Pipeline.step_of_merge? (m := anyMethod) hmerge with
    | merged hphase =>
      have hbatch := hf.idle (by rw [hphase]; exact MergerPhase.noConfusion)
      have hcounted := hf.counted
      rw [hphase] at hcounted
      exact .inl ⟨stored, MergerPhase.noConfusion, hf.workers, hf.size, hf.batch,
        fun _ => hbatch, hf.store, hcounted, hf.storeUsable⟩
    | collect hphase hnode hitems => exact .inl ⟨stored, hf.collect hphase hnode hitems⟩
    | storeBatch hphase hfull =>
      have hsome : results ≠ [] := by
        rintro rfl
        cases hshortest
      exact .inl ⟨stored + 1, hf.storeBatch hsome hphase hfull⟩
    | stopMerger hphase hnode hitems hgone =>
      exact .inr (hf.stopMerger hshortest hphase hnode hitems hgone)

/-- As long as the merger is there, the merger can go on or the worker that it waits for can. -/
theorem exists_turn (hf : h.Follows p results stored) : ∃ turn, (h.turn? turn).isSome := by
  cases hmerge : h.pipeline.merge? with
  | some pipeline => exact ⟨.merge, by rw [turn?, hmerge]; rfl⟩
  | none =>
    obtain ⟨-, node, hnode, hitems, hopen⟩ :=
      (Pipeline.waits_of_merge? hmerge).resolve_left hf.there
    obtain ⟨list, unsent, -, hunsent, hworker⟩ := hf.workers _ node hnode
    cases unsent with
    | nil =>
      refine ⟨.hangUp h.pipeline.merger.batch.length, ?_⟩
      simp only [turn?, hangUp?, hnode, hunsent, hopen, if_true, Option.isSome_some]
    | cons result rest =>
      obtain ⟨outbox, hsend⟩ := hworker.exists_send hitems result
      refine ⟨.send h.pipeline.merger.batch.length, ?_⟩
      simp only [turn?, send?, hnode, hunsent, hsend, Option.isSome_some]

end Follows

/-- What the workers still do when the merger has left changes nothing. -/
theorem Left.turn (hl : h.Left p results stored) {turn : Turn} (hturn : h.turn? turn = some next) :
    next.Left p results stored := by
  cases step_of_turn? hturn with
  | sent hnode hunsent hsend => exact ⟨hl.stopped, hl.store, hl.counted⟩
  | lost hnode hunsent hgone => exact ⟨hl.stopped, hl.store, hl.counted⟩
  | hungUp hnode hunsent hopen => exact ⟨hl.stopped, hl.store, hl.counted⟩
  | merged hmerge =>
    rw [Pipeline.merge?, hl.stopped] at hmerge
    cases hmerge

/-- The merger is on its way through the batches, or it has left after the last one. -/
theorem account_of_run {shortest : Nat} (hp : p.AwaitsResults results)
    (hshortest : (results.map List.length).min? = some shortest) {turns : List Turn}
    (hrun : (⟨p, results⟩ : Handover).run? turns = some h) :
    (∃ stored, h.Follows p results stored) ∨ h.Left p results shortest := by
  have hall {h next : Handover} {turns : List Turn} (hrun : h.run? turns = some next)
      (hh : (∃ stored, h.Follows p results stored) ∨ h.Left p results shortest) :
      (∃ stored, next.Follows p results stored) ∨ next.Left p results shortest := by
    induction turns generalizing h with
    | nil =>
      rw [run?, Option.some.injEq] at hrun
      exact hrun ▸ hh
    | cons turn turns ih =>
      obtain ⟨between, hturn, hrest⟩ := Option.bind_eq_some_iff.mp hrun
      apply ih hrest
      rcases hh with ⟨stored, hf⟩ | hl
      · exact hf.turn hshortest hturn
      · exact .inr (hl.turn hturn)
  exact hall hrun (.inl ⟨0, follows_start hp⟩)

/-- However the turns of the workers and of the merger are interleaved, the store is always that of
a number of merges, no more of them than the shortest list has results.  The turns come to an end;
until the merger has left there is always one that can be taken; and when it has, exactly as many
merges are stored and counted as the shortest list has results. -/
theorem merges_shortest {p : Pipeline} {results : List (List WindowResult)} {shortest : Nat}
    (hp : p.AwaitsResults results) (hshortest : (results.map List.length).min? = some shortest)
    {turns : List Turn} {h : Handover} (hrun : (⟨p, results⟩ : Handover).run? turns = some h) :
    turns.length ≤ (results.map List.length).sum * 4 + results.length + 1 ∧
      (∃ stored ≤ shortest, h.pipeline.store = p.store.afterMerges results stored) ∧
      (h.pipeline.merger.phase ≠ .stopped → ∃ turn, (h.turn? turn).isSome) ∧
      (h.pipeline.merger.phase = .stopped →
        h.pipeline.store = p.store.afterMerges results shortest ∧
          h.pipeline.metrics = p.metrics.afterMerges results shortest) := by
  refine ⟨?_, ?_⟩
  · have hle := length_add_effort_le hrun
    simp only [effort, sum_outboxEffort_start hp, hp.merger, Merger.effort, List.length_nil] at hle
    omega
  · rcases account_of_run hp hshortest hrun with ⟨stored, hf⟩ | hl
    · refine ⟨⟨stored, ?_, hf.store⟩, fun _ => hf.exists_turn, fun hstopped => absurd hstopped hf.there⟩
      obtain ⟨short, hshort, hlength⟩ := List.mem_map.mp (List.min?_eq_some_iff.mp hshortest).1
      exact hlength ▸ hf.stored_le hshort
    · exact ⟨⟨shortest, le_rfl, hl.store⟩, fun hthere => absurd hl.stopped hthere,
        fun _ => ⟨hl.store, hl.counted⟩⟩

/-- Two workers with room for one result each, of which the second has only one, with a time of its
own: the merger has begun a second batch when it learns that there is none. -/
theorem merges_shortest_begun :
    let node : WorkerNode := { worker := default, inbox := .unbounded, outbox := .bounded 1 }
    let p : Pipeline :=
      { queue := .unbounded
        dispatcher := { workers := 2, assembly := { perWindow := 1 }, lag := ⟨0, false⟩ }
        nodes := #[node, node]
        store := { capacity := 100 } }
    let results : List (List WindowResult) :=
      [[⟨0, 0, 7, #[⟨3, 1, 5, 1⟩], false⟩, ⟨0, 1, 8, #[⟨4, 1, 5, 1⟩], false⟩],
        [⟨1, 0, 9, #[⟨20, 2, 6, 2⟩], true⟩]]
    let turns : List Turn := [.send 1, .send 0, .merge, .send 0, .hangUp 1, .merge, .merge, .merge,
      .merge, .hangUp 0, .merge]
    p.AwaitsResults results ∧ (results.map List.length).min? = some 1 ∧
      ∃ h, (⟨p, results⟩ : Handover).run? turns = some h ∧ h.pipeline.merger.batch.length = 1 ∧
        turns.length ≤ (results.map List.length).sum * 4 + results.length + 1 ∧
        (∃ stored ≤ 1, h.pipeline.store = p.store.afterMerges results stored) ∧
        h.pipeline.store = p.store.afterMerges results 1 ∧
        h.pipeline.store.primitives = #[⟨7, ⟨3, 1, 5, 1⟩⟩, ⟨7, ⟨20, 2, 6, 2⟩⟩] ∧
        h.pipeline.metrics = p.metrics.afterMerges results 1 := by
  intro node p results turns
  have hp : p.AwaitsResults results := by
    refine ⟨rfl, fun n hn => ?_, rfl, rfl⟩
    have hnode : n = node := by simpa [p] using hn
    rw [hnode]
    exact ⟨rfl, rfl, rfl, by decide⟩
  have hshortest : (results.map List.length).min? = some 1 := by decide
  have hmerger : ((⟨p, results⟩ : Handover).run? turns).map (fun h =>
      (h.pipeline.merger.phase, h.pipeline.merger.batch.length)) = some (.stopped, 1) := by
    decide +kernel
  obtain ⟨h, hrun, heq⟩ := Option.map_eq_some_iff.mp hmerger
  obtain ⟨hstopped, hbegun⟩ := Prod.mk.inj heq
  obtain ⟨hlength, hstore, -, hend⟩ := merges_shortest hp hshortest hrun
  obtain ⟨hmerged, hcounted⟩ := hend hstopped
  refine ⟨hp, hshortest, h, hrun, hbegun, hlength, hstore, hmerged, ?_, hcounted⟩
  rw [hmerged]
  decide +kernel

end Handover

end TpcTrigger
