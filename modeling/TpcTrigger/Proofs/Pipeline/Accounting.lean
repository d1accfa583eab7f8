import TpcTrigger.Proofs.Pipeline.CallAnswers
import TpcTrigger.Proofs.Pipeline.MergedTotals
import TpcTrigger.Proofs.Pipeline.Progress
import TpcTrigger.Proofs.Pipeline.Refinement

/-! # The counters account for everything

While things are on their way, every counter lags behind by what is on its way to it.  When all
calls have returned and nothing is on its way, the counters agree with each other: every call is
counted once, every superchunk that was queued is taken, every window of them is merged, and every
worker has counted every window as searched or as one that it failed on.
-/

namespace TpcTrigger

instance (n : WorkerNode) : Decidable n.AtRest :=
  decidable_of_iff (n.inbox.items.isEmpty = true ∧ n.inHand.isEmpty = true ∧
    n.toReport.isEmpty = true ∧ n.outbox.items.isEmpty = true) (by
      simp only [List.isEmpty_iff]
      exact ⟨fun ⟨hinbox, hhand, hreport, houtbox⟩ => ⟨hinbox, hhand, hreport, houtbox⟩,
        fun h => ⟨h.inbox, h.inHand, h.toReport, h.outbox⟩⟩)

/-- Whether a batch is stored and not counted yet. -/
def MergerPhase.isCounting : MergerPhase → Bool
  | .counting _ _ => true
  | _ => false

instance (p : Pipeline) : Decidable p.AtRest :=
  decidable_of_iff (p.queue.items.isEmpty = true ∧ p.dispatcher.acts.isEmpty = true ∧
    (∀ node ∈ p.nodes, node.AtRest) ∧ p.merger.batch.isEmpty = true ∧
    p.merger.phase.isCounting = false) (by
      have hcounted : p.merger.phase.isCounting = false ↔
          ∀ hits faults, p.merger.phase ≠ .counting hits faults := by
        cases p.merger.phase <;> simp [MergerPhase.isCounting]
      simp only [List.isEmpty_iff, hcounted]
      exact ⟨fun ⟨hqueue, hacts, hnodes, hbatch, hcounted⟩ =>
          ⟨hqueue, hacts, hnodes, hbatch, hcounted⟩,
        fun h => ⟨h.queue, h.acts, h.nodes, h.batch, h.counted⟩⟩)

namespace Worker

variable (m : Method) {w : Worker} {s : Settings}

theorem counters_of_mem_crew (hw : w ∈ s.crew) : w.windows = 0 ∧ w.hits = 0 ∧ w.faults = 0 := by
  rw [s.crew_eq] at hw
  obtain ⟨⟨r, id⟩, -, rfl⟩ := List.mem_map.mp hw
  exact ⟨rfl, rfl, rfl⟩

theorem counts_ordersFor (hw : w ∈ s.crew) (windows : List Window) (closing : Bool) :
    let after := w.after m (ordersFor windows closing)
    let results := w.results m (ordersFor windows false)
    after.hits = (results.map (·.hitCount)).sum ∧
      after.faults = (results.map (·.faultCount)).sum ∧
      after.windows + after.faults = windows.length := by
  intro after results
  obtain ⟨hwindows, hhits, hfaults⟩ := counters_of_mem_crew hw
  have hresults : w.results m (ordersFor windows closing) = results :=
    w.results_ordersFor m windows closing
  have hcounts : w.Counts results after := hresults ▸ w.counts_after m _
  refine ⟨?_, ?_, ?_⟩
  · rw [hcounts.hits, hhits, Nat.zero_add]
  · rw [hcounts.faults, hfaults, Nat.zero_add]
  · rw [hcounts.windows, hwindows, hfaults, Nat.zero_add]
    exact w.length_results_ordersFor m windows false

end Worker

/-- Whether a client asks for a stop with a move. -/
def Move.isShutdown : Move → Bool
  | .shutdown => true
  | _ => false

namespace Pipeline

variable {s : Settings} {m : Method} {h : Intake} {p q : Pipeline} {moves : List Move}

theorem account_of_run (hrun : (start s).run? m moves = some p) :
    p.Account s m (intakeOf s m moves) ∧ p.Timed (intakeOf s m moves) ∧
      p.Summed s m (intakeOf s m moves) :=
  (account_start s m).run_induction (I := fun h p => p.Timed h ∧ p.Summed s m h)
    ⟨timed_start s, summed_start s m⟩
    (fun _ _ _ _ _ haccount hI hmove => ⟨hI.1.move haccount hmove, hI.2.move haccount hmove⟩) hrun

/-- No buffer is offered after a request to stop. -/
def OffersFirst (moves : List Move) : Prop :=
  moves.Pairwise fun earlier later => earlier.isShutdown = true → later.isOffer = false

instance (moves : List Move) : Decidable (OffersFirst moves) :=
  inferInstanceAs (Decidable (moves.Pairwise _))

theorem taken_of_atRest (hmoves : OffersFirst moves) (hrun : (start s).run? m moves = some p)
    (hrest : p.AtRest) : (intakeOf s m moves).taken = (start s).accepted m moves := by
  by_cases hshutdown : .shutdown ∈ moves
  · obtain ⟨before, after, rfl, hbefore⟩ := List.eq_append_cons_of_mem hshutdown
    have hasked := asked_of_run hbefore hrun
    have hclosing : (intakeOf s m (before ++ .shutdown :: after)).closing = true := by
      by_contra hopen
      rw [Bool.not_eq_true] at hopen
      obtain ⟨front, later, hqueue, -⟩ := hasked.waiting hopen
      rw [hrest.queue] at hqueue
      simp at hqueue
    rw [run?_append] at hrun
    obtain ⟨next, hfirst, -⟩ := Option.bind_eq_some_iff.mp hrun
    have hlast : ∀ move ∈ .shutdown :: after, move.isOffer = false := by
      have hbehind := (List.pairwise_append.mp hmoves).2.1
      rw [List.pairwise_cons] at hbehind
      rw [List.forall_mem_cons]
      exact ⟨rfl, fun move hmem => hbehind.1 move hmem rfl⟩
    have hlater := accepted_eq_nil (m := m) hlast next
    rw [hasked.taken hclosing, accepted_append hfirst, hlater, List.append_nil]
  · have hunasked := unasked_of_run hshutdown hrun
    obtain ⟨hp, -⟩ := account_of_run hrun
    have hthere : p.dispatcher.stopped = false := by
      by_contra hstopped
      rw [Bool.not_eq_false] at hstopped
      have hclosing := (hp.follows.dispatcher.of_stopped hstopped).1
      rw [hunasked.closing] at hclosing
      cases hclosing
    have hqueued := hp.follows.dispatcher.queued hthere
    rw [accepted_intakeOf hrun, IngestQueue.superchunks, hrest.queue] at hqueued
    rw [← hqueued]
    exact (List.append_nil _).symm

namespace Follows

theorem merged_of_atRest (hp : p.Follows s m h) (hrest : p.AtRest) :
    p.windowsStored = (h.windows s).length ∧ p.metrics.merged = (h.windows s).length := by
  have hpos : 0 < p.nodes.size := by
    rw [hp.size]
    exact List.length_pos_of_ne_nil s.crew_ne_nil
  have hnode := Array.getElem?_eq_getElem hpos
  obtain ⟨w, -, hfollows⟩ := hp.exists_worker hnode
  have hn := hrest.nodes _ (Array.getElem_mem hpos)
  have hstored : p.windowsStored = (h.windows s).length := by
    have hbalance := hfollows.balance rfl
    rw [hn.inbox, hn.inHand, hn.toReport, hn.outbox, course, hrest.acts, hrest.batch] at hbalance
    exact hbalance
  refine ⟨hstored, ?_⟩
  rw [← hstored, windowsStored]
  cases hphase : p.merger.phase with
  | counting hits faults => exact absurd hphase (hrest.counted hits faults)
  | collecting | stopped => rfl

theorem workers_of_atRest (hp : p.Follows s m h) (hrest : p.AtRest) :
    p.nodes.toList.map (·.worker) = s.crew.map (·.after m (ordersFor (h.windows s) h.closing)) := by
  apply hp.map_nodes
  intro i node w hmem hfollows
  have hn := hrest.nodes node hmem
  rcases hfollows.history with ⟨done, -, hall, hworker, -⟩
  have hpending : messagesFor i ([] : List DispatchAct) = [] := rfl
  rw [hn.inHand, hn.inbox, course, hrest.acts] at hall
  simp only [hpending, List.append_nil] at hall
  rw [hworker, hall]

end Follows

/-- How the counters of a pipeline at rest agree with the answers of its calls, with the superchunks
that it accepted and with each other. -/
structure Accounted (s : Settings) (answers : List Answer) (accepted : List ByteArray)
    (p : Pipeline) : Prop where
  received : p.metrics.received = answers.countP (·.isQueued)
  rejected : p.metrics.rejected = answers.countP (·.isRefused)
  malformed : p.metrics.malformed = answers.countP (·.isBadFrame)
  received_accepted : p.metrics.received = accepted.length
  consumed : p.metrics.consumed = p.metrics.received
  dispatched : p.metrics.dispatched = p.metrics.received / s.superchunksPerWindow
  merged : p.metrics.merged = p.metrics.received / s.superchunksPerWindow
  gaps : p.metrics.gaps = gapCount (accepted.map timeOf)
  windows : ∀ node ∈ p.nodes, node.worker.windows + node.worker.faults = p.metrics.merged
  faults : p.metrics.faults = (p.nodes.toList.map (·.worker.faults)).sum
  hits : p.metrics.hits = (p.nodes.toList.map (·.worker.hits)).sum
  stored : p.store.size + p.store.evicted = p.metrics.hits

/-- The sums of the merger are those of the workers, and what the store holds or has given up. -/
theorem sums_of_atRest (hp : p.Account s m h) (hsummed : p.Summed s m h) (hrest : p.AtRest) :
    p.metrics.faults = (p.nodes.toList.map (·.worker.faults)).sum ∧
      p.metrics.hits = (p.nodes.toList.map (·.worker.hits)).sum ∧
      p.store.size + p.store.evicted = p.metrics.hits := by
  have hstored := (hp.follows.merged_of_atRest hrest).1
  have hworkers := hp.follows.workers_of_atRest hrest
  have hpending : p.merger.phase.hits = 0 ∧ p.merger.phase.faults = 0 := by
    cases hphase : p.merger.phase with
    | counting hits faults => exact absurd hphase (hrest.counted hits faults)
    | collecting | stopped => exact ⟨rfl, rfl⟩
  have hhits := hsummed.hits
  have hfaults := hsummed.faults
  rw [hpending.1, Nat.add_zero] at hhits
  rw [hpending.2, Nat.add_zero] at hfaults
  have hsum (f : Worker → Nat) : p.nodes.toList.map (fun node => f node.worker) =
      s.crew.map fun w => f (w.after m (ordersFor (h.windows s) h.closing)) := by
    have hmap := congrArg (List.map f) hworkers
    rwa [List.map_map, List.map_map] at hmap
  refine ⟨?_, ?_, ?_⟩
  · rw [hfaults, hstored, s.total_length, hsum]
    congr 1
    apply List.map_congr_left
    intro w hw
    exact (w.counts_ordersFor m hw _ _).2.1.symm
  · rw [hhits, hstored, s.total_length, hsum]
    congr 1
    apply List.map_congr_left
    intro w hw
    exact (w.counts_ordersFor m hw _ _).1.symm
  · rw [hhits, hp.follows.merger.store]
    exact s.size_add_evicted_storeAfter m _ _

theorem accounted_of_atRest (hs : s.Checked) (hmoves : OffersFirst moves)
    (hrun : (start s).run? m moves = some p) (hcalls : p.calls = []) (hrest : p.AtRest) :
    p.Accounted s ((start s).answers m moves) ((start s).accepted m moves) := by
  obtain ⟨hp, htimed, hsummed⟩ := account_of_run hrun
  have htaken := taken_of_atRest hmoves hrun hrest
  have hcounts := CountsCalls.run (account_start s m) (timed_start s) hrun
  have hlength : p.metrics.received = ((start s).accepted m moves).length := by
    rw [← accepted_intakeOf hrun, ← hp.tally.received, hcalls]
    rfl
  have hwindows : ((intakeOf s m moves).windows s).length =
      p.metrics.received / s.superchunksPerWindow := by
    rw [Intake.windows, Assembly.length_completed (Settings.superchunksPerWindow_pos hs),
      List.length_map, htaken, hlength]
  have hconsumed := hp.tally.consumed
  have hdispatched := hp.tally.dispatched
  have hgaps := htimed.gaps
  rw [hrest.acts, List.count_nil, Nat.add_zero] at hconsumed hdispatched hgaps
  obtain ⟨-, hmerged⟩ := hp.follows.merged_of_atRest hrest
  obtain ⟨hfaults, hhits, hstored⟩ := sums_of_atRest hp hsummed hrest
  constructor
  · exact hcounts.received.trans (Nat.zero_add _)
  · exact hcounts.rejected.trans (Nat.zero_add _)
  · exact hcounts.malformed.trans (Nat.zero_add _)
  · exact hlength
  · rw [hconsumed, htaken, hlength]
  · rw [hdispatched, hwindows]
  · rw [hmerged, hwindows]
  · rw [hgaps, htaken]
  · intro node hnode
    have hmem : node.worker ∈ p.nodes.toList.map (·.worker) :=
      List.mem_map_of_mem (Array.mem_toList_iff.mpr hnode)
    rw [hp.follows.workers_of_atRest hrest] at hmem
    obtain ⟨w, hw, hafter⟩ := List.mem_map.mp hmem
    rw [← hafter, hmerged]
    exact (w.counts_ordersFor m hw _ _).2.2
  · exact hfaults
  · exact hhits
  · exact hstored

end Pipeline

namespace Finder

variable {s : Settings} {kernel : Kernel} {f : Finder} {moves : List Move} {p : Pipeline}

/-- Whatever the kernel does and however the parts are interleaved, when all calls have returned
and nothing is on its way, every offer was counted once and the counters account for
everything. -/
theorem counters_account (hstart : startWith s kernel = .ok f)
    (hmoves : Pipeline.OffersFirst moves) (hrun : f.pipeline.run? f.method moves = some p)
    (hcalls : p.calls = []) (hrest : p.AtRest) :
    p.metrics.received + p.metrics.rejected + p.metrics.malformed = moves.countP (·.isOffer) ∧
      p.Accounted s (f.pipeline.answers f.method moves) (f.pipeline.accepted f.method moves) := by
  obtain ⟨hs, -, hmethod, hpipeline, -⟩ := startWith_eq_ok hstart
  rw [hmethod, hpipeline] at hrun ⊢
  have hoffered := (Pipeline.CountsCalls.run (Pipeline.account_start s _)
    (Pipeline.timed_start s) hrun).offered
  rw [hcalls] at hoffered
  exact ⟨hoffered.trans (Nat.zero_add _), Pipeline.accounted_of_atRest hs hmoves hrun hcalls hrest⟩

/-- Two windows that do not follow each other, a superchunk that is refused, a buffer that is none,
and a kernel that fails once. -/
theorem counters_account_mixed :
    let s : Settings := {
      windowTicks := superchunkTicks
      queueCapacity := 1
      tapCount := 2
      taps := some #[-3, 64]
      cutoff := Float.ofBits 0x3FB999999999999A }
    let kernel : Kernel := {
      name := "faulty"
      run := fun _ registers window states _ =>
        { states
          hits := #[⟨registers.firstChannel, 1, 5, 1⟩]
          fault := if registers.first ≠ 0 ∧ window.sequence = 0 then some .crashed else none } }
    let bytes (b : UInt8) : ByteArray := ⟨.replicate superchunkBytes b⟩
    let moves : List Move := List.flatten [
      [.offer (bytes 7), .offer (bytes 8), .offer ⟨#[1, 2]⟩, .count 1, .count 0],
      .replicate 8 (.dispatch 0), [.offer (bytes 9), .count 0], .replicate 7 (.dispatch 0),
      .shutdown :: .replicate 4 (.dispatch 0), .replicate 8 (.work 1), .replicate 8 (.work 0),
      .replicate 9 .merge]
    ∃ f p, startWith s kernel = .ok f ∧ Pipeline.OffersFirst moves ∧
      f.pipeline.run? f.method moves = some p ∧ p.calls = [] ∧ p.AtRest ∧
      (p.metrics.received, p.metrics.rejected, p.metrics.malformed) = (2, 1, 1) ∧
      (p.metrics.gaps, p.metrics.faults, p.metrics.hits) = (1, 1, 3) ∧
      p.Accounted s (f.pipeline.answers f.method moves)
        (f.pipeline.accepted f.method moves) := by
  intro s kernel bytes moves
  have hs : s.Checked := by decide +kernel
  have hstart := startWith_of_checked hs kernel
  have hmoves : Pipeline.OffersFirst moves := by decide +kernel
  have hread : ((Pipeline.start s).run? (s.method kernel) moves).map (fun p =>
      (p.calls.isEmpty, decide p.AtRest,
        (p.metrics.received, p.metrics.rejected, p.metrics.malformed),
        (p.metrics.gaps, p.metrics.faults, p.metrics.hits))) =
      some (true, true, (2, 1, 1), (1, 1, 3)) := by decide +kernel
  obtain ⟨p, hrun, hend⟩ := Option.map_eq_some_iff.mp hread
  simp only [Prod.mk.injEq, List.isEmpty_iff, decide_eq_true_eq] at hend
  obtain ⟨hcalls, hrest, hcalled, hcounted⟩ := hend
  have haccount := counters_account hstart hmoves hrun hcalls hrest
  refine ⟨_, p, hstart, hmoves, hrun, hcalls, hrest, ?_, ?_, haccount.2⟩
  · exact Prod.ext hcalled.1 (Prod.ext hcalled.2.1 hcalled.2.2)
  · exact Prod.ext hcounted.1 (Prod.ext hcounted.2.1 hcounted.2.2)

end Finder

end TpcTrigger
