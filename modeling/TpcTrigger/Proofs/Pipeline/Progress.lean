import TpcTrigger.Proofs.Pipeline.Effort
import TpcTrigger.Proofs.Pipeline.StopRequest

/-! # No deadlock

The parts of a pipeline wait for each other only when nothing is left to be done.  A dispatcher
that waits for room has at most one window left for any worker, while a worker that waits for
room is at least two results ahead of the merger.  So the merger never waits for a worker that
waits for the dispatcher while the dispatcher waits for a third.
-/

namespace TpcTrigger

/-- A channel that can hold something is not full while it is empty. -/
theorem Fifo.length_pos_of_isFull {α : Type} {q : Fifo α} {n : Nat} (hn : n ≠ 0)
    (hcapacity : q.capacity = some n) (hfull : q.isFull = true) : 0 < q.items.length := by
  simp only [isFull, hcapacity, decide_eq_true_eq] at hfull
  omega

structure WorkerNode.AtRest (n : WorkerNode) : Prop where
  inbox : n.inbox.items = []
  inHand : n.inHand = []
  toReport : n.toReport = []
  outbox : n.outbox.items = []

namespace Pipeline

/-- Nothing is on its way through the pipeline. -/
structure AtRest (p : Pipeline) : Prop where
  queue : p.queue.items = []
  acts : p.dispatcher.acts = []
  nodes : ∀ node ∈ p.nodes, node.AtRest
  batch : p.merger.batch = []
  counted : ∀ hits faults, p.merger.phase ≠ .counting hits faults

def CanMove (m : Method) (p : Pipeline) : Prop :=
  (∀ latency, (p.dispatch? latency).isSome) ∨ (∃ worker, (p.work? m worker).isSome) ∨
    p.merge?.isSome

theorem of_not_canMove {m : Method} {p : Pipeline} (h : ¬ p.CanMove m) :
    (∃ latency, p.dispatch? latency = none) ∧ (∀ worker, p.work? m worker = none) ∧
      p.merge? = none := by
  simp only [CanMove, not_or, not_forall, not_exists, Bool.not_eq_true,
    Option.isSome_eq_false_iff, Option.isNone_iff_eq_none] at h
  exact h

namespace Account

variable {s : Settings} {m : Method} {h : Intake} {p : Pipeline}

/-- A worker that waits and has no room for a message has none for its result either. -/
theorem reporting_of_isFull (haccount : p.Account s m h) (hdepth : s.workerQueueDepth ≠ 0)
    {worker : Nat} {node : WorkerNode} (hnode : p.nodes[worker]? = some node)
    (hwait : p.work? m worker = none) (hreceiver : node.inbox.receiverOpen = true)
    (hfull : node.inbox.isFull = true) :
    node.toReport ≠ [] ∧ 0 < node.outbox.items.length := by
  have hholds := haccount.wired.nodes node (Array.mem_of_getElem? hnode)
  rcases WorkerNode.waits_of_step? (waits_of_work? hwait hnode) with
    ⟨-, hitems, -⟩ | ⟨result, hreporting, hbusy⟩ | hleft
  · have hlength := Fifo.length_pos_of_isFull hdepth hholds.1 hfull
    rw [hitems] at hlength
    cases hlength
  · exact ⟨by simp [WorkerNode.toReport, hreporting],
      Fifo.length_pos_of_isFull hdepth hholds.2 hbusy⟩
  · obtain ⟨w, -, hfollows⟩ := haccount.follows.exists_worker hnode
    rw [hfollows.inbox_receiver, hleft] at hreceiver
    cases hreceiver

/-- A worker that waits although there is room for its result waits for the dispatcher. -/
theorem ready_of_isEmpty (haccount : p.Account s m h) (hdepth : s.workerQueueDepth ≠ 0)
    {worker : Nat} {node : WorkerNode} (hnode : p.nodes[worker]? = some node)
    (hwait : p.work? m worker = none) (hempty : node.outbox.items = [])
    (hopen : node.outbox.senderOpen = true) :
    node.phase = .ready ∧ node.inbox.items = [] ∧ node.inbox.senderOpen = true := by
  obtain ⟨w, -, hfollows⟩ := haccount.follows.exists_worker hnode
  rcases WorkerNode.waits_of_step? (waits_of_work? hwait hnode) with
    hready | ⟨result, -, hfull⟩ | hleft
  · exact hready
  · have hlength := Fifo.length_pos_of_isFull hdepth
      (haccount.wired.nodes node (Array.mem_of_getElem? hnode)).2 hfull
    rw [hempty] at hlength
    cases hlength
  · rw [hfollows.outbox_sender, hleft] at hopen
    cases hopen

theorem atRest_of_stored (haccount : p.Account s m h)
    (hstored : p.windowsStored = (h.windows s).length) {worker : Nat} {node : WorkerNode}
    (hnode : p.nodes[worker]? = some node) (hwait : p.work? m worker = none) :
    node.AtRest ∧ (node.inbox.senderOpen = true ∨ node.hasLeft = true) := by
  obtain ⟨w, -, hfollows⟩ := haccount.follows.exists_worker hnode
  obtain ⟨hsent, hreport⟩ := haccount.follows.reported_of_stored hstored hnode
  rcases WorkerNode.waits_of_step? (waits_of_work? hwait hnode) with
    ⟨hready, hitems, hopen⟩ | ⟨result, hreporting, -⟩ | hleft
  · have hhand : node.inHand = [] := by rw [WorkerNode.inHand, hready]
    exact ⟨⟨hitems, hhand, hreport, hsent⟩, .inl hopen⟩
  · rw [WorkerNode.toReport, hreporting] at hreport
    cases hreport
  · have hhand : node.inHand = [] := by
      rw [WorkerNode.inHand, hfollows.phase_of_hasLeft hleft]
    exact ⟨⟨(hfollows.eq_of_hasLeft rfl hleft).2.2.1, hhand, hreport, hsent⟩, .inr hleft⟩

/-- Once the merger has left, only parts that have left too do not move. -/
theorem exited_of_stuck (haccount : p.Account s m h) (hdepth : s.workerQueueDepth ≠ 0)
    (hstuck : ¬ p.CanMove m) (hphase : p.merger.phase = .stopped) : p.AtRest ∧ p.HasExited := by
  have hp := haccount.follows
  obtain ⟨⟨latency, hdispatch⟩, hwork, -⟩ := of_not_canMove hstuck
  obtain ⟨hclosing, hstored⟩ := hp.finished hphase
  have hstopped : p.dispatcher.stopped = true := by
    by_contra hthere
    rw [Bool.not_eq_true] at hthere
    rcases waits_of_dispatch? hdispatch with
      hstopped | ⟨hacts, -⟩ | ⟨worker, message, acts, node, -, hnode, hreceiver, hfull⟩
    · rw [hthere] at hstopped
      cases hstopped
    · rw [hp.dispatcher.closing_eq_false hacts hthere] at hclosing
      cases hclosing
    · exact (haccount.reporting_of_isFull hdepth hnode (hwork worker) hreceiver hfull).1
        (hp.reported_of_stored hstored hnode).2
  have hrested : ∀ node ∈ p.nodes, node.AtRest ∧ node.hasLeft = true := by
    intro node hmem
    obtain ⟨worker, hnode⟩ := Array.mem_iff_getElem?.mp hmem
    obtain ⟨hrest, hopen | hleft⟩ := haccount.atRest_of_stored hstored hnode (hwork worker)
    · obtain ⟨w, -, hfollows⟩ := hp.exists_worker hnode
      rw [hfollows.inbox_sender, course, hstopped] at hopen
      cases hopen
    · exact ⟨hrest, hleft⟩
  have hreceiver : p.queue.receiverOpen = false := by
    rw [hp.dispatcher.receiver, hstopped]
    rfl
  constructor
  · exact {
      queue := haccount.wired.closed hreceiver
      acts := (hp.dispatcher.of_stopped hstopped).2
      nodes := fun node hmem => (hrested node hmem).1
      batch := hp.merger.idle (by simp [hphase])
      counted := by simp [hphase] }
  · exact ⟨hstopped, fun node hmem => (hrested node hmem).2, hphase⟩

theorem atRest_of_stuck (haccount : p.Account s m h) (hdepth : s.workerQueueDepth ≠ 0)
    (hstuck : ¬ p.CanMove m) {node : WorkerNode} (hphase : p.merger.phase = .collecting)
    (hnode : p.nodes[p.merger.batch.length]? = some node) (hempty : node.outbox.items = [])
    (hopen : node.outbox.senderOpen = true) : p.AtRest ∧ h.closing = false := by
  have hp := haccount.follows
  obtain ⟨⟨latency, hdispatch⟩, hwork, -⟩ := of_not_canMove hstuck
  -- the worker that the merger waits for waits for the dispatcher
  obtain ⟨w, -, hfollows⟩ := hp.exists_worker hnode
  obtain ⟨hready, hitems, hsender⟩ := haccount.ready_of_isEmpty hdepth hnode (hwork _) hempty hopen
  have hdispatching : p.dispatcher.stopped = false := by
    simpa [hfollows.inbox_sender, course] using hsender
  have hbehind := hfollows.balance rfl
  simp only [course, hempty, hitems, WorkerNode.inHand, WorkerNode.toReport, hready,
    Nat.lt_irrefl, if_false, List.length_nil, Nat.add_zero, List.append_nil,
    List.nil_append] at hbehind
  rcases waits_of_dispatch? hdispatch with
    hstopped | ⟨hacts, hqueue⟩ | ⟨worker, message, acts, other, hacts, hother, hreceiver, hfull⟩
  · rw [hdispatching] at hstopped
    cases hstopped
  · have hstored : p.windowsStored = (h.windows s).length := by
      rw [hacts] at hbehind
      exact hbehind
    have hbatch : p.merger.batch = [] := by
      by_contra hbatch
      exact absurd (hp.merger.started hbatch) (by omega)
    refine ⟨⟨hqueue, hacts, fun other hmem => ?_, hbatch, by simp [hphase]⟩,
      hp.dispatcher.closing_eq_false hacts hdispatching⟩
    obtain ⟨i, hother⟩ := Array.mem_iff_getElem?.mp hmem
    exact (haccount.atRest_of_stored hstored hother (hwork i)).1
  · -- the dispatcher waits for a worker that is two results ahead of the merger
    exfalso
    have honce := haccount.tally.acts.window_once p.merger.batch.length
    obtain ⟨v, -, hahead⟩ := hp.exists_worker hother
    obtain ⟨hreport, hsent⟩ :=
      haccount.reporting_of_isFull hdepth hother (hwork worker) hreceiver hfull
    have hreport := List.length_pos_of_ne_nil hreport
    have hle := hahead.collected_le rfl
    simp only [course] at hle
    omega

/-- Only a pipeline without any work cannot move.  Its parts have left, or nobody has asked them
to. -/
theorem rest_of_stuck (haccount : p.Account s m h) (hdepth : s.workerQueueDepth ≠ 0)
    (hstuck : ¬ p.CanMove m) : p.AtRest ∧ (p.HasExited ∨ h.closing = false) := by
  rcases waits_of_merge? (of_not_canMove hstuck).2.2 with
    hphase | ⟨hphase, node, hnode, hempty, hopen⟩
  · obtain ⟨hrest, hexit⟩ := haccount.exited_of_stuck hdepth hstuck hphase
    exact ⟨hrest, .inl hexit⟩
  · obtain ⟨hrest, hclosing⟩ := haccount.atRest_of_stuck hdepth hstuck hphase hnode hempty hopen
    exact ⟨hrest, .inr hclosing⟩

/-- Once a stop was asked for, a pipeline can move until all parts have left. -/
theorem exited_of_asked (haccount : p.Account s m h) {superchunks : List ByteArray}
    (hasked : p.Asked superchunks h) (hdepth : s.workerQueueDepth ≠ 0)
    (hstuck : ¬ p.CanMove m) : p.HasExited := by
  obtain ⟨hrest, hexit | hclosing⟩ := haccount.rest_of_stuck hdepth hstuck
  · exact hexit
  · -- the request would still wait in the queue
    obtain ⟨front, later, hqueue, -⟩ := hasked.waiting hclosing
    rw [hrest.queue] at hqueue
    simp at hqueue

end Account

/-- A pipeline that is to do something can move, and it cannot move forever. -/
theorem canMove_and_settles {s : Settings} {m : Method} {p : Pipeline}
    (hdepth : s.workerQueueDepth ≠ 0) {moves : List Move}
    (hrun : (start s).run? m moves = some p) :
    (¬ p.AtRest ∨ (.shutdown ∈ moves ∧ ¬ p.HasExited) → p.CanMove m) ∧
      ∀ more q, (∀ move ∈ more, move.submits = false) → p.run? m more = some q →
        more.length ≤ p.remaining + p.calls.length := by
  obtain ⟨h, hp, -⟩ := (account_start s m).run hrun
  constructor
  · intro hwork
    by_contra hstuck
    rcases hwork with hbusy | ⟨hshutdown, hthere⟩
    · exact hbusy (hp.rest_of_stuck hdepth hstuck).1
    · obtain ⟨before, after, rfl, hbefore⟩ := List.eq_append_cons_of_mem hshutdown
      obtain ⟨h, hp, hasked⟩ := exists_asked hbefore hrun
      exact hthere (hp.exited_of_asked hasked hdepth hstuck)
  · intro more q hquiet hmore
    have hle := length_add_remaining_le hp.wired hquiet hmore
    omega

/-- The dispatcher waits for the first worker and the merger for its result, so that it is up to
the workers to move. -/
theorem canMove_and_settles_blocked :
    let s : Settings := {
      windowTicks := superchunkTicks
      workerQueueDepth := 1
      tapCount := 2
      taps := some #[-3, 64] }
    let m : Method := s.method s.kernel.kernel
    let moves : List Move :=
      [.offer ⟨.replicate superchunkBytes 7⟩, .shutdown] ++ List.replicate 5 (.dispatch 0)
    ∃ p, s.workerQueueDepth ≠ 0 ∧ (start s).run? m moves = some p ∧
      (p.dispatch? 0).isNone ∧ p.merge?.isNone ∧ ¬ p.AtRest ∧ p.CanMove m ∧
      ∀ more q, (∀ move ∈ more, move.submits = false) → p.run? m more = some q →
        more.length ≤ p.remaining + p.calls.length := by
  intro s m moves
  have hmoves : ((start s).run? m moves).map (fun p =>
      ((p.dispatch? 0).isNone, p.merge?.isNone, p.dispatcher.acts.isEmpty)) =
        some (true, true, false) := by decide +kernel
  obtain ⟨p, hrun, hwaits⟩ := Option.map_eq_some_iff.mp hmoves
  simp only [Prod.mk.injEq] at hwaits
  obtain ⟨hdispatch, hmerge, hacts⟩ := hwaits
  have hbusy : ¬ p.AtRest := fun hrest => by simp [hrest.acts] at hacts
  obtain ⟨hmove, hsettles⟩ := canMove_and_settles (by decide) hrun
  exact ⟨p, by decide, hrun, hdispatch, hmerge, hbusy, hmove (.inl hbusy), hsettles⟩

end Pipeline

end TpcTrigger
