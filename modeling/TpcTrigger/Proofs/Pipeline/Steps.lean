import TpcTrigger.Pipeline.Flow
import Mathlib.Tactic

/-! # What a move does

The moves of a pipeline as a relation: every way in which a part can move, with the condition
under which it does and what it changes.  All that is kept by every move is shown by going
through these ways.  A part that has no move waits for a channel or has left.
-/

namespace TpcTrigger

def ClientCall.count (metrics : Metrics) : ClientCall → Metrics
  | .queued => metrics.countReceived
  | .refused _ => metrics.countRejected

def DispatchAct.count (metrics : Metrics) : DispatchAct → Metrics
  | .countDequeued latency lagging => metrics.countDequeued latency lagging
  | .countGap => metrics.countGap
  | .countMalformed => metrics.countMalformed
  | .countDispatched => metrics.countDispatched
  | .countConsumed => metrics.countConsumed
  | .send _ _ | .leave => metrics

def DispatchAct.isNote : DispatchAct → Bool
  | .send _ _ | .leave => false
  | _ => true

namespace WorkerNode

inductive Step (m : Method) (n : WorkerNode) : WorkerNode → Prop
  | accept {message : WorkerMessage} {rest : List WorkerMessage} (hphase : n.phase = .ready)
      (hitems : n.inbox.items = message :: rest) :
      Step m n ({ n with inbox := { n.inbox with items := rest } }.accept message)
  /-- The dispatcher has left, and there is no message from it any more. -/
  | orphaned (hphase : n.phase = .ready) (hitems : n.inbox.items = [])
      (hgone : n.inbox.senderOpen = false) : Step m n (n.leave .stopped)
  | process {window : Window} (hphase : n.phase = .holding window) :
      Step m n { n with
        worker := (n.worker.process m window).1
        phase := .reporting (n.worker.process m window).2 }
  | report {result : WindowResult} {outbox : Fifo WindowResult}
      (hphase : n.phase = .reporting result) (hsend : n.outbox.send result = .done outbox) :
      Step m n { n with outbox, phase := .ready }
  /-- The merger has left, and nobody takes the result. -/
  | unheard {result : WindowResult} (hphase : n.phase = .reporting result)
      (hgone : n.outbox.receiverOpen = false) : Step m n (n.leave .stopped)

theorem step_of_step? {m : Method} {n next : WorkerNode} (h : n.step? m = some next) :
    n.Step m next := by
  cases hphase : n.phase with
  | ready =>
    rw [step?, hphase] at h
    cases hitems : n.inbox.items with
    | cons message rest =>
      simp only [Fifo.receive_cons hitems, Option.some.injEq] at h
      rw [← h, ← hphase]
      exact .accept hphase hitems
    | nil =>
      cases hopen : n.inbox.senderOpen with
      | true => simp [Fifo.receive, hitems, hopen] at h
      | false =>
        simp only [Fifo.receive, hitems, hopen, Bool.false_eq_true, if_false,
          Option.some.injEq] at h
        exact h ▸ .orphaned hphase hitems hopen
  | holding window =>
    simp only [step?, hphase, Option.some.injEq] at h
    exact h ▸ .process hphase
  | reporting result =>
    rw [step?, hphase] at h
    cases hsend : n.outbox.send result with
    | done outbox =>
      simp only [hsend, Option.some.injEq] at h
      exact h ▸ .report hphase hsend
    | full => simp [hsend] at h
    | closed =>
      simp only [hsend, Option.some.injEq] at h
      exact h ▸ .unheard hphase (Fifo.send_eq_closed_iff.mp hsend)
  | stopped => simp [step?, hphase] at h
  | crashed => simp [step?, hphase] at h

theorem waits_of_step? {m : Method} {n : WorkerNode} (h : n.step? m = none) :
    (n.phase = .ready ∧ n.inbox.items = [] ∧ n.inbox.senderOpen = true) ∨
      (∃ result, n.phase = .reporting result ∧ n.outbox.isFull = true) ∨ n.hasLeft = true := by
  cases hphase : n.phase with
  | ready =>
    rw [step?, hphase] at h
    cases hitems : n.inbox.items with
    | cons message rest => simp [Fifo.receive_cons hitems] at h
    | nil =>
      cases hopen : n.inbox.senderOpen with
      | false => simp [Fifo.receive, hitems, hopen] at h
      | true => exact .inl ⟨rfl, rfl, rfl⟩
  | holding window => simp [step?, hphase] at h
  | reporting result =>
    rw [step?, hphase] at h
    cases hsend : n.outbox.send result with
    | full => exact .inr (.inl ⟨result, rfl, (Fifo.send_eq_full_iff.mp hsend).2⟩)
    | done outbox | closed => simp [hsend] at h
  | stopped | crashed => exact .inr (.inr (by rw [hasLeft, hphase]))

end WorkerNode

namespace Pipeline

inductive Step (m : Method) (p : Pipeline) : Move → Pipeline → Prop
  | malformed {bytes : ByteArray} {cause : FrameError}
      (hcheck : Superchunk.checkSize bytes = .error cause) :
      Step m p (.offer bytes) { p with metrics := p.metrics.countMalformed }
  | enqueue {bytes : ByteArray} {queue : IngestQueue} (hcheck : Superchunk.checkSize bytes = .ok ())
      (hsend : p.queue.send (.superchunk (Header.ofBytes bytes).timestamp bytes) = .done queue) :
      Step m p (.offer bytes) { p with queue, calls := p.calls ++ [.queued] }
  | refuse {bytes : ByteArray} (hcheck : Superchunk.checkSize bytes = .ok ())
      (hsend : p.queue.submit? (Header.ofBytes bytes).timestamp bytes = none) :
      Step m p (.offer bytes) { p with calls := p.calls ++ [.refused bytes] }
  | count {call : Nat} {c : ClientCall} (hcall : p.calls[call]? = some c) :
      Step m p (.count call) { p with
        calls := p.calls.eraseIdx call
        metrics := c.count p.metrics }
  | shutdown {queue : IngestQueue} (hsend : p.queue.send .shutdown = .done queue) :
      Step m p .shutdown { p with queue }
  /-- The dispatcher takes a task. -/
  | take {latency : Nat} {task : Task} {queue : IngestQueue} (hthere : p.dispatcher.stopped = false)
      (hacts : p.dispatcher.acts = []) (hnext : IngestQueue.next? p.queue = some (task, queue)) :
      Step m p (.dispatch latency)
        { p with queue, dispatcher := p.dispatcher.accept task latency }
  /-- The dispatcher counts something. -/
  | note {latency : Nat} {act : DispatchAct} {acts : List DispatchAct}
      (hthere : p.dispatcher.stopped = false) (hacts : p.dispatcher.acts = act :: acts)
      (hnote : act.isNote = true) :
      Step m p (.dispatch latency) { p with
        metrics := act.count p.metrics
        dispatcher := { p.dispatcher with acts } }
  | send {latency worker : Nat} {message : WorkerMessage} {acts : List DispatchAct}
      {node : WorkerNode} {inbox : Fifo WorkerMessage} (hthere : p.dispatcher.stopped = false)
      (hacts : p.dispatcher.acts = .send worker message :: acts)
      (hnode : p.nodes[worker]? = some node) (hsend : node.inbox.send message = .done inbox) :
      Step m p (.dispatch latency) { p with
        nodes := p.nodes.setIfInBounds worker { node with inbox }
        dispatcher := { p.dispatcher with acts } }
  /-- The dispatcher passes over a worker that has left. -/
  | pass {latency worker : Nat} {message : WorkerMessage} {acts : List DispatchAct}
      (hthere : p.dispatcher.stopped = false)
      (hacts : p.dispatcher.acts = .send worker message :: acts)
      (hgone : ∀ node, p.nodes[worker]? = some node → node.inbox.send message = .closed) :
      Step m p (.dispatch latency) { p with dispatcher := { p.dispatcher with acts } }
  | leave {latency : Nat} {acts : List DispatchAct} (hthere : p.dispatcher.stopped = false)
      (hacts : p.dispatcher.acts = .leave :: acts) :
      Step m p (.dispatch latency) { p with
        queue := p.queue.closeReceiver
        nodes := p.nodes.map fun node => { node with inbox := node.inbox.closeSender }
        dispatcher := { p.dispatcher with acts, stopped := true } }
  | work {worker : Nat} {node next : WorkerNode} (hnode : p.nodes[worker]? = some node)
      (hstep : node.step? m = some next) :
      Step m p (.work worker) { p with nodes := p.nodes.setIfInBounds worker next }
  /-- The merger counts the batch that it has stored. -/
  | merged {hits faults : Nat} (hphase : p.merger.phase = .counting hits faults) :
      Step m p .merge { p with
        metrics := p.metrics.countMerged hits faults
        merger := { p.merger with phase := .collecting } }
  | collect {node : WorkerNode} {result : WindowResult} {rest : List WindowResult}
      (hphase : p.merger.phase = .collecting)
      (hnode : p.nodes[p.merger.batch.length]? = some node)
      (hitems : node.outbox.items = result :: rest) :
      Step m p .merge { p with
        nodes := p.nodes.setIfInBounds p.merger.batch.length
          { node with outbox := { node.outbox with items := rest } }
        merger := { p.merger with batch := p.merger.batch ++ [result] } }
  | storeBatch (hphase : p.merger.phase = .collecting)
      (hfull : p.nodes[p.merger.batch.length]? = none) : Step m p .merge p.storeBatch
  /-- The merger leaves because the worker next in turn has. -/
  | stopMerger {node : WorkerNode} (hphase : p.merger.phase = .collecting)
      (hnode : p.nodes[p.merger.batch.length]? = some node) (hitems : node.outbox.items = [])
      (hgone : node.outbox.senderOpen = false) : Step m p .merge p.stopMerger

variable {m : Method} {p q : Pipeline}

theorem step_offer (bytes : ByteArray) : p.Step m (.offer bytes) (p.offer bytes) := by
  rw [offer]
  cases hcheck : Superchunk.checkSize bytes with
  | error cause => exact .malformed hcheck
  | ok u =>
    cases hsend : p.queue.send (.superchunk (Header.ofBytes bytes).timestamp bytes) with
    | done queue =>
      simp only [IngestQueue.submit?, hsend]
      exact .enqueue hcheck hsend
    | full | closed =>
      have hsubmit : p.queue.submit? (Header.ofBytes bytes).timestamp bytes = none := by
        rw [IngestQueue.submit?, hsend]
      simp only [hsubmit]
      exact .refuse hcheck hsubmit

theorem step_of_dispatch? {latency : Nat} (h : p.dispatch? latency = some q) :
    p.Step m (.dispatch latency) q := by
  cases hthere : p.dispatcher.stopped with
  | true => simp [dispatch?, hthere] at h
  | false =>
    rw [dispatch?, if_neg (by simp [hthere])] at h
    cases hacts : p.dispatcher.acts with
    | nil =>
      simp only [hacts, Option.map_eq_some_iff] at h
      obtain ⟨⟨task, queue⟩, hnext, rfl⟩ := h
      exact .take hthere hacts hnext
    | cons act acts =>
      simp only [hacts] at h
      cases act with
      | send worker message =>
        simp only [act?] at h
        cases hnode : p.nodes[worker]? with
        | none =>
          simp only [hnode, Option.some.injEq] at h
          exact h ▸ .pass hthere hacts (by simp [hnode])
        | some node =>
          cases hsend : node.inbox.send message with
          | done inbox =>
            simp only [hnode, hsend, Option.some.injEq] at h
            exact h ▸ .send hthere hacts hnode hsend
          | full => simp [hnode, hsend] at h
          | closed =>
            simp only [hnode, hsend, Option.some.injEq] at h
            refine h ▸ .pass hthere hacts fun other hother => ?_
            rw [hnode, Option.some.injEq] at hother
            rw [← hother, hsend]
      | leave =>
        simp only [act?, Option.some.injEq] at h
        exact h ▸ .leave hthere hacts
      | _ =>
        simp only [act?, Option.some.injEq] at h
        exact h ▸ .note hthere hacts rfl

theorem step_of_merge? (h : p.merge? = some q) : p.Step m .merge q := by
  cases hphase : p.merger.phase with
  | stopped => simp [merge?, hphase] at h
  | counting hits faults =>
    simp only [merge?, hphase, Option.some.injEq] at h
    exact h ▸ .merged hphase
  | collecting =>
    simp only [merge?, hphase] at h
    cases hnode : p.nodes[p.merger.batch.length]? with
    | none =>
      simp only [hnode, Option.some.injEq] at h
      exact h ▸ .storeBatch hphase hnode
    | some node =>
      simp only [hnode] at h
      cases hitems : node.outbox.items with
      | cons result rest =>
        simp only [Fifo.receive_cons hitems, Option.some.injEq] at h
        rw [← h, ← hphase]
        exact .collect hphase hnode hitems
      | nil =>
        cases hopen : node.outbox.senderOpen with
        | true => simp [Fifo.receive, hitems, hopen] at h
        | false =>
          simp only [Fifo.receive, hitems, hopen, Bool.false_eq_true, if_false,
            Option.some.injEq] at h
          exact h ▸ .stopMerger hphase hnode hitems hopen

theorem step_of_move? {move : Move} (h : p.move? m move = some q) : p.Step m move q := by
  cases move with
  | offer bytes =>
    simp only [move?, Option.some.injEq] at h
    exact h ▸ step_offer bytes
  | count call =>
    simp only [move?, count?, Option.map_eq_some_iff] at h
    obtain ⟨c, hcall, rfl⟩ := h
    cases c with
    | queued => exact .count hcall
    | refused bytes => exact .count hcall
  | shutdown =>
    rw [move?, shutdown?] at h
    cases hsend : p.queue.send .shutdown with
    | done queue =>
      simp only [hsend, Option.some.injEq] at h
      exact h ▸ .shutdown hsend
    | full | closed => simp [hsend] at h
  | dispatch latency => exact step_of_dispatch? h
  | work worker =>
    simp only [move?, work?, Option.bind_eq_bind, Option.bind_eq_some_iff, Option.pure_def,
      Option.some.injEq] at h
    obtain ⟨node, hnode, next, hstep, rfl⟩ := h
    exact .work hnode hstep
  | merge => exact step_of_merge? h

theorem waits_of_dispatch? {latency : Nat} (h : p.dispatch? latency = none) :
    p.dispatcher.stopped = true ∨ (p.dispatcher.acts = [] ∧ p.queue.items = []) ∨
      ∃ worker message acts node, p.dispatcher.acts = .send worker message :: acts ∧
        p.nodes[worker]? = some node ∧ node.inbox.receiverOpen = true ∧
        node.inbox.isFull = true := by
  cases hthere : p.dispatcher.stopped with
  | true => exact .inl rfl
  | false =>
    rw [dispatch?, if_neg (by simp [hthere])] at h
    cases hacts : p.dispatcher.acts with
    | nil =>
      simp only [hacts, Option.map_eq_none_iff] at h
      cases hitems : p.queue.items with
      | nil => exact .inr (.inl ⟨rfl, rfl⟩)
      | cons task rest => simp [IngestQueue.next?, Fifo.receive_cons hitems] at h
    | cons act acts =>
      simp only [hacts] at h
      cases act with
      | send worker message =>
        simp only [act?] at h
        cases hnode : p.nodes[worker]? with
        | none => simp [hnode] at h
        | some node =>
          cases hsend : node.inbox.send message with
          | full => exact .inr (.inr ⟨worker, message, acts, node, rfl, hnode,
              Fifo.send_eq_full_iff.mp hsend⟩)
          | done inbox | closed => simp [hnode, hsend] at h
      | _ => simp [act?] at h

theorem waits_of_work? {worker : Nat} {node : WorkerNode} (h : p.work? m worker = none)
    (hnode : p.nodes[worker]? = some node) : node.step? m = none := by
  cases hstep : node.step? m with
  | none => rfl
  | some next => simp [work?, hnode, hstep] at h

/-- The merger has left, or waits for the worker next in turn. -/
theorem waits_of_merge? (h : p.merge? = none) :
    p.merger.phase = .stopped ∨ p.merger.phase = .collecting ∧
      ∃ node, p.nodes[p.merger.batch.length]? = some node ∧ node.outbox.items = [] ∧
        node.outbox.senderOpen = true := by
  cases hphase : p.merger.phase with
  | stopped => exact .inl rfl
  | counting hits faults => simp [merge?, hphase] at h
  | collecting =>
    simp only [merge?, hphase] at h
    cases hnode : p.nodes[p.merger.batch.length]? with
    | none => simp [hnode] at h
    | some node =>
      simp only [hnode] at h
      cases hitems : node.outbox.items with
      | cons result rest => simp [Fifo.receive_cons hitems] at h
      | nil =>
        cases hopen : node.outbox.senderOpen with
        | false => simp [Fifo.receive, hitems, hopen] at h
        | true => exact .inr ⟨rfl, node, rfl, hitems, hopen⟩

end Pipeline

end TpcTrigger
