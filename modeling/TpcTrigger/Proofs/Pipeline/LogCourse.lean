import TpcTrigger.Proofs.Pipeline.EventLog
import TpcTrigger.Proofs.Pipeline.PipelineCourse

/-! # What the log of a run accounts for

Nothing is lost between the parts of a pipeline: a window that was sent to a worker is searched or
on its way to the kernel, a call that came back is reported or about to be, and a report is in a
stored batch, in the batch next in turn or on its way to the merger.  Every event is written down
by the move that makes it happen, so these accounts are kept whatever the kernel answers.
-/

namespace TpcTrigger

def windowsOf (messages : List WorkerMessage) : List Window :=
  messages.filterMap fun
    | .window window => some window
    | _ => none

@[simp] theorem windowsOf_append (xs ys : List WorkerMessage) :
    windowsOf (xs ++ ys) = windowsOf xs ++ windowsOf ys :=
  List.filterMap_append

theorem windowsOf_ordersFor (windows : List Window) (closing : Bool) :
    windowsOf (ordersFor windows closing) = windows := by
  have hseed : windowsOf (windows.head?.map WorkerMessage.seed).toList = [] := by
    cases windows <;> rfl
  have hall : windowsOf (windows.map .window) = windows := by
    rw [windowsOf, List.filterMap_map]
    exact List.filterMap_some
  have hstop : windowsOf (if closing then [.shutdown] else []) = [] := by cases closing <;> rfl
  rw [ordersFor, windowsOf_append, windowsOf_append, hseed, hall, hstop, List.nil_append,
    List.append_nil]

theorem Worker.id_seed? {w seeded : Worker} {window : Window} (h : w.seed? window = some seeded) :
    seeded.id = w.id := by
  rw [seed?] at h
  split at h
  · rw [← Option.some.inj h]
  · obtain ⟨states, -, hstates⟩ := Option.bind_eq_some_iff.mp h
    rw [← Option.some.inj hstates]

theorem Worker.id_process (m : Method) (w : Worker) (window : Window) :
    (w.process m window).1.id = w.id := by
  simp only [process]
  split <;> rfl

namespace WorkerNode

/-- The account of a worker by what was sent to it, the calls that came back to it, what it reported
and what the merger took of that. -/
structure Logged (worker : Nat) (messages : List WorkerMessage) (calls : List KernelCall)
    (reports taken : List WindowResult) (n : WorkerNode) : Prop where
  id : n.worker.id = worker
  searched : calls.map (·.window) ++ windowsOf (n.inHand ++ n.inbox.items) = windowsOf messages
  reported : calls.map (·.result worker) = reports ++ n.toReport
  collected : reports = taken ++ n.outbox.items

namespace Logged

variable {m : Method} {w : Worker} {c : Course} {n next : WorkerNode} {windows : List Window}
  {closing : Bool} {worker : Nat} {messages : List WorkerMessage} {calls : List KernelCall}
  {reports taken : List WindowResult}

theorem send (h : n.Logged worker messages calls reports taken) {message : WorkerMessage}
    {inbox : Fifo WorkerMessage} (hsend : n.inbox.send message = .done inbox) :
    { n with inbox }.Logged worker (messages ++ [message]) calls reports taken := by
  obtain ⟨-, -, rfl⟩ := Fifo.send_eq_done_iff.mp hsend
  refine { h with searched := ?_ }
  rw [windowsOf_append messages, ← h.searched]
  simp [inHand]

theorem collect (h : n.Logged worker messages calls reports taken) {result : WindowResult}
    {rest : List WindowResult} (hitems : n.outbox.items = result :: rest) :
    { n with outbox := { n.outbox with items := rest } }.Logged worker messages calls reports
      (taken ++ [result]) := by
  refine { h with collected := ?_ }
  rw [h.collected, hitems]
  simp

/-- A worker that takes a message loses nothing of its inbox, also when it is asked to stop. -/
theorem accept (h : n.Logged worker messages calls reports taken) (hphase : n.phase = .ready)
    {message : WorkerMessage} {rest : List WorkerMessage} (hitems : n.inbox.items = message :: rest)
    (hlast : message = .shutdown → windowsOf rest = [])
    (hcrash : ({ n with inbox := { n.inbox with items := rest } }.accept message).phase ≠
      .crashed) :
    ({ n with inbox := { n.inbox with items := rest } }.accept message).Logged worker messages calls
      reports taken := by
  have hsearched := h.searched
  have hreported := h.reported
  rw [inHand, hphase, hitems, List.nil_append] at hsearched
  rw [toReport, hphase] at hreported
  cases message with
  | seed window =>
    simp only [WorkerNode.accept] at hcrash ⊢
    cases hseed : n.worker.seed? window with
    | none => simp [hseed, leave] at hcrash
    | some seeded =>
      refine ⟨(Worker.id_seed? hseed).trans h.id, ?_, ?_, h.collected⟩
      · rw [← hsearched, inHand, hphase]
        rfl
      · rw [hreported, toReport, hphase]
  | window window => exact ⟨h.id, hsearched, hreported, h.collected⟩
  | shutdown =>
    refine ⟨h.id, ?_, hreported, h.collected⟩
    rw [← hsearched]
    exact congrArg _ (hlast rfl).symm

/-- The kernel comes back, with whatever it leaves behind. -/
theorem process (h : n.Logged worker messages calls reports taken) (m : Method) {window : Window}
    (hphase : n.phase = .holding window) :
    { n with
      worker := (n.worker.process m window).1
      phase := .reporting (n.worker.process m window).2 }.Logged worker messages
        (calls ++ [n.worker.call m window]) reports taken := by
  have hsearched := h.searched
  have hreported := h.reported
  rw [inHand, hphase] at hsearched
  rw [toReport, hphase, List.append_nil] at hreported
  refine ⟨(Worker.id_process m n.worker window).trans h.id, ?_, ?_, h.collected⟩
  · rw [← hsearched, List.map_append, List.append_assoc]
    rfl
  · rw [List.map_append, hreported, ← h.id, toReport, Worker.process_result]
    rfl

theorem report (h : n.Logged worker messages calls reports taken) {result : WindowResult}
    (hphase : n.phase = .reporting result) {outbox : Fifo WindowResult}
    (hsend : n.outbox.send result = .done outbox) :
    { n with outbox, phase := .ready }.Logged worker messages calls (reports ++ [result])
      taken := by
  obtain ⟨-, -, rfl⟩ := Fifo.send_eq_done_iff.mp hsend
  have hsearched := h.searched
  have hreported := h.reported
  rw [inHand, hphase] at hsearched
  rw [toReport, hphase] at hreported
  refine ⟨h.id, hsearched, ?_, ?_⟩
  · rw [hreported]
    simp [toReport]
  · rw [h.collected]
    simp

/-- A worker writes down what it does.  By the balance of its windows, it leaves nothing behind when
it leaves. -/
theorem step (h : n.Logged worker messages calls reports taken) (hn : n.Follows m w c)
    (horders : c.orders = ordersFor windows closing) (hnext : next.Follows m w c)
    (hstep : n.step? m = some next) :
    next.Logged worker messages (calls ++ Log.callsOf worker (n.events m worker))
      (reports ++ Log.reportsOf worker (n.events m worker)) taken := by
  have hsilent (hnone : n.events m worker = [])
      (hnext : next.Logged worker messages calls reports taken) :
      next.Logged worker messages (calls ++ Log.callsOf worker (n.events m worker))
        (reports ++ Log.reportsOf worker (n.events m worker)) taken := by
    rw [hnone]
    simpa [Log.callsOf, Log.reportsOf] using hnext
  cases step_of_step? hstep with
  | @accept message rest hphase hitems =>
    refine hsilent (by rw [events, hphase]) (h.accept hphase hitems ?_ hnext.not_crashed)
    rintro rfl
    obtain ⟨done, -, hall, -⟩ := hn.history
    have hlast : done ++ .shutdown :: (rest ++ c.pending) = ordersFor windows closing := by
      rw [← horders, ← hall, inHand, hphase, hitems]
      simp
    rw [(List.append_eq_nil_iff.mp (eq_nil_of_shutdown hlast).1).1]
    rfl
  | orphaned hphase hitems hgone =>
    refine hsilent (by rw [events, hphase]) ⟨h.id, ?_, ?_, h.collected⟩
    · rw [← h.searched, inHand.eq_def n, hphase, hitems]
      rfl
    · rw [h.reported, toReport.eq_def n, hphase]
      rfl
  | @process window hphase =>
    have hevents : n.events m worker = [.called worker (n.worker.call m window)] := by
      rw [events, hphase]
    rw [hevents, Log.callsOf_called, if_pos rfl]
    simpa [Log.reportsOf] using h.process m hphase
  | @report result outbox hphase hsend =>
    have hevents : n.events m worker = [.reported worker result] := by
      simp only [events, hphase, hsend]
    rw [hevents, Log.reportsOf_reported, if_pos rfl]
    simpa [Log.callsOf] using h.report hphase hsend
  | unheard hphase hgone =>
    -- the result in hand would be lost
    have hbalance := (hn.balance horders).trans (hnext.balance horders).symm
    simp only [inHand, toReport, hphase, leave, Fifo.closeReceiver, Fifo.closeSender,
      List.nil_append, List.countP_append, List.length_nil, List.length_singleton] at hbalance
    omega

theorem closeReceiver (h : n.Logged worker messages calls reports taken)
    (hitems : n.outbox.items = []) :
    { n with outbox := n.outbox.closeReceiver }.Logged worker messages calls reports taken := by
  refine { h with collected := ?_ }
  rw [h.collected, hitems]
  rfl

end Logged

end WorkerNode

namespace Log

/-- The results of a worker that the merger has taken: one of every stored batch, and perhaps one of
the batch next in turn. -/
def takenFrom (worker : Nat) (batch : List WindowResult) (log : Log) : List WindowResult :=
  (log.batches ++ [batch]).filterMap (·[worker]?)

theorem takenFrom_eq (worker : Nat) (batch : List WindowResult) (log : Log) :
    log.takenFrom worker batch = log.batches.filterMap (·[worker]?) ++ batch[worker]?.toList := by
  rw [takenFrom, List.filterMap_append]
  cases hplace : batch[worker]? <;> simp [hplace]

end Log

theorem forall_setIfInBounds {α : Type} {P : Nat → α → Prop} {xs : Array α} {i : Nat} {x : α}
    (hother : ∀ j y, j ≠ i → xs[j]? = some y → P j y) (hnew : P i x) :
    ∀ j y, (xs.setIfInBounds i x)[j]? = some y → P j y := by
  intro j y hy
  rw [Array.getElem?_setIfInBounds] at hy
  by_cases hj : i = j
  · subst hj
    rw [if_pos rfl] at hy
    split at hy
    · exact Option.some.inj hy ▸ hnew
    · cases hy
  · rw [if_neg hj] at hy
    exact hother j y (Ne.symm hj) hy

namespace Pipeline

def storeOf (s : Settings) (batches : List (List WindowResult)) : PrimitiveStore :=
  batches.foldl (fun store batch => store.pushBatch (batchTime batch) (batchHits batch))
    { capacity := s.storeCapacity }

structure Logged (s : Settings) (h : Intake) (log : Log) (p : Pipeline) : Prop where
  nodes : ∀ (i : Nat) (n : WorkerNode), p.nodes[i]? = some n →
    n.Logged i (log.messagesTo i) (log.callsOf i) (log.reportsOf i)
      (log.takenFrom i p.merger.batch)
  sent : ∀ i < s.crew.length,
    log.messagesTo i ++ messagesFor i p.dispatcher.acts = ordersFor (h.windows s) h.closing
  full : ∀ batch ∈ log.batches, batch.length = s.crew.length
  store : p.store = storeOf s log.batches

namespace Logged

variable {s : Settings} {m : Method} {h after : Intake} {log : Log} {p q : Pipeline}

theorem unstored (hp : p.Logged s h log) {events : Log} (hbatches : events.batches = [])
    (hnodes : ∀ (i : Nat) (n : WorkerNode), q.nodes[i]? = some n →
      n.Logged i (log.messagesTo i ++ events.messagesTo i) (log.callsOf i ++ events.callsOf i)
        (log.reportsOf i ++ events.reportsOf i) (log.takenFrom i q.merger.batch))
    (hstore : q.store = p.store)
    (hsent : ∀ i < s.crew.length, log.messagesTo i ++ events.messagesTo i ++
      messagesFor i q.dispatcher.acts = ordersFor (after.windows s) after.closing) :
    q.Logged s after (log ++ events) := by
  have hsame : (log ++ events).batches = log.batches := by
    rw [Log.batches_append, hbatches, List.append_nil]
  refine ⟨fun i n hn => ?_, fun i hi => ?_, hsame ▸ hp.full, ?_⟩
  · rw [Log.messagesTo_append, Log.callsOf_append, Log.reportsOf_append, Log.takenFrom, hsame]
    exact hnodes i n hn
  · rw [Log.messagesTo_append]
    exact hsent i hi
  · rw [hsame, hstore, hp.store]

theorem quiet (hp : p.Logged s h log) {events : Log} (hevents : events = [])
    (hnodes : q.nodes = p.nodes) (hbatch : q.merger.batch = p.merger.batch)
    (hstore : q.store = p.store)
    (hsent : ∀ i < s.crew.length,
      log.messagesTo i ++ messagesFor i q.dispatcher.acts =
        ordersFor (after.windows s) after.closing) :
    q.Logged s after (log ++ events) := by
  rw [hevents, List.append_nil]
  refine ⟨fun i n hn => ?_, hsent, hp.full, hstore.trans hp.store⟩
  rw [hbatch]
  exact hp.nodes i n (hnodes ▸ hn)

theorem accept (hp : p.Logged s h log) (hfollows : p.Follows s m h)
    (hthere : p.dispatcher.stopped = false) (hacts : p.dispatcher.acts = []) {task : Task}
    {queue : IngestQueue} (hnext : IngestQueue.next? p.queue = some (task, queue)) (latency : Nat) :
    { p with queue, dispatcher := p.dispatcher.accept task latency }.Logged s (h.take task)
      (log ++ p.dispatchEvents) := by
  obtain ⟨-, horders⟩ := hfollows.dispatcher.accept hacts hthere hnext latency
  refine hp.quiet (by rw [dispatchEvents, hacts]) rfl rfl rfl fun i hi => ?_
  have hsent := hp.sent i hi
  rw [hacts] at hsent
  rw [horders i hi, ← hsent]
  simp [messagesFor]

theorem act (hp : p.Logged s h log) {act : DispatchAct} {acts : List DispatchAct}
    (hacts : p.dispatcher.acts = act :: acts) (hevents : p.dispatchEvents = [])
    (hnodes : q.nodes = p.nodes) (hmerger : q.merger = p.merger) (hstore : q.store = p.store)
    (hrest : q.dispatcher.acts = acts)
    (hsilent : ∀ i < s.crew.length, messagesFor i [act] = []) :
    q.Logged s h (log ++ p.dispatchEvents) := by
  refine hp.quiet hevents hnodes (by rw [hmerger]) hstore fun i hi => ?_
  have hsent := hp.sent i hi
  rw [hacts, ← List.singleton_append, messagesFor_append, hsilent i hi] at hsent
  rw [hrest]
  exact hsent

theorem send (hp : p.Logged s h log) {worker : Nat} {message : WorkerMessage}
    {acts : List DispatchAct} (hacts : p.dispatcher.acts = .send worker message :: acts)
    {node : WorkerNode} {inbox : Fifo WorkerMessage} (hnode : p.nodes[worker]? = some node)
    (hsend : node.inbox.send message = .done inbox) :
    { p with
      nodes := p.nodes.setIfInBounds worker { node with inbox }
      dispatcher := { p.dispatcher with acts } }.Logged s h (log ++ p.dispatchEvents) := by
  have hevents : p.dispatchEvents = [.sent worker message] := by
    simp only [dispatchEvents, hacts, hnode, hsend]
  have hcalls (i : Nat) : Log.callsOf i [.sent worker message] = [] := rfl
  have hreports (i : Nat) : Log.reportsOf i [.sent worker message] = [] := rfl
  rw [hevents]
  refine hp.unstored rfl (forall_setIfInBounds (fun i n hi hn => ?_) ?_) rfl fun i hi => ?_
  · rw [Log.messagesTo_sent, if_neg (Ne.symm hi), hcalls, hreports, List.append_nil,
      List.append_nil, List.append_nil]
    exact hp.nodes i n hn
  · rw [Log.messagesTo_sent, if_pos rfl, hcalls, hreports, List.append_nil, List.append_nil]
    exact (hp.nodes worker node hnode).send hsend
  · have hsent := hp.sent i hi
    rw [hacts, messagesFor_send_cons, ← List.append_assoc] at hsent
    rw [Log.messagesTo_sent]
    exact hsent

theorem leave (hp : p.Logged s h log) {acts : List DispatchAct}
    (hacts : p.dispatcher.acts = .leave :: acts) :
    { p with
      queue := p.queue.closeReceiver
      nodes := p.nodes.map fun node : WorkerNode => { node with inbox := node.inbox.closeSender }
      dispatcher := { p.dispatcher with acts := acts, stopped := true } }.Logged s h
        (log ++ p.dispatchEvents) := by
  have hevents : p.dispatchEvents = [] := by rw [dispatchEvents, hacts]
  rw [hevents, List.append_nil]
  refine { hp with nodes := fun i n hn => ?_, sent := fun i hi => ?_ }
  · rw [Array.getElem?_map, Option.map_eq_some_iff] at hn
    obtain ⟨n, hn, rfl⟩ := hn
    exact { hp.nodes i n hn with }
  · have hsent := hp.sent i hi
    rw [hacts] at hsent
    exact hsent

theorem work (hp : p.Logged s h log) (hfollows : p.Follows s m h) {worker : Nat}
    {node next : WorkerNode} (hnode : p.nodes[worker]? = some node)
    (hstep : node.step? m = some next) :
    { p with nodes := p.nodes.setIfInBounds worker next }.Logged s h
      (log ++ node.events m worker) := by
  obtain ⟨w, hw, hn⟩ := hfollows.exists_worker hnode
  have hlt : worker < p.nodes.size := (Array.getElem?_eq_some_iff.mp hnode).1
  have hafter : (p.nodes.setIfInBounds worker next)[worker]? = some next := by
    rw [Array.getElem?_setIfInBounds_self_of_lt hlt]
  have hnext := (hfollows.work hnode hstep).nodes worker next w hafter hw
  have hmine := (hp.nodes worker node hnode).step hn rfl hnext hstep
  obtain ⟨hmessages, hbatches, hcalls, hreports⟩ := node.events_only m worker
  refine hp.unstored hbatches (forall_setIfInBounds (fun i n hi hn => ?_) ?_) rfl fun i hi => ?_
  · rw [hmessages, hcalls i hi, hreports i hi, List.append_nil, List.append_nil, List.append_nil]
    exact hp.nodes i n hn
  · rw [hmessages, List.append_nil]
    exact hmine
  · rw [hmessages, List.append_nil]
    exact hp.sent i hi

theorem collect (hp : p.Logged s h log) (hphase : p.merger.phase = .collecting)
    {node : WorkerNode} (hnode : p.nodes[p.merger.batch.length]? = some node)
    {result : WindowResult} {rest : List WindowResult}
    (hitems : node.outbox.items = result :: rest) :
    { p with
      nodes := p.nodes.setIfInBounds p.merger.batch.length
        { node with outbox := { node.outbox with items := rest } }
      merger := { p.merger with batch := p.merger.batch ++ [result] } }.Logged s h
        (log ++ p.mergeEvents) := by
  have hevents : p.mergeEvents = [] := by simp only [mergeEvents, hphase, hnode]
  rw [hevents, List.append_nil]
  refine { hp with nodes := forall_setIfInBounds (fun i n hi hn => ?_) ?_ }
  · have hsame : (p.merger.batch ++ [result])[i]? = p.merger.batch[i]? := by
      rcases Nat.lt_or_gt_of_ne hi with hlt | hgt
      · exact List.getElem?_append_left hlt
      · rw [List.getElem?_eq_none (Nat.le_of_lt hgt), List.getElem?_eq_none]
        rw [List.length_append, List.length_singleton]
        exact hgt
    have hother := hp.nodes i n hn
    rw [Log.takenFrom_eq] at hother ⊢
    rw [hsame]
    exact hother
  · have hmine := (hp.nodes _ node hnode).collect hitems
    rw [Log.takenFrom_eq, List.getElem?_eq_none (Nat.le_refl _), Option.toList_none,
      List.append_nil] at hmine
    rw [Log.takenFrom_eq, List.getElem?_concat_length]
    exact hmine

theorem storeBatch (hp : p.Logged s h log) (hfollows : p.Follows s m h)
    (hphase : p.merger.phase = .collecting) (hfull : p.nodes[p.merger.batch.length]? = none) :
    p.storeBatch.Logged s h (log ++ p.mergeEvents) := by
  have hlength : p.merger.batch.length = s.crew.length := by
    have htake := congrArg List.length hfollows.merger.batch
    have hall := Array.getElem?_eq_none_iff.mp hfull
    rw [List.length_take, Settings.batchAt, List.length_map] at htake
    rw [hfollows.size] at hall
    omega
  have hpos : 0 < p.merger.batch.length :=
    hlength ▸ List.length_pos_of_ne_nil s.crew_ne_nil
  have hready : (p.merger.batch.isEmpty || !p.storeUsable) = false := by
    rw [hfollows.usable, List.isEmpty_eq_false_iff.mpr (List.ne_nil_of_length_pos hpos)]
    rfl
  have hevents : p.mergeEvents = [.stored p.merger.batch] := by
    simp only [mergeEvents, hphase, hfull, hready, Bool.false_eq_true, if_false]
  obtain ⟨hworkers, hbatches⟩ := Log.append_stored log p.merger.batch
  rw [Pipeline.storeBatch, hevents]
  simp only [hready, Bool.false_eq_true, if_false]
  refine ⟨fun i n hn => ?_, fun i hi => ?_, fun batch hbatch => ?_, ?_⟩
  · obtain ⟨hmessages, hcalls, hreports⟩ := hworkers i
    rw [hmessages, hcalls, hreports, Log.takenFrom_eq, hbatches]
    simpa [Log.takenFrom] using hp.nodes i n hn
  · rw [(hworkers i).1]
    exact hp.sent i hi
  · rw [hbatches, List.mem_append, List.mem_singleton] at hbatch
    rcases hbatch with hbatch | rfl
    · exact hp.full batch hbatch
    · exact hlength
  · rw [hbatches, storeOf, List.foldl_append, hp.store]
    rfl

theorem stopMerger (hp : p.Logged s h log) (hfollows : p.Follows s m h)
    (hphase : p.merger.phase = .collecting) {node : WorkerNode}
    (hnode : p.nodes[p.merger.batch.length]? = some node) (hitems : node.outbox.items = [])
    (hgone : node.outbox.senderOpen = false) : p.stopMerger.Logged s h (log ++ p.mergeEvents) := by
  have hevents : p.mergeEvents = [] := by simp only [mergeEvents, hphase, hnode]
  have hstored : p.windowsStored = (h.windows s).length := by
    have hafter := hfollows.stopMerger hphase hnode hitems hgone
    have hall := (hafter.finished rfl).2
    simpa [Pipeline.stopMerger, windowsStored, hphase] using hall
  rw [hevents, List.append_nil]
  refine { hp with nodes := fun i n hn => ?_ }
  rw [Pipeline.stopMerger, Array.getElem?_map, Option.map_eq_some_iff] at hn
  obtain ⟨n, hn, rfl⟩ := hn
  exact (hp.nodes i n hn).closeReceiver (hfollows.reported_of_stored hstored hn).1

theorem move (hp : p.Logged s h log) (hfollows : p.Follows s m h) {move : Move}
    (hmove : p.move? m move = some q) :
    q.Logged s (p.intakeAfter h move) (log ++ p.events m move) := by
  cases step_of_move? hmove with
  | malformed hcheck => exact hp.quiet rfl rfl rfl rfl hp.sent
  | enqueue hcheck hsend => exact hp.quiet rfl rfl rfl rfl hp.sent
  | refuse hcheck hsend => exact hp.quiet rfl rfl rfl rfl hp.sent
  | count hcall => exact hp.quiet rfl rfl rfl rfl hp.sent
  | shutdown hsend => exact hp.quiet rfl rfl rfl rfl hp.sent
  | take hthere hacts hnext =>
    rw [intakeAfter_of_next hthere hacts hnext]
    exact hp.accept hfollows hthere hacts hnext _
  | @note _ act _ hthere hacts hnote =>
    rw [intakeAfter_of_acts hacts]
    cases act with
    | send worker message | leave => cases hnote
    | _ =>
      exact hp.act hacts (by rw [dispatchEvents, hacts]) rfl rfl rfl rfl fun i hi => rfl
  | send hthere hacts hnode hsend =>
    rw [intakeAfter_of_acts hacts]
    exact hp.send hacts hnode hsend
  | pass hthere hacts hgone =>
    rw [intakeAfter_of_acts hacts]
    have hsize := hfollows.length_le_of_gone hacts hgone
    have hevents : p.dispatchEvents = [] := by
      rw [dispatchEvents, hacts]
      dsimp only
      split
      · rfl
      · next node hnode => rw [hgone node hnode]
    exact hp.act hacts hevents rfl rfl rfl rfl fun i hi => by
      rw [messagesFor_send_cons, if_neg (by omega)]
      rfl
  | leave hthere hacts =>
    rw [intakeAfter_of_acts hacts]
    exact hp.leave hacts
  | @work worker node _ hnode hstep =>
    have hevents : p.events m (.work worker) = node.events m worker := by
      rw [events, hnode]
      rfl
    rw [hevents]
    exact hp.work hfollows hnode hstep
  | merged hphase =>
    exact hp.quiet (by simp only [events, mergeEvents, hphase]) rfl rfl rfl hp.sent
  | collect hphase hnode hitems => exact hp.collect hphase hnode hitems
  | storeBatch hphase hfull => exact hp.storeBatch hfollows hphase hfull
  | stopMerger hphase hnode hitems hgone => exact hp.stopMerger hfollows hphase hnode hitems hgone

theorem run (hp : p.Logged s h log) (hfollows : p.Follows s m h) {moves : List Move}
    (hrun : p.run? m moves = some q) : q.Logged s (p.intake m h moves) (log ++ p.log m moves) := by
  induction moves generalizing p h log with
  | nil =>
    rw [run?, Option.some.injEq] at hrun
    rw [← hrun, Pipeline.log, List.append_nil]
    exact hp
  | cons move moves ih =>
    rw [run?] at hrun
    obtain ⟨next, hmove, hrest⟩ := Option.bind_eq_some_iff.mp hrun
    simp only [intake, Pipeline.log, hmove, Option.elim_some]
    rw [← List.append_assoc]
    exact ih (hp.move hfollows hmove) (hfollows.move hmove) hrest

end Logged

theorem logged_start (s : Settings) : (start s).Logged s ⟨[], [], false⟩ [] where
  nodes := by
    intro i n hn
    have hi : s.nodes[i]? = some n := by simpa [start] using hn
    rw [Settings.nodes, List.getElem?_map, List.getElem?_zipIdx, Option.map_map,
      Option.map_eq_some_iff] at hi
    obtain ⟨registers, -, rfl⟩ := hi
    exact ⟨Nat.zero_add i, rfl, rfl, rfl⟩
  sent := fun i hi => rfl
  full := by simp [Log.batches]
  store := rfl

end Pipeline

end TpcTrigger
