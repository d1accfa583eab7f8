import TpcTrigger.Proofs.Pipeline.Crew
import TpcTrigger.Proofs.Pipeline.MergeCourse
import TpcTrigger.Proofs.Pipeline.Steps
import TpcTrigger.Proofs.Pipeline.WorkerCourse

/-! # The course of a whole pipeline

The accounts of the dispatcher, of every worker and of the merger fit together at all times.
Every move keeps them, so they hold after every run, whatever the order of its moves.  A
merger that leaves has stored every window, so nothing is lost in an outbox.
-/

namespace TpcTrigger

def NodesFollow (m : Method) (crew : List Worker) (course : Nat → Course)
    (nodes : Array WorkerNode) : Prop :=
  ∀ (i : Nat) (n : WorkerNode) (w : Worker),
    nodes[i]? = some n → crew[i]? = some w → n.Follows m w (course i)

namespace NodesFollow

variable {m : Method} {crew : List Worker} {before after : Nat → Course}
  {nodes : Array WorkerNode}

theorem congr (h : NodesFollow m crew before nodes)
    (hsame : ∀ i < crew.length, after i = before i) : NodesFollow m crew after nodes := by
  intro i n w hn hw
  rw [hsame i (List.getElem?_eq_some_iff.mp hw).1]
  exact h i n w hn hw

theorem set (h : NodesFollow m crew before nodes) {worker : Nat} {w : Worker}
    (hworker : crew[worker]? = some w) {node : WorkerNode}
    (hother : ∀ i < crew.length, i ≠ worker → after i = before i)
    (hnode : node.Follows m w (after worker)) :
    NodesFollow m crew after (nodes.setIfInBounds worker node) := by
  intro i n w' hn hw
  rw [Array.getElem?_setIfInBounds] at hn
  by_cases hi : worker = i
  · subst hi
    by_cases hsize : worker < nodes.size
    · simp only [if_true, if_pos hsize, Option.some.injEq] at hn
      rw [hworker, Option.some.injEq] at hw
      rw [← hn, ← hw]
      exact hnode
    · simp [hsize] at hn
  · rw [if_neg hi] at hn
    rw [hother i (List.getElem?_eq_some_iff.mp hw).1 (Ne.symm hi)]
    exact h i n w' hn hw

theorem map (h : NodesFollow m crew before nodes) (f : WorkerNode → WorkerNode)
    (hf : ∀ i n w, crew[i]? = some w → n.Follows m w (before i) → (f n).Follows m w (after i)) :
    NodesFollow m crew after (nodes.map f) := by
  intro i n w hn hw
  rw [Array.getElem?_map, Option.map_eq_some_iff] at hn
  obtain ⟨n, hn, rfl⟩ := hn
  exact hf i n w hw (h i n w hn hw)

end NodesFollow

/-- Whether a client offers a buffer with a move. -/
def Move.isOffer : Move → Bool
  | .offer _ => true
  | _ => false

def Move.offered? : Move → Option ByteArray
  | .offer bytes => some bytes
  | _ => none

namespace Pipeline

/-- The number of windows whose hits are in the store. -/
def windowsStored (p : Pipeline) : Nat :=
  p.metrics.merged + match p.merger.phase with
    | .counting _ _ => 1
    | _ => 0

/-- The superchunk that a move brings into the queue: one of the right size that finds room. -/
def admits (p : Pipeline) : Move → Option ByteArray
  | .offer bytes =>
    if bytes.size = superchunkBytes ∧
        (p.queue.submit? (Header.ofBytes bytes).timestamp bytes).isSome then some bytes
    else none
  | _ => none

theorem admits_of_error {p : Pipeline} {bytes : ByteArray} {cause : FrameError}
    (hcheck : Superchunk.checkSize bytes = .error cause) : p.admits (.offer bytes) = none := by
  have hsize : bytes.size ≠ superchunkBytes := by
    rw [ne_eq, ← Superchunk.checkSize_eq_ok_iff, hcheck]
    simp
  simp only [admits, hsize, false_and, if_false]

theorem admits_of_done {p : Pipeline} {bytes : ByteArray} {queue : IngestQueue}
    (hcheck : Superchunk.checkSize bytes = .ok ())
    (hsend : p.queue.send (.superchunk (Header.ofBytes bytes).timestamp bytes) = .done queue) :
    p.admits (.offer bytes) = some bytes := by
  have hsubmit : p.queue.submit? (Header.ofBytes bytes).timestamp bytes = some queue := by
    rw [IngestQueue.submit?, hsend]
  simp only [admits, Superchunk.checkSize_eq_ok_iff.mp hcheck, hsubmit, Option.isSome_some,
    and_self, if_true]

theorem admits_of_none {p : Pipeline} {bytes : ByteArray}
    (hsend : p.queue.submit? (Header.ofBytes bytes).timestamp bytes = none) :
    p.admits (.offer bytes) = none := by
  simp only [admits, hsend, Option.isSome_none, Bool.false_eq_true, and_false, if_false]

def intakeAfter (p : Pipeline) (h : Intake) : Move → Intake
  | .offer bytes => { h with accepted := h.accepted ++ (p.admits (.offer bytes)).toList }
  | .dispatch _ =>
    match p.dispatcher.stopped, p.dispatcher.acts, IngestQueue.next? p.queue with
    | false, [], some (task, _) => h.take task
    | _, _, _ => h
  | _ => h

theorem intakeAfter_of_none {p : Pipeline} {bytes : ByteArray}
    (hadmits : p.admits (.offer bytes) = none) (h : Intake) :
    p.intakeAfter h (.offer bytes) = h := by
  rw [intakeAfter, hadmits, Option.toList_none, List.append_nil]

theorem intakeAfter_of_next {p : Pipeline} (hthere : p.dispatcher.stopped = false)
    (hacts : p.dispatcher.acts = []) {task : Task} {queue : IngestQueue}
    (hnext : IngestQueue.next? p.queue = some (task, queue)) (h : Intake) (latency : Nat) :
    p.intakeAfter h (.dispatch latency) = h.take task := by
  simp only [intakeAfter, hthere, hacts, hnext]

theorem intakeAfter_of_acts {p : Pipeline} {act : DispatchAct} {acts : List DispatchAct}
    (hacts : p.dispatcher.acts = act :: acts) (h : Intake) (latency : Nat) :
    p.intakeAfter h (.dispatch latency) = h := by
  rw [intakeAfter, hacts]
  cases p.dispatcher.stopped <;> rfl

def intake (m : Method) (p : Pipeline) (h : Intake) : List Move → Intake
  | [] => h
  | move :: moves => (p.move? m move).elim h fun q => q.intake m (p.intakeAfter h move) moves

def course (s : Settings) (h : Intake) (p : Pipeline) (worker : Nat) : Course where
  orders := ordersFor (h.windows s) h.closing
  pending := messagesFor worker p.dispatcher.acts
  collected := p.windowsStored + if worker < p.merger.batch.length then 1 else 0
  dispatching := !p.dispatcher.stopped
  merging := decide (p.merger.phase ≠ .stopped)

structure Follows (s : Settings) (m : Method) (h : Intake) (p : Pipeline) : Prop where
  dispatcher : p.dispatcher.Follows s h p.queue
  nodes : NodesFollow m s.crew (p.course s h) p.nodes
  size : p.nodes.size = s.crew.length
  merger : p.merger.Follows s m (h.windows s) p.windowsStored p.store
  finished : p.merger.phase = .stopped →
    h.closing = true ∧ p.windowsStored = (h.windows s).length
  usable : p.storeUsable = true

namespace Follows

variable {s : Settings} {m : Method} {h : Intake} {p q : Pipeline}

/-- Every place holds a worker of the crew, which keeps its account. -/
theorem exists_worker (hp : p.Follows s m h) {i : Nat} {node : WorkerNode}
    (hnode : p.nodes[i]? = some node) :
    ∃ w, s.crew[i]? = some w ∧ node.Follows m w (p.course s h i) := by
  have hlt := (Array.getElem?_eq_some_iff.mp hnode).1
  rw [hp.size] at hlt
  exact ⟨_, List.getElem?_eq_getElem hlt, hp.nodes i node _ hnode (List.getElem?_eq_getElem hlt)⟩

/-- What is read off the places is what is read off the workers of the crew. -/
theorem map_nodes {β : Type} (hp : p.Follows s m h) {f : WorkerNode → β} {g : Worker → β}
    (hread : ∀ (i : Nat) (node : WorkerNode) (w : Worker), node ∈ p.nodes →
      node.Follows m w (p.course s h i) → f node = g w) :
    p.nodes.toList.map f = s.crew.map g := by
  apply List.ext_getElem
  · rw [List.length_map, List.length_map, Array.length_toList, hp.size]
  · intro i hi _
    rw [List.length_map, Array.length_toList] at hi
    rcases hp.exists_worker (Array.getElem?_eq_getElem hi) with ⟨w, hw, hfollows⟩
    rw [List.getElem_map, Array.getElem_toList, List.getElem_map,
      (List.getElem?_eq_some_iff.mp hw).2]
    exact hread i _ w (Array.getElem_mem hi) hfollows

theorem reported_of_stored (hp : p.Follows s m h)
    (hstored : p.windowsStored = (h.windows s).length) {i : Nat} {node : WorkerNode}
    (hnode : p.nodes[i]? = some node) : node.outbox.items = [] ∧ node.toReport = [] := by
  obtain ⟨w, -, hfollows⟩ := hp.exists_worker hnode
  have hle := hfollows.collected_le rfl
  simp only [course, hstored] at hle
  exact ⟨List.eq_nil_of_length_eq_zero (by omega), List.eq_nil_of_length_eq_zero (by omega)⟩

/-- Calls and counters of clients and of the dispatcher leave the account as it is. -/
theorem count (hp : p.Follows s m h) (metrics : Metrics) (calls : List ClientCall)
    (hmerged : metrics.merged = p.metrics.merged) : { p with metrics, calls }.Follows s m h := by
  have hstored : { p with metrics, calls }.windowsStored = p.windowsStored := by
    simp only [windowsStored, hmerged]
  have hcourse (i : Nat) : course s h { p with metrics, calls } i = p.course s h i := by
    simp only [course, hstored]
  refine { hp with nodes := hp.nodes.congr fun i _ => hcourse i, merger := ?_, finished := ?_ }
  · rw [hstored]
    exact hp.merger
  · rw [hstored]
    exact hp.finished

theorem enqueue (hp : p.Follows s m h) {task : Task} {queue : IngestQueue}
    (hsend : p.queue.send task = .done queue)
    (hsize : ∀ bytes ∈ task.superchunk?, Superchunk.checkSize bytes = .ok ()) :
    { p with queue }.Follows s m (h.enqueue task) :=
  { hp with dispatcher := hp.dispatcher.enqueue hsend hsize }

theorem accept (hp : p.Follows s m h) (hthere : p.dispatcher.stopped = false)
    (hacts : p.dispatcher.acts = []) {task : Task} {queue : IngestQueue}
    (hnext : IngestQueue.next? p.queue = some (task, queue)) (latency : Nat) :
    { p with queue, dispatcher := p.dispatcher.accept task latency }.Follows s m
      (h.take task) := by
  obtain ⟨hd, horders⟩ := hp.dispatcher.accept hacts hthere hnext latency
  have hclosing := hp.dispatcher.closing_eq_false hacts hthere
  obtain ⟨more, hmore⟩ : ∃ more, (h.take task).windows s = h.windows s ++ more := by
    cases task with
    | superchunk timestamp bytes => exact ⟨_, hp.dispatcher.windows_take timestamp bytes⟩
    | shutdown => exact ⟨[], (List.append_nil _).symm⟩
  refine { hp with dispatcher := hd, nodes := ?_, merger := ?_, finished := ?_ }
  · intro i n w hn hw
    have hi := (List.getElem?_eq_some_iff.mp hw).1
    have hextend := (hp.nodes i n w hn hw).extend
      (messagesFor i (p.dispatcher.accept task latency).acts)
    have hpending : (p.course s h i).pending = [] := by
      rw [course, hacts]
      rfl
    rw [hpending, List.nil_append] at hextend
    simpa only [course, horders i hi, Dispatcher.accept_stopped, windowsStored] using hextend
  · rw [hmore]
    exact hp.merger.extend more
  · intro hphase
    rw [(hp.finished hphase).1] at hclosing
    cases hclosing

theorem act (hp : p.Follows s m h) {act : DispatchAct} {acts : List DispatchAct}
    (hacts : p.dispatcher.acts = act :: acts) (hstay : act ≠ .leave)
    (hsilent : ∀ i, messagesFor i [act] = []) :
    { p with dispatcher := { p.dispatcher with acts } }.Follows s m h := by
  have hcourse (i : Nat) :
      course s h { p with dispatcher := { p.dispatcher with acts } } i = p.course s h i := by
    have hsame : messagesFor i p.dispatcher.acts = messagesFor i acts := by
      rw [hacts, ← List.singleton_append, messagesFor_append, hsilent, List.nil_append]
    simp only [course, hsame, windowsStored]
  exact { hp with
    dispatcher := hp.dispatcher.act hacts hstay
    nodes := hp.nodes.congr fun i _ => hcourse i }

theorem send (hp : p.Follows s m h) {worker : Nat} {message : WorkerMessage}
    {acts : List DispatchAct} (hacts : p.dispatcher.acts = .send worker message :: acts)
    {node : WorkerNode} {inbox : Fifo WorkerMessage} (hnode : p.nodes[worker]? = some node)
    (hsend : node.inbox.send message = .done inbox) :
    { p with
      nodes := p.nodes.setIfInBounds worker { node with inbox }
      dispatcher := { p.dispatcher with acts } }.Follows s m h := by
  obtain ⟨w, hw, hfollows⟩ := hp.exists_worker hnode
  have hpending : messagesFor worker p.dispatcher.acts = message :: messagesFor worker acts := by
    rw [hacts, messagesFor_send_cons, if_pos rfl, List.singleton_append]
  refine { hp with
    dispatcher := hp.dispatcher.act hacts (by simp)
    nodes := hp.nodes.set hw (fun i hi hne => ?_) (hfollows.send hpending hsend)
    size := ?_ }
  · have hother : messagesFor i p.dispatcher.acts = messagesFor i acts := by
      rw [hacts, messagesFor_send_cons, if_neg (Ne.symm hne), List.nil_append]
    simp only [course, hother, windowsStored]
  · rw [Array.size_setIfInBounds, hp.size]

theorem length_le_of_gone (hp : p.Follows s m h) {worker : Nat} {message : WorkerMessage}
    {acts : List DispatchAct} (hacts : p.dispatcher.acts = .send worker message :: acts)
    (hgone : ∀ node, p.nodes[worker]? = some node → node.inbox.send message = .closed) :
    s.crew.length ≤ worker := by
  by_contra hlt
  rw [← hp.size, not_le] at hlt
  have hnode := Array.getElem?_eq_getElem hlt
  obtain ⟨w, -, hfollows⟩ := hp.exists_worker hnode
  refine hfollows.send_ne_closed rfl ?_ message (hgone _ hnode)
  simp only [course, hacts, messagesFor_send_cons, if_true]
  simp

theorem pass (hp : p.Follows s m h) {worker : Nat} {message : WorkerMessage}
    {acts : List DispatchAct} (hacts : p.dispatcher.acts = .send worker message :: acts)
    (hgone : ∀ node, p.nodes[worker]? = some node → node.inbox.send message = .closed) :
    { p with dispatcher := { p.dispatcher with acts } }.Follows s m h := by
  have hsize := hp.length_le_of_gone hacts hgone
  refine { hp with
    dispatcher := hp.dispatcher.act hacts (by simp)
    nodes := hp.nodes.congr fun i hi => ?_ }
  have hother : messagesFor i p.dispatcher.acts = messagesFor i acts := by
    rw [hacts, messagesFor_send_cons, if_neg (by omega), List.nil_append]
  simp only [course, hother, windowsStored]

theorem leave (hp : p.Follows s m h) (hthere : p.dispatcher.stopped = false)
    {acts : List DispatchAct} (hacts : p.dispatcher.acts = .leave :: acts) :
    { p with
      queue := p.queue.closeReceiver
      nodes := p.nodes.map fun node : WorkerNode => { node with inbox := node.inbox.closeSender }
      dispatcher := { p.dispatcher with acts := acts, stopped := true } }.Follows s m h := by
  obtain ⟨rfl, -, hd⟩ := hp.dispatcher.leave hthere hacts
  refine { hp with
    dispatcher := hd
    nodes := hp.nodes.map _ fun i n w _ hn => ?_
    size := ?_ }
  · have hpending : messagesFor i p.dispatcher.acts = [] := by
      rw [hacts]
      rfl
    have hclosed := hn.closeSender
    simp only [course, hpending] at hclosed
    exact hclosed
  · rw [Array.size_map, hp.size]

theorem work (hp : p.Follows s m h) {worker : Nat} {node next : WorkerNode}
    (hnode : p.nodes[worker]? = some node) (hstep : node.step? m = some next) :
    { p with nodes := p.nodes.setIfInBounds worker next }.Follows s m h := by
  obtain ⟨w, hw, hfollows⟩ := hp.exists_worker hnode
  have hnext : next.Follows m w (p.course s h worker) := by
    refine hfollows.step rfl (s.isSome_seed?_of_mem_crew (List.mem_of_getElem? hw)) ?_ ?_ hstep
    · intro hdispatching
      have hstopped : p.dispatcher.stopped = true := by simpa [course] using hdispatching
      obtain ⟨hclosing, hacts⟩ := hp.dispatcher.of_stopped hstopped
      refine ⟨hclosing, ?_⟩
      simp only [course, hacts]
      rfl
    · intro hmerging
      have hphase : p.merger.phase = .stopped := by simpa [course] using hmerging
      have hbatch := hp.merger.idle (by simp [hphase])
      simp [course, hbatch, (hp.finished hphase).2]
  refine { hp with nodes := hp.nodes.set hw (fun _ _ _ => rfl) hnext, size := ?_ }
  rw [Array.size_setIfInBounds, hp.size]

theorem storeBatch_eq (hp : p.Follows s m h) (hfull : s.crew.length ≤ p.merger.batch.length) :
    p.storeBatch = { p with
      store := p.store.pushBatch (batchTime p.merger.batch) (batchHits p.merger.batch)
      merger := ⟨[], .counting (batchHits p.merger.batch).size (batchFaults p.merger.batch)⟩ } := by
  have hlength : 0 < p.merger.batch.length :=
    (List.length_pos_of_ne_nil s.crew_ne_nil).trans_le hfull
  have hbatch : p.merger.batch.isEmpty = false := by
    rw [List.isEmpty_eq_false_iff]
    exact List.ne_nil_of_length_pos hlength
  rw [Pipeline.storeBatch, if_neg (by simp [hbatch, hp.usable])]

theorem storeBatch (hp : p.Follows s m h) (hphase : p.merger.phase = .collecting)
    (hfull : s.crew.length ≤ p.merger.batch.length) : p.storeBatch.Follows s m h := by
  rw [hp.storeBatch_eq hfull]
  have hstored : p.windowsStored = p.metrics.merged := by simp only [windowsStored, hphase]; rfl
  have hmerger := hp.merger.storeBatch hfull s.crew_ne_nil (batchHits p.merger.batch).size
    (batchFaults p.merger.batch)
  rw [hstored] at hmerger
  refine { hp with
    nodes := hp.nodes.congr fun i hi => ?_
    merger := hmerger
    finished := by simp }
  have hin : i < p.merger.batch.length := hi.trans_le hfull
  simp [course, windowsStored, hphase, hin]

theorem collect (hp : p.Follows s m h) (hphase : p.merger.phase = .collecting) {node : WorkerNode}
    (hnode : p.nodes[p.merger.batch.length]? = some node) {result : WindowResult}
    {rest : List WindowResult} (hitems : node.outbox.items = result :: rest) :
    { p with
      nodes := p.nodes.setIfInBounds p.merger.batch.length
        { node with outbox := { node.outbox with items := rest } }
      merger := { p.merger with batch := p.merger.batch ++ [result] } }.Follows s m h := by
  obtain ⟨w, hw, hfollows⟩ := hp.exists_worker hnode
  have hcollected : (p.course s h p.merger.batch.length).collected = p.windowsStored := by
    simp [course]
  have hresult := hfollows.resultAt_of_outbox rfl hitems
  have hlt := hfollows.collected_le rfl
  rw [hcollected] at hresult
  rw [hcollected, hitems, List.length_cons] at hlt
  have hmerger := hp.merger.collect hphase (by omega) hw
  rw [hresult] at hmerger
  refine { hp with
    nodes := hp.nodes.set hw (fun i _ hi => ?_) ?_
    size := ?_
    merger := hmerger }
  · have hsame : i < p.merger.batch.length + 1 ↔ i < p.merger.batch.length := by omega
    simp [course, windowsStored, hsame]
  · have hnext := hfollows.collect hitems
    simp only [course, Nat.lt_irrefl, if_false, Nat.add_zero] at hnext
    simpa [course, windowsStored] using hnext
  · rw [Array.size_setIfInBounds, hp.size]

/-- The merger leaves when the worker next in turn has left with nothing in its outbox.  Then
all workers have, and every window is stored. -/
theorem stopMerger (hp : p.Follows s m h) (hphase : p.merger.phase = .collecting)
    {node : WorkerNode} (hnode : p.nodes[p.merger.batch.length]? = some node)
    (hitems : node.outbox.items = []) (hgone : node.outbox.senderOpen = false) :
    p.stopMerger.Follows s m h := by
  obtain ⟨w, -, hfollows⟩ := hp.exists_worker hnode
  have hleft : node.hasLeft = true := by simpa [hfollows.outbox_sender] using hgone
  obtain ⟨hclosing, -, -, -, -, merged, hresults, hlength⟩ := hfollows.eq_of_hasLeft rfl hleft
  have hall : p.windowsStored = (h.windows s).length := by
    have hcount := congrArg List.length hresults
    rw [hitems, List.append_nil, hlength, course, Worker.length_results_ordersFor] at hcount
    simpa using hcount.symm
  have hbatch : p.merger.batch = [] := by
    by_contra hbatch
    exact absurd (hp.merger.started hbatch) (by omega)
  have hstored : p.stopMerger.windowsStored = p.windowsStored := by
    simp [Pipeline.stopMerger, windowsStored, hphase]
  refine { hp with
    nodes := hp.nodes.map _ fun i n w hw hn => ?_
    size := ?_
    merger := ?_
    finished := fun _ => ⟨hclosing, ?_⟩ }
  · have hle := hn.collected_le rfl
    have hempty : n.outbox.items = [] := by
      apply List.eq_nil_of_length_eq_zero
      simp only [course] at hle
      omega
    have hclosed := hn.closeReceiver hempty
    simp only [course] at hclosed ⊢
    rw [hstored]
    exact hclosed
  · rw [Pipeline.stopMerger, Array.size_map, hp.size]
  · rw [hstored]
    exact hp.merger.turn hbatch .stopped
  · rw [hstored, hall]

theorem merged (hp : p.Follows s m h) {hits faults : Nat}
    (hphase : p.merger.phase = .counting hits faults) :
    { p with
      metrics := p.metrics.countMerged hits faults
      merger := { p.merger with phase := .collecting } }.Follows s m h := by
  have hbatch := hp.merger.idle (by simp [hphase])
  have hmerger := hp.merger.turn hbatch .collecting
  have hstored : p.windowsStored = p.metrics.merged + 1 := by simp only [windowsStored, hphase]
  rw [hstored] at hmerger
  refine { hp with
    nodes := hp.nodes.congr fun i _ => ?_
    merger := hmerger
    finished := by simp }
  simp [course, windowsStored, hphase, Metrics.countMerged]

end Follows

theorem run?_append (m : Method) (p : Pipeline) (xs ys : List Move) :
    p.run? m (xs ++ ys) = (p.run? m xs).bind fun q => q.run? m ys := by
  induction xs generalizing p with
  | nil => rfl
  | cons x xs ih =>
    rw [List.cons_append, run?, run?, Option.bind_eq_bind, Option.bind_assoc]
    exact Option.bind_congr fun q _ => ih q

/-- The superchunks that the moves of a run bring into the queue, in order. -/
def accepted (m : Method) (p : Pipeline) : List Move → List ByteArray
  | [] => []
  | move :: moves =>
    (p.admits move).toList ++ (p.move? m move).elim [] fun q => q.accepted m moves

theorem accepted_sublist (m : Method) (p : Pipeline) (moves : List Move) :
    (p.accepted m moves).Sublist (moves.filterMap Move.offered?) := by
  induction moves generalizing p with
  | nil => exact List.Sublist.slnil
  | cons move moves ih =>
    have hnow : (p.admits move).toList.Sublist move.offered?.toList := by
      cases move with
      | offer bytes =>
        simp only [admits, Move.offered?]
        split
        · exact List.Sublist.refl _
        · exact List.nil_sublist _
      | _ => exact List.Sublist.refl _
    have hlater : ((p.move? m move).elim [] fun q => q.accepted m moves).Sublist
        (moves.filterMap Move.offered?) := by
      cases p.move? m move with
      | none => exact List.nil_sublist _
      | some q => exact ih q
    have hsplit : (move :: moves).filterMap Move.offered? =
        move.offered?.toList ++ moves.filterMap Move.offered? := by
      rw [List.filterMap_cons]
      cases move.offered? <;> rfl
    rw [accepted, hsplit]
    exact hnow.append hlater

theorem accepted_eq_nil {m : Method} {moves : List Move}
    (hmoves : ∀ move ∈ moves, move.isOffer = false) (p : Pipeline) : p.accepted m moves = [] := by
  induction moves generalizing p with
  | nil => rfl
  | cons move moves ih =>
    have hnone : p.admits move = none := by
      cases move with
      | offer bytes => cases hmoves _ (List.mem_cons_self ..)
      | _ => rfl
    rw [accepted, hnone]
    cases p.move? m move with
    | none => rfl
    | some q => exact ih (fun move hmem => hmoves move (List.mem_cons_of_mem _ hmem)) q

theorem accepted_intakeAfter (p : Pipeline) (h : Intake) (move : Move) :
    (p.intakeAfter h move).accepted = h.accepted ++ (p.admits move).toList := by
  cases move with
  | offer bytes => rfl
  | dispatch latency =>
    simp only [intakeAfter, admits, Option.toList_none, List.append_nil]
    split
    · next task _ _ _ _ => cases task <;> rfl
    · rfl
  | _ => exact (List.append_nil _).symm

theorem accepted_intake {m : Method} {p q : Pipeline} {moves : List Move}
    (hrun : p.run? m moves = some q) (h : Intake) :
    (p.intake m h moves).accepted = h.accepted ++ p.accepted m moves := by
  induction moves generalizing p h with
  | nil => exact (List.append_nil _).symm
  | cons move moves ih =>
    rw [run?] at hrun
    obtain ⟨next, hmove, hrest⟩ := Option.bind_eq_some_iff.mp hrun
    simp only [intake, accepted, hmove, Option.elim_some]
    rw [ih hrest, accepted_intakeAfter, List.append_assoc]

theorem intake_append {m : Method} {p q : Pipeline} {xs : List Move}
    (hrun : p.run? m xs = some q) (h : Intake) (ys : List Move) :
    p.intake m h (xs ++ ys) = q.intake m (p.intake m h xs) ys := by
  induction xs generalizing p h with
  | nil =>
    rw [Option.some.inj hrun]
    rfl
  | cons x xs ih =>
    obtain ⟨next, hmove, hrest⟩ := Option.bind_eq_some_iff.mp hrun
    rw [List.cons_append, intake, intake, hmove]
    exact ih hrest _

theorem accepted_append {m : Method} {p q : Pipeline} {xs : List Move}
    (hrun : p.run? m xs = some q) (ys : List Move) :
    p.accepted m (xs ++ ys) = p.accepted m xs ++ q.accepted m ys := by
  induction xs generalizing p with
  | nil =>
    rw [Option.some.inj hrun]
    rfl
  | cons x xs ih =>
    obtain ⟨next, hmove, hrest⟩ := Option.bind_eq_some_iff.mp hrun
    rw [List.cons_append, accepted, accepted, hmove, Option.elim_some, Option.elim_some, ih hrest,
      List.append_assoc]

namespace Follows

variable {s : Settings} {m : Method} {h : Intake} {p q : Pipeline}

theorem move (hp : p.Follows s m h) {move : Move} (hmove : p.move? m move = some q) :
    q.Follows s m (p.intakeAfter h move) := by
  cases step_of_move? hmove with
  | malformed hcheck =>
    rw [intakeAfter_of_none (admits_of_error hcheck)]
    exact hp.count _ _ rfl
  | enqueue hcheck hsend =>
    rw [intakeAfter, admits_of_done hcheck hsend]
    refine Follows.count (hp.enqueue hsend fun bytes hbytes => ?_) _ _ rfl
    rw [← Option.some.inj hbytes, hcheck]
  | refuse hcheck hsend =>
    rw [intakeAfter_of_none (admits_of_none hsend)]
    exact hp.count _ _ rfl
  | @count _ c _ =>
    refine hp.count _ _ ?_
    cases c <;> rfl
  | shutdown hsend =>
    have hsame : p.intakeAfter h .shutdown = h.enqueue .shutdown := by
      simp only [intakeAfter, Intake.enqueue, Task.superchunk?, Option.toList_none, List.append_nil]
    rw [hsame]
    exact hp.enqueue hsend (by simp [Task.superchunk?])
  | take hthere hacts hnext =>
    rw [intakeAfter_of_next hthere hacts hnext]
    exact hp.accept hthere hacts hnext _
  | @note _ act _ hthere hacts hnote =>
    rw [intakeAfter_of_acts hacts]
    cases act with
    | send worker message | leave => cases hnote
    | _ => exact (hp.act hacts (by simp) fun i => rfl).count _ _ rfl
  | send hthere hacts hnode hsend =>
    rw [intakeAfter_of_acts hacts]
    exact hp.send hacts hnode hsend
  | pass hthere hacts hgone =>
    rw [intakeAfter_of_acts hacts]
    exact hp.pass hacts hgone
  | leave hthere hacts =>
    rw [intakeAfter_of_acts hacts]
    exact hp.leave hthere hacts
  | work hnode hstep => exact hp.work hnode hstep
  | merged hphase => exact hp.merged hphase
  | collect hphase hnode hitems => exact hp.collect hphase hnode hitems
  | storeBatch hphase hfull =>
    rw [Array.getElem?_eq_none_iff, hp.size] at hfull
    exact hp.storeBatch hphase hfull
  | stopMerger hphase hnode hitems hgone => exact hp.stopMerger hphase hnode hitems hgone

/-- What every move of a run keeps, as long as the account holds, is kept by the run. -/
theorem run_induction {I : Intake → Pipeline → Prop} (hp : p.Follows s m h) (hI : I h p)
    {moves : List Move} (hkeep : ∀ h p q, ∀ move ∈ moves, p.Follows s m h → I h p →
      p.move? m move = some q → I (p.intakeAfter h move) q)
    (hrun : p.run? m moves = some q) :
    q.Follows s m (p.intake m h moves) ∧ I (p.intake m h moves) q := by
  induction moves generalizing p h with
  | nil =>
    rw [run?, Option.some.injEq] at hrun
    exact hrun ▸ ⟨hp, hI⟩
  | cons move moves ih =>
    rw [run?] at hrun
    obtain ⟨next, hmove, hrest⟩ := Option.bind_eq_some_iff.mp hrun
    simp only [intake, hmove, Option.elim_some]
    refine ih (hp.move hmove) (hkeep h p next move (List.mem_cons_self ..) hp hI hmove) ?_ hrest
    exact fun h p q move hmem => hkeep h p q move (List.mem_cons_of_mem _ hmem)

theorem run (hp : p.Follows s m h) {moves : List Move} (hrun : p.run? m moves = some q) :
    ∃ after : Intake, after.accepted = h.accepted ++ p.accepted m moves ∧
      q.Follows s m after :=
  ⟨_, accepted_intake hrun h,
    (hp.run_induction (I := fun _ _ => True) trivial (fun _ _ _ _ _ _ _ _ => trivial) hrun).1⟩

end Follows

theorem follows_start (s : Settings) (m : Method) :
    (start s).Follows s m ⟨[], [], false⟩ where
  dispatcher :=
    { checked := by simp
      queued_prefix := List.prefix_rfl
      queued := fun _ => rfl
      receiver := rfl
      assembly := rfl
      seeded := rfl
      workers := by simp [start, Settings.crew]
      stage := by simp [start, Dispatcher.Stage] }
  nodes := by
    intro i n w hn hw
    have hi : s.nodes[i]? = some n := by simpa [start] using hn
    have hstart : n.worker = w := by simpa [Settings.crew, hi] using hw
    obtain ⟨⟨registers, id⟩, -, rfl⟩ := List.mem_map.mp (List.mem_of_getElem? hi)
    exact ⟨⟨[], [], rfl, hstart, rfl, rfl, by simp⟩, by simp, rfl, rfl, rfl, rfl⟩
  size := by simp [start, Settings.crew]
  merger := ⟨rfl, rfl, Nat.zero_le _, fun h => absurd rfl h, fun _ => rfl⟩
  finished := by simp [start]
  usable := rfl

theorem windowsStored_le_of_move {m : Method} {p q : Pipeline} {move : Move}
    (hmove : p.move? m move = some q) : p.windowsStored ≤ q.windowsStored := by
  cases step_of_move? hmove with
  | @count _ c _ => cases c <;> exact le_rfl
  | @note _ act _ _ _ hnote =>
    cases act with
    | send worker message | leave => cases hnote
    | _ => exact le_rfl
  | merged hphase => simp [windowsStored, hphase, Metrics.countMerged]
  | collect hphase hnode hitems => exact le_rfl
  | storeBatch hphase hfull =>
    simp only [windowsStored, hphase, storeBatch]
    split <;> exact Nat.le_add_right _ _
  | stopMerger hphase hnode hitems hgone =>
    simp only [windowsStored, hphase]
    exact Nat.le_add_right _ _
  | _ => exact le_rfl

theorem windowsStored_le_of_run {m : Method} {p q : Pipeline} {moves : List Move}
    (hrun : p.run? m moves = some q) : p.windowsStored ≤ q.windowsStored := by
  induction moves generalizing p with
  | nil =>
    rw [run?, Option.some.injEq] at hrun
    rw [hrun]
  | cons move moves ih =>
    obtain ⟨next, hmove, hrest⟩ := Option.bind_eq_some_iff.mp hrun
    exact (windowsStored_le_of_move hmove).trans (ih hrest)

end Pipeline

end TpcTrigger
