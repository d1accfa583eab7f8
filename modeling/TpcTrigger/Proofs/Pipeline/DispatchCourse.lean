import TpcTrigger.Pipeline.Dispatcher
import TpcTrigger.Pipeline.Start
import TpcTrigger.Proofs.Pipeline.Steps
import TpcTrigger.Proofs.Pipeline.WorkerHistory
import TpcTrigger.Proofs.Samples.WindowSequence

/-! # The dispatcher's course

The dispatcher takes the accepted superchunks in the order in which they were queued, and its
assembly stands where these superchunks leave it.  A task that it takes extends the orders of
every worker by exactly the messages that it is about to send to that worker.
-/

namespace TpcTrigger

/-- What a pipeline has taken in. -/
structure Intake where
  /-- The superchunks that were queued, in order. -/
  accepted : List ByteArray
  /-- Those that the dispatcher has taken from the queue. -/
  taken : List ByteArray
  /-- Whether the dispatcher has taken the request to stop. -/
  closing : Bool

def Intake.windows (s : Settings) (h : Intake) : List Window :=
  (Assembly.start s.superchunksPerWindow).completed (h.taken.map .ofBytes)

theorem Intake.sequence_of_window {s : Settings} (hpos : 0 < s.superchunksPerWindow) {h : Intake}
    {k : Nat} {window : Window} (hwindow : (h.windows s)[k]? = some window) :
    window.sequence = UInt64.ofNat k := by
  rw [windows, (Assembly.after_start hpos _).2, List.getElem?_map, Option.map_eq_some_iff] at hwindow
  obtain ⟨j, hj, rfl⟩ := hwindow
  obtain ⟨hlt, rfl⟩ := List.getElem?_eq_some_iff.mp hj
  rw [List.getElem_range]
  rfl

def Task.superchunk? : Task → Option ByteArray
  | .superchunk _ bytes => some bytes
  | .shutdown => none

def Intake.enqueue (h : Intake) (task : Task) : Intake :=
  { h with accepted := h.accepted ++ task.superchunk?.toList }

def Intake.take (h : Intake) : Task → Intake
  | .superchunk _ bytes => { h with taken := h.taken ++ [bytes] }
  | .shutdown => { h with closing := true }

/-- The workers of a pipeline before their first message. -/
def Settings.crew (s : Settings) : List Worker := s.nodes.map (·.worker)

def IngestQueue.superchunks (q : IngestQueue) : List ByteArray :=
  q.items.filterMap Task.superchunk?

theorem IngestQueue.next?_eq_some {q rest : IngestQueue} {task : Task}
    (h : IngestQueue.next? q = some (task, rest)) :
    rest.receiverOpen = q.receiverOpen ∧
      q.superchunks = task.superchunk?.toList ++ rest.superchunks := by
  rw [next?] at h
  cases hitems : q.items with
  | cons head items =>
    simp only [Fifo.receive_cons hitems, Option.some.injEq, Prod.mk.injEq] at h
    obtain ⟨rfl, rfl⟩ := h
    refine ⟨rfl, ?_⟩
    rw [superchunks, hitems]
    cases head <;> rfl
  | nil =>
    cases hopen : q.senderOpen with
    | true => simp [Fifo.receive, hitems, hopen] at h
    | false =>
      simp only [Fifo.receive, hitems, hopen, Option.some.injEq, Prod.mk.injEq, Bool.false_eq_true,
        if_false] at h
      obtain ⟨rfl, rfl⟩ := h
      exact ⟨rfl, rfl⟩

def messagesFor (worker : Nat) (acts : List DispatchAct) : List WorkerMessage :=
  acts.filterMap fun
    | .send i message => if i = worker then some message else none
    | _ => none

theorem messagesFor_send_cons (worker i : Nat) (message : WorkerMessage)
    (acts : List DispatchAct) :
    messagesFor worker (.send i message :: acts) =
      (if i = worker then [message] else []) ++ messagesFor worker acts := by
  by_cases h : i = worker <;> simp [messagesFor, h]

theorem messagesFor_append (worker : Nat) (xs ys : List DispatchAct) :
    messagesFor worker (xs ++ ys) = messagesFor worker xs ++ messagesFor worker ys :=
  List.filterMap_append

theorem messagesFor_eq_nil (worker : Nat) {acts : List DispatchAct}
    (h : ∀ act ∈ acts, act.isNote = true) : messagesFor worker acts = [] := by
  rw [messagesFor, List.filterMap_eq_nil_iff]
  intro act hact
  cases act with
  | send i message => cases h _ hact
  | _ => rfl

namespace Dispatcher

theorem messagesFor_send_range (n worker : Nat) (message : WorkerMessage) :
    messagesFor worker ((List.range n).map (.send · message)) =
      if worker < n then [message] else [] := by
  induction n with
  | zero => rfl
  | succ n ih =>
    rw [List.range_succ, List.map_append, messagesFor_append, ih]
    by_cases hlast : n = worker
    · simp [messagesFor, hlast]
    · have hlt : worker < n + 1 ↔ worker < n := by omega
      simp [messagesFor, hlast, hlt]

theorem messagesFor_toAll (d : Dispatcher) {worker : Nat} (hworker : worker < d.workers)
    (message : WorkerMessage) : messagesFor worker (d.toAll message) = [message] := by
  rw [toAll, messagesFor_send_range, if_pos hworker]

theorem leave_not_mem_toAll (d : Dispatcher) (message : WorkerMessage) :
    DispatchAct.leave ∉ d.toAll message := by
  simp [toAll]

theorem leave_not_mem_handOut (d : Dispatcher) (window : Window) :
    DispatchAct.leave ∉ d.handOut window := by
  cases hseeded : d.seeded <;> simp [handOut, hseeded, leave_not_mem_toAll]

theorem accept_stopped (d : Dispatcher) (task : Task) (latency : Nat) :
    (d.accept task latency).stopped = d.stopped := by
  cases task with
  | superchunk timestamp bytes =>
    simp only [accept, acceptSuperchunk]
    split
    · rfl
    · split <;> rfl
  | shutdown => rfl

/-- How far the dispatcher has come with the request to stop. -/
def Stage (d : Dispatcher) (closing : Bool) : Prop :=
  match closing, d.stopped with
  | false, false => .leave ∉ d.acts
  | true, false => ∃ before, d.acts = before ++ [.leave] ∧ .leave ∉ before
  | true, true => d.acts = []
  | false, true => False

structure Follows (s : Settings) (h : Intake) (queue : IngestQueue) (d : Dispatcher) : Prop where
  checked : ∀ bytes ∈ h.accepted, Superchunk.checkSize bytes = .ok ()
  queued_prefix : h.taken ++ queue.superchunks <+: h.accepted
  queued : d.stopped = false → h.taken ++ queue.superchunks = h.accepted
  receiver : queue.receiverOpen = !d.stopped
  assembly : d.assembly = (Assembly.start s.superchunksPerWindow).after (h.taken.map .ofBytes)
  seeded : d.seeded = !(h.windows s).isEmpty
  workers : d.workers = s.crew.length
  stage : d.Stage h.closing

theorem messagesFor_handOut (d : Dispatcher) {worker : Nat} (hworker : worker < d.workers)
    (window : Window) :
    messagesFor worker (d.handOut window) =
      (if d.seeded then [] else [.seed window]) ++ [.window window] := by
  have hcount : messagesFor worker [DispatchAct.countDispatched] = [] := rfl
  rw [handOut, ← List.singleton_append, messagesFor_append, messagesFor_append, hcount,
    messagesFor_toAll d hworker]
  cases d.seeded with
  | false => rw [if_neg (by simp), messagesFor_toAll d hworker]; rfl
  | true => rfl

/-- A superchunk is counted, then the window that it completes is handed out, and in the end
the dispatcher is done with it. -/
theorem acceptSuperchunk_eq (d : Dispatcher) (timestamp : UInt64) {bytes : ByteArray}
    (hsize : Superchunk.checkSize bytes = .ok ()) (latency : Nat) :
    ∃ before : List DispatchAct,
      (∀ act ∈ before, act.isNote = true ∧ act ≠ .countDispatched ∧ act ≠ .countConsumed) ∧
      d.acceptSuperchunk timestamp bytes latency =
        { d with
          lag := (d.lag.observe latency).1
          continuity := (d.continuity.observe timestamp).1
          assembly := (d.assembly.push (.ofBytes bytes)).1
          seeded := d.seeded || (d.assembly.push (.ofBytes bytes)).2.isSome
          acts := before ++ (d.assembly.push (.ofBytes bytes)).2.toList.flatMap d.handOut ++
            [.countConsumed] } := by
  cases hfound : (d.continuity.observe timestamp).2 with
  | first | contiguous =>
    refine ⟨[.countDequeued latency (d.lag.observe latency).1.lagging],
      by simp [DispatchAct.isNote], ?_⟩
    rw [acceptSuperchunk, Superchunk.decode_eq hsize]
    rcases hpush : d.assembly.push (.ofBytes bytes) with ⟨assembly, _ | window⟩ <;>
      simp [hpush, hfound]
  | gap expected found =>
    refine ⟨[.countDequeued latency (d.lag.observe latency).1.lagging, .countGap],
      by simp [DispatchAct.isNote], ?_⟩
    rw [acceptSuperchunk, Superchunk.decode_eq hsize]
    rcases hpush : d.assembly.push (.ofBytes bytes) with ⟨assembly, _ | window⟩ <;>
      simp [hpush, hfound]

namespace Follows

variable {s : Settings} {h : Intake} {queue : IngestQueue} {d : Dispatcher}

/-- A dispatcher that is still there and has nothing to do is not about to leave. -/
theorem closing_eq_false (hd : d.Follows s h queue) (hacts : d.acts = [])
    (hthere : d.stopped = false) : h.closing = false := by
  cases hclosing : h.closing with
  | false => rfl
  | true =>
    have hstage := hd.stage
    simp [Stage, hclosing, hthere, hacts] at hstage

/-- A dispatcher that has left did so on request, and has nothing to do. -/
theorem of_stopped (hd : d.Follows s h queue) (hstopped : d.stopped = true) :
    h.closing = true ∧ d.acts = [] := by
  have hstage := hd.stage
  cases hclosing : h.closing with
  | false => simp [Stage, hclosing, hstopped] at hstage
  | true => simpa [Stage, hclosing, hstopped] using hstage

theorem windows_take (hd : d.Follows s h queue) (timestamp : UInt64) (bytes : ByteArray) :
    (h.take (.superchunk timestamp bytes)).windows s =
      h.windows s ++ (d.assembly.push (.ofBytes bytes)).2.toList := by
  rw [hd.assembly, Intake.windows, Intake.take, List.map_append, Assembly.completed_append]
  simp [Assembly.completed, Intake.windows]

theorem windows_prefix (hd : d.Follows s h queue) :
    h.windows s <+:
      (Assembly.start s.superchunksPerWindow).completed (h.accepted.map .ofBytes) := by
  obtain ⟨later, hlater⟩ := (List.prefix_append _ _).trans hd.queued_prefix
  rw [← hlater, List.map_append, Assembly.completed_append]
  exact List.prefix_append _ _

theorem checkSize_of_next (hd : d.Follows s h queue) (hthere : d.stopped = false) {task : Task}
    {rest : IngestQueue} (hnext : IngestQueue.next? queue = some (task, rest)) :
    ∀ bytes ∈ task.superchunk?, Superchunk.checkSize bytes = .ok () := by
  intro bytes hbytes
  apply hd.checked
  rw [← hd.queued hthere, (IngestQueue.next?_eq_some hnext).2, hbytes]
  simp

theorem acceptSuperchunk (hd : d.Follows s h queue) (hacts : d.acts = [])
    (hthere : d.stopped = false) {timestamp : UInt64} {bytes : ByteArray} {rest : IngestQueue}
    (hnext : IngestQueue.next? queue = some (.superchunk timestamp bytes, rest)) (latency : Nat) :
    let next := d.acceptSuperchunk timestamp bytes latency
    let after := h.take (.superchunk timestamp bytes)
    next.Follows s after rest ∧ ∀ worker < s.crew.length,
      ordersFor (after.windows s) after.closing =
        ordersFor (h.windows s) h.closing ++ messagesFor worker next.acts := by
  intro next after
  have hclosing := hd.closing_eq_false hacts hthere
  have hwindows := hd.windows_take timestamp bytes
  obtain ⟨hreceiver, hchunks⟩ := IngestQueue.next?_eq_some hnext
  have hall : h.taken ++ [bytes] ++ rest.superchunks = h.accepted := by
    rw [← hd.queued hthere, hchunks, List.append_assoc]
    rfl
  have hsize := hd.checkSize_of_next hthere hnext bytes rfl
  obtain ⟨before, hbefore, hnext'⟩ := d.acceptSuperchunk_eq timestamp hsize latency
  have hnone (worker : Nat) : messagesFor worker before = [] :=
    messagesFor_eq_nil worker fun act hact => (hbefore act hact).1
  have hstay : DispatchAct.leave ∉ before := fun hmem => by cases (hbefore _ hmem).1
  have hseeded : (after.windows s).isEmpty =
      ((h.windows s).isEmpty && (d.assembly.push (.ofBytes bytes)).2.isNone) := by
    rw [hwindows]
    cases (d.assembly.push (.ofBytes bytes)).2 <;> simp
  constructor
  · rw [show next = _ from hnext']
    exact { hd with
      queued_prefix := ⟨[], by rw [List.append_nil]; exact hall⟩
      queued := fun _ => hall
      receiver := hreceiver.trans hd.receiver
      assembly := by
        simp only [after, Intake.take, List.map_append, Assembly.after_append, ← hd.assembly]
        rfl
      seeded := by
        rw [hseeded, hd.seeded]
        cases (d.assembly.push (.ofBytes bytes)).2 <;> simp
      stage := by
        have hafter : after.closing = false := hclosing
        cases (d.assembly.push (.ofBytes bytes)).2 <;>
          simp [Stage, hafter, hthere, hstay, leave_not_mem_handOut] }
  · intro worker hworker
    have hlast : messagesFor worker [DispatchAct.countConsumed] = [] := rfl
    have hafter : after.closing = false := hclosing
    rw [show next = _ from hnext', hwindows, hafter, hclosing, messagesFor_append,
      messagesFor_append, hnone, hlast, List.nil_append, List.append_nil]
    rw [← hd.workers] at hworker
    cases (d.assembly.push (.ofBytes bytes)).2 with
    | none =>
      rw [Option.toList_none, List.append_nil]
      exact (List.append_nil _).symm
    | some window =>
      rw [Option.toList_some, List.flatMap_singleton, messagesFor_handOut d hworker, hd.seeded,
        ordersFor_append_singleton]
      cases h.windows s <;> rfl

theorem acceptShutdown (hd : d.Follows s h queue) (hacts : d.acts = [])
    (hthere : d.stopped = false) {rest : IngestQueue}
    (hnext : IngestQueue.next? queue = some (.shutdown, rest)) :
    let next := { d with acts := d.toAll .shutdown ++ [DispatchAct.leave] }
    let after := h.take .shutdown
    next.Follows s after rest ∧ ∀ worker < s.crew.length,
      ordersFor (after.windows s) after.closing =
        ordersFor (h.windows s) h.closing ++ messagesFor worker next.acts := by
  intro next after
  have hclosing := hd.closing_eq_false hacts hthere
  obtain ⟨hreceiver, hchunks⟩ := IngestQueue.next?_eq_some hnext
  have hsame : queue.superchunks = rest.superchunks := hchunks
  constructor
  · exact { hd with
      queued_prefix := hsame ▸ hd.queued_prefix
      queued := hsame ▸ hd.queued
      receiver := hreceiver.trans hd.receiver
      stage := by
        have hafter : after.closing = true := rfl
        have hstay : DispatchAct.leave ∉ d.toAll .shutdown := leave_not_mem_toAll d _
        simp [Stage, next, hafter, hthere, hstay] }
  · intro worker hworker
    have hlast : messagesFor worker [DispatchAct.leave] = [] := rfl
    rw [← hd.workers] at hworker
    rw [hclosing, messagesFor_append, messagesFor_toAll d hworker, hlast, List.append_nil,
      ← ordersFor_true]
    rfl

/-- A task that the dispatcher takes extends the orders of every worker by the messages that
the dispatcher is about to send to it. -/
theorem accept (hd : d.Follows s h queue) (hacts : d.acts = []) (hthere : d.stopped = false)
    {task : Task} {rest : IngestQueue} (hnext : IngestQueue.next? queue = some (task, rest))
    (latency : Nat) :
    (d.accept task latency).Follows s (h.take task) rest ∧ ∀ worker < s.crew.length,
      ordersFor ((h.take task).windows s) (h.take task).closing =
        ordersFor (h.windows s) h.closing ++ messagesFor worker (d.accept task latency).acts := by
  cases task with
  | superchunk timestamp bytes => exact hd.acceptSuperchunk hacts hthere hnext latency
  | shutdown => exact hd.acceptShutdown hacts hthere hnext

theorem act (hd : d.Follows s h queue) {act : DispatchAct} {acts : List DispatchAct}
    (hacts : d.acts = act :: acts) (hstay : act ≠ .leave) :
    { d with acts }.Follows s h queue := by
  refine { hd with stage := ?_ }
  have hstage := hd.stage
  cases hclosing : h.closing <;> cases hstopped : d.stopped
  · simp only [Stage, hclosing, hstopped, hacts, List.mem_cons, not_or] at hstage ⊢
    exact hstage.2
  · simp [Stage, hclosing, hstopped] at hstage
  · simp only [Stage, hclosing, hstopped, hacts] at hstage ⊢
    obtain ⟨before, hbefore, hnot⟩ := hstage
    cases before with
    | nil => exact absurd (List.cons.inj hbefore).1 hstay
    | cons first before =>
      exact ⟨before, (List.cons.inj hbefore).2, fun h => hnot (List.mem_cons_of_mem _ h)⟩
  · simp [Stage, hclosing, hstopped, hacts] at hstage

/-- Leaving is the last act, and follows the request to stop. -/
theorem leave (hd : d.Follows s h queue) (hthere : d.stopped = false) {acts : List DispatchAct}
    (hacts : d.acts = .leave :: acts) :
    acts = [] ∧ h.closing = true ∧
      { d with acts := [], stopped := true }.Follows s h queue.closeReceiver := by
  have hstage := hd.stage
  cases hclosing : h.closing with
  | false => simp [Stage, hclosing, hthere, hacts] at hstage
  | true =>
    simp only [Stage, hclosing, hthere, hacts] at hstage
    obtain ⟨before, hbefore, hnot⟩ := hstage
    cases before with
    | cons first before =>
      rw [List.cons_append, List.cons.injEq] at hbefore
      rw [← hbefore.1] at hnot
      simp at hnot
    | nil =>
      refine ⟨(List.cons.inj hbefore).2, rfl, { hd with
        queued_prefix := ?_
        queued := by simp
        receiver := rfl
        stage := by simp [Stage, hclosing] }⟩
      have hempty : IngestQueue.superchunks queue.closeReceiver = [] := rfl
      rw [hempty, List.append_nil]
      exact (List.prefix_append _ _).trans hd.queued_prefix

theorem enqueue (hd : d.Follows s h queue) {task : Task} {after : IngestQueue}
    (hsend : queue.send task = .done after)
    (hsize : ∀ bytes ∈ task.superchunk?, Superchunk.checkSize bytes = .ok ()) :
    d.Follows s (h.enqueue task) after := by
  obtain ⟨hopen, -, rfl⟩ := Fifo.send_eq_done_iff.mp hsend
  have hthere : d.stopped = false := by simpa [hd.receiver] using hopen
  have hall : h.taken ++ (IngestQueue.superchunks { queue with items := queue.items ++ [task] }) =
      (h.enqueue task).accepted := by
    rw [Intake.enqueue, ← hd.queued hthere, IngestQueue.superchunks, IngestQueue.superchunks,
      List.filterMap_append, List.append_assoc]
    cases hchunk : task.superchunk? <;> simp [hchunk]
  refine { hd with
    checked := ?_
    queued_prefix := ⟨[], by rw [List.append_nil]; exact hall⟩
    queued := fun _ => hall }
  intro bytes hbytes
  rw [Intake.enqueue, List.mem_append, Option.mem_toList] at hbytes
  rcases hbytes with hbytes | hbytes
  · exact hd.checked bytes hbytes
  · exact hsize bytes hbytes

end Follows

end Dispatcher

end TpcTrigger
