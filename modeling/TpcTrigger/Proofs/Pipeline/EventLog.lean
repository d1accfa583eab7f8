import TpcTrigger.Pipeline.Flow
import Mathlib.Tactic

/-! # The log of a run

What a run does at the borders of its parts is written down in the order in which it happens: the
messages that find their way into an inbox, the kernel calls that come back, the results that
find their way into an outbox, and the batches that reach the store.
-/

namespace TpcTrigger

/-- A kernel call that came back: the window that it searched and what it left behind. -/
structure KernelCall where
  window : Window
  outcome : KernelOutcome

namespace KernelCall

def failed (c : KernelCall) : Bool := c.outcome.fault.isSome

def hits (c : KernelCall) : Array Hit := if c.failed then #[] else c.outcome.hits

def result (worker : Nat) (c : KernelCall) : WindowResult :=
  ⟨worker, c.window.sequence, c.window.timestamp, c.hits, c.failed⟩

end KernelCall

def Worker.call (m : Method) (w : Worker) (window : Window) : KernelCall :=
  ⟨window, m.kernel.run m.params w.registers window w.states #[]⟩

theorem Worker.process_result (m : Method) (w : Worker) (window : Window) :
    (w.process m window).2 = (w.call m window).result w.id :=
  rfl

inductive Event where
  /-- A message is in the inbox of a worker. -/
  | sent (worker : Nat) (message : WorkerMessage)
  | called (worker : Nat) (call : KernelCall)
  /-- A result is in the outbox of a worker. -/
  | reported (worker : Nat) (result : WindowResult)
  /-- The hits of a batch are in the store. -/
  | stored (batch : List WindowResult)

abbrev Log := List Event

namespace Log

def messagesTo (worker : Nat) (log : Log) : List WorkerMessage :=
  log.filterMap fun
    | .sent i message => if i = worker then some message else none
    | _ => none

def callsOf (worker : Nat) (log : Log) : List KernelCall :=
  log.filterMap fun
    | .called i call => if i = worker then some call else none
    | _ => none

def reportsOf (worker : Nat) (log : Log) : List WindowResult :=
  log.filterMap fun
    | .reported i result => if i = worker then some result else none
    | _ => none

def batches (log : Log) : List (List WindowResult) :=
  log.filterMap fun
    | .stored batch => some batch
    | _ => none

@[simp] theorem messagesTo_append (worker : Nat) (xs ys : Log) :
    messagesTo worker (xs ++ ys) = messagesTo worker xs ++ messagesTo worker ys :=
  List.filterMap_append

@[simp] theorem callsOf_append (worker : Nat) (xs ys : Log) :
    callsOf worker (xs ++ ys) = callsOf worker xs ++ callsOf worker ys :=
  List.filterMap_append

@[simp] theorem reportsOf_append (worker : Nat) (xs ys : Log) :
    reportsOf worker (xs ++ ys) = reportsOf worker xs ++ reportsOf worker ys :=
  List.filterMap_append

@[simp] theorem batches_append (xs ys : Log) : batches (xs ++ ys) = batches xs ++ batches ys :=
  List.filterMap_append

theorem messagesTo_sent (worker i : Nat) (message : WorkerMessage) :
    messagesTo worker [.sent i message] = if i = worker then [message] else [] := by
  by_cases h : i = worker <;> simp [messagesTo, h]

theorem callsOf_called (worker i : Nat) (call : KernelCall) :
    callsOf worker [.called i call] = if i = worker then [call] else [] := by
  by_cases h : i = worker <;> simp [callsOf, h]

theorem reportsOf_reported (worker i : Nat) (result : WindowResult) :
    reportsOf worker [.reported i result] = if i = worker then [result] else [] := by
  by_cases h : i = worker <;> simp [reportsOf, h]

theorem append_stored (log : Log) (batch : List WindowResult) :
    (∀ worker, messagesTo worker (log ++ [.stored batch]) = messagesTo worker log ∧
      callsOf worker (log ++ [.stored batch]) = callsOf worker log ∧
      reportsOf worker (log ++ [.stored batch]) = reportsOf worker log) ∧
      batches (log ++ [.stored batch]) = batches log ++ [batch] := by
  refine ⟨fun worker => ⟨?_, ?_, ?_⟩, batches_append _ _⟩
  · exact (messagesTo_append _ _ _).trans (List.append_nil _)
  · exact (callsOf_append _ _ _).trans (List.append_nil _)
  · exact (reportsOf_append _ _ _).trans (List.append_nil _)

end Log

/-- What a worker's next step makes happen. -/
def WorkerNode.events (m : Method) (worker : Nat) (n : WorkerNode) : Log :=
  match n.phase with
  | .holding window => [.called worker (n.worker.call m window)]
  | .reporting result =>
    match n.outbox.send result with
    | .done _ => [.reported worker result]
    | _ => []
  | _ => []

theorem WorkerNode.events_only (m : Method) (worker : Nat) (n : WorkerNode) :
    (∀ i, (n.events m worker).messagesTo i = []) ∧ (n.events m worker).batches = [] ∧
      (∀ i, i ≠ worker → (n.events m worker).callsOf i = []) ∧
      ∀ i, i ≠ worker → (n.events m worker).reportsOf i = [] := by
  rw [events]
  cases n.phase with
  | holding window =>
    refine ⟨fun i => rfl, rfl, fun i hi => ?_, fun i hi => rfl⟩
    rw [Log.callsOf_called, if_neg (Ne.symm hi)]
  | reporting result =>
    dsimp only
    split
    · refine ⟨fun i => rfl, rfl, fun i hi => rfl, fun i hi => ?_⟩
      rw [Log.reportsOf_reported, if_neg (Ne.symm hi)]
    · exact ⟨fun i => rfl, rfl, fun i hi => rfl, fun i hi => rfl⟩
  | ready | stopped | crashed => exact ⟨fun i => rfl, rfl, fun i hi => rfl, fun i hi => rfl⟩

namespace Pipeline

def dispatchEvents (p : Pipeline) : Log :=
  match p.dispatcher.acts with
  | .send worker message :: _ =>
    match p.nodes[worker]? with
    | none => []
    | some node =>
      match node.inbox.send message with
      | .done _ => [.sent worker message]
      | _ => []
  | _ => []

def mergeEvents (p : Pipeline) : Log :=
  match p.merger.phase, p.nodes[p.merger.batch.length]? with
  | .collecting, none =>
    if p.merger.batch.isEmpty || !p.storeUsable then [] else [.stored p.merger.batch]
  | _, _ => []

def events (m : Method) (p : Pipeline) : Move → Log
  | .dispatch _ => p.dispatchEvents
  | .work worker => p.nodes[worker]?.elim [] (·.events m worker)
  | .merge => p.mergeEvents
  | _ => []

/-- What happens in a run, up to the first move that is not possible. -/
def log (m : Method) (p : Pipeline) : List Move → Log
  | [] => []
  | move :: moves => (p.move? m move).elim [] fun q => p.events m move ++ q.log m moves

end Pipeline

end TpcTrigger
