import TpcTrigger.Pipeline.Start
import TpcTrigger.Proofs.Pipeline.Steps

/-! # The channels of a pipeline

No move changes how much a channel can hold.  Clients can send for as long as the pipeline is
there, and a queue that the dispatcher has left is empty.
-/

namespace TpcTrigger

theorem IngestQueue.items_eq_of_next {q rest : IngestQueue} {task : Task}
    (hopen : q.senderOpen = true) (hnext : IngestQueue.next? q = some (task, rest)) :
    q.items = task :: rest.items ∧ rest = { q with items := rest.items } := by
  rw [next?] at hnext
  cases hitems : q.items with
  | nil => simp [Fifo.receive, hitems, hopen] at hnext
  | cons head items =>
    simp only [Fifo.receive_cons hitems, Option.some.injEq, Prod.mk.injEq] at hnext
    obtain ⟨rfl, rfl⟩ := hnext
    exact ⟨rfl, rfl⟩

namespace WorkerNode

def Holds (depth : Nat) (n : WorkerNode) : Prop :=
  n.inbox.capacity = some depth ∧ n.outbox.capacity = some depth

theorem Holds.step {depth : Nat} {m : Method} {n next : WorkerNode} (h : n.Holds depth)
    (hstep : n.step? m = some next) : next.Holds depth := by
  cases step_of_step? hstep with
  | @accept message rest hphase hitems =>
    cases message with
    | seed window =>
      rw [WorkerNode.accept]
      split <;> exact h
    | window window | shutdown => exact h
  | orphaned hphase hitems hgone | unheard hphase hgone => exact h
  | process hphase => exact h
  | report hphase hsend =>
    obtain ⟨-, -, rfl⟩ := Fifo.send_eq_done_iff.mp hsend
    exact h

end WorkerNode

namespace Pipeline

/-- What never changes about the channels. -/
structure Wired (s : Settings) (p : Pipeline) : Prop where
  nodes : ∀ node ∈ p.nodes, node.Holds s.workerQueueDepth
  capacity : p.queue.capacity = some s.queueCapacity
  sender : p.queue.senderOpen = true
  closed : p.queue.receiverOpen = false → p.queue.items = []

theorem wired_start (s : Settings) : (start s).Wired s where
  nodes := by
    intro node hnode
    obtain ⟨⟨r, id⟩, -, rfl⟩ := List.mem_map.mp (List.mem_toArray.mp hnode)
    exact ⟨rfl, rfl⟩
  capacity := rfl
  sender := rfl
  closed := fun _ => rfl

namespace Wired

variable {s : Settings} {m : Method} {p q : Pipeline}

theorem set (hp : p.Wired s) {worker : Nat} {node next : WorkerNode}
    (hnode : p.nodes[worker]? = some node)
    (hnext : node.Holds s.workerQueueDepth → next.Holds s.workerQueueDepth) :
    ∀ n ∈ p.nodes.setIfInBounds worker next, n.Holds s.workerQueueDepth := by
  intro n hn
  rcases Array.mem_or_eq_of_mem_setIfInBounds hn with hmem | rfl
  · exact hp.nodes n hmem
  · exact hnext (hp.nodes node (Array.mem_of_getElem? hnode))

theorem map (hp : p.Wired s) {f : WorkerNode → WorkerNode}
    (hf : ∀ n : WorkerNode, n.Holds s.workerQueueDepth → (f n).Holds s.workerQueueDepth) :
    ∀ n ∈ p.nodes.map f, n.Holds s.workerQueueDepth := by
  intro n hn
  obtain ⟨before, hbefore, rfl⟩ := Array.mem_map.mp hn
  exact hf before (hp.nodes before hbefore)

theorem stopMerger (hp : p.Wired s) : p.stopMerger.Wired s :=
  { hp with nodes := hp.map fun _ hn => hn }

theorem enqueue (hp : p.Wired s) {task : Task} {queue : IngestQueue}
    (hsend : p.queue.send task = .done queue) : { p with queue }.Wired s := by
  obtain ⟨hreceiver, -, rfl⟩ := Fifo.send_eq_done_iff.mp hsend
  refine { hp with closed := fun hclosed => ?_ }
  rw [show p.queue.receiverOpen = false from hclosed] at hreceiver
  cases hreceiver

theorem move (hp : p.Wired s) {move : Move} (hmove : p.move? m move = some q) : q.Wired s := by
  cases step_of_move? hmove with
  | enqueue hcheck hsend => exact { hp.enqueue hsend with }
  | shutdown hsend => exact hp.enqueue hsend
  | take hthere hacts hnext =>
    obtain ⟨hitems, hrest⟩ := IngestQueue.items_eq_of_next hp.sender hnext
    refine { hp with
      capacity := hrest ▸ hp.capacity
      sender := hrest ▸ hp.sender
      closed := fun hclosed => ?_ }
    rw [hrest] at hclosed
    have hempty := hp.closed hclosed
    rw [hitems] at hempty
    cases hempty
  | send hthere hacts hnode hsend =>
    obtain ⟨-, -, rfl⟩ := Fifo.send_eq_done_iff.mp hsend
    exact { hp with nodes := hp.set hnode fun hn => hn }
  | leave hthere hacts => exact { hp with nodes := hp.map fun _ hn => hn, closed := fun _ => rfl }
  | work hnode hstep => exact { hp with nodes := hp.set hnode fun hn => hn.step hstep }
  | collect hphase hnode hitems => exact { hp with nodes := hp.set hnode fun hn => hn }
  | storeBatch hphase hfull =>
    rw [storeBatch]
    split
    · exact hp.stopMerger
    · exact { hp with }
  | stopMerger hphase hnode hitems hgone => exact hp.stopMerger
  | _ => exact { hp with }

theorem run (hp : p.Wired s) {moves : List Move} (hrun : p.run? m moves = some q) :
    q.Wired s := by
  induction moves generalizing p with
  | nil => exact Option.some.inj hrun ▸ hp
  | cons move moves ih =>
    obtain ⟨next, hmove, hrest⟩ := Option.bind_eq_some_iff.mp hrun
    exact ih (hp.move hmove) hrest

end Wired

end Pipeline

end TpcTrigger
