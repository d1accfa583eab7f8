import TpcTrigger.Proofs.Pipeline.Effort

/-! # Handing results over

The merger can be run by itself.  Each worker then has a list of results, sends them one after the
other as room permits, and hangs up after the last one.  Nothing is said about the order in which
the workers and the merger take turns, but every turn uses something up.
-/

namespace TpcTrigger

/-- A pipeline of which only the merger runs, and the results that each worker has still to
send. -/
structure Handover where
  pipeline : Pipeline
  unsent : List (List WindowResult)

inductive Handover.Turn where
  | send (worker : Nat)
  | hangUp (worker : Nat)
  | merge

namespace Handover

def replace (h : Handover) (worker : Nat) (node : WorkerNode) (rest : List WindowResult) :
    Handover where
  pipeline := { h.pipeline with nodes := h.pipeline.nodes.setIfInBounds worker node }
  unsent := h.unsent.set worker rest

/-- A worker sends its next result, in vain if the merger has left; it waits while there is no
room. -/
def send? (h : Handover) (worker : Nat) : Option Handover :=
  match h.pipeline.nodes[worker]?, h.unsent[worker]? with
  | some node, some (result :: rest) =>
    match node.outbox.send result with
    | .done outbox => some (h.replace worker { node with outbox } rest)
    | .closed => some { h with unsent := h.unsent.set worker rest }
    | .full => none
  | _, _ => none

def hangUp? (h : Handover) (worker : Nat) : Option Handover :=
  match h.pipeline.nodes[worker]?, h.unsent[worker]? with
  | some node, some [] =>
    if node.outbox.senderOpen then
      some (h.replace worker { node with outbox := node.outbox.closeSender } [])
    else none
  | _, _ => none

def turn? (h : Handover) : Turn → Option Handover
  | .send worker => h.send? worker
  | .hangUp worker => h.hangUp? worker
  | .merge => h.pipeline.merge?.map fun pipeline => { h with pipeline }

def run? (h : Handover) : List Turn → Option Handover
  | [] => some h
  | turn :: turns => do (← h.turn? turn).run? turns

inductive Step (h : Handover) : Turn → Handover → Prop
  | sent {worker : Nat} {node : WorkerNode} {result : WindowResult} {rest : List WindowResult}
      {outbox : Fifo WindowResult} (hnode : h.pipeline.nodes[worker]? = some node)
      (hunsent : h.unsent[worker]? = some (result :: rest))
      (hsend : node.outbox.send result = .done outbox) :
      Step h (.send worker) (h.replace worker { node with outbox } rest)
  /-- The merger has left, and the result is lost. -/
  | lost {worker : Nat} {node : WorkerNode} {result : WindowResult} {rest : List WindowResult}
      (hnode : h.pipeline.nodes[worker]? = some node)
      (hunsent : h.unsent[worker]? = some (result :: rest))
      (hgone : node.outbox.receiverOpen = false) :
      Step h (.send worker) { h with unsent := h.unsent.set worker rest }
  | hungUp {worker : Nat} {node : WorkerNode} (hnode : h.pipeline.nodes[worker]? = some node)
      (hunsent : h.unsent[worker]? = some []) (hopen : node.outbox.senderOpen = true) :
      Step h (.hangUp worker) (h.replace worker { node with outbox := node.outbox.closeSender } [])
  | merged {pipeline : Pipeline} (hmerge : h.pipeline.merge? = some pipeline) :
      Step h .merge { h with pipeline }

variable {h next : Handover}

theorem step_of_turn? {turn : Turn} (hturn : h.turn? turn = some next) : h.Step turn next := by
  cases turn with
  | send worker =>
    rw [turn?, send?] at hturn
    cases hnode : h.pipeline.nodes[worker]? with
    | none => simp [hnode] at hturn
    | some node =>
      cases hunsent : h.unsent[worker]? with
      | none => simp [hnode, hunsent] at hturn
      | some results =>
        cases results with
        | nil => simp [hnode, hunsent] at hturn
        | cons result rest =>
          simp only [hnode, hunsent] at hturn
          cases hsend : node.outbox.send result with
          | done outbox =>
            simp only [hsend, Option.some.injEq] at hturn
            exact hturn ▸ .sent hnode hunsent hsend
          | full => simp [hsend] at hturn
          | closed =>
            simp only [hsend, Option.some.injEq] at hturn
            exact hturn ▸ .lost hnode hunsent (Fifo.send_eq_closed_iff.mp hsend)
  | hangUp worker =>
    rw [turn?, hangUp?] at hturn
    cases hnode : h.pipeline.nodes[worker]? with
    | none => simp [hnode] at hturn
    | some node =>
      cases hunsent : h.unsent[worker]? with
      | none => simp [hnode, hunsent] at hturn
      | some results =>
        cases results with
        | cons result rest => simp [hnode, hunsent] at hturn
        | nil =>
          cases hopen : node.outbox.senderOpen with
          | false => simp [hnode, hunsent, hopen] at hturn
          | true =>
            simp only [hnode, hunsent, hopen, if_true, Option.some.injEq] at hturn
            exact hturn ▸ .hungUp hnode hunsent hopen
  | merge =>
    obtain ⟨pipeline, hmerge, rfl⟩ := Option.map_eq_some_iff.mp hturn
    exact .merged hmerge

/-- A way to find hits, for lemmas about all moves of a pipeline.  The merger does not use it. -/
def anyMethod : Method := ⟨KernelKind.channelwise.kernel, default⟩

def outboxEffort (n : WorkerNode) : Nat := n.outbox.items.length * 3 + n.outbox.senderOpen.toNat

def effort (h : Handover) : Nat :=
  (h.unsent.map List.length).sum * 4 + (h.pipeline.nodes.toList.map outboxEffort).sum +
    h.pipeline.merger.effort

theorem sum_outboxEffort_set {nodes : Array WorkerNode} {worker : Nat} {node : WorkerNode}
    (hnode : nodes[worker]? = some node) (new : WorkerNode) :
    ((nodes.setIfInBounds worker new).toList.map outboxEffort).sum + outboxEffort node =
      (nodes.toList.map outboxEffort).sum + outboxEffort new := by
  rw [Array.toList_setIfInBounds]
  exact sum_map_set _ (by rw [Array.getElem?_toList]; exact hnode) new

theorem sum_outboxEffort_stopMerger_le (p : Pipeline) :
    (p.stopMerger.nodes.toList.map outboxEffort).sum ≤ (p.nodes.toList.map outboxEffort).sum := by
  rw [Pipeline.stopMerger, Array.toList_map, List.map_map]
  exact List.sum_le_sum fun n _ => by simp [outboxEffort, Fifo.closeReceiver]

theorem effort_lt_of_turn {turn : Turn} (hturn : h.turn? turn = some next) :
    next.effort < h.effort := by
  have hstop (hphase : h.pipeline.merger.phase = .collecting) :
      ({ h with pipeline := h.pipeline.stopMerger } : Handover).effort < h.effort := by
    have hnodes := sum_outboxEffort_stopMerger_le h.pipeline
    simp only [effort, Pipeline.stopMerger, Merger.effort, hphase] at hnodes ⊢
    omega
  cases step_of_turn? hturn with
  | @sent worker node result rest outbox hnode hunsent hsend =>
    have hrest := sum_map_set List.length hunsent rest
    have hset := sum_outboxEffort_set hnode { node with outbox }
    obtain ⟨-, -, rfl⟩ := Fifo.send_eq_done_iff.mp hsend
    simp only [effort, replace, outboxEffort, List.length_append, List.length_cons,
      List.length_nil] at hrest hset ⊢
    omega
  | @lost worker node result rest hnode hunsent hgone =>
    have hrest := sum_map_set List.length hunsent rest
    simp only [effort, List.length_cons] at hrest ⊢
    omega
  | @hungUp worker node hnode hunsent hopen =>
    have hrest := sum_map_set List.length hunsent []
    have hset := sum_outboxEffort_set hnode { node with outbox := node.outbox.closeSender }
    simp only [effort, replace, outboxEffort, Fifo.closeSender, hopen, Bool.toNat_true,
      Bool.toNat_false] at hrest hset ⊢
    omega
  | merged hmerge =>
    cases Pipeline.step_of_merge? (m := anyMethod) hmerge with
    | merged hphase =>
      simp only [effort, Merger.effort, hphase]
      omega
    | @collect node result rest hphase hnode hitems =>
      have hset := sum_outboxEffort_set hnode
        { node with outbox := { node.outbox with items := rest } }
      simp only [effort, Merger.effort, hphase, outboxEffort, hitems, List.length_append,
        List.length_cons, List.length_nil] at hset ⊢
      omega
    | storeBatch hphase hfull =>
      rw [Pipeline.storeBatch]
      split
      · exact hstop hphase
      · next hbatch =>
        have hlength : 0 < h.pipeline.merger.batch.length := by
          apply List.length_pos_of_ne_nil
          rintro hnil
          simp [hnil] at hbatch
        simp only [effort, Merger.effort, hphase, List.length_nil]
        omega
    | stopMerger hphase hnode hitems hgone => exact hstop hphase

theorem length_add_effort_le {turns : List Turn} (hrun : h.run? turns = some next) :
    turns.length + next.effort ≤ h.effort := by
  induction turns generalizing h with
  | nil =>
    rw [run?, Option.some.injEq] at hrun
    rw [hrun, List.length_nil, Nat.zero_add]
  | cons turn turns ih =>
    obtain ⟨between, hturn, hrest⟩ := Option.bind_eq_some_iff.mp hrun
    have hlt := effort_lt_of_turn hturn
    have hle := ih hrest
    rw [List.length_cons]
    omega

end Handover

end TpcTrigger
