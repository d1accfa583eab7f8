import TpcTrigger.Pipeline.Schedule
import TpcTrigger.Proofs.Pipeline.Wiring

/-! # The work that is left

Everything on its way through a pipeline leads to a bounded number of moves, and every move uses
up more of them than it leads to.  So the parts come to rest once nothing more is submitted.
-/

namespace TpcTrigger

namespace Move

/-- Whether a client brings a task with a move. -/
def submits : Move → Bool
  | .offer _ | .shutdown => true
  | _ => false

/-- Whether it is a part of the pipeline that moves, and not a client. -/
def isInternal : Move → Bool
  | .dispatch _ | .work _ | .merge => true
  | _ => false

theorem submits_of_isInternal {move : Move} (h : move.isInternal = true) :
    move.submits = false := by
  cases move <;> simp_all [isInternal, submits]

end Move

theorem sum_map_set {α : Type} (f : α → Nat) {items : List α} {i : Nat} {old : α}
    (hold : items[i]? = some old) (new : α) :
    ((items.set i new).map f).sum + f old = (items.map f).sum + f new := by
  induction items generalizing i with
  | nil => simp at hold
  | cons item items ih =>
    cases i with
    | zero =>
      obtain rfl := Option.some.inj hold
      simp only [List.set_cons_zero, List.map_cons, List.sum_cons]
      omega
    | succ i =>
      have hrest := ih hold
      simp only [List.set_cons_succ, List.map_cons, List.sum_cons]
      omega

namespace Pipeline

def actsEffort (acts : List DispatchAct) : Nat := (acts.map actEffort).sum

theorem actsEffort_append (xs ys : List DispatchAct) :
    actsEffort (xs ++ ys) = actsEffort xs + actsEffort ys := by
  rw [actsEffort, List.map_append, List.sum_append]
  rfl

end Pipeline

namespace Dispatcher

open Pipeline

theorem actsEffort_toAll (d : Dispatcher) (message : WorkerMessage) :
    actsEffort (d.toAll message) = d.workers * (1 + messageEffort) := by
  have hsend (worker : Nat) : actEffort (.send worker message) = 1 + messageEffort := rfl
  simp [actsEffort, toAll, Function.comp_def, hsend]

theorem actsEffort_handOut_le (d : Dispatcher) (window : Window) :
    actsEffort (d.handOut window) ≤ 1 + 2 * d.workers * (1 + messageEffort) := by
  have hcount : actsEffort [.countDispatched] = 1 := rfl
  have htwice : 2 * d.workers * (1 + messageEffort) =
      d.workers * (1 + messageEffort) + d.workers * (1 + messageEffort) := by ring
  rw [handOut, ← List.singleton_append, actsEffort_append, actsEffort_append, hcount,
    actsEffort_toAll, htwice]
  cases d.seeded with
  | true =>
    have hnone : actsEffort [] = 0 := rfl
    rw [if_pos rfl, hnone]
    omega
  | false =>
    rw [if_neg (by simp), actsEffort_toAll]
    omega

theorem acceptSuperchunk_acts (d : Dispatcher) (timestamp : UInt64) (bytes : ByteArray)
    (latency : Nat) :
    let acts := (d.acceptSuperchunk timestamp bytes latency).acts
    ∃ before, actsEffort before ≤ 2 ∧ (acts = before ++ [.countMalformed, .countConsumed] ∨
      acts = before ++ [.countConsumed] ∨
      ∃ window, acts = before ++ d.handOut window ++ [.countConsumed]) := by
  intro acts
  cases hfound : (d.continuity.observe timestamp).2 with
  | first | contiguous =>
    refine ⟨[.countDequeued latency (d.lag.observe latency).1.lagging], Nat.le_succ 1, ?_⟩
    simp only [acts, acceptSuperchunk, hfound]
    split
    · exact .inl rfl
    · split
      · exact .inr (.inl rfl)
      · exact .inr (.inr ⟨_, rfl⟩)
  | gap expected found =>
    refine ⟨[.countDequeued latency (d.lag.observe latency).1.lagging, .countGap], le_rfl, ?_⟩
    simp only [acts, acceptSuperchunk, hfound]
    split
    · exact .inl rfl
    · split
      · exact .inr (.inl rfl)
      · exact .inr (.inr ⟨_, rfl⟩)

/-- A task leads to fewer moves than it was counted for. -/
theorem actsEffort_accept_lt (d : Dispatcher) (task : Task) (latency : Nat) :
    actsEffort (d.accept task latency).acts < taskEffort d.workers := by
  have htask : taskEffort d.workers = 8 + 2 * d.workers * (1 + messageEffort) := rfl
  cases task with
  | shutdown =>
    have hleave : actsEffort [.leave] = 1 := rfl
    have htwice : 2 * d.workers * (1 + messageEffort) =
        d.workers * (1 + messageEffort) + d.workers * (1 + messageEffort) := by ring
    rw [accept, actsEffort_append, actsEffort_toAll, hleave, htask, htwice]
    omega
  | superchunk timestamp bytes =>
    have hcounts : actsEffort [.countMalformed, .countConsumed] = 2 ∧
        actsEffort [.countConsumed] = 1 := ⟨rfl, rfl⟩
    obtain ⟨before, hbefore, hacts⟩ := d.acceptSuperchunk_acts timestamp bytes latency
    rw [accept, htask]
    obtain hacts | hacts | ⟨window, hacts⟩ := hacts
    · rw [hacts, actsEffort_append]
      omega
    · rw [hacts, actsEffort_append]
      omega
    · have hwindow := d.actsEffort_handOut_le window
      rw [hacts, actsEffort_append, actsEffort_append]
      omega

theorem accept_workers (d : Dispatcher) (task : Task) (latency : Nat) :
    (d.accept task latency).workers = d.workers := by
  cases task with
  | superchunk timestamp bytes =>
    simp only [accept, acceptSuperchunk]
    split
    · rfl
    · split <;> rfl
  | shutdown => rfl

end Dispatcher

/-- Moves that the message or result in hand still leads to. -/
def WorkerPhase.effort : WorkerPhase → Nat
  | .ready => 1
  | .holding _ => 6
  | .reporting _ => 5
  | .stopped | .crashed => 0

namespace WorkerNode

def effort (n : WorkerNode) : Nat :=
  n.inbox.items.length * Pipeline.messageEffort + n.phase.effort + n.outbox.items.length * 3

theorem effort_leave_lt {n : WorkerNode} (hthere : 0 < n.phase.effort) :
    (n.leave .stopped).effort < n.effort ∧ (n.leave .crashed).effort < n.effort := by
  have hstopped : (n.leave .stopped).effort = n.outbox.items.length * 3 := by
    simp [effort, leave, WorkerPhase.effort, Fifo.closeReceiver, Fifo.closeSender]
  have hcrashed : (n.leave .crashed).effort = n.outbox.items.length * 3 := by
    simp [effort, leave, WorkerPhase.effort, Fifo.closeReceiver, Fifo.closeSender]
  rw [hstopped, hcrashed, effort]
  omega

theorem effort_step_lt {m : Method} {n next : WorkerNode} (hstep : n.step? m = some next) :
    next.effort < n.effort := by
  have hmessage : Pipeline.messageEffort = 6 := rfl
  have hpos : 0 < Pipeline.messageEffort := Nat.succ_pos 5
  cases step_of_step? hstep with
  | @accept message rest hphase hitems =>
    obtain ⟨taken, htaken⟩ : ∃ taken : WorkerNode,
        taken = { n with inbox := { n.inbox with items := rest } } := ⟨_, rfl⟩
    have hready : taken.phase = .ready := by rw [htaken, hphase]
    have hbefore : n.effort = taken.effort + Pipeline.messageEffort := by
      rw [htaken, effort, effort, hitems, List.length_cons]
      ring
    have hleave := effort_leave_lt (n := taken) (by rw [hready]; exact Nat.one_pos)
    rw [← htaken, hbefore]
    cases message with
    | seed window =>
      rw [WorkerNode.accept]
      split
      · exact Nat.lt_add_of_pos_right hpos
      · exact hleave.2.trans (Nat.lt_add_of_pos_right hpos)
    | window window =>
      simp only [WorkerNode.accept, effort, hready, WorkerPhase.effort]
      omega
    | shutdown => exact hleave.1.trans (Nat.lt_add_of_pos_right hpos)
  | orphaned hphase hitems hgone =>
    exact (effort_leave_lt (by rw [hphase]; exact Nat.one_pos)).1
  | process hphase =>
    simp only [effort, hphase, WorkerPhase.effort]
    omega
  | report hphase hsend =>
    obtain ⟨-, -, rfl⟩ := Fifo.send_eq_done_iff.mp hsend
    simp only [effort, hphase, WorkerPhase.effort, List.length_append, List.length_singleton]
    omega
  | unheard hphase hgone =>
    exact (effort_leave_lt (by rw [hphase]; exact Nat.succ_pos 4)).1

end WorkerNode

def Merger.effort (g : Merger) : Nat :=
  g.batch.length * 2 + match g.phase with
    | .collecting => 1
    | .counting _ _ => 2
    | .stopped => 0

namespace Pipeline

/-- Moves of the parts of a pipeline that are left without further tasks. -/
def remaining (p : Pipeline) : Nat :=
  p.queue.items.length * taskEffort p.dispatcher.workers + actsEffort p.dispatcher.acts +
    (p.nodes.toList.map (·.effort)).sum + p.merger.effort

variable {m : Method} {s : Settings} {p q : Pipeline}

theorem sum_effort_set {worker : Nat} {node : WorkerNode} (hnode : p.nodes[worker]? = some node)
    (next : WorkerNode) :
    ((p.nodes.setIfInBounds worker next).toList.map (·.effort)).sum + node.effort =
      (p.nodes.toList.map (·.effort)).sum + next.effort := by
  rw [Array.toList_setIfInBounds]
  exact sum_map_set _ (by rw [Array.getElem?_toList]; exact hnode) next

theorem sum_effort_map_le {f : WorkerNode → WorkerNode} (hf : ∀ n, (f n).effort ≤ n.effort)
    (nodes : Array WorkerNode) :
    ((nodes.map f).toList.map (·.effort)).sum ≤ (nodes.toList.map (·.effort)).sum := by
  rw [Array.toList_map, List.map_map]
  exact List.sum_le_sum fun n _ => hf n

theorem remaining_stopMerger_lt (hphase : p.merger.phase = .collecting) :
    p.stopMerger.remaining + p.stopMerger.calls.length < p.remaining + p.calls.length := by
  have hnodes := sum_effort_map_le (f := fun node : WorkerNode =>
    { node with outbox := node.outbox.closeReceiver })
    (fun n => by simp [WorkerNode.effort, Fifo.closeReceiver]) p.nodes
  simp only [remaining, stopMerger, Merger.effort, hphase]
  omega

/-- Every move but that of a client who brings a task uses something up. -/
theorem remaining_move_lt (hp : p.Wired s) {move : Move} (hquiet : move.submits = false)
    (hmove : p.move? m move = some q) :
    q.remaining + q.calls.length < p.remaining + p.calls.length := by
  have hacts {act : DispatchAct} {acts : List DispatchAct} (h : p.dispatcher.acts = act :: acts) :
      actsEffort p.dispatcher.acts = actEffort act + actsEffort acts := by
    rw [h, actsEffort, actsEffort, List.map_cons, List.sum_cons]
  have hact (act : DispatchAct) : 0 < actEffort act := by
    cases act <;> exact Nat.succ_pos _
  cases step_of_move? hmove with
  | malformed hcheck | enqueue hcheck hsend | refuse hcheck hsend | shutdown hsend => cases hquiet
  | count hcall =>
    have hlt := (List.getElem?_eq_some_iff.mp hcall).1
    simp only [remaining, List.length_eraseIdx_of_lt hlt]
    omega
  | @take latency task queue hthere hnone hnext =>
    have htask := p.dispatcher.actsEffort_accept_lt task latency
    have hempty : actsEffort p.dispatcher.acts = 0 := by
      rw [hnone]
      rfl
    simp only [remaining, Dispatcher.accept_workers, hempty,
      (IngestQueue.items_eq_of_next hp.sender hnext).1, List.length_cons, Nat.succ_mul]
    omega
  | @note _ act acts hthere h hnote =>
    have := hact act
    simp only [remaining, hacts h]
    omega
  | @send _ worker message acts node inbox hthere h hnode hsend =>
    have hset := sum_effort_set hnode { node with inbox }
    have hgrown : ({ node with inbox } : WorkerNode).effort = node.effort + messageEffort := by
      obtain ⟨-, -, rfl⟩ := Fifo.send_eq_done_iff.mp hsend
      rw [WorkerNode.effort, WorkerNode.effort, List.length_append, List.length_singleton]
      ring
    simp only [remaining, hacts h, actEffort]
    omega
  | @pass _ worker message acts hthere h hgone =>
    have := hact (.send worker message)
    simp only [remaining, hacts h]
    omega
  | leave hthere h =>
    have hnodes := sum_effort_map_le (f := fun node : WorkerNode =>
      { node with inbox := node.inbox.closeSender }) (fun n => le_rfl) p.nodes
    have := hact .leave
    simp only [remaining, hacts h, Fifo.closeReceiver, List.length_nil, Nat.zero_mul]
    omega
  | @work worker node next hnode hstep =>
    have hset := sum_effort_set hnode next
    have hlt := WorkerNode.effort_step_lt hstep
    simp only [remaining]
    omega
  | merged hphase =>
    simp only [remaining, Merger.effort, hphase]
    omega
  | @collect node result rest hphase hnode hitems =>
    have hset := sum_effort_set hnode { node with outbox := { node.outbox with items := rest } }
    have hshrunk : node.effort =
        ({ node with outbox := { node.outbox with items := rest } } : WorkerNode).effort + 3 := by
      rw [WorkerNode.effort, WorkerNode.effort, hitems, List.length_cons]
      ring
    simp only [remaining, Merger.effort, hphase, List.length_append, List.length_singleton]
      at hset hshrunk ⊢
    omega
  | storeBatch hphase hfull =>
    rw [storeBatch]
    split
    · exact remaining_stopMerger_lt hphase
    · next hbatch =>
      have hlength : 0 < p.merger.batch.length := by
        apply List.length_pos_of_ne_nil
        rintro hnil
        simp [hnil] at hbatch
      simp only [remaining, Merger.effort, hphase, List.length_nil]
      omega
  | stopMerger hphase hnode hitems hgone => exact remaining_stopMerger_lt hphase

theorem calls_of_isInternal {move : Move} (hinternal : move.isInternal = true)
    (hmove : p.move? m move = some q) : q.calls = p.calls := by
  cases step_of_move? hmove with
  | malformed hcheck | enqueue hcheck hsend | refuse hcheck hsend | count hcall
  | shutdown hsend => cases hinternal
  | storeBatch hphase hfull =>
    rw [storeBatch]
    split <;> rfl
  | _ => rfl

/-- A run without further tasks is no longer than the work that it uses up. -/
theorem length_add_remaining_le (hp : p.Wired s) {moves : List Move}
    (hquiet : ∀ move ∈ moves, move.submits = false) (hrun : p.run? m moves = some q) :
    moves.length + q.remaining + q.calls.length ≤ p.remaining + p.calls.length := by
  induction moves generalizing p with
  | nil =>
    rw [run?, Option.some.injEq] at hrun
    simp [hrun]
  | cons move moves ih =>
    obtain ⟨next, hmove, hrest⟩ := Option.bind_eq_some_iff.mp hrun
    have hlt := remaining_move_lt hp (hquiet move (List.mem_cons_self ..)) hmove
    have hle := ih (hp.move hmove) (fun move hmem => hquiet move (List.mem_cons_of_mem _ hmem)) hrest
    rw [List.length_cons]
    omega

theorem calls_of_run {moves : List Move} (hinternal : ∀ move ∈ moves, move.isInternal = true)
    (hrun : p.run? m moves = some q) : q.calls = p.calls := by
  induction moves generalizing p with
  | nil => exact Option.some.inj hrun ▸ rfl
  | cons move moves ih =>
    obtain ⟨next, hmove, hrest⟩ := Option.bind_eq_some_iff.mp hrun
    have hcalls := ih (fun move hmem => hinternal move (List.mem_cons_of_mem _ hmem)) hrest
    rw [hcalls, calls_of_isInternal (hinternal move (List.mem_cons_self ..)) hmove]

/-- A run of the parts is no longer than the work that it uses up. -/
theorem length_add_remaining_le_of_isInternal (hp : p.Wired s) {moves : List Move}
    (hinternal : ∀ move ∈ moves, move.isInternal = true) (hrun : p.run? m moves = some q) :
    moves.length + q.remaining ≤ p.remaining := by
  have hle := length_add_remaining_le hp
    (fun move hmem => Move.submits_of_isInternal (hinternal move hmem)) hrun
  rw [calls_of_run hinternal hrun] at hle
  omega

end Pipeline

end TpcTrigger
