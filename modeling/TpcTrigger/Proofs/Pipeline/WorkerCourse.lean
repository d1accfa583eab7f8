import TpcTrigger.Proofs.Pipeline.Steps
import TpcTrigger.Proofs.Pipeline.WorkerHistory

/-! # A worker between its queues

Whatever the order of moves, a worker handles the messages meant for it one after the other.
What it has not handled waits in its hand, in its inbox or with the dispatcher, and its results
are with the merger, in its outbox or in its hand.  Each way in which a worker or a neighbour
of it moves keeps this account.
-/

namespace TpcTrigger

/-- What the dispatcher and the merger have done for a worker. -/
structure Course where
  /-- The messages meant for the worker so far. -/
  orders : List WorkerMessage
  /-- Those that are still with the dispatcher. -/
  pending : List WorkerMessage
  /-- The number of results that the merger has taken. -/
  collected : Nat
  /-- Whether the dispatcher is there. -/
  dispatching : Bool
  /-- Whether the merger is there. -/
  merging : Bool

namespace WorkerNode

def inHand (n : WorkerNode) : List WorkerMessage :=
  match n.phase with
  | .holding window => [.window window]
  | _ => []

def toReport (n : WorkerNode) : List WindowResult :=
  match n.phase with
  | .reporting result => [result]
  | _ => []

structure Follows (m : Method) (w : Worker) (c : Course) (n : WorkerNode) : Prop where
  history : ∃ done merged,
    done ++ n.inHand ++ n.inbox.items ++ c.pending = c.orders ∧
      n.worker = w.after m done ∧
      w.results m done = merged ++ n.outbox.items ++ n.toReport ∧
      merged.length = c.collected ∧
      (.shutdown ∈ done ↔ n.phase = .stopped)
  not_crashed : n.phase ≠ .crashed
  inbox_sender : n.inbox.senderOpen = c.dispatching
  inbox_receiver : n.inbox.receiverOpen = !n.hasLeft
  outbox_sender : n.outbox.senderOpen = !n.hasLeft
  outbox_receiver : n.outbox.receiverOpen = c.merging

namespace Follows

variable {m : Method} {w : Worker} {c : Course} {n : WorkerNode} {windows : List Window}
  {closing : Bool}

theorem phase_of_hasLeft (h : n.Follows m w c) (hleft : n.hasLeft = true) : n.phase = .stopped := by
  have hcrash := h.not_crashed
  revert hleft hcrash
  rw [hasLeft]
  cases n.phase <;> simp

theorem eq_of_hasLeft (h : n.Follows m w c) (horders : c.orders = ordersFor windows closing)
    (hleft : n.hasLeft = true) :
    closing = true ∧ c.pending = [] ∧ n.inbox.items = [] ∧ n.toReport = [] ∧
      n.worker = w.after m c.orders ∧
      ∃ merged, w.results m c.orders = merged ++ n.outbox.items ∧
        merged.length = c.collected := by
  obtain ⟨done, merged, hall, hworker, hresults, hlength, hstop⟩ := h.history
  obtain ⟨before, after, rfl⟩ := List.append_of_mem (hstop.mpr (h.phase_of_hasLeft hleft))
  have hrest : after = [] ∧ n.inHand = [] ∧ n.inbox.items = [] ∧ c.pending = [] ∧
      closing = true := by
    have hlast : before ++ .shutdown :: (after ++ n.inHand ++ n.inbox.items ++ c.pending) =
        ordersFor windows closing := by
      rw [← horders, ← hall]
      simp
    simpa [and_assoc] using eq_nil_of_shutdown hlast
  obtain ⟨rfl, hhand, hitems, hpending, hclosing⟩ := hrest
  have hreport : n.toReport = [] := by rw [toReport, h.phase_of_hasLeft hleft]
  rw [hhand, hitems, hpending, List.append_nil, List.append_nil, List.append_nil] at hall
  rw [hreport, List.append_nil] at hresults
  exact ⟨hclosing, hpending, hitems, hreport, hall ▸ hworker, merged, hall ▸ hresults, hlength⟩

/-- A worker that has not left keeps its ends of both queues open. -/
theorem open_of_there (h : n.Follows m w c) (hthere : n.hasLeft = false) :
    n.inbox.receiverOpen = true ∧ n.outbox.senderOpen = true := by
  rw [h.inbox_receiver, h.outbox_sender, hthere]
  exact ⟨rfl, rfl⟩

/-- Every window is accounted for: its result is with the merger or on its way there, or the
window is still to be searched. -/
theorem balance (h : n.Follows m w c) (horders : c.orders = ordersFor windows closing) :
    c.collected + n.outbox.items.length + n.toReport.length +
      (n.inHand ++ n.inbox.items ++ c.pending).countP (·.isWindow) = windows.length := by
  obtain ⟨done, merged, hall, -, hresults, hlength, -⟩ := h.history
  have hdone := congrArg List.length hresults
  rw [Worker.length_results, List.length_append, List.length_append, hlength] at hdone
  have hcount := countP_ordersFor windows closing
  rw [← horders, ← hall, List.append_assoc, List.append_assoc, List.countP_append, hdone,
    ← List.append_assoc] at hcount
  exact hcount

/-- The merger cannot have taken more results than there are windows. -/
theorem collected_le (h : n.Follows m w c) (horders : c.orders = ordersFor windows closing) :
    c.collected + n.outbox.items.length + n.toReport.length ≤ windows.length :=
  (Nat.le_add_right _ _).trans (h.balance horders).le

/-- The next result for the merger is that of the window next in turn. -/
theorem resultAt_of_outbox (h : n.Follows m w c) (horders : c.orders = ordersFor windows closing)
    {result : WindowResult} {rest : List WindowResult} (hitems : n.outbox.items = result :: rest) :
    w.resultAt m windows c.collected = result := by
  obtain ⟨done, merged, hall, -, hresults, hlength, -⟩ := h.history
  have hsplit : w.results m c.orders = merged ++ result :: (rest ++ n.toReport ++
      (w.after m done).results m (n.inHand ++ n.inbox.items ++ c.pending)) := by
    rw [← hall, List.append_assoc, List.append_assoc, Worker.results_append, hresults, hitems]
    simp
  rw [Worker.resultAt, ← Worker.results_ordersFor m w windows closing, ← horders, hsplit,
    ← hlength]
  simp

theorem send (h : n.Follows m w c) {message : WorkerMessage} {rest : List WorkerMessage}
    (hpending : c.pending = message :: rest) {inbox : Fifo WorkerMessage}
    (hsend : n.inbox.send message = .done inbox) :
    { n with inbox }.Follows m w { c with pending := rest } := by
  obtain ⟨done, merged, hall, hworker, hresults, hlength, hstop⟩ := h.history
  obtain ⟨-, -, rfl⟩ := Fifo.send_eq_done_iff.mp hsend
  refine { h with history := ⟨done, merged, ?_, hworker, hresults, hlength, hstop⟩ }
  rw [← hall, hpending]
  simp [inHand]

theorem send_ne_closed (h : n.Follows m w c) (horders : c.orders = ordersFor windows closing)
    (hpending : c.pending ≠ []) (message : WorkerMessage) : n.inbox.send message ≠ .closed := by
  intro hclosed
  have hreceiver : n.inbox.receiverOpen = false := Fifo.send_eq_closed_iff.mp hclosed
  have hleft : n.hasLeft = true := by simpa [h.inbox_receiver] using hreceiver
  exact hpending (h.eq_of_hasLeft horders hleft).2.1

theorem extend (h : n.Follows m w c) (more : List WorkerMessage) :
    n.Follows m w { c with orders := c.orders ++ more, pending := c.pending ++ more } := by
  obtain ⟨done, merged, hall, hrest⟩ := h.history
  refine { h with history := ⟨done, merged, ?_, hrest⟩ }
  rw [← hall]
  simp

theorem closeSender (h : n.Follows m w c) :
    { n with inbox := n.inbox.closeSender }.Follows m w { c with dispatching := false } :=
  { h with inbox_sender := rfl }

theorem collect (h : n.Follows m w c) {result : WindowResult} {rest : List WindowResult}
    (hitems : n.outbox.items = result :: rest) :
    { n with outbox := { n.outbox with items := rest } }.Follows m w
      { c with collected := c.collected + 1 } := by
  obtain ⟨done, merged, hall, hworker, hresults, hlength, hstop⟩ := h.history
  refine { h with history := ⟨done, merged ++ [result], hall, hworker, ?_, ?_, hstop⟩ }
  · rw [hresults, hitems]
    simp [toReport]
  · rw [List.length_append, hlength, List.length_singleton]

theorem closeReceiver (h : n.Follows m w c) (hitems : n.outbox.items = []) :
    { n with outbox := n.outbox.closeReceiver }.Follows m w { c with merging := false } := by
  obtain ⟨done, merged, hall, hworker, hresults, hlength, hstop⟩ := h.history
  refine { h with
    history := ⟨done, merged, hall, hworker, ?_, hlength, hstop⟩
    outbox_receiver := rfl }
  rw [hresults, hitems]
  rfl

theorem accept (h : n.Follows m w c) (horders : c.orders = ordersFor windows closing)
    (hseed : ∀ window, (w.seed? window).isSome) (hphase : n.phase = .ready)
    {message : WorkerMessage} {rest : List WorkerMessage}
    (hitems : n.inbox.items = message :: rest) :
    ({ n with inbox := { n.inbox with items := rest } }.accept message).Follows m w c := by
  obtain ⟨done, merged, hall, hworker, hresults, hlength, hstop⟩ := h.history
  have hhand : n.inHand = [] := by rw [inHand, hphase]
  have hreport : n.toReport = [] := by rw [toReport, hphase]
  obtain ⟨hinbox, houtbox⟩ := h.open_of_there (by rw [hasLeft, hphase])
  have hnot : WorkerMessage.shutdown ∉ done := by
    rw [hstop, hphase]
    simp
  rw [hhand, hitems, List.append_nil] at hall
  rw [hreport, List.append_nil] at hresults
  cases message with
  | seed window =>
    have hfirst : done ++ .seed window :: (rest ++ c.pending) = ordersFor windows closing := by
      rw [← horders, ← hall]
      simp
    obtain rfl := eq_nil_of_seed hfirst
    obtain ⟨seeded, hseeded⟩ := Option.isSome_iff_exists.mp (hseed window)
    have hstart : n.worker = w := hworker
    simp only [WorkerNode.accept, hstart, hseeded]
    refine { h with history := ⟨[.seed window], merged, ?_, ?_, ?_, hlength, by simp [hphase]⟩ }
    · rw [← hall]
      simp [inHand, hphase]
    · simp [Worker.after, Worker.handle, hseeded]
    · rw [← hresults]
      simp [Worker.results, Worker.handle, toReport, hphase]
  | window window =>
    refine { h with
      history := ⟨done, merged, ?_, hworker, ?_, hlength, by simp [hnot, WorkerNode.accept]⟩
      not_crashed := by simp [WorkerNode.accept]
      inbox_receiver := hinbox
      outbox_sender := houtbox }
    · rw [← hall]
      simp [inHand, WorkerNode.accept]
    · rw [hresults]
      simp [toReport, WorkerNode.accept]
  | shutdown =>
    have hlast : done ++ .shutdown :: (rest ++ c.pending) = ordersFor windows closing := by
      rw [← horders, ← hall]
      simp
    obtain ⟨hrest, -⟩ := eq_nil_of_shutdown hlast
    obtain ⟨rfl, hpending⟩ := List.append_eq_nil_iff.mp hrest
    refine { h with
      history := ⟨done ++ [.shutdown], merged, ?_, ?_, ?_, hlength,
        by simp [WorkerNode.accept, leave]⟩
      not_crashed := by simp [WorkerNode.accept, leave]
      inbox_receiver := rfl
      outbox_sender := rfl }
    · rw [← hall, hpending]
      simp [inHand, WorkerNode.accept, leave, Fifo.closeReceiver]
    · rw [Worker.after_append, ← hworker]
      rfl
    · rw [Worker.results_append, hresults]
      simp [Worker.results, Worker.handle, toReport, WorkerNode.accept, leave, Fifo.closeSender]

/-- The kernel comes back with the result of the window in hand. -/
theorem process (h : n.Follows m w c) {window : Window} (hphase : n.phase = .holding window) :
    { n with
      worker := (n.worker.process m window).1
      phase := .reporting (n.worker.process m window).2 }.Follows m w c := by
  obtain ⟨done, merged, hall, hworker, hresults, hlength, hstop⟩ := h.history
  have hhand : n.inHand = [.window window] := by rw [inHand, hphase]
  have hreport : n.toReport = [] := by rw [toReport, hphase]
  obtain ⟨hinbox, houtbox⟩ := h.open_of_there (by rw [hasLeft, hphase])
  have hnot : WorkerMessage.shutdown ∉ done := by
    rw [hstop, hphase]
    simp
  refine { h with
    history := ⟨done ++ [.window window], merged, ?_, ?_, ?_, hlength, by simp [hnot]⟩
    not_crashed := by simp
    inbox_receiver := hinbox
    outbox_sender := houtbox }
  · rw [← hall, hhand]
    simp [inHand]
  · rw [Worker.after_append, ← hworker]
    rfl
  · rw [Worker.results_append, hresults, hreport, ← hworker]
    simp [Worker.results, Worker.handle, toReport]

theorem report (h : n.Follows m w c) {result : WindowResult} (hphase : n.phase = .reporting result)
    {outbox : Fifo WindowResult} (hsend : n.outbox.send result = .done outbox) :
    { n with outbox, phase := .ready }.Follows m w c := by
  obtain ⟨done, merged, hall, hworker, hresults, hlength, hstop⟩ := h.history
  have hhand : n.inHand = [] := by rw [inHand, hphase]
  have hreport : n.toReport = [result] := by rw [toReport, hphase]
  obtain ⟨hinbox, houtbox⟩ := h.open_of_there (by rw [hasLeft, hphase])
  have hnot : WorkerMessage.shutdown ∉ done := by
    rw [hstop, hphase]
    simp
  obtain ⟨-, -, rfl⟩ := Fifo.send_eq_done_iff.mp hsend
  refine { h with
    history := ⟨done, merged, ?_, hworker, ?_, hlength, by simp [hnot]⟩
    not_crashed := by simp
    inbox_receiver := hinbox
    outbox_sender := houtbox }
  · rw [← hall, hhand]
    simp [inHand]
  · rw [hresults, hreport]
    simp [toReport]

/-- Every step of a worker keeps the account.  The dispatcher leaves an inbox behind only once it
has sent all orders, and the merger an outbox once it has taken all results. -/
theorem step (h : n.Follows m w c) (horders : c.orders = ordersFor windows closing)
    (hseed : ∀ window, (w.seed? window).isSome)
    (hdispatching : c.dispatching = false → closing = true ∧ c.pending = [])
    (hmerging : c.merging = false → c.collected = windows.length) {next : WorkerNode}
    (hstep : n.step? m = some next) : next.Follows m w c := by
  cases step_of_step? hstep with
  | accept hphase hitems => exact h.accept horders hseed hphase hitems
  | orphaned hphase hitems hgone =>
    -- an empty inbox without a sender would mean that the request to stop was missed
    obtain ⟨hclosing, hpending⟩ := hdispatching (h.inbox_sender.symm.trans hgone)
    obtain ⟨done, merged, hall, -, -, -, hstop⟩ := h.history
    have hmem : WorkerMessage.shutdown ∈ done := by
      rw [horders, hclosing, ordersFor_true, hitems, hpending, inHand, hphase] at hall
      simp only [List.append_nil] at hall
      rw [hall]
      simp
    rw [hstop, hphase] at hmem
    cases hmem
  | process hphase => exact h.process hphase
  | report hphase hsend => exact h.report hphase hsend
  | unheard hphase hgone =>
    have hle := h.collected_le horders
    rw [hmerging (h.outbox_receiver.symm.trans hgone), toReport, hphase,
      List.length_singleton] at hle
    omega

end Follows

end WorkerNode

end TpcTrigger
