import TpcTrigger.Proofs.Pipeline.Tally

/-! # The request to stop

The first request to stop divides what is queued before it from what is queued later.  The
dispatcher takes all of the former and, once it has taken the request, nothing more.
-/

namespace TpcTrigger

theorem IngestQueue.items_eq_of_send {q rest : IngestQueue} {task : Task}
    (hsend : q.send task = .done rest) : rest.items = q.items ++ [task] := by
  obtain ⟨-, -, rfl⟩ := Fifo.send_eq_done_iff.mp hsend
  rfl

namespace Pipeline

structure HasExited (p : Pipeline) : Prop where
  dispatcher : p.dispatcher.stopped = true
  workers : ∀ node ∈ p.nodes, node.hasLeft = true
  merger : p.merger.phase = .stopped

instance (p : Pipeline) : Decidable p.HasExited :=
  decidable_of_iff (p.dispatcher.stopped = true ∧ (∀ node ∈ p.nodes, node.hasLeft = true) ∧
    p.merger.phase = .stopped)
    ⟨fun ⟨hdispatcher, hworkers, hmerger⟩ => ⟨hdispatcher, hworkers, hmerger⟩,
      fun h => ⟨h.dispatcher, h.workers, h.merger⟩⟩

structure Unasked (h : Intake) (p : Pipeline) : Prop where
  closing : h.closing = false
  queued : .shutdown ∉ p.queue.items

/-- The first request to stop came after the given superchunks: it was taken after them, or
it waits behind those of them that are not taken yet. -/
structure Asked (superchunks : List ByteArray) (h : Intake) (p : Pipeline) : Prop where
  taken : h.closing = true → h.taken = superchunks
  waiting : h.closing = false → ∃ before after, p.queue.items = before ++ .shutdown :: after ∧
    .shutdown ∉ before ∧ h.taken ++ before.filterMap Task.superchunk? = superchunks

variable {s : Settings} {m : Method} {h : Intake} {p q : Pipeline}

namespace Unasked

theorem move (hp : p.Unasked h) (haccount : p.Account s m h) {move : Move}
    (hother : move ≠ .shutdown) (hmove : p.move? m move = some q) :
    q.Unasked (p.intakeAfter h move) := by
  cases step_of_move? hmove with
  | malformed hcheck =>
    rw [intakeAfter_of_none (admits_of_error hcheck)]
    exact ⟨hp.closing, hp.queued⟩
  | enqueue hcheck hsend =>
    refine ⟨hp.closing, ?_⟩
    simpa [IngestQueue.items_eq_of_send hsend] using hp.queued
  | refuse hcheck hsend =>
    rw [intakeAfter_of_none (admits_of_none hsend)]
    exact ⟨hp.closing, hp.queued⟩
  | shutdown hsend => exact absurd rfl hother
  | @take _ task _ hthere hacts hnext =>
    have hqueued := hp.queued
    rw [(IngestQueue.items_eq_of_next haccount.wired.sender hnext).1, List.mem_cons,
      not_or] at hqueued
    rw [intakeAfter_of_next hthere hacts hnext]
    cases task with
    | shutdown => exact absurd rfl hqueued.1
    | superchunk timestamp bytes => exact ⟨hp.closing, hqueued.2⟩
  | note hthere hacts hnote | send hthere hacts hnode hsend | pass hthere hacts hgone =>
    rw [intakeAfter_of_acts hacts]
    exact ⟨hp.closing, hp.queued⟩
  | leave hthere hacts =>
    rw [intakeAfter_of_acts hacts]
    exact ⟨hp.closing, List.not_mem_nil⟩
  | storeBatch hphase hfull =>
    rw [storeBatch]
    split <;> exact ⟨hp.closing, hp.queued⟩
  | _ => exact ⟨hp.closing, hp.queued⟩

/-- The first request to stop comes after everything accepted before. -/
theorem shutdown (hp : p.Unasked h) (haccount : p.Account s m h)
    (hmove : p.move? m .shutdown = some q) : q.Asked h.accepted (p.intakeAfter h .shutdown) := by
  cases step_of_move? hmove with
  | shutdown hsend =>
    have hthere : p.dispatcher.stopped = false := by
      have hreceiver := (Fifo.send_eq_done_iff.mp hsend).1
      rw [haccount.follows.dispatcher.receiver] at hreceiver
      simpa using hreceiver
    have hopen : (p.intakeAfter h .shutdown).closing = false := hp.closing
    refine ⟨by simp [hopen], fun _ => ⟨p.queue.items, [], ?_, hp.queued, ?_⟩⟩
    · exact IngestQueue.items_eq_of_send hsend
    · exact haccount.follows.dispatcher.queued hthere

end Unasked

namespace Asked

variable {superchunks : List ByteArray}

theorem grow (hp : p.Asked superchunks h) {after : Pipeline} {accepted : List ByteArray}
    {more : List Task} (hitems : after.queue.items = p.queue.items ++ more) :
    after.Asked superchunks { h with accepted } := by
  refine ⟨hp.taken, fun hopen => ?_⟩
  obtain ⟨before, later, hqueue, htaken⟩ := hp.waiting hopen
  exact ⟨before, later ++ more, by simp [hitems, hqueue], htaken⟩

theorem congr (hp : p.Asked superchunks h) {after : Pipeline} (hqueue : after.queue = p.queue) :
    after.Asked superchunks h :=
  ⟨hp.taken, hqueue ▸ hp.waiting⟩

/-- The dispatcher takes the request, or one of the superchunks in front of it. -/
theorem take (hp : p.Asked superchunks h) (hopen : h.closing = false) {task : Task}
    {after : Pipeline} (hitems : p.queue.items = task :: after.queue.items) :
    after.Asked superchunks (h.take task) := by
  obtain ⟨before, later, hwaiting, hfirst, htaken⟩ := hp.waiting hopen
  rw [hitems] at hwaiting
  cases before with
  | nil =>
    obtain rfl := (List.cons.inj hwaiting).1
    exact ⟨fun _ => (List.append_nil _).symm.trans htaken, by simp [Intake.take]⟩
  | cons head before =>
    obtain ⟨rfl, hrest⟩ := List.cons.inj hwaiting
    rw [List.mem_cons, not_or] at hfirst
    cases task with
    | shutdown => exact absurd rfl hfirst.1
    | superchunk timestamp bytes =>
      have hstill : (h.take (.superchunk timestamp bytes)).closing = false := hopen
      refine ⟨by simp [hstill], fun _ => ⟨before, later, hrest, hfirst.2, ?_⟩⟩
      rw [← htaken]
      simp [Intake.take, Task.superchunk?]

theorem move (hp : p.Asked superchunks h) (haccount : p.Account s m h) {move : Move}
    (hmove : p.move? m move = some q) : q.Asked superchunks (p.intakeAfter h move) := by
  cases step_of_move? hmove with
  | malformed hcheck =>
    rw [intakeAfter_of_none (admits_of_error hcheck)]
    exact hp.congr rfl
  | enqueue hcheck hsend => exact hp.grow (IngestQueue.items_eq_of_send hsend)
  | refuse hcheck hsend =>
    rw [intakeAfter_of_none (admits_of_none hsend)]
    exact hp.congr rfl
  | shutdown hsend => exact hp.grow (IngestQueue.items_eq_of_send hsend)
  | take hthere hacts hnext =>
    rw [intakeAfter_of_next hthere hacts hnext]
    exact hp.take (haccount.follows.dispatcher.closing_eq_false hacts hthere)
      (IngestQueue.items_eq_of_next haccount.wired.sender hnext).1
  | note hthere hacts hnote | send hthere hacts hnode hsend | pass hthere hacts hgone =>
    rw [intakeAfter_of_acts hacts]
    exact hp.congr rfl
  | leave hthere hacts =>
    have hclosing := (haccount.follows.dispatcher.leave hthere hacts).2.1
    rw [intakeAfter_of_acts hacts]
    exact ⟨hp.taken, by simp [hclosing]⟩
  | storeBatch hphase hfull =>
    rw [storeBatch]
    split <;> exact hp.congr rfl
  | _ => exact hp.congr rfl

end Asked

/-- Everything that was taken in by a run from the start. -/
def intakeOf (s : Settings) (m : Method) (moves : List Move) : Intake :=
  (start s).intake m ⟨[], [], false⟩ moves

theorem account_intakeOf {moves : List Move} (hrun : (start s).run? m moves = some p) :
    p.Account s m (intakeOf s m moves) :=
  ((account_start s m).run_induction (I := fun _ _ => True) trivial
    (fun _ _ _ _ _ _ _ _ => trivial) hrun).1

theorem accepted_intakeOf {moves : List Move} (hrun : (start s).run? m moves = some p) :
    (intakeOf s m moves).accepted = (start s).accepted m moves :=
  accepted_intake hrun _

theorem unasked_of_run {moves : List Move} (hmoves : .shutdown ∉ moves)
    (hrun : (start s).run? m moves = some p) : p.Unasked (intakeOf s m moves) :=
  ((account_start s m).run_induction (I := fun h p => p.Unasked h) ⟨rfl, List.not_mem_nil⟩
    (fun _ _ _ _ hmem hp hI hmove => hI.move hp (fun heq => hmoves (heq ▸ hmem)) hmove) hrun).2

theorem asked_of_run {before after : List Move} (hbefore : .shutdown ∉ before)
    (hrun : (start s).run? m (before ++ .shutdown :: after) = some q) :
    q.Asked ((start s).accepted m before) (intakeOf s m (before ++ .shutdown :: after)) := by
  rw [run?_append] at hrun
  rcases Option.bind_eq_some_iff.mp hrun with ⟨p, hfirst, hrest⟩
  rcases Option.bind_eq_some_iff.mp hrest with ⟨next, hmove, hlast⟩
  have hp := account_intakeOf hfirst
  have hasked := (unasked_of_run hbefore hfirst).shutdown hp hmove
  rw [accepted_intakeOf hfirst] at hasked
  rw [intakeOf, intake_append hfirst, intake, hmove]
  exact ((hp.move hmove).run_induction (I := fun h p => p.Asked ((start s).accepted m before) h)
    hasked (fun _ _ _ _ _ hp hI hmove => hI.move hp hmove) hlast).2

theorem exists_unasked {moves : List Move} (hmoves : .shutdown ∉ moves)
    (hrun : (start s).run? m moves = some q) :
    ∃ h, q.Account s m h ∧ q.Unasked h ∧ h.accepted = (start s).accepted m moves :=
  ⟨_, account_intakeOf hrun, unasked_of_run hmoves hrun, accepted_intakeOf hrun⟩

theorem exists_asked {before after : List Move} (hbefore : .shutdown ∉ before)
    (hrun : (start s).run? m (before ++ .shutdown :: after) = some q) :
    ∃ h, q.Account s m h ∧ q.Asked ((start s).accepted m before) h :=
  ⟨_, account_intakeOf hrun, asked_of_run hbefore hrun⟩

end Pipeline

end TpcTrigger
