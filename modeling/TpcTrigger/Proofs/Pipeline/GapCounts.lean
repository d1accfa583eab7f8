import TpcTrigger.Proofs.Pipeline.Tally

/-! # Damaged superchunks and gaps

Every task in the queue carries the time of its superchunk, and its superchunk has the right size,
so the dispatcher never meets one that it cannot decode.  It remembers the time of the last
superchunk that it has taken, and counts a gap for each whose time does not follow from it.
-/

namespace TpcTrigger

def gapCount (times : List UInt64) : Nat :=
  (times.zip times.tail).countP fun (last, time) => last + UInt64.ofNat superchunkClocks ≠ time

namespace ContinuityCheck

def gapsAt (c : ContinuityCheck) (timestamp : UInt64) : Nat :=
  match c.compare timestamp with
  | .gap _ _ => 1
  | _ => 0

theorem gapCount_concat (times : List UInt64) (timestamp : UInt64) :
    gapCount (times ++ [timestamp]) = gapCount times + gapsAt ⟨times.getLast?⟩ timestamp := by
  induction times with
  | nil => rfl
  | cons first times ih =>
    cases times with
    | nil =>
      simp only [gapCount, gapsAt, compare, List.getLast?_singleton, List.singleton_append,
        List.tail_cons, List.zip_cons_cons, List.zip_nil_right, List.countP_singleton,
        List.countP_nil, Nat.zero_add, decide_eq_true_eq]
      by_cases hnext : first + UInt64.ofNat superchunkClocks = timestamp
      · rw [if_neg (not_not_intro hnext), if_pos hnext]
      · rw [if_pos hnext, if_neg hnext]
    | cons second times =>
      have hcons (rest : List UInt64) : gapCount (first :: second :: rest) =
          gapCount (second :: rest) +
            if first + UInt64.ofNat superchunkClocks ≠ second then 1 else 0 := by
        rw [gapCount, List.tail_cons, List.zip_cons_cons, List.countP_cons]
        simp [gapCount]
      rw [List.cons_append, List.cons_append, hcons, hcons, ← List.cons_append, ih,
        List.getLast?_cons_cons, Nat.add_right_comm]

end ContinuityCheck

def timeOf (bytes : ByteArray) : UInt64 := (Header.ofBytes bytes).timestamp

namespace Dispatcher

theorem acts_acceptSuperchunk (d : Dispatcher) (timestamp : UInt64) {bytes : ByteArray}
    (hsize : Superchunk.checkSize bytes = .ok ()) (latency : Nat) :
    (d.acceptSuperchunk timestamp bytes latency).acts =
      .countDequeued latency (d.lag.observe latency).1.lagging ::
        (List.replicate (d.continuity.gapsAt timestamp) .countGap ++
          (d.assembly.push (.ofBytes bytes)).2.toList.flatMap d.handOut ++ [.countConsumed]) := by
  rw [acceptSuperchunk, Superchunk.decode_eq hsize, ContinuityCheck.gapsAt,
    ContinuityCheck.observe]
  rcases hpush : d.assembly.push (.ofBytes bytes) with ⟨assembly, _ | window⟩ <;>
    cases hcompare : d.continuity.compare timestamp <;> simp [hpush]

theorem continuity_acceptSuperchunk (d : Dispatcher) (timestamp : UInt64) {bytes : ByteArray}
    (hsize : Superchunk.checkSize bytes = .ok ()) (latency : Nat) :
    (d.acceptSuperchunk timestamp bytes latency).continuity = ⟨some timestamp⟩ := by
  rw [acceptSuperchunk, Superchunk.decode_eq hsize]
  rcases hpush : d.assembly.push (.ofBytes bytes) with ⟨assembly, _ | window⟩ <;>
    simp [hpush, ContinuityCheck.observe]

theorem count_handOut_eq_zero (d : Dispatcher) (window? : Option Window) (act : DispatchAct)
    (hnote : act.isNote = true) (hact : act ≠ .countDispatched) :
    (window?.toList.flatMap d.handOut).count act = 0 := by
  have hsent (message : WorkerMessage) := d.count_toAll message act hnote
  cases window? with
  | none => rfl
  | some window =>
    rw [Option.toList_some, List.flatMap_singleton, handOut, List.count_append,
      List.count_cons_of_ne hact.symm, hsent]
    cases d.seeded <;> simp [hsent]

theorem count_acceptSuperchunk (d : Dispatcher) (timestamp : UInt64) {bytes : ByteArray}
    (hsize : Superchunk.checkSize bytes = .ok ()) (latency : Nat) :
    (d.acceptSuperchunk timestamp bytes latency).acts.count .countMalformed = 0 ∧
      (d.acceptSuperchunk timestamp bytes latency).acts.count .countGap =
        d.continuity.gapsAt timestamp := by
  have hdamaged := d.count_handOut_eq_zero (d.assembly.push (.ofBytes bytes)).2
    .countMalformed rfl (by simp)
  have hgap := d.count_handOut_eq_zero (d.assembly.push (.ofBytes bytes)).2
    .countGap rfl (by simp)
  rw [d.acts_acceptSuperchunk timestamp hsize]
  constructor
  · rw [List.count_cons_of_ne (by simp), List.count_append, List.count_append, hdamaged,
      List.count_eq_zero_of_not_mem (by simp [List.mem_replicate])]
    rfl
  · rw [List.count_cons_of_ne (by simp), List.count_append, List.count_append, hgap,
      List.count_replicate_self]
    rfl

end Dispatcher

namespace Pipeline

structure Timed (h : Intake) (p : Pipeline) : Prop where
  stamped : ∀ timestamp bytes, Task.superchunk timestamp bytes ∈ p.queue.items →
    timestamp = timeOf bytes
  undamaged : .countMalformed ∉ p.dispatcher.acts
  last : p.dispatcher.continuity.last = (h.taken.map timeOf).getLast?
  gaps : p.metrics.gaps + p.dispatcher.acts.count .countGap = gapCount (h.taken.map timeOf)

theorem timed_start (s : Settings) : (start s).Timed ⟨[], [], false⟩ where
  stamped := by simp [start, Fifo.bounded]
  undamaged := List.not_mem_nil
  last := rfl
  gaps := rfl

namespace Timed

variable {s : Settings} {m : Method} {h : Intake} {p q : Pipeline}

/-- Clients, workers and the merger leave the dispatcher alone. -/
theorem congr (hp : p.Timed h) {accepted : List ByteArray} (hqueue : q.queue.items = p.queue.items)
    (hdispatcher : q.dispatcher = p.dispatcher) (hgaps : q.metrics.gaps = p.metrics.gaps) :
    q.Timed { h with accepted } where
  stamped := hqueue ▸ hp.stamped
  undamaged := hdispatcher ▸ hp.undamaged
  last := hdispatcher ▸ hp.last
  gaps := by
    rw [hgaps, hdispatcher]
    exact hp.gaps

theorem act (hp : p.Timed h) {act : DispatchAct} {acts : List DispatchAct}
    (hacts : p.dispatcher.acts = act :: acts) (hnext : q.dispatcher.acts = acts)
    (hcontinuity : q.dispatcher.continuity = p.dispatcher.continuity)
    (hqueue : ∀ task ∈ q.queue.items, task ∈ p.queue.items)
    (hgaps : q.metrics.gaps = p.metrics.gaps + [act].count .countGap) : q.Timed h where
  stamped := fun timestamp bytes hmem => hp.stamped timestamp bytes (hqueue _ hmem)
  undamaged := by
    have hnone := hp.undamaged
    rw [hacts, List.mem_cons, not_or] at hnone
    exact hnext ▸ hnone.2
  last := hcontinuity ▸ hp.last
  gaps := by
    have hcount := hp.gaps
    rw [hacts, ← List.singleton_append, List.count_append, ← Nat.add_assoc, ← hgaps] at hcount
    rw [hnext]
    exact hcount

theorem take (hp : p.Timed h) (haccount : p.Account s m h)
    (hthere : p.dispatcher.stopped = false) (hacts : p.dispatcher.acts = []) {task : Task}
    {queue : IngestQueue} (hnext : IngestQueue.next? p.queue = some (task, queue))
    (latency : Nat) :
    { p with queue, dispatcher := p.dispatcher.accept task latency }.Timed (h.take task) := by
  have hitems := (IngestQueue.items_eq_of_next haccount.wired.sender hnext).1
  have hlater : ∀ timestamp bytes, Task.superchunk timestamp bytes ∈ queue.items →
      timestamp = timeOf bytes := fun timestamp bytes hmem =>
    hp.stamped timestamp bytes (by rw [hitems]; exact List.mem_cons_of_mem _ hmem)
  have hgaps := hp.gaps
  rw [hacts, List.count_nil, Nat.add_zero] at hgaps
  cases task with
  | shutdown =>
    have hnote (act : DispatchAct) (hact : act.isNote = true) :
        (p.dispatcher.toAll .shutdown ++ [DispatchAct.leave]).count act = 0 := by
      rw [List.count_append, p.dispatcher.count_toAll .shutdown act hact,
        List.count_singleton, if_neg (by rintro heq; rw [beq_iff_eq] at heq; subst heq; cases hact)]
    refine ⟨hlater, List.count_eq_zero.mp (hnote .countMalformed rfl), hp.last, ?_⟩
    have hnone := hnote .countGap rfl
    simp only [Dispatcher.accept, hnone, Nat.add_zero]
    exact hgaps
  | superchunk timestamp bytes =>
    have hsize := haccount.follows.dispatcher.checkSize_of_next hthere hnext bytes rfl
    have htime : timestamp = timeOf bytes :=
      hp.stamped timestamp bytes (by rw [hitems]; exact List.mem_cons_self ..)
    obtain ⟨hdamaged, hgap⟩ := p.dispatcher.count_acceptSuperchunk timestamp hsize latency
    have hlast : p.dispatcher.continuity = ⟨(h.taken.map timeOf).getLast?⟩ := by
      rw [← hp.last]
    have htaken : (h.taken ++ [bytes]).map timeOf = h.taken.map timeOf ++ [timestamp] := by
      rw [List.map_append, htime]
      rfl
    refine ⟨hlater, List.count_eq_zero.mp hdamaged, ?_, ?_⟩
    · simp only [Dispatcher.accept, Intake.take]
      rw [p.dispatcher.continuity_acceptSuperchunk timestamp hsize, htaken, List.getLast?_concat]
    · simp only [Dispatcher.accept, Intake.take]
      rw [hgap, hgaps, hlast, htaken, ContinuityCheck.gapCount_concat]

theorem move (hp : p.Timed h) (haccount : p.Account s m h) {move : Move}
    (hmove : p.move? m move = some q) : q.Timed (p.intakeAfter h move) := by
  cases step_of_move? hmove with
  | malformed hcheck => exact hp.congr rfl rfl rfl
  | @enqueue bytes queue hcheck hsend =>
    refine ⟨fun timestamp other hmem => ?_, hp.undamaged, hp.last, hp.gaps⟩
    obtain ⟨-, -, rfl⟩ := Fifo.send_eq_done_iff.mp hsend
    rcases List.mem_append.mp hmem with hmem | hmem
    · exact hp.stamped timestamp other hmem
    · simp only [List.mem_singleton, Task.superchunk.injEq] at hmem
      obtain ⟨rfl, rfl⟩ := hmem
      rfl
  | refuse hcheck hsend => exact hp.congr rfl rfl rfl
  | @count _ c hcall => exact hp.congr rfl rfl (by cases c <;> rfl)
  | shutdown hsend =>
    refine ⟨fun timestamp other hmem => ?_, hp.undamaged, hp.last, hp.gaps⟩
    obtain ⟨-, -, rfl⟩ := Fifo.send_eq_done_iff.mp hsend
    rcases List.mem_append.mp hmem with hmem | hmem
    · exact hp.stamped timestamp other hmem
    · simp at hmem
  | take hthere hacts hnext =>
    rw [intakeAfter_of_next hthere hacts hnext]
    exact hp.take haccount hthere hacts hnext _
  | @note _ act _ hthere hacts hnote =>
    rw [intakeAfter_of_acts hacts]
    refine hp.act hacts rfl rfl (fun task hmem => hmem) ?_
    cases act with
    | send worker message | leave => cases hnote
    | _ => rfl
  | send hthere hacts hnode hsend =>
    rw [intakeAfter_of_acts hacts]
    exact hp.act hacts rfl rfl (fun task hmem => hmem) rfl
  | pass hthere hacts hgone =>
    rw [intakeAfter_of_acts hacts]
    exact hp.act hacts rfl rfl (fun task hmem => hmem) rfl
  | leave hthere hacts =>
    rw [intakeAfter_of_acts hacts]
    exact hp.act hacts rfl rfl (fun task hmem => absurd hmem List.not_mem_nil) rfl
  | storeBatch hphase hfull =>
    rw [storeBatch]
    split <;> exact hp.congr rfl rfl rfl
  | _ => exact hp.congr rfl rfl rfl

end Timed

end Pipeline

end TpcTrigger
