import TpcTrigger.Proofs.Pipeline.Tally

/-! # Idle by four readings

Clients count a superchunk only after it is queued, and the counters are read one after the other
while everything moves.  If they say that the pipeline is idle, then as many superchunks are
assembled as calls had returned when the readings began, and their windows are merged.  These are
the first superchunks of the queue; with a call still under way, they need not be those of the
calls that had returned.
-/

namespace TpcTrigger.Pipeline

theorem counters_le_of_move {m : Method} {p q : Pipeline} {move : Move}
    (hmove : p.move? m move = some q) :
    p.metrics.received ≤ q.metrics.received ∧ p.metrics.dispatched ≤ q.metrics.dispatched := by
  cases step_of_move? hmove with
  | @count _ c _ =>
    cases c with
    | queued => exact ⟨Nat.le_succ _, le_rfl⟩
    | refused bytes => exact ⟨le_rfl, le_rfl⟩
  | @note _ act _ _ _ hnote =>
    cases act with
    | send worker message | leave => cases hnote
    | countDispatched => exact ⟨le_rfl, Nat.le_succ _⟩
    | _ => exact ⟨le_rfl, le_rfl⟩
  | storeBatch hphase hfull =>
    rw [storeBatch]
    split <;> exact ⟨le_rfl, le_rfl⟩
  | _ => exact ⟨le_rfl, le_rfl⟩

theorem counters_le_of_run {m : Method} {p q : Pipeline} {moves : List Move}
    (hrun : p.run? m moves = some q) :
    p.metrics.received ≤ q.metrics.received ∧ p.metrics.dispatched ≤ q.metrics.dispatched := by
  induction moves generalizing p with
  | nil =>
    rw [run?, Option.some.injEq] at hrun
    rw [hrun]
    exact ⟨le_rfl, le_rfl⟩
  | cons move moves ih =>
    obtain ⟨next, hmove, hrest⟩ := Option.bind_eq_some_iff.mp hrun
    have hstep := counters_le_of_move hmove
    have hlater := ih hrest
    exact ⟨hstep.1.trans hlater.1, hstep.2.trans hlater.2⟩

/-- What four readings that say idle tell about the moment `p` at which they began.  They are
made after further moves each, of the consumed superchunks first and of the received ones last. -/
theorem covered_of_idle {s : Settings} {m : Method} {p atConsumed atDispatched atMerged
    atReceived : Pipeline} {moves toConsumed toDispatched toMerged toReceived : List Move}
    (hrun : (start s).run? m moves = some p)
    (hconsumed : p.run? m toConsumed = some atConsumed)
    (hdispatched : atConsumed.run? m toDispatched = some atDispatched)
    (hmerged : atDispatched.run? m toMerged = some atMerged)
    (hreceived : atMerged.run? m toReceived = some atReceived)
    (hidle : Metrics.idleAcross atConsumed.metrics atDispatched.metrics atMerged.metrics
      atReceived.metrics = true) :
    let accepted := (start s).accepted m moves
    let returned := p.metrics.received
    returned + p.calls.countP (·.isQueued) = accepted.length ∧
      returned ≤ atConsumed.metrics.consumed ∧
      (∃ later, atConsumed.dispatcher.assembly = (Assembly.start s.superchunksPerWindow).after
        ((accepted.take returned ++ later).map .ofBytes)) ∧
      returned / s.superchunksPerWindow ≤ atMerged.metrics.merged := by
  intro accepted returned
  simp only [Metrics.idleAcross, Bool.and_eq_true, beq_iff_eq] at hidle
  obtain ⟨hall, hwindows⟩ := hidle
  obtain ⟨h, hp, haccepted⟩ := (account_start s m).run hrun
  obtain ⟨after, hq, hmore⟩ := hp.run hconsumed
  rw [List.nil_append] at haccepted
  rw [haccepted] at hmore
  have hreturned : returned + p.calls.countP (·.isQueued) = accepted.length := by
    rw [hp.tally.received, haccepted]
  have hcovered : returned ≤ atConsumed.metrics.consumed := by
    rw [hall]
    calc p.metrics.received
        ≤ atConsumed.metrics.received := (counters_le_of_run hconsumed).1
      _ ≤ atDispatched.metrics.received := (counters_le_of_run hdispatched).1
      _ ≤ atMerged.metrics.received := (counters_le_of_run hmerged).1
      _ ≤ atReceived.metrics.received := (counters_le_of_run hreceived).1
  refine ⟨hreturned, hcovered, ?_, ?_⟩
  · -- the dispatcher has taken at least as many, and takes them in the order of the queue
    have htaken := (List.prefix_append _ _).trans hq.follows.dispatcher.queued_prefix
    have hfirst : accepted.take returned <+: accepted ++ p.accepted m toConsumed :=
      (List.take_prefix _ _).trans (List.prefix_append _ _)
    rw [hmore] at htaken
    have hle : (accepted.take returned).length ≤ after.taken.length := by
      rw [List.length_take, ← hq.tally.consumed]
      omega
    obtain ⟨later, hlater⟩ := List.prefix_of_prefix_length_le hfirst htaken hle
    exact ⟨later, by rw [hq.follows.dispatcher.assembly, hlater]⟩
  · rw [hwindows]
    calc p.metrics.received / s.superchunksPerWindow
        ≤ atConsumed.metrics.consumed / s.superchunksPerWindow := Nat.div_le_div_right hcovered
      _ ≤ atConsumed.metrics.dispatched := hq.tally.handed_out
      _ ≤ atDispatched.metrics.dispatched := (counters_le_of_run hdispatched).2

/-- A window that is merged during the readings, while the next superchunk is offered. -/
theorem covered_of_idle_during :
    let s : Settings := {
      windowTicks := superchunkTicks
      workers := 1
      tapCount := 2
      taps := some #[-3, 64] }
    let m : Method := s.method s.kernel.kernel
    let bytes : ByteArray := ⟨.replicate superchunkBytes 7⟩
    ∃ p atConsumed atMerged atReceived,
      (start s).run? m [.offer bytes, .count 0] = some p ∧
      p.run? m (List.replicate 6 (.dispatch 0)) = some atConsumed ∧
      atConsumed.run? m (List.replicate 4 (.work 0) ++ List.replicate 3 .merge) = some atMerged ∧
      atMerged.run? m [.offer bytes] = some atReceived ∧
      Metrics.idleAcross atConsumed.metrics atConsumed.metrics atMerged.metrics
        atReceived.metrics = true ∧
      p.metrics.received = 1 ∧ 1 ≤ atConsumed.metrics.consumed ∧ 1 ≤ atMerged.metrics.merged := by
  intro s m bytes
  have hmoves : (((start s).run? m [.offer bytes, .count 0]).bind fun p =>
      (p.run? m (List.replicate 6 (.dispatch 0))).bind fun atConsumed =>
        (atConsumed.run? m (List.replicate 4 (.work 0) ++ List.replicate 3 .merge)).bind
          fun atMerged => (atMerged.run? m [.offer bytes]).map fun atReceived =>
            (Metrics.idleAcross atConsumed.metrics atConsumed.metrics atMerged.metrics
              atReceived.metrics, p.metrics.received)) = some (true, 1) := by decide +kernel
  obtain ⟨p, hrun, hmoves⟩ := Option.bind_eq_some_iff.mp hmoves
  obtain ⟨atConsumed, hconsumed, hmoves⟩ := Option.bind_eq_some_iff.mp hmoves
  obtain ⟨atMerged, hmerged, hmoves⟩ := Option.bind_eq_some_iff.mp hmoves
  obtain ⟨atReceived, hreceived, hread⟩ := Option.map_eq_some_iff.mp hmoves
  obtain ⟨hidle, hone⟩ := Prod.mk.inj hread
  have hstill : atConsumed.run? m [] = some atConsumed := rfl
  obtain ⟨-, hcovered, -, hstored⟩ :=
    covered_of_idle hrun hconsumed hstill hmerged hreceived hidle
  rw [hone] at hcovered hstored
  exact ⟨p, atConsumed, atMerged, atReceived, hrun, hconsumed, hmerged, hreceived, hidle, hone,
    hcovered, hstored.trans' (by decide)⟩

/-- Two clients queue a superchunk each, and the second one's call returns first.  The first
superchunk is assembled by then, and so the pipeline reads as idle while the second still waits
in the queue. -/
theorem isIdle_while_queued :
    let s : Settings := { tapCount := 2, taps := some #[-3, 64] }
    let first : ByteArray := ⟨.replicate superchunkBytes 7⟩
    let second : ByteArray := ⟨.replicate superchunkBytes 9⟩
    let moves : List Move :=
      [.offer first, .offer second] ++ List.replicate 3 (.dispatch 0) ++ [.count 1]
    ∃ p, (start s).run? (s.method s.kernel.kernel) moves = some p ∧ p.calls.length = 1 ∧
      p.metrics.received = 1 ∧ p.metrics.isIdle = true ∧
      p.queue.superchunks.map (·.data[0]?) = [some 9] := by
  intro s first second moves
  have hmoves : ((start s).run? (s.method s.kernel.kernel) moves).map (fun p =>
      (p.calls.length, p.metrics.received, p.metrics.isIdle,
        p.queue.superchunks.map (·.data[0]?))) = some (1, 1, true, [some 9]) := by decide +kernel
  obtain ⟨p, hrun, hread⟩ := Option.map_eq_some_iff.mp hmoves
  simp only [Prod.mk.injEq] at hread
  exact ⟨p, hrun, hread⟩

end TpcTrigger.Pipeline
