import TpcTrigger.Proofs.Pipeline.Draining
import TpcTrigger.Proofs.Pipeline.Progress

/-! # Coming to rest

A schedule that holds nothing back makes one of the possible runs, and its fuel lasts until no
part can move.  So a finder that is shut down comes to its end, and hands out the channels of the
single thread.
-/

namespace TpcTrigger

theorem Move.isOffer_of_isInternal {move : Move} (h : move.isInternal = true) :
    move.isOffer = false := by
  cases move <;> simp_all [isInternal, isOffer]

structure Schedule.Free (c : Schedule) : Prop where
  kernelsRun : c.kernelsRun = true
  workersRun : c.workersRun = true
  enough : ∀ p, c.enough p = false

example : Schedule.Free {} := ⟨rfl, rfl, fun _ => rfl⟩

namespace Pipeline

theorem totalEffort_eq {α : Type} (effort : α → Nat) (items : List α) :
    totalEffort effort items = (items.map effort).sum := by
  have hfold (total : Nat) : items.foldl (fun total item => total + effort item) total =
      total + (items.map effort).sum := by
    induction items generalizing total with
    | nil => rfl
    | cons item items ih => rw [List.foldl_cons, ih, List.map_cons, List.sum_cons, Nat.add_assoc]
  rw [totalEffort, hfold, Nat.zero_add]

variable {s : Settings} {m : Method} {h : Intake} {p q : Pipeline} {c : Schedule}

/-- The fuel of a run to rest covers the moves that are left. -/
theorem remaining_le_effort (hp : p.Follows s m h) : p.remaining ≤ p.effort := by
  have hworkers : p.dispatcher.workers = p.nodes.size := by
    rw [hp.dispatcher.workers, hp.size]
  have hnodes : (p.nodes.toList.map (·.effort)).sum ≤ (p.nodes.toList.map nodeEffort).sum := by
    apply List.sum_le_sum
    intro n _
    have hphase : n.phase.effort ≤ 6 := by cases n.phase <;> simp [WorkerPhase.effort]
    simp only [WorkerNode.effort, nodeEffort, Fifo.length, messageEffort]
    omega
  have hbatch : p.merger.batch.length ≤ p.nodes.size := by
    rw [hp.merger.batch, hp.size, Settings.batchAt]
    simp
  have hmerger : p.merger.effort ≤ p.merger.batch.length * 2 + 2 := by
    rw [Merger.effort]
    cases p.merger.phase <;> simp
  rw [effort, remaining, hworkers, totalEffort_eq, totalEffort_eq, Nat.succ_mul, ← actsEffort]
  simp only [taskEffort, messageEffort, Fifo.length]
  omega

theorem allowed_of_free (hfree : c.Free) (p : Pipeline) (move : Move) :
    p.allowed c move = true := by
  simp only [allowed, hfree.enough, hfree.kernelsRun, hfree.workersRun]
  cases move <;> rfl

/-- The turns of some parts make a run.  If they make no move, then none of the parts has one. -/
theorem exists_run_turns (m : Method) (hfree : c.Free) (moves : List Move) (p : Pipeline)
    (moved : Bool) :
    ∃ made : List Move, made.Sublist moves ∧
      p.run? m made = some (moves.foldl (turn m c) (p, moved)).1 ∧
      (moves.foldl (turn m c) (p, moved)).2 = (moved || !made.isEmpty) ∧
      (made = [] → ∀ move ∈ moves, p.move? m move = none) := by
  induction moves generalizing p moved with
  | nil => exact ⟨[], List.Sublist.slnil, rfl, (Bool.or_false _).symm, by simp⟩
  | cons move moves ih =>
    cases hmove : p.move? m move with
    | none =>
      have hturn : turn m c (p, moved) move = (p, moved) := by
        simp [turn, allowed_of_free hfree, hmove]
      obtain ⟨made, hmade, hrun, hflag, hnone⟩ := ih p moved
      rw [List.foldl_cons, hturn]
      refine ⟨made, hmade.cons move, hrun, hflag, fun hempty other hother => ?_⟩
      rcases List.mem_cons.mp hother with rfl | hother
      · exact hmove
      · exact hnone hempty other hother
    | some next =>
      have hturn : turn m c (p, moved) move = (next, true) := by
        simp [turn, allowed_of_free hfree, hmove]
      obtain ⟨made, hmade, hrun, hflag, -⟩ := ih next true
      rw [List.foldl_cons, hturn]
      refine ⟨move :: made, hmade.cons_cons move, ?_, ?_, by simp⟩
      · rw [run?, hmove]
        exact hrun
      · rw [hflag]
        simp

theorem isInternal_of_mem_round {move : Move} (hmove : move ∈ p.round c) :
    move.isInternal = true := by
  simp only [round, List.cons_append, List.mem_cons, List.mem_append, List.mem_map,
    List.not_mem_nil, or_false] at hmove
  obtain rfl | ⟨worker, -, rfl⟩ | rfl := hmove <;> rfl

/-- A pipeline on whose round no part moves cannot move. -/
theorem not_canMove_of_round (hround : ∀ move ∈ p.round c, p.move? m move = none) :
    ¬ p.CanMove m := by
  rintro (hdispatch | ⟨worker, hwork⟩ | hmerge)
  · have hnone : p.dispatch? c.latency = none := hround (.dispatch c.latency) (by simp [round])
    have hsome := hdispatch c.latency
    rw [hnone] at hsome
    cases hsome
  · obtain ⟨next, hnext⟩ := Option.isSome_iff_exists.mp hwork
    obtain ⟨node, hnode, -⟩ := Option.bind_eq_some_iff.mp hnext
    have hworker := (Array.getElem?_eq_some_iff.mp hnode).1
    have hnone : p.work? m worker = none :=
      hround (.work worker) (by simp [round, hworker])
    rw [hnone] at hwork
    cases hwork
  · have hnone : p.merge? = none := hround .merge (by simp [round])
    rw [hnone] at hmerge
    cases hmerge

/-- Rounds that are made until nothing moves end where nothing can move. -/
theorem exists_run_rounds (hfree : c.Free) (hp : p.Wired s) {fuel : Nat}
    (hfuel : p.remaining ≤ fuel) :
    ∃ made : List Move, (∀ move ∈ made, move.isInternal = true) ∧
      p.run? m made = some (p.rounds m c fuel) ∧ ¬ (p.rounds m c fuel).CanMove m := by
  induction fuel generalizing p with
  | zero =>
    have hnone : ∀ move ∈ p.round c, p.move? m move = none := by
      intro move hmem
      by_contra hmove
      obtain ⟨q, hmove⟩ := Option.ne_none_iff_exists'.mp hmove
      have hinternal := isInternal_of_mem_round hmem
      have hlt := remaining_move_lt hp (Move.submits_of_isInternal hinternal) hmove
      rw [calls_of_isInternal hinternal hmove] at hlt
      omega
    exact ⟨[], by simp, rfl, not_canMove_of_round hnone⟩
  | succ fuel ih =>
    obtain ⟨made, hmade, hrun, hflag, hnone⟩ :=
      exists_run_turns m hfree (p.round c) p false
    have hinternal : ∀ move ∈ made, move.isInternal = true := fun move hmem =>
      isInternal_of_mem_round (hmade.subset hmem)
    rw [Bool.false_or] at hflag
    obtain ⟨⟨q, moved⟩, hround⟩ : ∃ done, (p.round c).foldl (turn m c) (p, false) = done :=
      ⟨_, rfl⟩
    rw [hround] at hrun hflag
    cases made with
    | nil =>
      obtain rfl : q = p := (Option.some.inj hrun).symm
      obtain rfl : moved = false := hflag
      have hrounds : q.rounds m c (fuel + 1) = q := by rw [rounds, hround]
      rw [hrounds]
      exact ⟨[], by simp, rfl, not_canMove_of_round (hnone rfl)⟩
    | cons move made =>
      obtain rfl : moved = true := hflag
      have hrounds : p.rounds m c (fuel + 1) = q.rounds m c fuel := by rw [rounds, hround]
      have hle := length_add_remaining_le_of_isInternal hp hinternal hrun
      rw [List.length_cons] at hle
      obtain ⟨rest, hrest, hlast, hstuck⟩ := ih (hp.run hrun) (by omega)
      rw [hrounds]
      refine ⟨move :: made ++ rest, fun other hmem => ?_, ?_, hstuck⟩
      · exact (List.mem_append.mp hmem).elim (hinternal other) (hrest other)
      · rw [run?_append, hrun]
        exact hlast

/-- A pipeline that is to come to rest does so, by moves of its parts. -/
theorem exists_run_settle (hfree : c.Free) (hp : p.Account s m h) :
    ∃ made : List Move, (∀ move ∈ made, move.isInternal = true) ∧
      p.run? m made = some (p.settle m c) ∧ ¬ (p.settle m c).CanMove m :=
  exists_run_rounds hfree hp.wired (remaining_le_effort hp.follows)

/-- When nothing is on its way and nobody has asked for a stop, there is room for the request. -/
theorem exists_shutdown (hp : p.Account s m h) (hunasked : p.Unasked h)
    (hcapacity : s.queueCapacity ≠ 0) (hrest : p.AtRest) : ∃ q, p.shutdown? = some q := by
  have hthere : p.dispatcher.stopped = false := by
    by_contra hstopped
    rw [Bool.not_eq_false] at hstopped
    have hclosing := (hp.follows.dispatcher.of_stopped hstopped).1
    rw [hunasked.closing] at hclosing
    cases hclosing
  have hreceiver : p.queue.receiverOpen = true := by
    rw [hp.follows.dispatcher.receiver, hthere]
    rfl
  have hroom : p.queue.isFull = false := by
    by_contra hfull
    rw [Bool.not_eq_false] at hfull
    have hlength := Fifo.length_pos_of_isFull hcapacity hp.wired.capacity hfull
    rw [hrest.queue] at hlength
    cases hlength
  have hsend := Fifo.send_eq_done_iff (a := Task.shutdown).mpr ⟨hreceiver, hroom, rfl⟩
  exact ⟨_, by rw [shutdown?, hsend]⟩

end Pipeline

namespace Finder

variable {s : Settings} {f : Finder} {c : Schedule}

/-- A finder that is shut down while it is at work comes to its end, and hands out what the single
thread comes to. -/
theorem shutDown_eq (hstart : start s = .ok f) {moves : List Move} (hmoves : .shutdown ∉ moves)
    {p : Pipeline} (hrun : f.pipeline.run? f.method moves = some p) (hfree : c.Free) :
    let accepted := f.pipeline.accepted f.method moves
    let reference := s.referenceAfter accepted (accepted.length / s.superchunksPerWindow)
    let done := { f with pipeline := p }.shutDown c
    done.1 = .ok reference.states ∧ done.2.pipeline.HasExited ∧
      done.2.pipeline.store = reference.store := by
  obtain ⟨hs, -, hmethod, hpipeline, hopen⟩ := start_eq_ok hstart
  intro accepted reference done
  rw [hmethod, hpipeline] at hrun
  have haccepted : accepted = (Pipeline.start s).accepted (s.method s.kernel.kernel) moves := by
    rw [← hmethod, ← hpipeline]
  -- what is queued is worked off
  obtain ⟨h, hp, -⟩ := (Pipeline.account_start s _).run hrun
  obtain ⟨drain, hdrain, hdrained, hstuck⟩ := Pipeline.exists_run_settle hfree hp
  have hfirst : (Pipeline.start s).run? (s.method s.kernel.kernel) (moves ++ drain) =
      some (p.settle (s.method s.kernel.kernel) c) := by
    rw [Pipeline.run?_append, hrun]
    exact hdrained
  have hquiet : .shutdown ∉ moves ++ drain := fun hmem =>
    (List.mem_append.mp hmem).elim hmoves fun hmem => by cases hdrain _ hmem
  obtain ⟨h, hp, hunasked, -⟩ := Pipeline.exists_unasked hquiet hfirst
  -- then there is room for the request, and the parts leave
  obtain ⟨asked, hask⟩ := Pipeline.exists_shutdown hp hunasked hs.queueCapacity
    (hp.rest_of_stuck hs.workerQueueDepth hstuck).1
  have hmove : (p.settle (s.method s.kernel.kernel) c).move? (s.method s.kernel.kernel) .shutdown =
      some asked := hask
  obtain ⟨last, -, hlast, hstuck⟩ := Pipeline.exists_run_settle hfree (hp.move hmove)
  have hwhole : (Pipeline.start s).run? (s.method s.kernel.kernel)
      ((moves ++ drain) ++ .shutdown :: last) =
        some (asked.settle (s.method s.kernel.kernel) c) := by
    rw [Pipeline.run?_append, hfirst, Option.bind_some, Pipeline.run?, Pipeline.move?, hask]
    exact hlast
  obtain ⟨h, hq, hasked⟩ := Pipeline.exists_asked hquiet hwhole
  have hexit := hq.exited_of_asked hasked hs.workerQueueDepth hstuck
  obtain ⟨-, -, hstore, hstates⟩ := hq.reference_of_hasExited hs hasked hexit
  have hnone := Pipeline.accepted_eq_nil (m := s.method s.kernel.kernel)
    (fun move hmem => Move.isOffer_of_isInternal (hdrain move hmem)) p
  rw [Pipeline.accepted_append hrun, hnone, List.append_nil, ← haccepted] at hstore hstates
  have hdone : done = (.ok (asked.settle (s.method s.kernel.kernel) c).states,
      { f with pipeline := asked.settle (s.method s.kernel.kernel) c, isShutDown := true }) := by
    simp only [done, shutDown, ensureOpen, hopen, settle, hmethod, hask]
    rfl
  rw [hdone]
  exact ⟨congrArg Except.ok hstates, hexit, hstore⟩

end Finder

end TpcTrigger
