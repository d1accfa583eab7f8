import TpcTrigger.Pipeline.Feed
import TpcTrigger.Proofs.Pipeline.Effort
import TpcTrigger.Proofs.Pipeline.IdleReadings
import TpcTrigger.Proofs.Pipeline.Refinement

/-! # A client that brings in a source

A single client has at most one call under way, and offers what was refused again before anything
else.  So what was queued, what is on its way back and what is still pending are the source, in
this order, whatever the pipeline does in between.  A refusal is counted and leaves no other trace.
Once everything is queued, a client that waits until the pipeline reads as idle finds the store
of a single thread that has worked off the whole source.
-/

namespace TpcTrigger

def ClientCall.refused? : ClientCall → Option ByteArray
  | .queued => none
  | .refused bytes => some bytes

namespace Feed

def returning (f : Feed) : List ByteArray := f.pipeline.calls.filterMap ClientCall.refused?

inductive Step (m : Method) (f : Feed) : FeedMove → Feed → Prop
  | offer {bytes : ByteArray} {pending : List ByteArray} (hcalls : f.pipeline.calls = [])
      (hpending : f.pending = bytes :: pending) :
      Step m f .offer ⟨f.pipeline.offer bytes, pending⟩
  | settle {call : ClientCall} {calls : List ClientCall}
      (hcalls : f.pipeline.calls = call :: calls) :
      Step m f .settle
        ⟨{ f.pipeline with calls, metrics := call.count f.pipeline.metrics },
          call.refused?.toList ++ f.pending⟩
  | other {move : Move} {p : Pipeline} (hinternal : move.isInternal = true)
      (hpart : f.pipeline.move? m move = some p) : Step m f (.other move) ⟨p, f.pending⟩

def moveOf (f : Feed) : FeedMove → Option Move
  | .offer => f.pending.head?.map .offer
  | .settle => some (.count 0)
  | .other move => some move

/-- The superchunks that a run brings into the queue, in order. -/
def queued (m : Method) (f : Feed) : List FeedMove → List ByteArray
  | [] => []
  | move :: moves =>
    ((f.moveOf move).bind f.pipeline.admits).toList ++
      (f.move? m move).elim [] fun g => g.queued m moves

/-- How often a superchunk is refused in a run. -/
def refusals (m : Method) (f : Feed) : List FeedMove → Nat
  | [] => 0
  | move :: moves => (f.move? m move).elim 0 fun g =>
    (match move with
      | .offer => g.returning.length
      | _ => 0) + g.refusals m moves

def Reaches (m : Method) (f g : Feed) : Prop := ∃ moves, f.run? m moves = some g

/-- Whether the client gets from one state to the other by waiting until the pipeline reads as
idle: four readings are made one after the other while the parts go on moving. -/
def WaitsUntilIdle (m : Method) (f g : Feed) : Prop :=
  ∃ atConsumed atDispatched atMerged atReceived,
    f.Reaches m atConsumed ∧ atConsumed.Reaches m atDispatched ∧
    atDispatched.Reaches m atMerged ∧ atMerged.Reaches m atReceived ∧ atReceived.Reaches m g ∧
    Metrics.idleAcross atConsumed.pipeline.metrics atDispatched.pipeline.metrics
      atMerged.pipeline.metrics atReceived.pipeline.metrics = true

variable {s : Settings} {m : Method} {source : List ByteArray} {h : Intake} {f g : Feed}
  {moves : List FeedMove}

theorem step_of_move? {move : FeedMove} (hmove : f.move? m move = some g) : f.Step m move g := by
  cases move with
  | offer =>
    rw [move?, offer?] at hmove
    cases hcalls : f.pipeline.calls with
    | cons call calls => simp [hcalls] at hmove
    | nil =>
      cases hpending : f.pending with
      | nil => simp [hcalls, hpending] at hmove
      | cons bytes pending =>
        simp only [hcalls, hpending, Option.some.injEq] at hmove
        exact hmove ▸ .offer hcalls hpending
  | settle =>
    rw [move?, settle?] at hmove
    cases hcalls : f.pipeline.calls with
    | nil => simp [hcalls] at hmove
    | cons call calls =>
      have hstep := Step.settle (m := m) hcalls
      cases call <;>
        simp only [hcalls, List.head?_cons, Pipeline.count?, List.getElem?_cons_zero,
          Option.map_some, List.eraseIdx_cons_zero, Option.bind_eq_bind, Option.bind_some,
          Option.pure_def, Option.some.injEq] at hmove <;>
        exact hmove ▸ hstep
  | other move =>
    cases move with
    | offer bytes | count call | shutdown => simp [move?] at hmove
    | dispatch latency | work worker | merge =>
      simp only [move?, Option.map_eq_some_iff] at hmove
      obtain ⟨p, hp, rfl⟩ := hmove
      exact .other rfl hp

theorem pipeline_of_step {move : FeedMove} (hstep : f.Step m move g) :
    ∃ made, f.moveOf move = some made ∧ f.pipeline.move? m made = some g.pipeline := by
  cases hstep with
  | offer hcalls hpending => exact ⟨_, by rw [moveOf, hpending]; rfl, rfl⟩
  | @settle call _ hcalls =>
    refine ⟨_, rfl, ?_⟩
    rw [Pipeline.move?, Pipeline.count?, hcalls]
    cases call <;> rfl
  | other hinternal hpart => exact ⟨_, rfl, hpart⟩

theorem pipeline_of_run (hrun : f.run? m moves = some g) :
    ∃ made, f.pipeline.run? m made = some g.pipeline := by
  induction moves generalizing f with
  | nil => exact ⟨[], by rw [Option.some.inj hrun]; rfl⟩
  | cons move moves ih =>
    obtain ⟨next, hmove, hrest⟩ := Option.bind_eq_some_iff.mp hrun
    obtain ⟨made, -, hmade⟩ := pipeline_of_step (step_of_move? hmove)
    obtain ⟨more, hmore⟩ := ih hrest
    refine ⟨made :: more, ?_⟩
    rw [Pipeline.run?, hmade]
    exact hmore

/-- An offer either brings its superchunk into the queue or sends it back. -/
theorem offer_cases (p : Pipeline) {bytes : ByteArray}
    (hsize : Superchunk.checkSize bytes = .ok ()) (hcalls : p.calls = []) :
    (p.admits (.offer bytes) = some bytes ∧ (p.offer bytes).calls = [.queued]) ∨
      (p.admits (.offer bytes) = none ∧ p.offer bytes = { p with calls := [.refused bytes] }) := by
  cases hsend : p.queue.send (.superchunk (Header.ofBytes bytes).timestamp bytes) with
  | done queue =>
    refine .inl ⟨Pipeline.admits_of_done hsize hsend, ?_⟩
    simp [Pipeline.offer, hsize, IngestQueue.submit?, hsend, hcalls]
  | full | closed =>
    have hsubmit : p.queue.submit? (Header.ofBytes bytes).timestamp bytes = none := by
      rw [IngestQueue.submit?, hsend]
    refine .inr ⟨Pipeline.admits_of_none hsubmit, ?_⟩
    simp [Pipeline.offer, hsize, hsubmit, hcalls]

structure Follows (s : Settings) (m : Method) (source : List ByteArray) (h : Intake) (f : Feed) :
    Prop where
  account : f.pipeline.Account s m h
  single : f.pipeline.calls.length ≤ 1
  source : h.accepted ++ f.returning ++ f.pending = source

namespace Follows

theorem move (hf : f.Follows s m source h)
    (hsize : ∀ bytes ∈ source, Superchunk.checkSize bytes = .ok ()) {move : FeedMove}
    (hmove : f.move? m move = some g) :
    ∃ after : Intake, g.Follows s m source after ∧
      after.accepted = h.accepted ++ ((f.moveOf move).bind f.pipeline.admits).toList := by
  have hstep := step_of_move? hmove
  obtain ⟨made, hmade, hpipeline⟩ := pipeline_of_step hstep
  have haccepted := f.pipeline.accepted_intakeAfter h made
  refine ⟨f.pipeline.intakeAfter h made, ⟨hf.account.move hpipeline, ?_, ?_⟩, ?_⟩
  · cases hstep with
    | @offer bytes pending hcalls hpending =>
      have hmem : bytes ∈ source := by
        rw [← hf.source, hpending]
        simp
      rcases offer_cases f.pipeline (hsize bytes hmem) hcalls with ⟨-, hqueued⟩ | ⟨-, hrefused⟩
      · rw [hqueued]
        exact le_rfl
      · rw [hrefused]
        exact le_rfl
    | settle hcalls =>
      have hsingle := hf.single
      rw [hcalls, List.length_cons] at hsingle
      exact Nat.le_of_succ_le hsingle
    | other hinternal hpart =>
      rw [Pipeline.calls_of_isInternal hinternal hpart]
      exact hf.single
  · have hsource := hf.source
    rw [haccepted]
    cases hstep with
    | @offer bytes pending hcalls hpending =>
      have hmem : bytes ∈ source := by
        rw [← hsource, hpending]
        simp
      obtain rfl : Move.offer bytes = made := by simpa [moveOf, hpending] using hmade
      rw [returning, hcalls, List.filterMap_nil, List.append_nil, hpending] at hsource
      rcases offer_cases f.pipeline (hsize bytes hmem) hcalls with
        ⟨hadmits, hqueued⟩ | ⟨hadmits, hrefused⟩
      · rw [hadmits, returning, hqueued, ← hsource]
        simp [ClientCall.refused?]
      · rw [hadmits, returning, hrefused, ← hsource]
        simp [ClientCall.refused?]
    | @settle call calls hcalls =>
      obtain rfl : Move.count 0 = made := by simpa [moveOf] using hmade
      have hnil : calls = [] := by
        have hsingle := hf.single
        rw [hcalls, List.length_cons] at hsingle
        exact List.eq_nil_of_length_eq_zero (by omega)
      rw [returning, hcalls, hnil] at hsource
      rw [← hsource]
      cases call <;> simp [returning, hnil, ClientCall.refused?, Pipeline.admits]
    | @other move p hinternal hpart =>
      obtain rfl : move = made := by simpa [moveOf] using hmade
      have hnone : f.pipeline.admits move = none := by
        cases move with
        | offer bytes => cases hinternal
        | _ => rfl
      rw [hnone, Option.toList_none, List.append_nil, returning,
        Pipeline.calls_of_isInternal hinternal hpart]
      exact hsource
  · rw [haccepted, hmade, Option.bind_some]

theorem run (hf : f.Follows s m source h)
    (hsize : ∀ bytes ∈ source, Superchunk.checkSize bytes = .ok ())
    (hrun : f.run? m moves = some g) :
    ∃ after : Intake, g.Follows s m source after ∧
      after.accepted = h.accepted ++ f.queued m moves := by
  induction moves generalizing f h with
  | nil => exact ⟨h, Option.some.inj hrun ▸ hf, (List.append_nil _).symm⟩
  | cons move moves ih =>
    obtain ⟨next, hmove, hrest⟩ := Option.bind_eq_some_iff.mp hrun
    obtain ⟨after, hnext, haccepted⟩ := hf.move hsize hmove
    obtain ⟨last, hlast, hmore⟩ := ih hnext hrest
    refine ⟨last, hlast, ?_⟩
    rw [hmore, haccepted, List.append_assoc, queued, hmove, Option.elim_some]

theorem accepted_eq (hf : f.Follows s m source h) (hpending : f.pending = [])
    (hcalls : f.pipeline.calls = []) : h.accepted = source := by
  have hsource := hf.source
  rwa [returning, hcalls, hpending, List.filterMap_nil, List.append_nil, List.append_nil] at hsource

end Follows

end Feed

end TpcTrigger
