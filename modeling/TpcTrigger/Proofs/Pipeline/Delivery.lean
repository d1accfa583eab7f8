import TpcTrigger.Finder
import TpcTrigger.Proofs.Pipeline.FeedCourse

/-! # Delivery by a single client

What a client queues is a front of its source at all times, and a refusal does nothing but hand
the superchunk back and count.  Nobody else queues anything, so after the last call the received
superchunks are the source, and readings that say idle cover all of it.
-/

namespace TpcTrigger

/-- A query over all times finds everything. -/
theorem PrimitiveStore.inRange_all (s : PrimitiveStore) :
    s.inRange 0 (UInt64.ofNat (UInt64.size - 1)) = s.primitives := by
  apply Array.filter_eq_self.mpr
  intro t _
  have hlt := t.windowTime.toNat_lt
  have hlast : (UInt64.ofNat (UInt64.size - 1)).toNat = 2 ^ 64 - 1 := by decide
  simp only [decide_eq_true_eq, UInt64.le_iff_toNat_le, hlast]
  exact ⟨Nat.zero_le _, by omega⟩

theorem Pipeline.rejected_of_isInternal {m : Method} {p q : Pipeline} {move : Move}
    (hinternal : move.isInternal = true) (hmove : p.move? m move = some q) :
    q.metrics.rejected = p.metrics.rejected := by
  cases step_of_move? hmove with
  | malformed hcheck | enqueue hcheck hsend | refuse hcheck hsend | count hcall
  | shutdown hsend => cases hinternal
  | @note _ act _ hthere hacts hnote => cases act <;> rfl
  | storeBatch hphase hfull =>
    rw [storeBatch]
    split <;> rfl
  | _ => rfl

namespace Feed

variable {s : Settings} {m : Method} {source : List ByteArray} {h : Intake} {f g : Feed}
  {moves : List FeedMove}

theorem eq_of_refused (hmove : f.move? m .offer = some g) {bytes : ByteArray}
    (hrefused : bytes ∈ g.returning) :
    f.pending = bytes :: g.pending ∧
      g.pipeline = { f.pipeline with calls := [.refused bytes] } := by
  cases step_of_move? hmove with
  | @offer offered pending hcalls hpending =>
    have hstep := f.pipeline.step_offer (m := m) offered
    rw [returning] at hrefused
    generalize hnext : f.pipeline.offer offered = next at hstep hrefused
    cases hstep with
    | malformed hcheck =>
      rw [hcalls] at hrefused
      cases hrefused
    | enqueue hcheck hsend =>
      rw [hcalls] at hrefused
      simp [ClientCall.refused?] at hrefused
    | refuse hcheck hsend =>
      rw [hcalls] at hrefused
      obtain rfl : bytes = offered := by simpa [ClientCall.refused?] using hrefused
      exact ⟨hpending, by simp only [hcalls, List.nil_append]⟩

/-- The refusal is counted when the superchunk comes back. -/
theorem eq_of_returned (hsingle : f.pipeline.calls.length ≤ 1)
    (hmove : f.move? m .settle = some g) {bytes : ByteArray} (hrefused : bytes ∈ f.returning) :
    g.pending = bytes :: f.pending ∧
      g.pipeline =
        { f.pipeline with calls := [], metrics := f.pipeline.metrics.countRejected } := by
  cases step_of_move? hmove with
  | @settle call calls hcalls =>
    rw [hcalls, List.length_cons] at hsingle
    obtain rfl : calls = [] := List.eq_nil_of_length_eq_zero (by omega)
    rw [returning, hcalls] at hrefused
    cases call with
    | queued => simp [ClientCall.refused?] at hrefused
    | refused offered =>
      obtain rfl : bytes = offered := by simpa [ClientCall.refused?] using hrefused
      exact ⟨rfl, rfl⟩

theorem rejected_of_run (hrun : f.run? m moves = some g) :
    g.pipeline.metrics.rejected + g.returning.length =
      f.pipeline.metrics.rejected + f.returning.length + f.refusals m moves := by
  induction moves generalizing f with
  | nil =>
    rw [Option.some.inj hrun]
    rfl
  | cons move moves ih =>
    obtain ⟨next, hmove, hrest⟩ := Option.bind_eq_some_iff.mp hrun
    rw [ih hrest, refusals, hmove, Option.elim_some, ← Nat.add_assoc]
    congr 1
    cases step_of_move? hmove with
    | @offer bytes _ hcalls hpending =>
      have hstep := f.pipeline.step_offer (m := m) bytes
      have hnone : f.returning = [] := by rw [returning, hcalls, List.filterMap_nil]
      rw [hnone, List.length_nil, Nat.add_zero]
      generalize f.pipeline.offer bytes = p at hstep
      cases hstep <;> rfl
    | @settle call calls hcalls =>
      simp only [returning, hcalls]
      cases call with
      | queued => rfl
      | refused bytes =>
        simp [ClientCall.count, Metrics.countRejected, ClientCall.refused?]
        omega
    | other hinternal hpart =>
      simp only [returning, Pipeline.calls_of_isInternal hinternal hpart,
        Pipeline.rejected_of_isInternal hinternal hpart, Nat.add_zero]

/-- A client that has queued everything does nothing more. -/
theorem done_of_run (hpending : f.pending = []) (hcalls : f.pipeline.calls = [])
    (hrun : f.run? m moves = some g) : g.pending = [] ∧ g.pipeline.calls = [] := by
  induction moves generalizing f with
  | nil => exact Option.some.inj hrun ▸ ⟨hpending, hcalls⟩
  | cons move moves ih =>
    obtain ⟨next, hmove, hrest⟩ := Option.bind_eq_some_iff.mp hrun
    have hnext : next.pending = [] ∧ next.pipeline.calls = [] := by
      cases step_of_move? hmove with
      | offer _ hmore =>
        rw [hpending] at hmore
        cases hmore
      | settle hcall =>
        rw [hcalls] at hcall
        cases hcall
      | other hinternal hpart =>
        exact ⟨hpending, (Pipeline.calls_of_isInternal hinternal hpart).trans hcalls⟩
    exact ih hnext.1 hnext.2 hrest

/-- A client that is done with its source, which the pipeline has received as a whole. -/
structure Done (s : Settings) (m : Method) (source : List ByteArray) (f : Feed) : Prop where
  pending : f.pending = []
  calls : f.pipeline.calls = []
  account : ∃ h, f.pipeline.Account s m h ∧ h.accepted = source

namespace Done

theorem received (hf : f.Done s m source) : f.pipeline.metrics.received = source.length := by
  obtain ⟨h, haccount, haccepted⟩ := hf.account
  have hreceived := haccount.tally.received
  rwa [hf.calls, haccepted] at hreceived

theorem reaches (hf : f.Done s m source)
    (hsize : ∀ bytes ∈ source, Superchunk.checkSize bytes = .ok ()) (hreach : f.Reaches m g) :
    g.Done s m source := by
  obtain ⟨moves, hrun⟩ := hreach
  obtain ⟨hpending, hcalls⟩ := done_of_run hf.pending hf.calls hrun
  obtain ⟨h, haccount, haccepted⟩ := hf.account
  have hfollows : f.Follows s m source h := by
    refine ⟨haccount, by rw [hf.calls]; exact Nat.zero_le 1, ?_⟩
    rw [returning, hf.calls, hf.pending, haccepted]
    simp
  obtain ⟨after, hafter, -⟩ := hfollows.run hsize hrun
  exact ⟨hpending, hcalls, after, hafter.account, hafter.accepted_eq hpending hcalls⟩

theorem windowsStored_of_idle (hs : s.Checked) {kind : KernelKind}
    (hf : f.Done s (s.method kind.kernel) source)
    (hsize : ∀ bytes ∈ source, Superchunk.checkSize bytes = .ok ())
    (hidle : f.WaitsUntilIdle (s.method kind.kernel) g) :
    g.pipeline.windowsStored = source.length / s.superchunksPerWindow := by
  obtain ⟨atConsumed, atDispatched, atMerged, atReceived, hconsumed, hdispatched, hmerged,
    hreceived, hlast, hidle⟩ := hidle
  simp only [Metrics.idleAcross, Bool.and_eq_true, beq_iff_eq] at hidle
  obtain ⟨hall, hwindows⟩ := hidle
  have hfirst := hf.reaches hsize hconsumed
  have hthird := (hfirst.reaches hsize hdispatched).reaches hsize hmerged
  have hfourth := hthird.reaches hsize hreceived
  have hdone := hfourth.reaches hsize hlast
  apply Nat.le_antisymm
  · obtain ⟨h, haccount, haccepted⟩ := hdone.account
    have hle := (haccount.follows.store_eq hs kind).1
    rwa [haccepted] at hle
  · obtain ⟨h, haccount, -⟩ := hfirst.account
    obtain ⟨_, hdispatched⟩ := hdispatched
    obtain ⟨_, hreceived⟩ := hreceived
    obtain ⟨_, hlast⟩ := hlast
    obtain ⟨_, hdispatched⟩ := pipeline_of_run hdispatched
    obtain ⟨_, hreceived⟩ := pipeline_of_run hreceived
    obtain ⟨_, hlast⟩ := pipeline_of_run hlast
    calc source.length / s.superchunksPerWindow
        = atConsumed.pipeline.metrics.consumed / s.superchunksPerWindow := by
          rw [hall, hfourth.received]
      _ ≤ atConsumed.pipeline.metrics.dispatched := haccount.tally.handed_out
      _ ≤ atDispatched.pipeline.metrics.dispatched := (Pipeline.counters_le_of_run hdispatched).2
      _ = atMerged.pipeline.metrics.merged := hwindows.symm
      _ ≤ atMerged.pipeline.windowsStored := Nat.le_add_right _ _
      _ ≤ atReceived.pipeline.windowsStored := Pipeline.windowsStored_le_of_run hreceived
      _ ≤ g.pipeline.windowsStored := Pipeline.windowsStored_le_of_run hlast

end Done

end Feed

namespace Finder

variable {s : Settings} {f : Finder}

/-- A single client delivers its source in order and without loss, and finds the hits of all
complete windows of it once it has waited until the pipeline is idle. -/
theorem feed_delivers (hstart : start s = .ok f) {source : List ByteArray}
    (hsize : ∀ bytes ∈ source, Superchunk.checkSize bytes = .ok ()) {moves : List FeedMove}
    {g : Feed} (hrun : Feed.run? f.method ⟨f.pipeline, source⟩ moves = some g) :
    let feed : Feed := ⟨f.pipeline, source⟩
    let queued := feed.queued f.method moves
    queued <+: source ∧ queued ++ g.returning ++ g.pending = source ∧
      g.pipeline.metrics.rejected + g.returning.length = feed.refusals f.method moves ∧
      (∀ next bytes, g.move? f.method .offer = some next → bytes ∈ next.returning →
        g.pending = bytes :: next.pending ∧
          next.pipeline = { g.pipeline with calls := [.refused bytes] }) ∧
      (∀ next bytes, g.move? f.method .settle = some next → bytes ∈ g.returning →
        next.pending = bytes :: g.pending ∧
          next.pipeline =
            { g.pipeline with calls := [], metrics := g.pipeline.metrics.countRejected }) ∧
      (g.pending = [] → g.pipeline.calls = [] → ∀ last, g.WaitsUntilIdle f.method last →
        { f with pipeline := last.pipeline }.hitsInRange 0 (UInt64.ofNat (UInt64.size - 1)) =
          .ok (s.referenceAfter source
            (source.length / s.superchunksPerWindow)).store.primitives) := by
  obtain ⟨hs, -, hmethod, hpipeline, hopen⟩ := start_eq_ok hstart
  rw [hmethod, hpipeline] at hrun ⊢
  intro feed queued
  have hbegin : feed.Follows s (s.method s.kernel.kernel) source ⟨[], [], false⟩ :=
    ⟨Pipeline.account_start s _, Nat.zero_le 1, rfl⟩
  obtain ⟨h, hg, haccepted⟩ := hbegin.run hsize hrun
  rw [List.nil_append] at haccepted
  have hsource := hg.source
  rw [haccepted] at hsource
  have hrejected := Feed.rejected_of_run hrun
  refine ⟨⟨g.returning ++ g.pending, by rw [← List.append_assoc, hsource]⟩, hsource, ?_,
    fun next bytes hmove hrefused => Feed.eq_of_refused hmove hrefused,
    fun next bytes hmove hrefused => Feed.eq_of_returned hg.single hmove hrefused, ?_⟩
  · rw [hrejected]
    exact Nat.zero_add _
  · intro hpending hcalls last hidle
    have hdone : g.Done s (s.method s.kernel.kernel) source :=
      ⟨hpending, hcalls, h, hg.account, hg.accepted_eq hpending hcalls⟩
    have hstored := hdone.windowsStored_of_idle hs hsize hidle
    obtain ⟨_, _, _, _, h₁, h₂, h₃, h₄, h₅, -⟩ := hidle
    have hlast := ((((hdone.reaches hsize h₁).reaches hsize h₂).reaches hsize h₃).reaches hsize
      h₄).reaches hsize h₅
    obtain ⟨after, haccount, hall⟩ := hlast.account
    have hstore := (haccount.follows.store_eq hs s.kernel).2.2
    rw [hstored, hall] at hstore
    rw [hitsInRange, ensureOpen]
    simp only [hopen, Bool.false_eq_true, if_false, hstore]
    exact congrArg Except.ok (PrimitiveStore.inRange_all _)

/-- A queue with room for one superchunk, so the second one is refused and offered again, and a
pipeline that reads as idle when both their windows are stored, the second with a hit. -/
theorem feed_delivers_refused :
    let s : Settings := {
      windowTicks := superchunkTicks
      workers := 1
      queueCapacity := 1
      tapCount := 2
      taps := some #[64, -3]
      cutoff := Float.ofBits 0x3FB999999999999A }
    let source : List ByteArray :=
      [⟨.replicate superchunkBytes 255⟩, ⟨.replicate superchunkBytes 0⟩]
    let moves : List FeedMove := [.offer, .settle, .offer, .settle] ++
      List.replicate 6 (.other (.dispatch 0)) ++ [.offer, .settle]
    ∃ f g last, start s = .ok f ∧ (∀ bytes ∈ source, Superchunk.checkSize bytes = .ok ()) ∧
      Feed.run? f.method ⟨f.pipeline, source⟩ moves = some g ∧ g.WaitsUntilIdle f.method last ∧
      g.pipeline.metrics.rejected = 1 ∧
      Feed.queued f.method ⟨f.pipeline, source⟩ moves ++ g.returning ++ g.pending = source ∧
      { f with pipeline := last.pipeline }.hitsInRange 0 (UInt64.ofNat (UInt64.size - 1)) =
        .ok (s.referenceAfter source 2).store.primitives ∧
      ∃ time charge, ⟨time, ⟨0, 2, charge, 1⟩⟩ ∈ (s.referenceAfter source 2).store.primitives := by
  intro s source moves
  have hs : s.Checked := by decide +kernel
  have hstart := start_of_checked hs
  have hsize : ∀ bytes ∈ source, Superchunk.checkSize bytes = .ok () := by
    intro bytes hbytes
    simp only [source, List.mem_cons, List.not_mem_nil, or_false] at hbytes
    rcases hbytes with rfl | rfl <;> exact Superchunk.checkSize_replicate _
  have hmoves : ((Feed.run? (s.method s.kernel.kernel) ⟨.start s, source⟩ moves).bind fun g =>
      (g.run? (s.method s.kernel.kernel) (List.replicate 6 (.other (.dispatch 0)) ++
        List.replicate 7 (.other (.work 0)) ++ List.replicate 6 (.other .merge))).map fun last =>
          (g.pending.length, g.pipeline.calls.length, g.pipeline.metrics.rejected,
            last.pipeline.metrics.isIdle)) = some (0, 0, 1, true) := by decide +kernel
  obtain ⟨g, hrun, hmoves⟩ := Option.bind_eq_some_iff.mp hmoves
  obtain ⟨last, hrest, hread⟩ := Option.map_eq_some_iff.mp hmoves
  simp only [Prod.mk.injEq, List.length_eq_zero_iff] at hread
  obtain ⟨hpending, hcalls, hrejected, hidle⟩ := hread
  have hstill : last.Reaches (s.method s.kernel.kernel) last := ⟨[], rfl⟩
  have hwaits : g.WaitsUntilIdle (s.method s.kernel.kernel) last :=
    ⟨last, last, last, last, ⟨_, hrest⟩, hstill, hstill, hstill, hstill, hidle⟩
  have htwo : source.length / s.superchunksPerWindow = 2 := by decide
  obtain ⟨-, hsource, -, -, -, hfound⟩ := feed_delivers hstart hsize hrun
  rw [htwo] at hfound
  have hhit : ∃ time charge, ⟨time, ⟨0, 2, charge, 1⟩⟩ ∈
      (s.referenceAfter source 2).store.primitives :=
    Settings.fall_stored hs rfl (by decide) (fun _ hnone => absurd hnone List.not_mem_nil)
      (by decide) (by decide) (by decide)
  exact ⟨_, g, last, hstart, hsize, hrun, hwaits, hrejected, hsource,
    hfound hpending hcalls last hwaits, hhit⟩

end Finder

end TpcTrigger
