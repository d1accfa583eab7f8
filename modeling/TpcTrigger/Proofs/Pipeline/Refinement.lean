import TpcTrigger.Finder
import TpcTrigger.Proofs.Pipeline.PipelineCourse
import TpcTrigger.Proofs.Pipeline.StoredRuns

/-! # The pipeline refines a single thread

At every moment of every run the store of a pipeline is that of a single thread that worked
off the first of the accepted superchunks, up to the end of some window.  The number of these
windows never falls, and so every query is answered as after a whole number of windows.
-/

namespace TpcTrigger

theorem Pipeline.Follows.store_eq {s : Settings} (hs : s.Checked) (kind : KernelKind)
    {h : Intake} {p : Pipeline} (hp : p.Follows s (s.method kind.kernel) h) :
    p.windowsStored ≤ h.accepted.length / s.superchunksPerWindow ∧
      (s.referenceAfter h.accepted p.windowsStored).windows = p.windowsStored ∧
      p.store = (s.referenceAfter h.accepted p.windowsStored).store := by
  have hpos := Settings.superchunksPerWindow_pos hs
  have hstored := hp.merger.stored_le
  -- later superchunks complete further windows only
  obtain ⟨more, hmore⟩ := hp.dispatcher.windows_prefix
  have hle : p.windowsStored ≤ h.accepted.length / s.superchunksPerWindow := by
    have hlength := congrArg List.length hmore
    rw [Assembly.length_completed hpos, List.length_map, List.length_append] at hlength
    omega
  obtain ⟨hwindows, hstore, -⟩ := Settings.referenceAfter_eq hs hp.dispatcher.checked hle
  rw [← hmore, List.take_append_of_le_length hstored] at hwindows hstore
  have hafter : (Reference.afterWindows s ((h.windows s).take p.windowsStored)).windows =
      p.windowsStored ∧
        (Reference.afterWindows s ((h.windows s).take p.windowsStored)).store =
          s.storeAfter (s.method kind.kernel) (h.windows s) p.windowsStored := by
    cases hwin : h.windows s with
    | nil =>
      rw [hwin, List.length_nil, Nat.le_zero] at hstored
      rw [hstored]
      exact ⟨rfl, rfl⟩
    | cons first rest =>
      have hmem : first ∈ (Assembly.start s.superchunksPerWindow).completed
          (h.taken.map .ofBytes) := by
        have hfirst : first ∈ h.windows s := by rw [hwin]; exact List.mem_cons_self ..
        exact hfirst
      have hticks := Assembly.ticks_pos_of_mem_completed hpos hmem
      rw [hwin] at hstored
      have htake := Reference.afterWindows_take hs kind hticks rest hstored
      exact ⟨htake.1, htake.2.1⟩
  refine ⟨hle, hwindows.trans hafter.1, ?_⟩
  rw [hstore, hafter.2]
  exact hp.merger.store

namespace Finder

variable {s : Settings} {f : Finder}

theorem startWith_eq_ok {kernel : Kernel} (hstart : startWith s kernel = .ok f) :
    s.Checked ∧ f.settings = s ∧ f.method = s.method kernel ∧ f.pipeline = .start s ∧
      f.isShutDown = false := by
  rw [startWith] at hstart
  cases hcheck : s.check with
  | error cause => simp [hcheck] at hstart
  | ok u =>
    simp only [hcheck, Except.ok.injEq] at hstart
    rw [← hstart]
    exact ⟨Settings.check_eq_ok_iff.mp hcheck, rfl, rfl, rfl, rfl⟩

theorem start_eq_ok (hstart : start s = .ok f) :
    s.Checked ∧ f.settings = s ∧ f.method = s.method s.kernel.kernel ∧ f.pipeline = .start s ∧
      f.isShutDown = false :=
  startWith_eq_ok hstart

theorem startWith_of_checked (hs : s.Checked) (kernel : Kernel) :
    startWith s kernel = .ok ⟨s, s.method kernel, .start s, false⟩ := by
  rw [startWith, Settings.check_eq_ok_iff.mpr hs]

theorem start_of_checked (hs : s.Checked) :
    start s = .ok ⟨s, s.method s.kernel.kernel, .start s, false⟩ :=
  startWith_of_checked hs _

/-- The pipeline of a finder refines the single thread. -/
theorem store_eq_reference (hstart : start s = .ok f) {moves more : List Move} {p q : Pipeline}
    (hrun : f.pipeline.run? f.method moves = some p) (hmore : p.run? f.method more = some q) :
    let accepted := f.pipeline.accepted f.method moves
    let reference := s.referenceAfter accepted p.windowsStored
    p.windowsStored ≤ accepted.length / s.superchunksPerWindow ∧
      reference.windows = p.windowsStored ∧
      p.store = reference.store ∧
      (∀ first last, { f with pipeline := p }.hitsInRange first last =
        .ok (reference.store.inRange first last)) ∧
      p.windowsStored ≤ q.windowsStored := by
  obtain ⟨hs, -, hmethod, hpipeline, hopen⟩ := start_eq_ok hstart
  rw [hmethod, hpipeline] at hrun
  obtain ⟨after, hafter, hp⟩ := (Pipeline.follows_start s _).run hrun
  rw [List.nil_append] at hafter
  obtain ⟨hle, hwindows, hstore⟩ := hp.store_eq hs s.kernel
  rw [hafter] at hle hwindows hstore
  rw [hmethod, hpipeline]
  refine ⟨hle, hwindows, hstore, fun first last => ?_, Pipeline.windowsStored_le_of_run hmore⟩
  rw [hitsInRange, ensureOpen]
  simp only [hopen, Bool.false_eq_true, if_false, ← hstore]
  rfl

/-- Two windows' worth of superchunks less one, with a hit in the first window, and a second worker that
is done first. -/
theorem store_eq_reference_ahead :
    let s : Settings := {
      windowTicks := 2 * superchunkTicks
      tapCount := 2
      taps := some #[64, -3]
      cutoff := Float.ofBits 0x3FB999999999999A }
    let superchunks : List ByteArray := [⟨.replicate superchunkBytes 255⟩,
      ⟨.replicate superchunkBytes 0⟩, ⟨.replicate superchunkBytes 0⟩]
    let moves : List Move := superchunks.map .offer ++ List.replicate 12 (.dispatch 0) ++
      List.replicate 4 (.work 1) ++ List.replicate 4 (.work 0) ++ List.replicate 3 .merge
    ∃ f p q, start s = .ok f ∧ f.pipeline.run? f.method moves = some p ∧
      p.run? f.method [.merge, .dispatch 0] = some q ∧ p.windowsStored = 1 ∧
        (∃ time charge, ⟨time, ⟨0, 14, charge, 1⟩⟩ ∈ p.store.primitives) ∧
        let accepted := f.pipeline.accepted f.method moves
        let reference := s.referenceAfter accepted p.windowsStored
        p.windowsStored ≤ accepted.length / s.superchunksPerWindow ∧
          reference.windows = p.windowsStored ∧
          p.store = reference.store ∧
          (∀ first last, { f with pipeline := p }.hitsInRange first last =
            .ok (reference.store.inRange first last)) ∧
          p.windowsStored ≤ q.windowsStored := by
  intro s superchunks moves
  have hs : s.Checked := by decide +kernel
  have hstart := start_of_checked hs
  have hmoves : (((Pipeline.start s).run? (s.method s.kernel.kernel) moves).bind fun p =>
      (p.run? (s.method s.kernel.kernel) [.merge, .dispatch 0]).map fun _ => p.windowsStored) =
        some 1 := by decide +kernel
  obtain ⟨p, hrun, hrest⟩ := Option.bind_eq_some_iff.mp hmoves
  obtain ⟨q, hmore, hone⟩ := Option.map_eq_some_iff.mp hrest
  have hthree : ((Pipeline.start s).accepted (s.method s.kernel.kernel) moves).length = 3 := by
    decide +kernel
  have haccepted : (Pipeline.start s).accepted (s.method s.kernel.kernel) moves = superchunks :=
    (Pipeline.accepted_sublist _ _ moves).eq_of_length hthree
  have hresult := store_eq_reference hstart hrun hmore
  have hhit : ∃ time charge, ⟨time, ⟨0, 14, charge, 1⟩⟩ ∈ p.store.primitives := by
    obtain ⟨-, -, hstore, -⟩ := hresult
    rw [hstore, haccepted, hone]
    refine Settings.fall_stored hs rfl (by decide) ?_ (by decide) (by decide) (by decide)
    intro bytes hbytes
    rw [List.mem_singleton.mp hbytes]
    exact Superchunk.checkSize_replicate 0
  exact ⟨_, p, q, hstart, hrun, hmore, hone, hhit, hresult⟩

end Finder

end TpcTrigger
