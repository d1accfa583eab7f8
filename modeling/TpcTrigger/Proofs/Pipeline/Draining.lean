import TpcTrigger.Proofs.Pipeline.Refinement
import TpcTrigger.Proofs.Pipeline.StopRequest

/-! # Draining at shutdown

The request to stop takes effect behind everything that was accepted before it.  When all parts
have left, every complete window of that is in the store and no result is on its way.  The
workers' channels, one worker after the other, are those of a single thread after the same
windows; superchunks that complete no window have left no trace.
-/

namespace TpcTrigger

namespace DetectorParams

variable (p : DetectorParams)

def stateAfter (windows : List Window) (channel : Nat) : ChannelState :=
  match windows with
  | [] => .fresh p.filter.length
  | first :: _ => p.stateOn first windows channel

def statesAfter (windows : List Window) (r : RegisterRange) : Array ChannelState :=
  (r.channelList.map (p.stateAfter windows)).toArray

theorem statesAfter_nil (r : RegisterRange) : p.statesAfter [] r = p.freshStates r.count := by
  apply Array.ext
  · simp [statesAfter, freshStates, RegisterRange.channelList, RegisterRange.channels]
  · intro i _ _
    simp [statesAfter, stateAfter, freshStates]

theorem size_statesAfter_all (windows : List Window) :
    (p.statesAfter windows .all).size = channelCount := by
  rw [statesAfter, RegisterRange.channelList_all]
  simp

end DetectorParams

namespace Worker

variable {p : DetectorParams} {w : Worker} {first : Window}

theorem after_windows (hlimit : 1 ≤ p.stepLimit) (htaps : 0 < p.filter.length) (kind : KernelKind)
    (hr : w.registers.first ≤ w.registers.last ∧ w.registers.last ≤ registerCount)
    {before : List Window} (hstates : w.states = p.statesOn first before w.registers)
    (windows : List Window) :
    (w.after ⟨kind.kernel, p⟩ (windows.map .window)).states =
        p.statesOn first (before ++ windows) w.registers ∧
      (w.after ⟨kind.kernel, p⟩ (windows.map .window)).windows = w.windows + windows.length := by
  induction windows generalizing w before with
  | nil => exact ⟨by rw [List.append_nil]; exact hstates, rfl⟩
  | cons window windows ih =>
    obtain ⟨next, hnext⟩ : ∃ next, next = (w.process ⟨kind.kernel, p⟩ window).1 := ⟨_, rfl⟩
    have hprocess := congrArg Prod.fst (process_eq hlimit htaps kind hr hstates window)
    rw [← hnext] at hprocess
    have hregisters : next.registers = w.registers := by rw [hprocess]
    have hwindows : next.windows = w.windows + 1 := by rw [hprocess]
    have hafter : next.states = p.statesOn first (before ++ [window]) next.registers := by
      rw [hregisters, hprocess]
    have hrest := ih (hregisters ▸ hr) hafter
    rw [hregisters, hwindows, List.append_assoc] at hrest
    have hstep : w.after ⟨kind.kernel, p⟩ ((window :: windows).map .window) =
        next.after ⟨kind.kernel, p⟩ (windows.map .window) := by
      rw [hnext]
      rfl
    rw [hstep]
    exact ⟨hrest.1, by rw [hrest.2, List.length_cons, Nat.add_assoc, Nat.add_comm 1]⟩

end Worker

namespace Settings

variable {s : Settings}

theorem after_of_mem_crew (hs : s.Checked) (kind : KernelKind) {w : Worker} (hw : w ∈ s.crew)
    {windows : List Window} (hticks : ∀ window ∈ windows, 0 < window.ticks) :
    (w.after (s.method kind.kernel) (ordersFor windows true)).states =
        s.detectorParams.statesAfter windows w.registers ∧
      (w.after (s.method kind.kernel) (ordersFor windows true)).windows = windows.length := by
  obtain ⟨hrange, hfresh⟩ := s.registers_of_mem_crew hw
  have hzero : w.windows = 0 := by
    rw [crew_eq] at hw
    obtain ⟨⟨r, id⟩, -, rfl⟩ := List.mem_map.mp hw
    rfl
  have hstop (v : Worker) : v.after (s.method kind.kernel) [.shutdown] = v := rfl
  rw [ordersFor_true, Worker.after_append, hstop]
  cases windows with
  | nil =>
    refine ⟨?_, hzero⟩
    rw [DetectorParams.statesAfter_nil]
    exact hfresh
  | cons first rest =>
    have htaps : 0 < s.detectorParams.filter.length := by
      rw [detectorParams, length_filter hs]
      exact tapCount_pos hs
    have hseed : w.handle (s.method kind.kernel) (.seed first) = (w.seeded first, none) := by
      rw [Worker.handle, s.seed?_of_mem_crew hw (hticks first (List.mem_cons_self ..)),
        Option.getD_some]
    have horders : w.after (s.method kind.kernel) (ordersFor (first :: rest) false) =
        (w.seeded first).after (s.method kind.kernel) ((first :: rest).map .window) := by
      have hlist : ordersFor (first :: rest) false =
          .seed first :: (first :: rest).map .window := by simp [ordersFor]
      rw [hlist, Worker.after, List.foldl_cons, hseed]
      rfl
    have hafter := Worker.after_windows (w := w.seeded first) hs.one_le_stepLimit htaps kind
      (Partition.last_le_of_mem_ranges hrange) (Worker.states_seeded hfresh first) (first :: rest)
    rw [horders]
    refine ⟨hafter.1, hafter.2.trans ?_⟩
    rw [Worker.seeded, hzero, Nat.zero_add]

end Settings

theorem Reference.states_afterWindows {s : Settings} (hs : s.Checked) {windows : List Window}
    (hticks : ∀ window ∈ windows, 0 < window.ticks) :
    (afterWindows s windows).windows = windows.length ∧
      (afterWindows s windows).states = s.detectorParams.statesAfter windows .all := by
  cases windows with
  | nil => exact ⟨rfl, (s.detectorParams.statesAfter_nil .all).symm⟩
  | cons first rest =>
    obtain ⟨hwindows, -, hstates⟩ := afterWindows_take hs .channelwise
      (hticks first (List.mem_cons_self ..)) rest (Nat.le_refl (first :: rest).length)
    rw [List.take_length] at hwindows hstates
    rw [if_neg (by simp)] at hstates
    exact ⟨hwindows, hstates⟩

namespace Pipeline

/-- Whether the request to stop has taken effect. -/
def IsClosing (p : Pipeline) : Prop := p.dispatcher.stopped = true ∨ .leave ∈ p.dispatcher.acts

theorem states_eq (p : Pipeline) :
    p.states = (p.nodes.toList.flatMap fun node => node.worker.states.toList).toArray := by
  have hjoin := foldl_append_toArray (fun node : WorkerNode => node.worker.states.toList)
    p.nodes.toList #[]
  rw [Array.empty_append] at hjoin
  rw [← hjoin, states, ← Array.foldl_toList]

namespace Follows

variable {s : Settings} {m : Method} {h : Intake} {p : Pipeline}

theorem closing_of_isClosing (hp : p.Follows s m h) (hclosing : p.IsClosing) :
    h.closing = true := by
  rcases hclosing with hstopped | hleave
  · exact (hp.dispatcher.of_stopped hstopped).1
  · by_contra hopen
    have hstage := hp.dispatcher.stage
    rw [Bool.not_eq_true] at hopen
    cases hstopped : p.dispatcher.stopped <;>
      simp [Dispatcher.Stage, hopen, hstopped, hleave] at hstage

theorem of_hasExited (hp : p.Follows s m h) (hexit : p.HasExited) :
    p.metrics.merged = (h.windows s).length ∧ p.windowsStored = (h.windows s).length ∧
      (∀ node ∈ p.nodes, node.phase = .stopped ∧ node.outbox.items = []) ∧
      p.nodes.toList.map (·.worker) = s.crew.map (·.after m (ordersFor (h.windows s) true)) := by
  obtain ⟨hclosing, hstored⟩ := hp.finished hexit.merger
  have hbatch := hp.merger.idle (by simp [hexit.merger])
  have hmerged : p.windowsStored = p.metrics.merged := by
    rw [windowsStored, hexit.merger]
    rfl
  refine ⟨hmerged.symm.trans hstored, hstored, fun node hnode => ?_, ?_⟩
  · obtain ⟨i, hi⟩ := Array.mem_iff_getElem?.mp hnode
    obtain ⟨w, -, hfollows⟩ := hp.exists_worker hi
    exact ⟨hfollows.phase_of_hasLeft (hexit.workers node hnode), (hp.reported_of_stored hstored hi).1⟩
  · apply List.ext_getElem
    · simp [hp.size]
    · intro i hi _
      rw [List.length_map, Array.length_toList] at hi
      have hnode := Array.getElem?_eq_getElem hi
      obtain ⟨w, hw, hfollows⟩ := hp.exists_worker hnode
      have hleft := hexit.workers _ (Array.getElem_mem hi)
      have hworker := (hfollows.eq_of_hasLeft rfl hleft).2.2.2.2.1
      rw [List.getElem_map, Array.getElem_toList, List.getElem_map, hworker,
        (List.getElem?_eq_some_iff.mp hw).2, course, hclosing]

/-- The channels that are handed out are those of the single thread. -/
theorem states_of_hasExited {kind : KernelKind} (hs : s.Checked)
    (hp : p.Follows s (s.method kind.kernel) h) (hexit : p.HasExited) :
    p.states = s.detectorParams.statesAfter (h.windows s) .all ∧
      ∀ node ∈ p.nodes, node.worker.windows = (h.windows s).length := by
  have hworkers := (hp.of_hasExited hexit).2.2.2
  have hticks : ∀ window ∈ h.windows s, 0 < window.ticks := fun window hmem =>
    Assembly.ticks_pos_of_mem_completed (Settings.superchunksPerWindow_pos hs) hmem
  have hcrew (w : Worker) (hw : w ∈ s.crew) := Settings.after_of_mem_crew hs kind hw hticks
  constructor
  · have hlists : (p.nodes.toList.map (·.worker)).flatMap (fun w => w.states.toList) =
        (s.crew.flatMap fun w => w.registers.channelList).map
          (s.detectorParams.stateAfter (h.windows s)) := by
      rw [hworkers, List.flatMap_map, List.map_flatMap]
      apply List.flatMap_congr
      intro w hw
      rw [(hcrew w hw).1]
      rfl
    rw [List.flatMap_map, s.flatMap_channelList_crew] at hlists
    rw [states_eq, hlists, DetectorParams.statesAfter, RegisterRange.channelList_all]
  · intro node hnode
    have hmem : node.worker ∈ p.nodes.toList.map (·.worker) :=
      List.mem_map_of_mem (Array.mem_toList_iff.mpr hnode)
    rw [hworkers] at hmem
    obtain ⟨w, hw, hafter⟩ := List.mem_map.mp hmem
    rw [← hafter]
    exact (hcrew w hw).2

end Follows

namespace Account

variable {s : Settings} {m : Method} {h : Intake} {p : Pipeline} {superchunks : List ByteArray}

theorem taken_of_isClosing (hp : p.Account s m h) (hasked : p.Asked superchunks h)
    (hclosing : p.IsClosing) :
    h.taken = superchunks ∧ ∀ bytes ∈ superchunks, Superchunk.checkSize bytes = .ok () := by
  have htaken := hasked.taken (hp.follows.closing_of_isClosing hclosing)
  refine ⟨htaken, fun bytes hbytes => hp.follows.dispatcher.checked bytes ?_⟩
  rw [← htaken] at hbytes
  exact ((List.prefix_append _ _).trans hp.follows.dispatcher.queued_prefix).subset hbytes

/-- The request to stop takes effect after everything before it is decoded and assembled. -/
theorem consumed_of_isClosing (hp : p.Account s m h) (hasked : p.Asked superchunks h)
    (hclosing : p.IsClosing) :
    p.metrics.consumed = superchunks.length ∧
      p.dispatcher.assembly =
        ((Reference.start s).run s.detectorParams superchunks).assembly := by
  obtain ⟨htaken, hsize⟩ := hp.taken_of_isClosing hasked hclosing
  have hnone := hp.tally.acts.not_consumed (hp.follows.closing_of_isClosing hclosing)
  constructor
  · rw [← htaken, ← hp.tally.consumed, List.count_eq_zero_of_not_mem hnone, Nat.add_zero]
  · rw [Reference.run_eq _ _ _ hsize, hp.follows.dispatcher.assembly, htaken]
    rfl

/-- What all parts leave behind is what the single thread comes to. -/
theorem reference_of_hasExited (hs : s.Checked) {kind : KernelKind}
    (hp : p.Account s (s.method kind.kernel) h) (hasked : p.Asked superchunks h)
    (hexit : p.HasExited) :
    let windows := superchunks.length / s.superchunksPerWindow
    let reference := s.referenceAfter superchunks windows
    (h.windows s).length = windows ∧ reference.windows = windows ∧
      p.store = reference.store ∧ p.states = reference.states := by
  intro windows reference
  have hpos := Settings.superchunksPerWindow_pos hs
  obtain ⟨htaken, hsize⟩ := hp.taken_of_isClosing hasked (.inl hexit.dispatcher)
  have hcompleted : h.windows s =
      (Assembly.start s.superchunksPerWindow).completed (superchunks.map .ofBytes) := by
    rw [Intake.windows, htaken]
  have hcount : (h.windows s).length = windows := by
    rw [hcompleted, Assembly.length_completed hpos, List.length_map]
  have hticks : ∀ window ∈ h.windows s, 0 < window.ticks := fun window hmem =>
    Assembly.ticks_pos_of_mem_completed hpos hmem
  obtain ⟨hthread, hchannels⟩ := Reference.states_afterWindows hs hticks
  obtain ⟨hsearched, -, hstates⟩ := Settings.referenceAfter_eq hs hsize (Nat.le_refl windows)
  rw [← hcompleted, ← hcount, List.take_length] at hsearched hstates
  have hsame : s.referenceAfter h.accepted windows = reference := by
    -- what was accepted later belongs to no window that was worked off
    obtain ⟨later, hlater⟩ := (List.prefix_append _ _).trans hp.follows.dispatcher.queued_prefix
    rw [Settings.referenceAfter, ← hlater, htaken,
      List.take_append_of_le_length (Nat.div_mul_le_self _ _)]
    rfl
  have hstore := (hp.follows.store_eq hs kind).2.2
  rw [(hp.follows.of_hasExited hexit).2.1, hcount, hsame] at hstore
  rw [hcount] at hsearched hthread hstates
  refine ⟨hcount, hsearched.trans hthread, hstore, ?_⟩
  rw [(hp.follows.states_of_hasExited hs hexit).1, ← hchannels]
  exact hstates.symm

end Account

end Pipeline

namespace Finder

variable {s : Settings} {f : Finder}

/-- Shutting down drains the pipeline: everything accepted before is worked off first. -/
theorem shutdown_drains (hstart : start s = .ok f) {before after : List Move}
    (hbefore : .shutdown ∉ before) {q : Pipeline}
    (hrun : f.pipeline.run? f.method (before ++ .shutdown :: after) = some q) :
    let accepted := f.pipeline.accepted f.method before
    let windows := accepted.length / s.superchunksPerWindow
    let reference := s.referenceAfter accepted windows
    (q.IsClosing → q.metrics.consumed = accepted.length ∧
      q.dispatcher.assembly =
        ((Reference.start s).run s.detectorParams accepted).assembly) ∧
    (q.HasExited →
      q.metrics.merged = windows ∧ reference.windows = windows ∧
      q.store = reference.store ∧
      (∀ node ∈ q.nodes, node.phase = .stopped ∧ node.outbox.items = [] ∧
        node.worker.windows = windows) ∧
      q.states.size = channelCount ∧ q.states = reference.states) := by
  obtain ⟨hs, -, hmethod, hpipeline, -⟩ := start_eq_ok hstart
  rw [hmethod, hpipeline] at hrun ⊢
  intro accepted windows reference
  obtain ⟨h, hq, hasked⟩ := Pipeline.exists_asked hbefore hrun
  refine ⟨hq.consumed_of_isClosing hasked, fun hexit => ?_⟩
  obtain ⟨hcount, hthread, hstore, hstates⟩ := hq.reference_of_hasExited hs hasked hexit
  obtain ⟨hmerged, -, hstopped, -⟩ := hq.follows.of_hasExited hexit
  obtain ⟨hchannels, hworked⟩ := hq.follows.states_of_hasExited hs hexit
  refine ⟨hmerged.trans hcount, hthread, hstore, fun node hnode => ?_, ?_, hstates⟩
  · obtain ⟨hphase, hempty⟩ := hstopped node hnode
    exact ⟨hphase, hempty, (hworked node hnode).trans hcount⟩
  · rw [hchannels, DetectorParams.size_statesAfter_all]

/-- A window and a half with a hit in the window, a second worker that leaves before anything is merged,
and a superchunk that comes too late. -/
theorem shutdown_drains_late :
    let s : Settings := {
      windowTicks := 2 * superchunkTicks
      tapCount := 2
      taps := some #[64, -3]
      cutoff := Float.ofBits 0x3FB999999999999A }
    let silent : ByteArray := ⟨.replicate superchunkBytes 0⟩
    let superchunks : List ByteArray := [⟨.replicate superchunkBytes 255⟩, silent, silent]
    let before : List Move := superchunks.map .offer
    let after : List Move := .offer silent :: List.replicate 20 (.dispatch 0) ++
      List.replicate 5 (.work 1) ++ List.replicate 5 (.work 0) ++ List.replicate 5 .merge
    ∃ f q, start s = .ok f ∧ .shutdown ∉ before ∧
      f.pipeline.run? f.method (before ++ .shutdown :: after) = some q ∧
      q.IsClosing ∧ q.HasExited ∧
        let accepted := f.pipeline.accepted f.method before
        let reference := s.referenceAfter accepted (accepted.length / s.superchunksPerWindow)
        accepted.length = 3 ∧ q.metrics.consumed = accepted.length ∧ q.metrics.merged = 1 ∧
          (∃ time charge, ⟨time, ⟨0, 14, charge, 1⟩⟩ ∈ q.store.primitives) ∧
          q.store = reference.store ∧ q.states = reference.states := by
  intro s silent superchunks before after
  have hs : s.Checked := by decide +kernel
  have hstart := start_of_checked hs
  have hbefore : .shutdown ∉ before := by simp [before, superchunks]
  have hmoves : (((Pipeline.start s).run? (s.method s.kernel.kernel)
      (before ++ .shutdown :: after)).map fun q => decide q.HasExited) = some true := by
    decide +kernel
  have hthree : ((Pipeline.start s).accepted (s.method s.kernel.kernel) before).length = 3 := by
    decide +kernel
  obtain ⟨q, hrun, hexit⟩ := Option.map_eq_some_iff.mp hmoves
  have hexit := of_decide_eq_true hexit
  obtain ⟨hconsumed, hdrained⟩ := shutdown_drains hstart hbefore hrun
  obtain ⟨hmerged, -, hstore, -, -, hstates⟩ := hdrained hexit
  have haccepted : (Pipeline.start s).accepted (s.method s.kernel.kernel) before = superchunks :=
    (Pipeline.accepted_sublist _ _ before).eq_of_length hthree
  have hhit : ∃ time charge, ⟨time, ⟨0, 14, charge, 1⟩⟩ ∈ q.store.primitives := by
    have hone : 3 / s.superchunksPerWindow = 1 := by decide
    rw [hstore, hthree, haccepted, hone]
    refine Settings.fall_stored hs rfl (by decide) ?_ (by decide) (by decide) (by decide)
    intro bytes hbytes
    rw [List.mem_singleton.mp hbytes]
    exact Superchunk.checkSize_replicate 0
  rw [hthree] at hmerged
  exact ⟨_, q, hstart, hbefore, hrun, .inl hexit.dispatcher, hexit, hthree,
    (hconsumed (.inl hexit.dispatcher)).1, hmerged.trans (by decide), hhit, hstore, hstates⟩

end Finder

end TpcTrigger
