import TpcTrigger.Proofs.Detection.CheckedRegisters
import TpcTrigger.Proofs.Detection.TickWords
import TpcTrigger.Proofs.Pipeline.Accounting
import TpcTrigger.Proofs.Samples.ReadoutRange

/-! # Checked settings lead to no fault

A finder that starts cuts the frame into as many ranges as there are workers, and gives every
channel a delay line with a slot for every tap.  Starting a baseline keeps the line, and both
built-in kernels leave lines of the same length behind.  So every call of a kernel has the shape
that it asks for, every access by index lies inside, and no worker ever fails.

Arithmetic on words wraps round here.  A build that stops at an overflow instead could stop in one
place only: all that a tick works out is a word, but for the tick count of an excursion that has
lasted for as many ticks as a word can count.
-/

namespace TpcTrigger

/-- Whether ranges, none of them empty, follow each other from one register to another. -/
def RegisterRange.Tile (first last : Nat) : List RegisterRange → Prop
  | [] => first = last
  | r :: rs => r.first = first ∧ r.first < r.last ∧ Tile r.last last rs

namespace Partition

theorem start_lt_succ {n : Nat} (hn : 0 < n) (hle : n ≤ registerCount) (i : Nat) :
    start n i < start n (i + 1) := by
  have hquotient : 0 < registerCount / n := Nat.div_pos hle hn
  rw [start, start, Nat.add_mul, Nat.one_mul]
  omega

theorem tile_range' {n : Nat} (hn : 0 < n) (hle : n ≤ registerCount) (i k : Nat) :
    RegisterRange.Tile (start n i) (start n (i + k))
      ((List.range' i k).map fun j => ⟨start n j, start n (j + 1)⟩) := by
  induction k generalizing i with
  | zero => exact rfl
  | succ k ih =>
    rw [List.range'_succ, List.map_cons]
    refine ⟨rfl, start_lt_succ hn hle i, ?_⟩
    have hrest := ih (i + 1)
    rwa [Nat.add_right_comm] at hrest

theorem tile_ranges {workers : Nat} (hworkers : 1 ≤ workers ∧ workers ≤ registerCount) :
    (ranges workers).length = workers ∧
      RegisterRange.Tile 0 registerCount (ranges workers) := by
  have hparts : parts workers = workers := by
    rw [parts, Nat.min_eq_left hworkers.2, Nat.max_eq_right hworkers.1]
  have htile := tile_range' hworkers.1 hworkers.2 0 workers
  rw [start_zero, Nat.zero_add, start_self hworkers.1, ← List.range_eq_range'] at htile
  rw [ranges, hparts]
  exact ⟨by simp, htile⟩

end Partition

/-- A single channel that has seen nothing fits its filter. -/
theorem checkShape_fresh {p : DetectorParams} (htaps : 0 < p.filter.length) {r : RegisterRange}
    (hr : r.first ≤ r.last ∧ r.last ≤ registerCount) :
    checkShape r (p.freshStates r.count) p = .ok () := by
  apply checkShape_eq_ok_iff.mpr
  refine ⟨hr, Array.size_replicate, fun state hstate => ?_⟩
  rw [(Array.mem_replicate.mp hstate).2]
  exact ⟨DelayLine.cells_size_zeros _, htaps⟩

def WorkerMessage.Readout : WorkerMessage → Prop
  | seed w => w.block.Readout
  | window w => w.block.Readout
  | shutdown => True

theorem WorkerMessage.readout_of_mem_orders {windows : List Window}
    (hwindows : ∀ window ∈ windows, window.block.Readout) {closing : Bool} {message : WorkerMessage}
    (hmessage : message ∈ ordersFor windows closing) : message.Readout := by
  simp only [ordersFor, List.mem_append, Option.mem_toList, Option.map_eq_some_iff, List.mem_map]
    at hmessage
  rcases hmessage with (⟨first, hfirst, rfl⟩ | ⟨window, hwindow, rfl⟩) | hlast
  · exact hwindows first (List.mem_of_mem_head? hfirst)
  · exact hwindows window hwindow
  · cases closing with
    | false => cases hlast
    | true => rw [List.mem_singleton.mp hlast]; trivial

namespace Worker

structure Sound (p : DetectorParams) (w : Worker) : Prop where
  shape : checkShape w.registers w.states p = .ok ()
  faults : w.faults = 0

namespace Sound

variable {p : DetectorParams} {w : Worker} (kind : KernelKind)

/-- Starting the baselines keeps the delay lines. -/
theorem seeded (h : w.Sound p) (window : Window) : (w.seeded window).Sound p := by
  refine ⟨checkShape_eq_ok_iff.mpr ?_, h.faults⟩
  rcases checkShape_eq_ok_iff.mp h.shape with ⟨hrange, hsize, hfit⟩
  refine ⟨hrange, Array.size_mapIdx.trans hsize, fun state hstate => ?_⟩
  rcases Array.mem_mapIdx.mp hstate with ⟨i, hi, rfl⟩
  exact hfit w.states[i] (Array.getElem_mem hi)

theorem seed?_eq (h : w.Sound p) (window : Window) :
    w.seed? window = some (if window.ticks = 0 then w else w.seeded window) := by
  rcases checkShape_eq_ok_iff.mp h.shape with ⟨hrange, hsize, -⟩
  by_cases hticks : window.ticks = 0
  · rw [seed?, if_pos hticks, if_pos hticks]
  · rw [if_neg hticks]
    exact Worker.seed?_eq hrange.2 hsize (Nat.pos_of_ne_zero hticks)

/-- A kernel accepts the call of a sound worker and leaves it sound. -/
theorem process (h : w.Sound p) (window : Window) :
    (w.process ⟨kind.kernel, p⟩ window).1.Sound p ∧
      (w.process ⟨kind.kernel, p⟩ window).2.faulted = false := by
  have hcall := kind.process_eq_ok h.shape window #[]
  have hafter := kind.checkShape_carried p w.registers w.states h.shape [window]
  rw [← kind.states_found p w.registers w.states window #[]] at hafter
  simp only [Worker.process, KernelKind.kernel, hcall, Option.isSome_none, Bool.false_eq_true,
    if_false, and_true]
  exact ⟨hafter, h.faults⟩

/-- Whatever message comes, a sound worker stays sound, and its result is none of a failure. -/
theorem handle (h : w.Sound p) (message : WorkerMessage) :
    (w.handle ⟨kind.kernel, p⟩ message).1.Sound p ∧
      ∀ result ∈ (w.handle ⟨kind.kernel, p⟩ message).2, result.faulted = false := by
  cases message with
  | seed window =>
    refine ⟨?_, by simp [Worker.handle]⟩
    rw [Worker.handle, h.seed?_eq window, Option.getD_some]
    split
    · exact h
    · exact h.seeded window
  | window window =>
    rcases h.process kind window with ⟨hafter, hresult⟩
    refine ⟨hafter, fun result hmem => ?_⟩
    rw [← Option.some.inj hmem]
    exact hresult
  | shutdown => exact ⟨h, by simp [Worker.handle]⟩

theorem after (h : w.Sound p) (messages : List WorkerMessage) :
    (w.after ⟨kind.kernel, p⟩ messages).Sound p ∧
      ∀ result ∈ w.results ⟨kind.kernel, p⟩ messages, result.faulted = false := by
  induction messages generalizing w with
  | nil => exact ⟨h, fun _ hmem => absurd hmem List.not_mem_nil⟩
  | cons message messages ih =>
    rcases h.handle kind message with ⟨hnext, hresult⟩
    rcases ih hnext with ⟨hlast, hresults⟩
    refine ⟨hlast, fun result hmem => ?_⟩
    rw [results, List.mem_append, Option.mem_toList] at hmem
    rcases hmem with hmem | hmem
    · exact hresult result hmem
    · exact hresults result hmem

/-- A kernel call takes every channel through its samples of the window. -/
theorem reached_process (h : w.Sound p) (hlimit : 1 ≤ p.stepLimit)
    (hreached : ∀ state ∈ w.states, state.Reached p) {window : Window}
    (hwindow : window.block.Readout) :
    ∀ state ∈ (w.process ⟨kind.kernel, p⟩ window).1.states, state.Reached p := by
  have hrule : kind.rule p.stepLimit = Tracker.observe p.stepLimit :=
    KernelKind.rule_eq_of_one_le hlimit kind .channelwise
  have hcall := kind.process_eq_ok h.shape window #[]
  simp only [Worker.process, KernelKind.kernel, hcall, Option.isSome_none, Bool.false_eq_true,
    if_false, Worker.countWindow]
  intro state hstate
  simp only [KernelKind.found, KernelKind.stateAfter, hrule, List.mem_toArray, List.mem_map,
    List.mem_range] at hstate
  obtain ⟨i, hi, rfl⟩ := hstate
  exact (hreached _ (getD_mem hi)).after (hwindow.channelSamples_le _)

/-- Windows of the readout keep the states of a worker among those that a channel comes to. -/
theorem reached_after (h : w.Sound p) (hlimit : 1 ≤ p.stepLimit)
    (hreached : ∀ state ∈ w.states, state.Reached p) {messages : List WorkerMessage}
    (hmessages : ∀ message ∈ messages, message.Readout) :
    ∀ state ∈ (w.after ⟨kind.kernel, p⟩ messages).states, state.Reached p := by
  induction messages generalizing w with
  | nil => exact hreached
  | cons message messages ih =>
    refine ih (h.handle kind message).1 ?_ fun m hm => hmessages m (List.mem_cons_of_mem _ hm)
    have hmessage := hmessages message List.mem_cons_self
    cases message with
    | seed window =>
      simp only [Worker.handle, h.seed?_eq window, Option.getD_some]
      split
      · exact hreached
      · intro state hstate
        obtain ⟨i, hi, rfl⟩ := Array.mem_mapIdx.mp hstate
        exact (hreached _ (Array.getElem_mem hi)).seed (hmessage.sample_le _ _)
    | window window => exact h.reached_process kind hlimit hreached hmessage
    | shutdown => exact hreached

theorem faultCount_resultAt (h : w.Sound p) (windows : List Window) (k : Nat) :
    (w.resultAt ⟨kind.kernel, p⟩ windows k).faultCount = 0 := by
  rw [resultAt, List.getD_eq_getElem?_getD, WindowResult.faultCount]
  cases hresult : (w.results ⟨kind.kernel, p⟩ (ordersFor windows false))[k]? with
  | none => rfl
  | some result =>
    rw [Option.getD_some, (h.after kind _).2 result (List.mem_of_getElem? hresult)]
    rfl

end Sound

theorem registers_after (m : Method) (w : Worker) (messages : List WorkerMessage) :
    (w.after m messages).registers = w.registers := by
  induction messages generalizing w with
  | nil => rfl
  | cons message messages ih =>
    apply (ih (w.handle m message).1).trans
    cases message with
    | seed window =>
      rcases w.exists_states_seed window with ⟨states, hseed⟩
      rw [handle, hseed]
    | window window =>
      rw [handle, process]
      cases (m.kernel.run m.params w.registers window w.states #[]).fault <;> rfl
    | shutdown => rfl

/-- A worker whose kernel calls have the right shape and make no access outside. -/
structure Accessible (s : Settings) (kind : KernelKind) (w : Worker) : Prop where
  states : w.states.size = lanesPerRegister * w.registers.count
  lines : ∀ state ∈ w.states,
    state.line.cells.size = s.tapCount ∧ state.line.phase < s.tapCount
  shape : checkShape w.registers w.states s.detectorParams = .ok ()
  /-- The baselines can be started from any window. -/
  seeds : ∀ window, (w.seed? window).isSome
  /-- The samples of the worker's channels are lanes of registers in the window. -/
  samples : ∀ window : Window, ∀ i < w.states.size, ∀ tick < window.ticks,
    window.channelSample? (w.registers.firstChannel + i) tick =
      some (window.block.sample (w.registers.firstChannel + i) tick)
  /-- Every access of a kernel call lies inside, and the call is not refused. -/
  calls : ∀ window hits, ∃ found,
    kind.checked? s.detectorParams w.registers window w.states hits = some found ∧
      kind.process s.detectorParams w.registers window w.states hits = .ok found
  /-- On samples of the readout nothing that is worked out leaves the word range, other than the
  count of an excursion that has come to the greatest word. -/
  words : InWord s.stepLimit → ∀ window : Window, window.block.Readout →
    ∀ i < w.states.size, ∀ before sample later,
      window.block.channelSamples (w.registers.firstChannel + i) = before ++ sample :: later →
        ((w.states.getD i default).after (kind.rule s.stepLimit) s.detectorParams.detector
          before).TickInWord s.detectorParams sample
  faults : w.faults = 0

theorem Sound.accessible {s : Settings} (hs : s.Checked) (kind : KernelKind) {w : Worker}
    (h : w.Sound s.detectorParams) (hreached : ∀ state ∈ w.states, state.Reached s.detectorParams) :
    w.Accessible s kind := by
  rcases checkShape_eq_ok_iff.mp h.shape with ⟨⟨hfirst, hlast⟩, hsize, hfit⟩
  have hlength : s.detectorParams.filter.length = s.tapCount := Settings.length_filter hs
  rw [hlength] at hfit
  constructor
  · rw [hsize, RegisterRange.channels, Nat.mul_comm]
  · exact hfit
  · exact h.shape
  · intro window
    rw [h.seed?_eq window]
    rfl
  · intro window i hi tick htick
    apply window.channelSample?_eq _ htick
    simp only [hsize, RegisterRange.channels, RegisterRange.count, RegisterRange.firstChannel,
      lanesPerRegister_eq, registerCount_eq, channelCount_eq] at hi hfirst hlast ⊢
    omega
  · exact fun window hits => kind.checked?_eq h.shape window hits
  · intro hlimit window hwindow i hi before sample later hsamples
    have hrange := hwindow.channelSamples_le (w.registers.firstChannel + i)
    rw [hsamples] at hrange
    have hrule : kind.rule s.stepLimit = Tracker.observe s.detectorParams.stepLimit :=
      KernelKind.rule_eq_of_one_le hs.one_le_stepLimit kind .channelwise
    rw [hrule]
    refine ((hreached _ (getD_mem hi)).after fun x hx => ?_).tickInWord hs hlimit ?_
    · exact hrange x (List.mem_append_left _ hx)
    · exact hrange sample (List.mem_append_right _ List.mem_cons_self)
  · exact h.faults

end Worker

namespace Settings

variable {s : Settings}

theorem sound_of_mem_crew (hs : s.Checked) {w : Worker} (hw : w ∈ s.crew) :
    w.Sound s.detectorParams := by
  rcases s.registers_of_mem_crew hw with ⟨hrange, hstates⟩
  have htaps : 0 < s.detectorParams.filter.length := by
    rw [detectorParams, length_filter hs]
    exact tapCount_pos hs
  constructor
  · rw [hstates]
    exact checkShape_fresh htaps (Partition.last_le_of_mem_ranges hrange)
  · rw [s.crew_eq] at hw
    rcases List.mem_map.mp hw with ⟨⟨r, id⟩, -, rfl⟩
    rfl

theorem reached_of_mem_crew {w : Worker} (hw : w ∈ s.crew) :
    ∀ state ∈ w.states, state.Reached s.detectorParams := by
  intro state hstate
  rw [(s.registers_of_mem_crew hw).2] at hstate
  rw [(Array.mem_replicate.mp hstate).2]
  exact .fresh

/-- A merger that takes the results of sound workers counts no fault. -/
theorem total_faultCount (hs : s.Checked) (kind : KernelKind) (windows : List Window) (n : Nat) :
    s.total (s.method kind.kernel) (·.faultCount) windows n = 0 := by
  rw [total]
  apply List.sum_eq_zero
  intro x hx
  rcases List.mem_map.mp hx with ⟨k, -, rfl⟩
  apply List.sum_eq_zero
  intro y hy
  rw [batchAt, List.map_map] at hy
  rcases List.mem_map.mp hy with ⟨w, hw, rfl⟩
  exact (sound_of_mem_crew hs hw).faultCount_resultAt kind windows k

end Settings

namespace Pipeline

/-- A state in which nothing has failed and no call or access can. -/
structure FaultFree (s : Settings) (kind : KernelKind) (p : Pipeline) : Prop where
  /-- Everything in the queue is a superchunk. -/
  queued : ∀ bytes ∈ p.queue.superchunks,
    bytes.size = superchunkBytes ∧ Superchunk.decode bytes = .ok (.ofBytes bytes)
  /-- The dispatcher has met nothing else. -/
  undamaged : .countMalformed ∉ p.dispatcher.acts
  workers : p.nodes.size = s.workers
  ranges : RegisterRange.Tile 0 registerCount (p.nodes.toList.map (·.worker.registers))
  accessible : ∀ node ∈ p.nodes, node.worker.Accessible s kind
  not_crashed : ∀ node ∈ p.nodes, node.phase ≠ .crashed
  faults : p.metrics.faults = 0

variable {s : Settings} {kind : KernelKind} {h : Intake} {p : Pipeline}

theorem Follows.registers (hp : p.Follows s (s.method kind.kernel) h) :
    p.nodes.toList.map (·.worker.registers) = Partition.ranges s.workers := by
  have hcrew : s.crew.map (·.registers) = Partition.ranges s.workers := by
    rw [s.crew_eq, List.map_map]
    exact List.zipIdx_map_fst 0 _
  rw [← hcrew]
  apply hp.map_nodes
  intro i node w _ hfollows
  rcases hfollows.history with ⟨done, -, -, hworker, -⟩
  rw [hworker, Worker.registers_after]

/-- What checked settings and the account of a run make sure of. -/
theorem faultFree_of_account (hs : s.Checked) (hp : p.Account s (s.method kind.kernel) h)
    (htimed : p.Timed h) (hsummed : p.Summed s (s.method kind.kernel) h) :
    p.FaultFree s kind := by
  have hwindows : ∀ window ∈ h.windows s, window.block.Readout := fun window hwindow =>
    Assembly.readout_of_mem_completed (Settings.superchunksPerWindow_pos hs)
      (fun chunk hchunk => by
        obtain ⟨bytes, -, rfl⟩ := List.mem_map.mp hchunk
        exact Superchunk.readout_ofBytes bytes) hwindow
  have hnode : ∀ node ∈ p.nodes, node.worker.Accessible s kind ∧ node.phase ≠ .crashed := by
    intro node hmem
    rcases Array.mem_iff_getElem?.mp hmem with ⟨i, hi⟩
    rcases hp.follows.exists_worker hi with ⟨w, hw, hfollows⟩
    rcases hfollows.history with ⟨done, -, hall, hworker, -⟩
    have hmessages (message : WorkerMessage) (hmessage : message ∈ done) : message.Readout := by
      have horder : message ∈ ordersFor (h.windows s) h.closing := by
        have horders : (Pipeline.course s h p i).orders = ordersFor (h.windows s) h.closing := rfl
        rw [← horders, ← hall, List.append_assoc, List.append_assoc]
        exact List.mem_append_left _ hmessage
      exact WorkerMessage.readout_of_mem_orders hwindows horder
    have hcrew := List.mem_of_getElem? hw
    have hfirst := Settings.sound_of_mem_crew hs hcrew
    have hreached := hfirst.reached_after kind hs.one_le_stepLimit
      (Settings.reached_of_mem_crew hcrew) hmessages
    exact ⟨hworker ▸ (hfirst.after kind done).1.accessible hs kind hreached, hfollows.not_crashed⟩
  have htile := Partition.tile_ranges hs.workers
  have hregisters := hp.follows.registers
  constructor
  · intro bytes hbytes
    have hmem : bytes ∈ h.accepted :=
      hp.follows.dispatcher.queued_prefix.subset (List.mem_append_right _ hbytes)
    have hsize := hp.follows.dispatcher.checked bytes hmem
    exact ⟨Superchunk.checkSize_eq_ok_iff.mp hsize, Superchunk.decode_eq hsize⟩
  · exact htimed.undamaged
  · rw [← htile.1, ← hregisters, List.length_map, Array.length_toList]
  · rw [hregisters]
    exact htile.2
  · exact fun node hmem => (hnode node hmem).1
  · exact fun node hmem => (hnode node hmem).2
  · have hfaults := hsummed.faults
    rw [Settings.total_faultCount hs] at hfaults
    exact Nat.eq_zero_of_add_eq_zero_right hfaults

end Pipeline

namespace Finder

variable {s : Settings} {kind : KernelKind} {f : Finder}

/-- However the parts of a finder with a built-in kernel are interleaved and whatever is offered to
it, only superchunks come into the queue, every access lies inside, and nothing fails.  Nor does
anything overflow, unless an excursion outlasts the greatest word. -/
theorem builtin_never_faults (hstart : startWith s kind.kernel = .ok f) {moves : List Move}
    {p : Pipeline} (hrun : f.pipeline.run? f.method moves = some p) :
    (∀ bytes ∈ f.pipeline.accepted f.method moves, bytes.size = superchunkBytes) ∧
      p.FaultFree s kind := by
  rcases startWith_eq_ok hstart with ⟨hs, -, hmethod, hpipeline, -⟩
  rw [hmethod, hpipeline] at hrun ⊢
  rcases Pipeline.account_of_run hrun with ⟨hp, htimed, hsummed⟩
  refine ⟨fun bytes hbytes => ?_, Pipeline.faultFree_of_account hs hp htimed hsummed⟩
  rw [← Pipeline.accepted_intakeOf hrun] at hbytes
  exact Superchunk.checkSize_eq_ok_iff.mp (hp.follows.dispatcher.checked bytes hbytes)

/-- A window that three workers of unequal shares search with the kernel that is not the one of the
settings, and a buffer that is no superchunk. -/
theorem builtin_never_faults_shared :
    let s : Settings := {
      windowTicks := superchunkTicks
      workers := 3
      kernel := .channelwise
      tapCount := 2
      taps := some #[-3, 64]
      cutoff := Float.ofBits 0x3FB999999999999A }
    let moves : List Move := List.flatten [
      [.offer ⟨#[1, 2]⟩, .offer ⟨.replicate superchunkBytes 7⟩, .count 0],
      .replicate 10 (.dispatch 0), .replicate 4 (.work 2), .replicate 4 (.work 1),
      .replicate 4 (.work 0), .replicate 5 .merge]
    ∃ f p, startWith s KernelKind.lockstep.kernel = .ok f ∧
      f.pipeline.run? f.method moves = some p ∧ p.metrics.malformed = 1 ∧ p.metrics.merged = 1 ∧
      (∀ bytes ∈ f.pipeline.accepted f.method moves, bytes.size = superchunkBytes) ∧
      p.FaultFree s .lockstep := by
  intro s moves
  have hs : s.Checked := by decide +kernel
  have hstart := startWith_of_checked hs KernelKind.lockstep.kernel
  have hread : ((Pipeline.start s).run? (s.method KernelKind.lockstep.kernel) moves).map
      (fun p => (p.metrics.malformed, p.metrics.merged)) = some (1, 1) := by decide +kernel
  rcases Option.map_eq_some_iff.mp hread with ⟨p, hrun, hend⟩
  rcases Prod.mk.inj hend with ⟨hmalformed, hmerged⟩
  exact ⟨_, p, hstart, hrun, hmalformed, hmerged, builtin_never_faults hstart hrun⟩

end Finder

end TpcTrigger
