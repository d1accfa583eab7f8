import TpcTrigger.Pipeline.Reference
import TpcTrigger.Proofs.Pipeline.MergeCourse
import TpcTrigger.Proofs.Pipeline.Crew
import TpcTrigger.Proofs.Settings.CheckedSettings

/-! # Workers side by side and a search on a single thread

Under checked settings and with a kernel that is built in, the batch of a window holds what a
search of all registers at once finds in it, stamped with the time of the window.  So the store
of the pipeline after a number of windows is that of a single thread after the same windows.
-/

namespace TpcTrigger

namespace Worker

variable {p : DetectorParams} {w : Worker} {first : Window}

theorem process_eq (hlimit : 1 ≤ p.stepLimit) (htaps : 0 < p.filter.length) (kind : KernelKind)
    (hr : w.registers.first ≤ w.registers.last ∧ w.registers.last ≤ registerCount)
    {before : List Window} (hstates : w.states = p.statesOn first before w.registers)
    (window : Window) :
    let hits := (w.registers.channelList.flatMap (p.hitsIn first before window)).toArray
    w.process ⟨kind.kernel, p⟩ window =
      ({ w with
          states := p.statesOn first (before ++ [window]) w.registers
          windows := w.windows + 1
          hits := w.hits + hits.size },
        ⟨w.id, window.sequence, window.timestamp, hits, false⟩) := by
  have hkernel := p.process_statesOn hlimit htaps kind hr first before window
  simp only [process, KernelKind.kernel, hstates, hkernel]
  rfl

theorem results_windows (hlimit : 1 ≤ p.stepLimit) (htaps : 0 < p.filter.length)
    (kind : KernelKind)
    (hr : w.registers.first ≤ w.registers.last ∧ w.registers.last ≤ registerCount)
    {before : List Window} (hstates : w.states = p.statesOn first before w.registers)
    (windows : List Window) :
    w.results ⟨kind.kernel, p⟩ (windows.map .window) = windows.mapIdx fun k window =>
      ⟨w.id, window.sequence, window.timestamp,
        (w.registers.channelList.flatMap (p.hitsIn first (before ++ windows.take k) window)).toArray,
        false⟩ := by
  induction windows generalizing w before with
  | nil => rfl
  | cons window windows ih =>
    have hprocess := process_eq hlimit htaps kind hr hstates window
    obtain ⟨next, hnext⟩ : ∃ next, next = (w.process ⟨kind.kernel, p⟩ window).1 := ⟨_, rfl⟩
    have hid : next.id = w.id := by rw [hnext, hprocess]
    have hregisters : next.registers = w.registers := by rw [hnext, hprocess]
    have hafter : next.states = p.statesOn first (before ++ [window]) next.registers := by
      rw [hregisters, hnext, hprocess]
    rw [List.map_cons, results, List.mapIdx_cons]
    simp only [handle, ← hnext]
    rw [ih (hregisters ▸ hr) hafter, hprocess]
    simp [hid, hregisters]

theorem states_seeded {w : Worker} (hfresh : w.states = p.freshStates w.registers.count)
    (window : Window) : (w.seeded window).states = p.statesOn window [] w.registers := by
  rw [seeded, hfresh, p.statesOn_nil]

end Worker

theorem batchHits_eq (batch : List WindowResult) :
    batchHits batch = (batch.flatMap (·.hits.toList)).toArray := by
  have hjoin := foldl_append_toArray (fun r : WindowResult => r.hits.toList) batch #[]
  rw [Array.empty_append] at hjoin
  exact hjoin

namespace Settings

variable {s : Settings}

theorem resultAt_of_mem_crew (hs : s.Checked) (kind : KernelKind) {w : Worker} (hw : w ∈ s.crew)
    {first : Window} (hticks : 0 < first.ticks) (rest : List Window) {k : Nat} {window : Window}
    (hwindow : (first :: rest)[k]? = some window) :
    w.resultAt (s.method kind.kernel) (first :: rest) k =
      ⟨w.id, window.sequence, window.timestamp,
        (w.registers.channelList.flatMap
          (s.detectorParams.hitsIn first ((first :: rest).take k) window)).toArray, false⟩ := by
  obtain ⟨hrange, hfresh⟩ := s.registers_of_mem_crew hw
  have htaps : 0 < s.detectorParams.filter.length := by
    rw [detectorParams, length_filter hs]
    exact tapCount_pos hs
  have horders : ordersFor (first :: rest) false =
      .seed first :: (first :: rest).map .window := by simp [ordersFor]
  have hseed : w.handle (s.method kind.kernel) (.seed first) = (w.seeded first, none) := by
    rw [Worker.handle, s.seed?_of_mem_crew hw hticks, Option.getD_some]
  have hresults := Worker.results_windows (w := w.seeded first) hs.one_le_stepLimit htaps kind
    (Partition.last_le_of_mem_ranges hrange) (Worker.states_seeded hfresh first) (first :: rest)
  rw [Worker.resultAt, horders, Worker.results, hseed, Option.toList_none, List.nil_append]
  rw [method, hresults, List.getD_eq_getElem?_getD, List.getElem?_mapIdx, hwindow]
  rfl

theorem batchAt_eq (hs : s.Checked) (kind : KernelKind) {first : Window}
    (hticks : 0 < first.ticks) (rest : List Window) {k : Nat} {window : Window}
    (hwindow : (first :: rest)[k]? = some window) :
    let batch := s.batchAt (s.method kind.kernel) (first :: rest) k
    batchTime batch = window.timestamp ∧
      batchHits batch = (RegisterRange.all.channelList.flatMap
        (s.detectorParams.hitsIn first ((first :: rest).take k) window)).toArray := by
  intro batch
  have hbatch : batch = s.crew.map fun w => (⟨w.id, window.sequence, window.timestamp,
      (w.registers.channelList.flatMap
        (s.detectorParams.hitsIn first ((first :: rest).take k) window)).toArray, false⟩ :
        WindowResult) := by
    apply List.map_congr_left
    intro w hw
    exact resultAt_of_mem_crew hs kind hw hticks rest hwindow
  constructor
  · rw [hbatch, batchTime]
    cases hcrew : s.crew with
    | nil => exact absurd hcrew s.crew_ne_nil
    | cons w crew => rfl
  · rw [hbatch, batchHits_eq, List.flatMap_map, RegisterRange.channelList_all,
      ← s.flatMap_channelList_crew, List.flatMap_assoc]

end Settings

namespace Reference

variable (p : DetectorParams) (r : Reference)

/-- A search does not look at the superchunks that are gathered already. -/
theorem search_assembly (assembly : Assembly) (window : Window) :
    { r with assembly }.search p window = { r.search p window with assembly } := by
  simp only [search]
  split <;> rfl

theorem foldl_search_assembly (assembly : Assembly) (windows : List Window) :
    windows.foldl (search p) { r with assembly } =
      { windows.foldl (search p) r with assembly } := by
  induction windows generalizing r with
  | nil => rfl
  | cons window windows ih => rw [List.foldl_cons, List.foldl_cons, search_assembly, ih]

theorem run_eq (superchunks : List ByteArray)
    (hsize : ∀ bytes ∈ superchunks, Superchunk.checkSize bytes = .ok ()) :
    r.run p superchunks =
      { (r.assembly.completed (superchunks.map .ofBytes)).foldl (search p) r with
        assembly := r.assembly.after (superchunks.map .ofBytes) } := by
  induction superchunks generalizing r with
  | nil => rfl
  | cons bytes superchunks ih =>
    have haccept : r.accept p bytes =
        { (r.assembly.push (.ofBytes bytes)).2.toList.foldl (search p) r with
          assembly := (r.assembly.push (.ofBytes bytes)).1 } := by
      rw [accept, Superchunk.decode_eq (hsize bytes (List.mem_cons_self ..))]
      rcases hpush : r.assembly.push (.ofBytes bytes) with ⟨assembly, _ | window⟩
      · simp [hpush]
      · simp [hpush, search_assembly]
    rw [run_cons, ih _ fun chunk hchunk => hsize chunk (List.mem_cons_of_mem _ hchunk), haccept,
      foldl_search_assembly, List.map_cons, Assembly.completed, List.foldl_append]
    rfl

variable {p r} {first : Window}

theorem seeded_freshStates (p : DetectorParams) (window : Window) :
    seeded (p.freshStates registerCount) window = p.statesOn window [] .all := by
  simp [p.statesOn_nil, seeded, RegisterRange.firstChannel, RegisterRange.count, RegisterRange.all]

theorem search_eq (hlimit : 1 ≤ p.stepLimit) (htaps : 0 < p.filter.length)
    {before : List Window} {window : Window}
    (hstates : (if r.windows = 0 then seeded r.states window else r.states) =
      p.statesOn first before .all) :
    r.search p window =
      { r with
        states := p.statesOn first (before ++ [window]) .all
        store := r.store.pushBatch window.timestamp
          (RegisterRange.all.channelList.flatMap (p.hitsIn first before window)).toArray
        windows := r.windows + 1 } := by
  have hkernel : Channelwise.process p .all window (p.statesOn first before .all) #[] = _ :=
    p.process_statesOn hlimit htaps .channelwise (by decide) first before window
  rw [search]
  simp only [hstates, hkernel]

def afterWindows (s : Settings) (windows : List Window) : Reference :=
  windows.foldl (search s.detectorParams) (start s)

theorem afterWindows_append_singleton (s : Settings) (windows : List Window) (window : Window) :
    afterWindows s (windows ++ [window]) =
      (afterWindows s windows).search s.detectorParams window := by
  rw [afterWindows, List.foldl_append]
  rfl

/-- After any number of windows the store of the single thread is that of the workers. -/
theorem afterWindows_take {s : Settings} (hs : s.Checked) (kind : KernelKind) {first : Window}
    (hticks : 0 < first.ticks) (rest : List Window) {n : Nat} (hn : n ≤ (first :: rest).length) :
    let after := afterWindows s ((first :: rest).take n)
    after.windows = n ∧ after.store = s.storeAfter (s.method kind.kernel) (first :: rest) n ∧
      (if n = 0 then seeded after.states first else after.states) =
        s.detectorParams.statesOn first ((first :: rest).take n) .all := by
  intro after
  induction n with
  | zero =>
    refine ⟨rfl, rfl, ?_⟩
    rw [if_pos rfl]
    exact seeded_freshStates s.detectorParams first
  | succ n ih =>
    obtain ⟨hwindows, hstore, hstates⟩ := ih (by omega)
    have htaps : 0 < s.detectorParams.filter.length := by
      rw [Settings.detectorParams, Settings.length_filter hs]
      exact Settings.tapCount_pos hs
    obtain ⟨window, hwindow⟩ : ∃ window, (first :: rest)[n]? = some window :=
      ⟨_, List.getElem?_eq_getElem (by omega)⟩
    obtain ⟨htime, hhits⟩ := Settings.batchAt_eq hs kind hticks rest hwindow
    have htake : (first :: rest).take (n + 1) = (first :: rest).take n ++ [window] := by
      rw [List.take_add_one, hwindow]
      rfl
    generalize hbefore : afterWindows s ((first :: rest).take n) = before at hwindows hstore hstates
    -- the first window is also the one that the channels are started from
    have hready : (if before.windows = 0 then seeded before.states window else before.states) =
        s.detectorParams.statesOn first ((first :: rest).take n) .all := by
      rw [hwindows, ← hstates]
      by_cases hzero : n = 0
      · subst hzero
        obtain rfl := Option.some.inj hwindow
        rfl
      · rw [if_neg hzero, if_neg hzero]
    have hafter : after = before.search s.detectorParams window := by
      rw [← hbefore, ← afterWindows_append_singleton, ← htake]
    rw [hafter, search_eq hs.one_le_stepLimit htaps hready, if_neg (Nat.succ_ne_zero n), htake]
    refine ⟨by rw [hwindows], ?_, rfl⟩
    rw [s.storeAfter_succ, htime, hhits, ← hstore]

end Reference

end TpcTrigger
