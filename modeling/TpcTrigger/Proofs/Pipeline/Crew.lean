import TpcTrigger.Proofs.Detection.ChannelSearch
import TpcTrigger.Proofs.Pipeline.DispatchCourse

/-! # The crew of a pipeline

However many workers are asked for, there is at least one, and their ranges follow each other
from the first register of a frame to the last.  So every channel belongs to one worker, the
channels of all workers in turn are those of the frame in order, and every worker can start its
baselines from any window.
-/

namespace TpcTrigger

namespace Partition

theorem parts_pos (workers : Nat) : 0 < parts workers := Nat.le_max_left _ _

theorem start_zero (n : Nat) : start n 0 = 0 := by simp [start]

theorem start_mono (n : Nat) {i j : Nat} (h : i ≤ j) : start n i ≤ start n j := by
  have hmul := Nat.mul_le_mul_right (registerCount / n) h
  rw [start, start]
  omega

/-- The last range ends with the last register. -/
theorem start_self {n : Nat} (hn : 0 < n) : start n n = registerCount := by
  have hmod := Nat.mod_lt registerCount hn
  have hdiv := Nat.div_add_mod registerCount n
  rw [start, Nat.min_eq_right (by omega)]
  exact hdiv

theorem flatMap_channelList_range (n k : Nat) :
    ((List.range k).flatMap fun i => RegisterRange.channelList ⟨start n i, start n (i + 1)⟩) =
      List.range (start n k * lanesPerRegister) := by
  induction k with
  | zero => simp [start_zero]
  | succ k ih =>
    have hmono : start n k ≤ start n (k + 1) := start_mono n (Nat.le_succ k)
    have hsplit : start n (k + 1) * lanesPerRegister = start n k * lanesPerRegister +
        (start n (k + 1) - start n k) * lanesPerRegister := by
      rw [← Nat.add_mul]
      congr 1
      omega
    rw [List.range_succ, List.flatMap_append, ih, List.flatMap_singleton, hsplit, List.range_add]
    rfl

theorem flatMap_channelList_ranges (workers : Nat) :
    (ranges workers).flatMap RegisterRange.channelList = List.range channelCount := by
  rw [ranges, List.flatMap_map, flatMap_channelList_range, start_self (parts_pos workers),
    ← channelCount_eq_registers]

theorem last_le_of_mem_ranges {workers : Nat} {r : RegisterRange} (h : r ∈ ranges workers) :
    r.first ≤ r.last ∧ r.last ≤ registerCount := by
  obtain ⟨i, hi, rfl⟩ := List.mem_map.mp h
  have hend := start_mono (parts workers) (Nat.succ_le_of_lt (List.mem_range.mp hi))
  rw [start_self (parts_pos workers)] at hend
  exact ⟨start_mono _ (Nat.le_succ i), hend⟩

end Partition

theorem mapM_eq_some {α β : Type} {f : α → Option β} {g : α → β} {xs : Array α}
    (h : ∀ x ∈ xs, f x = some (g x)) : xs.mapM f = some (xs.map g) := by
  have hlist (l : List α) (hl : ∀ x ∈ l, f x = some (g x)) : l.mapM f = some (l.map g) := by
    induction l with
    | nil => rfl
    | cons x l ih =>
      have hrest := ih fun y hy => hl y (List.mem_cons_of_mem _ hy)
      rw [List.mapM_cons, hl x (List.mem_cons_self ..), hrest]
      rfl
  rw [Array.mapM_eq_mapM_toList, hlist xs.toList fun x hx => h x (Array.mem_toList_iff.mp hx),
    ← Array.toList_map]
  rfl

theorem mapM_eq_none {α β : Type} {f : α → Option β} {xs : Array α} {x : α} (hx : x ∈ xs)
    (hnone : f x = none) : xs.mapM f = none := by
  have hlist (l : List α) (hl : x ∈ l) : l.mapM f = none := by
    induction l with
    | nil => cases hl
    | cons y l ih =>
      rw [List.mapM_cons]
      rcases List.mem_cons.mp hl with rfl | hrest
      · rw [hnone]
        rfl
      · rw [ih hrest]
        cases f y <;> rfl
  rw [Array.mapM_eq_mapM_toList, hlist xs.toList (Array.mem_toList_iff.mpr hx)]
  rfl

def Worker.seeded (w : Worker) (window : Window) : Worker :=
  { w with states := w.states.mapIdx fun i s =>
      s.seed (window.block.sample (w.registers.firstChannel + i) 0) }

theorem Worker.seed?_eq_seeded {w : Worker} {window : Window}
    (hchannels : ∀ i < w.states.size, w.registers.firstChannel + i < channelCount)
    (hticks : 0 < window.ticks) : w.seed? window = some (w.seeded window) := by
  have hplace : ∀ x ∈ w.states.zipIdx,
      (window.sample? (w.registers.firstChannel + x.2) 0).map x.1.seed =
        some (x.1.seed (window.block.sample (w.registers.firstChannel + x.2) 0)) := by
    intro x hx
    have hi : x.2 < w.states.size := by
      have := Array.mem_zipIdx_iff_getElem?.mp hx
      exact (Array.getElem?_eq_some_iff.mp this).1
    rw [Window.sample?, window.block.sample?_eq (hchannels x.2 hi) hticks]
    rfl
  rw [seed?, if_neg (by omega)]
  simp only [mapM_eq_some hplace, Option.bind_eq_bind, Option.bind_some, seeded]
  congr 2
  apply Array.ext
  · simp
  · intro i _ _
    simp

theorem Worker.seed?_eq {w : Worker} {window : Window} (hlast : w.registers.last ≤ registerCount)
    (hsize : w.states.size = w.registers.channels) (hticks : 0 < window.ticks) :
    w.seed? window = some (w.seeded window) := by
  refine seed?_eq_seeded (fun i hi => ?_) hticks
  simp only [hsize, RegisterRange.channels, RegisterRange.count, RegisterRange.firstChannel,
    lanesPerRegister_eq, registerCount_eq, channelCount_eq] at *
  omega

/-- A worker with a channel outside of the frame cannot be started. -/
theorem Worker.seed?_eq_none {w : Worker} {window : Window} {i : Nat} (hi : i < w.states.size)
    (houtside : channelCount ≤ w.registers.firstChannel + i) (hticks : 0 < window.ticks) :
    w.seed? window = none := by
  have hmem : (w.states[i], i) ∈ w.states.zipIdx :=
    Array.mem_zipIdx_iff_getElem?.mpr (Array.getElem?_eq_getElem hi)
  have hsample : (window.sample? (w.registers.firstChannel + i) 0).map w.states[i].seed = none := by
    rw [Window.sample?, window.block.sample?_eq_none houtside]
    rfl
  rw [seed?, if_neg (by omega), mapM_eq_none hmem hsample]
  rfl

namespace Settings

variable (s : Settings)

theorem crew_eq : s.crew = (Partition.ranges s.workers).zipIdx.map fun (registers, id) =>
    .fresh s.detectorParams id registers := by
  rw [crew, nodes, List.map_map]
  rfl

theorem crew_ne_nil : s.crew ≠ [] := by
  have hpos := Partition.parts_pos s.workers
  apply List.ne_nil_of_length_pos
  simpa [crew_eq, Partition.ranges] using hpos

theorem flatMap_channelList_crew :
    (s.crew.flatMap fun w => w.registers.channelList) = List.range channelCount := by
  have hranges : s.crew.map (·.registers) = Partition.ranges s.workers := by
    rw [crew_eq, List.map_map]
    exact List.zipIdx_map_fst 0 _
  rw [← Partition.flatMap_channelList_ranges s.workers, ← hranges, List.flatMap_map]

theorem registers_of_mem_crew {w : Worker} (h : w ∈ s.crew) :
    w.registers ∈ Partition.ranges s.workers ∧
      w.states = s.detectorParams.freshStates w.registers.count := by
  rw [crew_eq] at h
  obtain ⟨⟨r, id⟩, hr, rfl⟩ := List.mem_map.mp h
  exact ⟨List.fst_mem_of_mem_zipIdx hr, rfl⟩

theorem seed?_of_mem_crew {w : Worker} (h : w ∈ s.crew) {window : Window}
    (hticks : 0 < window.ticks) : w.seed? window = some (w.seeded window) := by
  obtain ⟨hrange, hstates⟩ := s.registers_of_mem_crew h
  apply Worker.seed?_eq (Partition.last_le_of_mem_ranges hrange).2 _ hticks
  rw [hstates, DetectorParams.freshStates, Array.size_replicate]
  rfl

theorem isSome_seed?_of_mem_crew {w : Worker} (h : w ∈ s.crew) (window : Window) :
    (w.seed? window).isSome := by
  rcases Nat.eq_zero_or_pos window.ticks with hzero | hpos
  · rw [Worker.seed?, if_pos hzero]
    rfl
  · rw [s.seed?_of_mem_crew h hpos]
    rfl

end Settings

end TpcTrigger
