import TpcTrigger.Proofs.Detection.CheckedAccess

/-! # Accesses by index on registers

The lockstep kernel gathers sixteen channels into a ring, reads and writes the ring by computed
slots, and in the end writes the entries of every lane back to the slots of its own line.  Each of
these accesses is checked as on a single channel.  On a call whose shapes line up all of them
answer, and both kernels compute what they compute without the checks.
-/

namespace TpcTrigger

def collect? {α : Type} {n : Nat} (f : Fin n → Option α) : Option (Vector α n) :=
  if h : ∀ i, (f i).isSome then some (.ofFn fun i => (f i).get (h i)) else none

theorem collect?_eq {α : Type} {n : Nat} {f : Fin n → Option α} {g : Fin n → α}
    (h : ∀ i, f i = some (g i)) : collect? f = some (.ofFn g) := by
  have hall : ∀ i, (f i).isSome := fun i => by rw [h i]; rfl
  rw [collect?, dif_pos hall]
  congr 2
  funext i
  simp only [h i, Option.get_some]

namespace DelayLine

/-- Writing the entries one after the other fills the slots of a line. -/
theorem foldl_write_eq {cells : Array Int} {n phase : Nat} (hsize : cells.size = n)
    (hphase : phase < n) (entries : Nat → Int) :
    (List.range n).foldl (fun cells k => cells.setIfInBounds ((k + phase) % n) (entries k)) cells =
      (ofEntries n phase entries).cells := by
  have hwritten (m : Nat) (hm : m ≤ n) :
      let done := (List.range m).foldl
        (fun cells k => cells.setIfInBounds ((k + phase) % n) (entries k)) cells
      done.size = n ∧ ∀ k < m, done[(k + phase) % n]? = some (entries k) := by
    induction m with
    | zero => exact ⟨hsize, fun k hk => absurd hk (Nat.not_lt_zero k)⟩
    | succ m ih =>
      obtain ⟨hdone, hread⟩ := ih (by omega)
      rw [List.range_succ, List.foldl_append, List.foldl_cons, List.foldl_nil]
      refine ⟨by rw [Array.size_setIfInBounds, hdone], fun k hk => ?_⟩
      have hslot : (m + phase) % n < n := Nat.mod_lt _ (by omega)
      by_cases hlast : k = m
      · rw [hlast, Array.getElem?_setIfInBounds_self_of_lt (by rw [hdone]; exact hslot)]
      · have hne : (m + phase) % n ≠ (k + phase) % n := by
          intro heq
          have hmod : m ≡ k [MOD n] := Nat.ModEq.add_right_cancel' phase heq
          have hsame : m = k := hmod.eq_of_lt_of_lt (by omega) (by omega)
          omega
        rw [Array.getElem?_setIfInBounds_ne hne]
        exact hread k (by omega)
  obtain ⟨hdone, hread⟩ := hwritten n le_rfl
  apply Array.ext
  · rw [hdone]
    simp [ofEntries]
  · intro slot hslot _
    rw [hdone] at hslot
    have hback : ((slot + (n - phase)) % n + phase) % n = slot := by
      rw [Nat.mod_add_mod, Nat.add_assoc, Nat.sub_add_cancel hphase.le, Nat.add_mod_right,
        Nat.mod_eq_of_lt hslot]
    have hcell := hread ((slot + (n - phase)) % n) (Nat.mod_lt _ (by omega))
    rw [hback] at hcell
    rw [(Array.getElem?_eq_some_iff.mp hcell).2]
    simp [ofEntries]

end DelayLine

namespace RegisterState

def load? (taps : Nat) (states : Lanes ChannelState) : Option RegisterState := do
  let ring ← collect? fun k : Fin taps => collect? fun l => (states.get l).line.entry? taps k
  return { load taps states with ring := ring.toArray }

def entry? (r : RegisterState) (taps k : Nat) : Option (Lanes Int) :=
  turned? r.ring r.phase taps k

def output? (taps : Array Int) (r : RegisterState) : Option (Lanes Int) :=
  (List.range taps.size).foldlM
    (fun sum i => do return sum.add ((← r.entry? taps.size i).scaleBy (← taps[i]?))) (.splat 0)

/-- Takes in one sample in every lane with every access checked. -/
def step? (d : Detector) (r : RegisterState) (sample : Lanes Int) :
    Option (RegisterState × Lanes (Option Excursion)) := do
  let median := r.median.observe d.stepLimit .full sample
  let lower := r.lower.observe d.stepLimit (sample.less median.estimate) sample
  let upper := r.upper.observe d.stepLimit (median.estimate.less sample) sample
  let output ← r.output? d.taps
  let ring ← write? r.ring r.phase ((sample.sub median.estimate).atMost d.ceiling)
  let phase ← remainder? (r.phase + 1) d.taps.size
  let spread := upper.estimate.sub lower.estimate
  let above := Lanes.less (spread.map d.threshold) output
  let charge := r.charge.replace above (r.charge.zipWith saturatingAdd (output.map d.height))
  let ticks := r.ticks.tally above
  let falling := r.isOpen.both above.invert
  return ({
    median, lower, upper, ring, phase
    isOpen := above
    charge := charge.replace falling (.splat 0)
    ticks := ticks.replace falling (.splat 0) },
    .ofFn fun l => if falling.test l then some ⟨true, charge.get l, ticks.get l⟩ else none)

/-- Stores one lane, entry by entry, with every access checked. -/
def store? (r : RegisterState) (taps walked : Nat) (l : Fin lanesPerRegister) (s : ChannelState) :
    Option ChannelState := do
  let phase ← remainder? (s.line.phase + walked) taps
  let cells ← (List.range taps).foldlM
    (fun cells k => do
      write? cells (← remainder? (k + phase) taps) ((← r.entry? taps k).get l)) s.line.cells
  return { r.store walked l s with line := ⟨cells, phase⟩ }

structure Fits (r : RegisterState) (taps : Nat) : Prop where
  size : r.ring.size = taps
  phase : r.phase < taps

variable {r : RegisterState} {taps : Nat} {d : Detector}

theorem load?_eq {states : Lanes ChannelState} (h : ∀ l, (states.get l).line.Fits taps) :
    load? taps states = some (load taps states) ∧ (load taps states).Fits taps := by
  have hring (k : Fin taps) : (collect? fun l => (states.get l).line.entry? taps k) =
      some (states.map fun s => s.line.entry k) := by
    rw [collect?_eq fun l => DelayLine.entry?_eq (h l) k]
    congr 1
    ext l hl
    simp [Vector.get]
  have hload : load? taps states = some (load taps states) := by
    rw [load?, collect?_eq hring]
    rfl
  refine ⟨hload, Array.size_ofFn, ?_⟩
  exact (h ⟨0, by decide⟩).pos

theorem Fits.pos (h : r.Fits taps) : 0 < taps := (Nat.zero_le _).trans_lt h.phase

theorem entry?_eq (h : r.Fits taps) (k : Nat) : r.entry? taps k = some (r.entry k) :=
  turned?_eq h.size h.pos k (.splat 0)

theorem output?_eq {taps : Array Int} (h : r.Fits taps.size) :
    r.output? taps = some (r.output taps) := by
  rw [output, fold_eq_foldl_range fun (sum : Lanes Int) i =>
    sum.add ((r.entry i).scaleBy (taps.getD i 0))]
  refine (foldlM_eq_some (I := fun _ => True) (fun sum i hi _ => ⟨?_, trivial⟩) trivial).1
  rw [entry?_eq h, Array.getElem?_eq_getElem (List.mem_range.mp hi), Array.getD,
    dif_pos (List.mem_range.mp hi)]
  rfl

theorem step?_eq (h : r.Fits d.taps.size) (sample : Lanes Int) :
    r.step? d sample = some (r.step d sample) := by
  have hphase : r.phase < r.ring.size := by
    rw [h.size]
    exact h.phase
  rw [step?, output?_eq h, step, h.size, remainder?_eq h.pos]
  simp only [write?_eq hphase]
  rfl

theorem Fits.step (h : r.Fits taps) (d : Detector) (sample : Lanes Int) :
    (r.step d sample).1.Fits taps where
  size := (Array.size_setIfInBounds ..).trans h.size
  phase := by
    simp only [RegisterState.step, h.size]
    exact Nat.mod_lt _ h.pos

theorem store?_eq (h : r.Fits taps) {s : ChannelState} (hs : s.line.Fits taps) (walked : Nat)
    (l : Fin lanesPerRegister) : r.store? taps walked l s = some (r.store walked l s) := by
  have hphase := Nat.mod_lt (s.line.phase + walked) h.pos
  have hwrite := (foldlM_eq_some (l := List.range taps) (s := s.line.cells)
    (f := fun cells k => do
      write? cells (← remainder? (k + (s.line.phase + walked) % taps) taps)
        ((← r.entry? taps k).get l))
    (g := fun cells k => cells.setIfInBounds ((k + (s.line.phase + walked) % taps) % taps)
      ((r.entry k).get l)) (I := fun cells => cells.size = taps) (by
      intro cells k _ hcells
      have hslot := Nat.mod_lt (k + (s.line.phase + walked) % taps) h.pos
      rw [remainder?_eq h.pos, entry?_eq h]
      exact ⟨write?_eq (hcells ▸ hslot) _, (Array.size_setIfInBounds ..).trans hcells⟩) hs.1).1
  rw [DelayLine.foldl_write_eq hs.1 hphase fun k => (r.entry k).get l] at hwrite
  rw [store?, remainder?_eq h.pos]
  simp only [Option.bind_eq_bind, Option.bind_some] at hwrite ⊢
  rw [hwrite, store, h.size]
  rfl

end RegisterState

/-- Walks over the samples of one tick with every access checked. -/
def RegisterWalk.step? (d : Detector) (firstChannel : Nat) (w : RegisterWalk)
    (sample : Lanes UInt16) : Option RegisterWalk := do
  let (state, closed) ← w.state.step? d (sample.map fun x => Int.ofNat x.toNat)
  return {
    state
    tick := w.tick + 1
    hits :=
      if closed.any Option.isSome then
        .ofFn fun l => match closed.get l with
          | some e => (w.hits.get l).push ⟨firstChannel + l, w.tick, e.charge, e.ticks⟩
          | none => w.hits.get l
      else w.hits }

theorem RegisterWalk.step?_eq {d : Detector} {w : RegisterWalk} (h : w.state.Fits d.taps.size)
    (firstChannel : Nat) (sample : Lanes UInt16) :
    w.step? d firstChannel sample = some (w.step d firstChannel sample) := by
  rw [step?, RegisterState.step?_eq h]
  rfl

namespace Lockstep

def walk? (d : Detector) (window : Window) (register : Nat) (states : Lanes ChannelState) :
    Option RegisterWalk := do
  let state ← RegisterState.load? d.taps.size states
  (List.range window.ticks).foldlM
    (fun w tick => do
      w.step? d (register * lanesPerRegister) (← window.lanes? register tick))
    ⟨state, 0, .splat #[]⟩

def next? (d : Detector) (window : Window) (registers : RegisterRange)
    (states : Array ChannelState) (done : Detections) (i : Nat) : Option Detections := do
  let loaded ← collect? fun l : Fin lanesPerRegister => states[i * lanesPerRegister + l]?
  let w ← walk? d window (registers.first + i) loaded
  let stored ← collect? fun l => w.state.store? d.taps.size window.ticks l (loaded.get l)
  return ⟨done.states ++ stored.toArray, w.hits.foldl (· ++ ·) done.hits⟩

/-- Searches the registers of an accepted call with every access checked. -/
def checked? (p : DetectorParams) (registers : RegisterRange) (window : Window)
    (states : Array ChannelState) (hits : Array Hit) : Option Detections :=
  (List.range registers.count).foldlM (next? p.detector window registers states) ⟨#[], hits⟩

variable {d : Detector} {register : Nat} {states : Lanes ChannelState}

theorem walk?_eq (window : Window) (hregister : register < registerCount)
    (hfit : ∀ l, (states.get l).line.Fits d.taps.size) :
    walk? d window register states = some (walk d window register states) ∧
      (walk d window register states).state.Fits d.taps.size := by
  obtain ⟨hload, hring⟩ := RegisterState.load?_eq hfit
  rw [walk?, hload, walk, registerSamples, List.foldl_map]
  refine foldlM_eq_some (I := fun w : RegisterWalk => w.state.Fits d.taps.size) ?_ hring
  intro w tick htick hw
  obtain ⟨lanes, hlanes⟩ : ∃ lanes, window.lanes? register tick = some lanes :=
    ⟨_, window.block.lanes?_eq hregister (List.mem_range.mp htick)⟩
  rw [hlanes]
  exact ⟨RegisterWalk.step?_eq hw _ _, hw.step d _⟩

theorem next?_eq {p : DetectorParams} {registers : RegisterRange} {states : Array ChannelState}
    (hshape : checkShape registers states p = .ok ()) (window : Window) {i : Nat}
    (hi : i < registers.count) (done : Detections) :
    next? p.detector window registers states done i =
      some (next p.detector window registers states done i) := by
  obtain ⟨⟨hfirst, hlast⟩, hsize, hfit⟩ := checkShape_eq_ok_iff.mp hshape
  have hregister : registers.first + i < registerCount := by
    rw [RegisterRange.count] at hi
    omega
  have hplace (l : Fin lanesPerRegister) : i * lanesPerRegister + l < states.size := by
    have hl := l.isLt
    rw [hsize, RegisterRange.channels]
    simp only [lanesPerRegister_eq] at hl ⊢
    omega
  have hload : (collect? fun l : Fin lanesPerRegister => states[i * lanesPerRegister + l]?) =
      some (.ofFn fun l => states.getD (i * lanesPerRegister + l) default) := by
    apply collect?_eq
    intro l
    rw [Array.getElem?_eq_getElem (hplace l), Array.getD, dif_pos (hplace l)]
    rfl
  rw [next?, hload, next]
  generalize hloaded : (Vector.ofFn fun l : Fin lanesPerRegister =>
    states.getD (i * lanesPerRegister + l) default) = loaded
  have hfits (l : Fin lanesPerRegister) : (loaded.get l).line.Fits p.detector.taps.size := by
    rw [← hloaded, Lanes.get_ofFn]
    exact hfit _ (getD_mem (hplace l))
  obtain ⟨hwalk, hring⟩ := walk?_eq window hregister hfits
  simp only [Option.bind_eq_bind, Option.bind_some, hwalk]
  rw [collect?_eq fun l => RegisterState.store?_eq hring (hfits l) window.ticks l]
  rfl

theorem checked?_eq {p : DetectorParams} {registers : RegisterRange} {states : Array ChannelState}
    (hshape : checkShape registers states p = .ok ()) (window : Window) (hits : Array Hit) :
    checked? p registers window states hits =
      some (KernelKind.lockstep.found p registers window states hits states.size) := by
  have hsize := (checkShape_eq_ok_iff.mp hshape).2.1
  rw [hsize, RegisterRange.channels, ← foldl_next p registers window states hits hshape le_rfl]
  refine (foldlM_eq_some (I := fun _ => True) (fun done i hi _ => ⟨?_, trivial⟩) trivial).1
  exact next?_eq hshape window (List.mem_range.mp hi) done

end Lockstep

/-- A built-in kernel on an accepted call with every access by index checked. -/
def KernelKind.checked? (kind : KernelKind) (p : DetectorParams) (registers : RegisterRange)
    (window : Window) (states : Array ChannelState) (hits : Array Hit) : Option Detections :=
  match kind with
  | channelwise => Channelwise.checked? p registers window states hits
  | lockstep => Lockstep.checked? p registers window states hits

/-- On a call whose shapes line up every access lies inside, and the kernels compute what they
compute without the checks. -/
theorem KernelKind.checked?_eq (kind : KernelKind) {p : DetectorParams}
    {registers : RegisterRange} {states : Array ChannelState}
    (hshape : checkShape registers states p = .ok ()) (window : Window) (hits : Array Hit) :
    ∃ found, kind.checked? p registers window states hits = some found ∧
      kind.process p registers window states hits = .ok found := by
  refine ⟨_, ?_, kind.process_eq_ok hshape window hits⟩
  cases kind with
  | channelwise => exact Channelwise.checked?_eq hshape window hits
  | lockstep => exact Lockstep.checked?_eq hshape window hits

end TpcTrigger
