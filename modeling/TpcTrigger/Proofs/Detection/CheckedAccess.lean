import TpcTrigger.Proofs.Detection.KernelForm

/-! # Accesses by index on one channel

A channel reads its samples and its delay line by indices that are worked out.  Here every such
access answers only if its index lies inside, and a remainder only if the divisor is not zero.  On
a delay line that fits the filter all of them answer, and what comes out is what the channelwise
kernel computes.
-/

namespace TpcTrigger

def remainder? (a n : Nat) : Option Nat := if n = 0 then none else some (a % n)

theorem remainder?_eq {n : Nat} (hn : 0 < n) (a : Nat) : remainder? a n = some (a % n) :=
  if_neg (Nat.ne_of_gt hn)

def write? {α : Type} (cells : Array α) (i : Nat) (x : α) : Option (Array α) :=
  if i < cells.size then some (cells.setIfInBounds i x) else none

theorem write?_eq {α : Type} {cells : Array α} {i : Nat} (hi : i < cells.size) (x : α) :
    write? cells i x = some (cells.setIfInBounds i x) :=
  if_pos hi

/-- The entry of a ring that is `k` places behind a slot, when `taps` slots are counted. -/
def turned? {α : Type} (cells : Array α) (phase taps k : Nat) : Option α := do
  cells[← remainder? (k + phase) taps]?

theorem turned?_eq {α : Type} {cells : Array α} {phase taps : Nat} (hsize : cells.size = taps)
    (hpos : 0 < taps) (k : Nat) (otherwise : α) :
    turned? cells phase taps k = some (cells.getD ((k + phase) % cells.size) otherwise) := by
  have hslot : (k + phase) % taps < cells.size := by
    rw [hsize]
    exact Nat.mod_lt _ hpos
  rw [turned?, remainder?_eq hpos, Option.bind_eq_bind, Option.bind_some,
    Array.getElem?_eq_getElem hslot, hsize, Array.getD, dif_pos hslot]
  rfl

theorem fold_eq_foldl_range {σ : Type} (f : σ → Nat → σ) (n : Nat) (s : σ) :
    n.fold (fun i _ s => f s i) s = (List.range n).foldl f s := by
  induction n with
  | zero => rfl
  | succ n ih =>
    rw [Nat.fold_succ, ih, List.range_succ, List.foldl_append]
    rfl

/-- A loop of steps that answer as long as an invariant holds. -/
theorem foldlM_eq_some {α σ : Type} {f : σ → α → Option σ} {g : σ → α → σ} {I : σ → Prop}
    {l : List α} (hstep : ∀ s, ∀ x ∈ l, I s → f s x = some (g s x) ∧ I (g s x)) {s : σ}
    (hI : I s) : l.foldlM f s = some (l.foldl g s) ∧ I (l.foldl g s) := by
  induction l generalizing s with
  | nil => exact ⟨rfl, hI⟩
  | cons x l ih =>
    rcases hstep s x (List.mem_cons_self ..) hI with ⟨hx, hnext⟩
    rw [List.foldlM_cons, hx]
    exact ih (fun s y hy => hstep s y (List.mem_cons_of_mem _ hy)) hnext

namespace DelayLine

/-- The entry that is `k` places younger than the oldest, for a filter of `taps` taps. -/
def entry? (line : DelayLine) (taps k : Nat) : Option Int :=
  turned? line.cells line.phase taps k

def push? (line : DelayLine) (taps : Nat) (sample : Int) : Option DelayLine := do
  let cells ← write? line.cells line.phase sample
  let phase ← remainder? (line.phase + 1) taps
  return ⟨cells, phase⟩

def output? (taps : Array Int) (line : DelayLine) : Option Int :=
  (List.range taps.size).foldlM
    (fun sum i => do return wrap (sum + wrap ((← taps[i]?) * (← line.entry? taps.size i)))) 0

variable {line : DelayLine} {n : Nat}

theorem Fits.pos (h : line.Fits n) : 0 < n := (Nat.zero_le _).trans_lt h.2

theorem entry?_eq (h : line.Fits n) (k : Nat) : line.entry? n k = some (line.entry k) :=
  turned?_eq h.1 h.pos k 0

theorem push?_eq (h : line.Fits n) (sample : Int) :
    line.push? n sample = some (line.push sample) := by
  have hphase : line.phase < line.cells.size := by
    rw [h.1]
    exact h.2
  rw [push?, write?_eq hphase, remainder?_eq h.pos, push, h.1]
  rfl

theorem output?_eq {taps : Array Int} (h : line.Fits taps.size) :
    line.output? taps = some (line.output taps) := by
  rw [output, fold_eq_foldl_range fun sum i => wrap (sum + wrap (taps.getD i 0 * line.entry i))]
  refine (foldlM_eq_some (I := fun _ => True) (fun sum i hi _ => ⟨?_, trivial⟩) trivial).1
  rw [Array.getElem?_eq_getElem (List.mem_range.mp hi), entry?_eq h, Array.getD,
    dif_pos (List.mem_range.mp hi)]
  rfl

end DelayLine

def Window.channelSample? (window : Window) (channel tick : Nat) : Option UInt16 := do
  (← window.lanes? (channel / lanesPerRegister) tick)[channel % lanesPerRegister]?

theorem Window.channelSample?_eq (window : Window) {channel tick : Nat}
    (hchannel : channel < channelCount) (htick : tick < window.ticks) :
    window.channelSample? channel tick = some (window.block.sample channel tick) := by
  have hregister : channel / lanesPerRegister < registerCount := by
    rw [channelCount_eq] at hchannel
    rw [lanesPerRegister_eq, registerCount_eq]
    omega
  have hlane : channel % lanesPerRegister < lanesPerRegister := Nat.mod_lt _ (by decide)
  rw [channelSample?, Window.lanes?, window.block.lanes?_eq hregister htick, Option.bind_eq_bind,
    Option.bind_some, Vector.getElem?_eq_getElem hlane, Vector.getElem_ofFn]
  simp only [Nat.div_add_mod']

def ChannelState.step? (d : Detector) (s : ChannelState) (sample : Int) :
    Option (ChannelState × Option Excursion) := do
  let baseline := s.baseline.observe d.stepLimit sample
  let output ← s.line.output? d.taps
  let line ← s.line.push? d.taps.size (min (wrap (sample - baseline.pedestal)) d.ceiling)
  let above := d.threshold baseline.spread < output
  return ({ baseline, line, excursion := s.excursion.step above (d.height output) },
    s.excursion.closed? above)

theorem ChannelState.step?_eq {d : Detector} {s : ChannelState} (h : s.line.Fits d.taps.size)
    (sample : Int) : s.step? d sample = some (s.step d sample) := by
  rw [step?, DelayLine.output?_eq h, DelayLine.push?_eq h]
  rfl

def ChannelWalk.step? (d : Detector) (channel : Nat) (w : ChannelWalk) (sample : UInt16) :
    Option ChannelWalk := do
  let (state, closed) ← w.state.step? d sample.toNat
  return {
    state
    tick := w.tick + 1
    hits := match closed with
      | some e => w.hits.push ⟨channel, w.tick, e.charge, e.ticks⟩
      | none => w.hits }

theorem ChannelWalk.step?_eq {d : Detector} {w : ChannelWalk} (h : w.state.line.Fits d.taps.size)
    (channel : Nat) (sample : UInt16) :
    w.step? d channel sample = some (w.step d channel sample) := by
  rw [step?, ChannelState.step?_eq h]
  rfl

namespace Channelwise

def walk? (d : Detector) (window : Window) (channel : Nat) (s : ChannelState) (hits : Array Hit) :
    Option ChannelWalk :=
  (List.range window.ticks).foldlM
    (fun w tick => do w.step? d channel (← window.channelSample? channel tick)) ⟨s, 0, hits⟩

def next? (d : Detector) (window : Window) (firstChannel : Nat) (done : Detections)
    (s : ChannelState) : Option Detections := do
  let w ← walk? d window (firstChannel + done.states.size) s done.hits
  return ⟨done.states.push w.state, w.hits⟩

/-- Searches the channels of an accepted call with every access checked. -/
def checked? (p : DetectorParams) (registers : RegisterRange) (window : Window)
    (states : Array ChannelState) (hits : Array Hit) : Option Detections :=
  states.toList.foldlM (next? p.detector window registers.firstChannel) ⟨#[], hits⟩

variable {d : Detector} {window : Window} {channel : Nat} {s : ChannelState}

theorem walk?_eq (hchannel : channel < channelCount) (hfit : s.line.Fits d.taps.size)
    (hits : Array Hit) : walk? d window channel s hits = some (walk d window channel s hits) := by
  rw [walk, ChannelWalk.run, SampleBlock.channelSamples, List.foldl_map]
  refine (foldlM_eq_some (I := fun w => w.state.line.Fits d.taps.size) ?_ hfit).1
  intro w tick htick hw
  rw [window.channelSample?_eq hchannel (List.mem_range.mp htick)]
  exact ⟨ChannelWalk.step?_eq hw _ _, hw.push _⟩

/-- The channels left to search belong to the frame. -/
theorem foldlM_next? {firstChannel : Nat} {xs : List ChannelState} {done : Detections}
    (hroom : firstChannel + done.states.size + xs.length ≤ channelCount)
    (hfit : ∀ s ∈ xs, s.line.Fits d.taps.size) :
    xs.foldlM (next? d window firstChannel) done =
      some (xs.foldl (next d window firstChannel) done) := by
  induction xs generalizing done with
  | nil => rfl
  | cons s xs ih =>
    rw [List.length_cons] at hroom
    have hstep : next? d window firstChannel done s = some (next d window firstChannel done s) := by
      rw [next?, walk?_eq (by omega) (hfit s (List.mem_cons_self ..))]
      rfl
    have hsize : (next d window firstChannel done s).states.size = done.states.size + 1 :=
      Array.size_push ..
    rw [List.foldlM_cons, hstep]
    exact ih (by rw [hsize]; omega) fun t ht => hfit t (List.mem_cons_of_mem _ ht)

theorem checked?_eq {p : DetectorParams} {registers : RegisterRange} {states : Array ChannelState}
    (hshape : checkShape registers states p = .ok ()) (window : Window) (hits : Array Hit) :
    checked? p registers window states hits =
      some (KernelKind.channelwise.found p registers window states hits states.size) := by
  obtain ⟨⟨hfirst, hlast⟩, hsize, hfit⟩ := checkShape_eq_ok_iff.mp hshape
  rw [← foldl_next, ← Array.foldl_toList]
  apply foldlM_next?
  · simp only [Array.length_toList, hsize, RegisterRange.channels, RegisterRange.count,
      RegisterRange.firstChannel, lanesPerRegister_eq, registerCount_eq, channelCount_eq,
      Array.size_empty] at hfirst hlast ⊢
    omega
  · exact fun s hs => hfit s (Array.mem_toList_iff.mp hs)

end Channelwise

end TpcTrigger
