import TpcTrigger.Proofs.Detection.CarriedStates
import TpcTrigger.Proofs.Pipeline.Crew
import TpcTrigger.Proofs.Signal.ShiftedLevels

/-! # Moving the baseline of a channel

Every channel of a readout has a pedestal of its own, and none of them matters.  If an offset is
added to all samples of a channel, and to the estimates that its state starts with, then the state
stays the same up to the offset and the hits stay the same altogether.  The offsets of the channels
have nothing to do with each other, also where channels share a register.

The estimates are meant to be away from the ends of the word range, before and after the move, as
those of every channel are that was started from a sample.
-/

namespace TpcTrigger

/-- A moved sample that stays in the range of samples. -/
def Admits (offset : Int) (x : UInt16) : Prop :=
  0 ≤ (x.toNat : Int) + offset ∧ (x.toNat : Int) + offset < UInt16.size

instance (offset : Int) (x : UInt16) : Decidable (Admits offset x) :=
  inferInstanceAs (Decidable (_ ∧ _))

def shiftSample (offset : Int) (x : UInt16) : UInt16 := .ofNat ((x.toNat : Int) + offset).toNat

theorem toNat_shiftSample {offset : Int} {x : UInt16} (h : Admits offset x) :
    ((shiftSample offset x).toNat : Int) = x.toNat + offset := by
  obtain ⟨hlow, hhigh⟩ := h
  obtain ⟨n, hn⟩ := Int.eq_ofNat_of_zero_le hlow
  rw [hn] at hhigh ⊢
  rw [shiftSample, hn, Int.toNat_natCast, UInt16.toNat_ofNat_of_lt' (Int.ofNat_lt.mp hhigh)]

namespace ChannelState

/-- The state with the estimates moved and everything else kept. -/
def shifted (offset : Int) (s : ChannelState) : ChannelState :=
  { s with baseline := s.baseline.shifted offset }

variable (kind : KernelKind) (limit : Int) (d : Detector) (offset : Int) (channel : Nat)
  (s : ChannelState)

@[simp] theorem baseline_shifted : (s.shifted offset).baseline = s.baseline.shifted offset := rfl

@[simp] theorem output_shifted : (s.shifted offset).output d = s.output d := rfl

theorem stepBy_shifted (sample : Int) :
    (s.shifted offset).stepBy (kind.rule limit) d (sample + offset) =
      ((s.stepBy (kind.rule limit) d sample).1.shifted offset,
        (s.stepBy (kind.rule limit) d sample).2) := by
  simp only [stepBy, baseline_shifted, output_shifted, Baseline.observeBy_shifted,
    Baseline.spread_shifted, Baseline.pedestal_shifted, Int.add_sub_add_right]
  rfl

theorem seed_shifted {x : UInt16} (h : Admits offset x) :
    s.seed (shiftSample offset x) = (s.seed x).shifted offset := by
  rw [seed, toNat_shiftSample h, shifted, seed, Baseline.start_shifted]

theorem advance_shifted {x : UInt16} (h : Admits offset x) :
    (s.shifted offset).advance (kind.rule limit) d (shiftSample offset x) =
      (s.advance (kind.rule limit) d x).shifted offset := by
  rw [advance, toNat_shiftSample h, stepBy_shifted]
  rfl

theorem hitAt_shifted (tick : Nat) {x : UInt16} (h : Admits offset x) :
    hitAt (kind.rule limit) d channel tick (s.shifted offset) (shiftSample offset x) =
      hitAt (kind.rule limit) d channel tick s x := by
  rw [hitAt, toNat_shiftSample h, stepBy_shifted]
  rfl

variable {xs : List UInt16} (hxs : ∀ x ∈ xs, Admits offset x)
include hxs

theorem after_shifted :
    (s.shifted offset).after (kind.rule limit) d (xs.map (shiftSample offset)) =
      (s.after (kind.rule limit) d xs).shifted offset := by
  induction xs generalizing s with
  | nil => rfl
  | cons x xs ih =>
    obtain ⟨hx, hxs⟩ := List.forall_mem_cons.mp hxs
    rw [List.map_cons, after_cons, advance_shifted kind limit d offset s hx, ih _ hxs, after_cons]

theorem hitsFrom_shifted (tick : Nat) :
    hitsFrom (kind.rule limit) d channel tick (s.shifted offset) (xs.map (shiftSample offset)) =
      hitsFrom (kind.rule limit) d channel tick s xs := by
  induction xs generalizing tick s with
  | nil => rfl
  | cons x xs ih =>
    obtain ⟨hx, hxs⟩ := List.forall_mem_cons.mp hxs
    rw [List.map_cons, hitsFrom, hitAt_shifted kind limit d offset channel s tick hx,
      advance_shifted kind limit d offset s hx, ih _ hxs, hitsFrom]

end ChannelState

namespace Window

variable (offset : Nat → Int) (w : Window)

/-- The window with the offset of its channel added to every sample. -/
def shifted : Window :=
  { w with block := .ofFn w.ticks fun channel tick =>
      shiftSample (offset channel) (w.block.sample channel tick) }

/-- A window whose moved samples all stay in the range of samples. -/
def Admits : Prop := ∀ channel < channelCount, ∀ tick < w.ticks,
  TpcTrigger.Admits (offset channel) (w.block.sample channel tick)

theorem sample_shifted {channel tick : Nat} (hchannel : channel < channelCount)
    (htick : tick < w.ticks) : (w.shifted offset).block.sample channel tick =
      shiftSample (offset channel) (w.block.sample channel tick) :=
  SampleBlock.sample_ofFn _ hchannel htick

theorem channelSamples_shifted {channel : Nat} (hchannel : channel < channelCount) :
    (w.shifted offset).block.channelSamples channel =
      (w.block.channelSamples channel).map (shiftSample (offset channel)) := by
  rw [SampleBlock.channelSamples, SampleBlock.channelSamples, List.map_map]
  apply List.map_congr_left
  intro tick htick
  exact w.sample_shifted offset hchannel (List.mem_range.mp htick)

variable {offset w} in
theorem Admits.channelSamples (h : w.Admits offset) {channel : Nat}
    (hchannel : channel < channelCount) :
    ∀ x ∈ w.block.channelSamples channel, TpcTrigger.Admits (offset channel) x := by
  intro x hx
  obtain ⟨tick, htick, rfl⟩ := List.mem_map.mp hx
  exact h channel hchannel tick (List.mem_range.mp htick)

end Window

def shiftStates (registers : RegisterRange) (offset : Nat → Int) (states : Array ChannelState) :
    Array ChannelState :=
  states.mapIdx fun i s => s.shifted (offset (registers.firstChannel + i))

section

variable (registers : RegisterRange) (offset : Nat → Int) (states : Array ChannelState)

@[simp] theorem size_shiftStates : (shiftStates registers offset states).size = states.size := by
  rw [shiftStates, Array.size_mapIdx]

theorem getD_shiftStates {i : Nat} (hi : i < states.size) :
    (shiftStates registers offset states).getD i default =
      (states.getD i default).shifted (offset (registers.firstChannel + i)) := by
  simp [shiftStates, Array.getD, hi]

theorem checkShape_shiftStates (p : DetectorParams) :
    checkShape registers (shiftStates registers offset states) p =
      checkShape registers states p := by
  have hzip : (shiftStates registers offset states).zipIdx = states.zipIdx.map fun x =>
      (x.1.shifted (offset (registers.firstChannel + x.2)), x.2) := by
    apply Array.ext
    · simp
    · intro i _ _
      simp [shiftStates]
  rw [checkShape, checkShape, size_shiftStates, hzip, Array.find?_map]
  have hfits : ((fun x : ChannelState × Nat => decide ¬ x.1.line.Fits p.filter.length) ∘
      fun x : ChannelState × Nat =>
        (x.1.shifted (offset (registers.firstChannel + x.2)), x.2)) =
          fun x : ChannelState × Nat => decide ¬ x.1.line.Fits p.filter.length := rfl
  rw [hfits]
  cases states.zipIdx.find? fun x => ¬ x.1.line.Fits p.filter.length <;> rfl

end

namespace KernelKind

variable (kind : KernelKind) (p : DetectorParams) (registers : RegisterRange)
  (offset : Nat → Int) (states : Array ChannelState)

/-- One call: it is refused for the same reason, or it finds the same hits and leaves moved
states. -/
theorem process_shifted {w : Window} (hadmits : w.Admits offset) (hits : Array Hit) :
    kind.process p registers (w.shifted offset) (shiftStates registers offset states) hits =
      (kind.process p registers w states hits).map fun found =>
        ⟨shiftStates registers offset found.states, found.hits⟩ := by
  rw [process_eq, process_eq, checkShape_shiftStates, size_shiftStates]
  cases hshape : checkShape registers states p with
  | error cause => rfl
  | ok u =>
    have hstate {i : Nat} (hi : i < states.size) :
        kind.stateAfter p registers (w.shifted offset) (shiftStates registers offset states) i =
          (kind.stateAfter p registers w states i).shifted (offset (registers.firstChannel + i)) := by
      have hchannel := channel_lt_of_checkShape hshape hi
      rw [stateAfter, getD_shiftStates _ _ _ hi, Window.channelSamples_shifted _ _ hchannel,
        ChannelState.after_shifted _ _ _ _ _ (hadmits.channelSamples hchannel)]
      rfl
    have hhits {i : Nat} (hi : i < states.size) :
        kind.hitsOf p registers (w.shifted offset) (shiftStates registers offset states) i =
          kind.hitsOf p registers w states i := by
      have hchannel := channel_lt_of_checkShape hshape hi
      rw [hitsOf, getD_shiftStates _ _ _ hi, Window.channelSamples_shifted _ _ hchannel,
        ChannelState.hitsFrom_shifted _ _ _ _ _ _ (hadmits.channelSamples hchannel)]
      rfl
    have hfound : kind.found p registers (w.shifted offset) (shiftStates registers offset states)
        hits states.size =
          ⟨shiftStates registers offset (kind.found p registers w states hits states.size).states,
            (kind.found p registers w states hits states.size).hits⟩ := by
      rw [found, found, List.flatMap_congr fun i hi => hhits (List.mem_range.mp hi)]
      congr 1
      apply Array.ext
      · simp
      · intro i hi _
        have hi : i < states.size := by simpa using hi
        simpa [shiftStates] using hstate hi
    rw [Except.map, Except.map, Except.map, hfound]

theorem processAll_shiftStates {windows : List Window} (hadmits : ∀ w ∈ windows, w.Admits offset) :
    kind.processAll p registers (shiftStates registers offset states)
        (windows.map (·.shifted offset)) =
      (kind.processAll p registers states windows).map
        (Prod.map (shiftStates registers offset) id) := by
  induction windows generalizing states with
  | nil => rfl
  | cons w ws ih =>
    obtain ⟨hw, hws⟩ := List.forall_mem_cons.mp hadmits
    rw [List.map_cons, processAll, kind.process_shifted p registers offset states hw, processAll]
    cases hprocess : kind.process p registers w states #[] with
    | error cause => rfl
    | ok found =>
      have hrest := ih found.states hws
      simp only [Except.map, bind, Except.bind] at hrest ⊢
      rw [hrest]
      cases kind.processAll p registers found.states ws <;> rfl

end KernelKind

/-- The worker with the state of every channel moved by the offset of the channel. -/
def Worker.shifted (offset : Nat → Int) (w : Worker) : Worker :=
  { w with states := shiftStates w.registers offset w.states }

/-- A worker that is started from a moved window has moved states. -/
theorem Worker.seed?_shifted (w : Worker) {offset : Nat → Int} {first : Window}
    (hticks : 0 < first.ticks) (hadmits : first.Admits offset) :
    w.seed? (first.shifted offset) = (w.seed? first).map (Worker.shifted offset) := by
  have hsame : 0 < (first.shifted offset).ticks := hticks
  by_cases hchannels : ∀ i < w.states.size, w.registers.firstChannel + i < channelCount
  · rw [seed?_eq_seeded hchannels hsame, seed?_eq_seeded hchannels hticks, Option.map_some, shifted,
      seeded, seeded]
    congr 2
    apply Array.ext
    · simp
    · intro i hi _
      have hi : i < w.states.size := by simpa using hi
      have hchannel := hchannels i hi
      have hsample := first.sample_shifted offset hchannel hticks
      have hseed := w.states[i].seed_shifted _ (hadmits _ hchannel 0 hticks)
      simpa [shiftStates, hsample] using hseed
  · push Not at hchannels
    obtain ⟨i, hi, houtside⟩ := hchannels
    rw [seed?_eq_none hi houtside hsame, seed?_eq_none hi houtside hticks]
    rfl

namespace KernelKind

/-- A search finds the same hits if the samples of every channel are moved by an offset of the
channel, and the states differ by that offset when it ends as they did when it began.  They do so
when they are started from the moved windows themselves.  The estimates are levels of the word range
away from its ends, as those of a started channel are. -/
theorem processAll_shifted (kind : KernelKind) (p : DetectorParams) (registers : RegisterRange)
    (states : Array ChannelState) (windows : List Window) (offset : Nat → Int)
    (hadmits : ∀ w ∈ windows, w.Admits offset) :
    kind.processAll p registers (shiftStates registers offset states)
          (windows.map (·.shifted offset)) =
        (kind.processAll p registers states windows).map
          (Prod.map (shiftStates registers offset) id) ∧
      ∀ (w : Worker), ∀ first ∈ windows, 0 < first.ticks →
        w.seed? (first.shifted offset) = (w.seed? first).map (Worker.shifted offset) :=
  ⟨kind.processAll_shiftStates p registers offset states hadmits,
    fun w first hfirst hticks => w.seed?_shifted hticks (hadmits first hfirst)⟩

/-- Neighbours in one register that are moved in opposite directions. -/
theorem processAll_shifted_apart :
    let p : DetectorParams := ⟨⟨#[1, -2, 64], 6⟩, 5, 0⟩
    let registers : RegisterRange := ⟨2, 3⟩
    let states : Array ChannelState := .replicate 16
      ⟨⟨.start 100, .start 99, .start 101⟩, .zeros 3, .none⟩
    let windows := [Window.repeated [100, 160, 90]]
    let offset (channel : Nat) : Int := if channel % 2 = 0 then 1000 else -90
    (∀ w ∈ windows, w.Admits offset) ∧
      KernelKind.lockstep.processAll p registers (shiftStates registers offset states)
          (windows.map (·.shifted offset)) =
        (KernelKind.lockstep.processAll p registers states windows).map
          (Prod.map (shiftStates registers offset) id) ∧
      ∀ (w : Worker), ∀ first ∈ windows, 0 < first.ticks →
        w.seed? (first.shifted offset) = (w.seed? first).map (Worker.shifted offset) := by
  intro p registers states windows offset
  have hadmits : ∀ w ∈ windows, w.Admits offset := by
    intro w hw channel hchannel tick htick
    obtain rfl := List.mem_singleton.mp hw
    have hboth : ∀ x ∈ ([100, 160, 90] : List UInt16), Admits 1000 x ∧ Admits (-90) x := by
      simp [Admits]
    rw [Window.sample_repeated _ hchannel htick]
    obtain ⟨hup, hdown⟩ := hboth _ (List.getElem_mem htick)
    by_cases heven : channel % 2 = 0
    · simpa only [offset, if_pos heven] using hup
    · simpa only [offset, if_neg heven] using hdown
  exact ⟨hadmits, KernelKind.lockstep.processAll_shifted p registers states windows offset hadmits⟩

end KernelKind

end TpcTrigger
