import TpcTrigger.Synthetic.Stream
import Mathlib.Tactic

/-! # Synthetic streams sample by sample

A synthetic stream is a walk over its samples: sample number `i` is that of channel
`i % channelCount` at tick `i / channelCount`.  Superchunks are cut from the walk at multiples of
`superchunkSamples`, and a superchunk adds nothing to it but its time.
-/

namespace TpcTrigger

def SampleDraws.noise (draws : SampleDraws) : Int := (draws.first + draws.second).tdiv 2

namespace SyntheticSettings

/-- How many ticks the pulse on a channel goes on for, the one at hand included. -/
def running (s : SyntheticSettings) (remaining : Nat) (draws : SampleDraws) : Nat :=
  if s.mayStart remaining && draws.pulse then s.pulseTicks else remaining

theorem check_eq_ok_iff {s : SyntheticSettings} :
    s.check = .ok () ↔ s.pedestalMin ≤ s.pedestalMax ∧
      (0.0 ≤ s.pulseProbability && s.pulseProbability ≤ 1.0) = true ∧ s.peak ≤ maxSample := by
  rw [check]
  by_cases hpedestal : s.pedestalMax < s.pedestalMin
  · simp [hpedestal]
  by_cases hchance : (0.0 ≤ s.pulseProbability && s.pulseProbability ≤ 1.0) = true
  · by_cases hpeak : maxSample < s.peak
    · simp [hpedestal, hchance, hpeak]
    · simp [hpedestal, hchance, hpeak, Nat.le_of_not_lt]
  · simp [hpedestal, hchance]

end SyntheticSettings

namespace Synthetic

variable {σ : Type} (source : DrawSource σ) (g : Synthetic σ)

def drawn (channel : Nat) : SampleDraws × σ :=
  drawSample source g.settings g.chance (g.remaining[channel]?.getD 0) g.draws

def emission (channel : Nat) : Emission :=
  g.settings.emit (g.pedestals[channel]?.getD 0) (g.remaining[channel]?.getD 0)
    (g.drawn source channel).1

def advance (channel : Nat) : Synthetic σ :=
  { g with
    draws := (g.drawn source channel).2
    remaining := g.remaining.setIfInBounds channel (g.emission source channel).remaining
    pulses := g.pulses + (g.emission source channel).started.toNat }

def walk : Nat → Synthetic σ
  | 0 => g
  | i + 1 => (walk i).advance source (i % channelCount)

def emitted (i : Nat) : Emission := (g.walk source i).emission source (i % channelCount)

def drawnFor (i : Nat) : SampleDraws := ((g.walk source i).drawn source (i % channelCount)).1

/-- Whether the pulse height is added to sample number `i`. -/
def raised (i : Nat) : Bool :=
  0 < g.settings.running ((g.walk source i).remaining[i % channelCount]?.getD 0)
    (g.drawnFor source i)

def startsAt (channel tick : Nat) : Bool :=
  (g.emitted source (tick * channelCount + channel)).started

/-- Whether the pulse height is added at a tick of a channel. -/
def raisedAt (channel tick : Nat) : Bool := g.raised source (tick * channelCount + channel)

def noiseAt (channel tick : Nat) : Int :=
  (g.drawnFor source (tick * channelCount + channel)).noise

def sampleAt (channel tick : Nat) : UInt16 :=
  (g.emitted source (tick * channelCount + channel)).sample

def retimed (time : UInt64) : Synthetic σ := { g with nextTime := time }

def after (n : Nat) : Synthetic σ := (fun g => (g.next source).2)^[n] g

@[simp] theorem nextTime_retimed (time : UInt64) : (g.retimed time).nextTime = time := rfl

@[simp] theorem retimed_retimed (time time' : UInt64) :
    (g.retimed time).retimed time' = g.retimed time' := rfl

@[simp] theorem emission_retimed (time : UInt64) (channel : Nat) :
    (g.retimed time).emission source channel = g.emission source channel := rfl

theorem dvd_superchunks (n : Nat) : channelCount ∣ n * superchunkSamples :=
  (Nat.dvd_mul_right channelCount superchunkTicks).mul_left n

theorem remaining_walk_succ (i : Nat) :
    (g.walk source (i + 1)).remaining =
      (g.walk source i).remaining.setIfInBounds (i % channelCount)
        (g.emitted source i).remaining := rfl

theorem pulses_walk_succ (i : Nat) :
    (g.walk source (i + 1)).pulses =
      (g.walk source i).pulses + (g.emitted source i).started.toNat := rfl

theorem settings_walk (i : Nat) : (g.walk source i).settings = g.settings := by
  induction i with
  | zero => rfl
  | succ i ih => exact ih

theorem pedestals_walk (i : Nat) : (g.walk source i).pedestals = g.pedestals := by
  induction i with
  | zero => rfl
  | succ i ih => exact ih

theorem size_remaining_walk (i : Nat) :
    (g.walk source i).remaining.size = g.remaining.size := by
  induction i with
  | zero => rfl
  | succ i ih => rw [remaining_walk_succ, Array.size_setIfInBounds, ih]

/-- The time of the next superchunk has no influence on the samples. -/
theorem walk_retimed (time : UInt64) (i : Nat) :
    (g.retimed time).walk source i = (g.walk source i).retimed time := by
  induction i with
  | zero => rfl
  | succ i ih =>
    rw [walk, ih]
    rfl

theorem walk_add {a : Nat} (ha : channelCount ∣ a) (b : Nat) :
    (g.walk source a).walk source b = g.walk source (a + b) := by
  induction b with
  | zero => rfl
  | succ b ih =>
    obtain ⟨ticks, rfl⟩ := ha
    rw [walk, ih, ← Nat.add_assoc, walk, Nat.mul_add_mod]

theorem foldl_step (k : Nat) :
    (List.range k).foldl (fun d i => d.step source (i % channelCount))
        ⟨g, .emptyWithCapacity superchunkSamples⟩ =
      (⟨g.walk source k, ((List.range k).map fun i => (g.emitted source i).sample).toArray⟩ :
        Draft σ) := by
  induction k with
  | zero => rfl
  | succ k ih =>
    rw [List.range_succ, List.foldl_append, ih, List.map_append, List.map_singleton,
      ← List.push_toArray]
    rfl

def nextSample (channel tick : Nat) : UInt16 :=
  ((List.range superchunkSamples).map fun i =>
    (g.emitted source i).sample).toArray[tick * channelCount + channel]?.getD 0

theorem fst_next : (g.next source).1 =
    Superchunk.encode g.settings.link g.nextTime (g.nextSample source) := by
  rw [next, draft, foldl_step]
  rfl

theorem snd_next : (g.next source).2 = (g.walk source superchunkSamples).retimed
    (g.nextTime + UInt64.ofNat superchunkClocks) := by
  rw [next, draft, foldl_step]
  rfl

theorem after_succ (n : Nat) : g.after source (n + 1) = ((g.after source n).next source).2 :=
  Function.iterate_succ_apply' ..

theorem after_eq (n : Nat) :
    g.after source n = (g.walk source (n * superchunkSamples)).retimed
      (g.nextTime + UInt64.ofNat (n * superchunkClocks)) := by
  induction n with
  | zero =>
    rw [Nat.zero_mul, Nat.zero_mul]
    simp [after, walk, retimed]
  | succ n ih =>
    rw [after_succ, snd_next, ih, walk_retimed, walk_add source g (dvd_superchunks n),
      retimed_retimed, nextTime_retimed, Nat.succ_mul, Nat.succ_mul, UInt64.ofNat_add,
      UInt64.add_assoc]

theorem emitted_after (n i : Nat) :
    (g.after source n).emitted source i = g.emitted source (n * superchunkSamples + i) := by
  have hchannel : (n * superchunkSamples + i) % channelCount = i % channelCount := by
    obtain ⟨ticks, hticks⟩ := dvd_superchunks n
    rw [hticks, Nat.mul_add_mod]
  rw [emitted, emitted, hchannel, after_eq, walk_retimed, walk_add source g (dvd_superchunks n),
    emission_retimed]

theorem samples_draft (n : Nat) :
    ((g.after source n).draft source).samples = ((List.range superchunkSamples).map fun i =>
      (g.emitted source (n * superchunkSamples + i)).sample).toArray := by
  rw [draft, foldl_step]
  simp only [emitted_after]

theorem take_succ (n : Nat) {step : ByteArray × Synthetic σ} (hnext : g.next source = step) :
    take source (n + 1) g = step.1 :: take source n step.2 := by
  rw [take, hnext]

theorem getElem?_take {n k : Nat} (hk : k < n) :
    (take source n g)[k]? = some ((g.after source k).next source).1 := by
  induction n generalizing g k with
  | zero => exact absurd hk (Nat.not_lt_zero k)
  | succ n ih =>
    rw [take_succ source g n rfl]
    cases k with
    | zero => rfl
    | succ k =>
      rw [List.getElem?_cons_succ, ih _ (Nat.lt_of_succ_lt_succ hk), after, after,
        Function.iterate_succ_apply]

theorem sample_emitted (i : Nat) :
    (g.emitted source i).sample = UInt16.ofNat (max 0 (min (maxSample : Int)
      (((g.pedestals[i % channelCount]?.getD 0 : Nat) : Int) + (g.drawnFor source i).noise +
        (if g.raised source i then g.settings.pulseHeight else 0 : Nat)))).toNat := by
  rw [← g.settings_walk source i, ← g.pedestals_walk source i]
  simp only [raised, decide_eq_true_eq]
  rw [← g.settings_walk source i]
  rfl

/-- With a sample either a pulse starts where none was running, or what is running goes on. -/
theorem emitted_cases (i : Nat) :
    let left := (g.walk source i).remaining[i % channelCount]?.getD 0
    ((g.emitted source i).started = true ∧ left = 0 ∧ 0 < g.settings.pulseTicks ∧
        g.raised source i = true ∧ (g.emitted source i).remaining = g.settings.pulseTicks - 1) ∨
      ((g.emitted source i).started = false ∧ g.raised source i = decide (0 < left) ∧
        (g.emitted source i).remaining = left - 1) := by
  intro left
  have hstarted : (g.emitted source i).started =
      (g.settings.mayStart left && (g.drawnFor source i).pulse) := by
    rw [← g.settings_walk source i]
    rfl
  have hremaining : (g.emitted source i).remaining =
      g.settings.running left (g.drawnFor source i) - 1 := by
    rw [← g.settings_walk source i]
    rfl
  rw [hremaining, raised, SyntheticSettings.running, ← hstarted]
  cases hstart : (g.emitted source i).started with
  | false => exact .inr ⟨rfl, rfl, rfl⟩
  | true =>
    rw [hstart, SyntheticSettings.mayStart, eq_comm, Bool.and_eq_true, Bool.and_eq_true, beq_iff_eq,
      decide_eq_true_eq] at hstarted
    exact .inl ⟨rfl, hstarted.1.1, hstarted.1.2, decide_eq_true hstarted.1.2, rfl⟩

/-- The next sample of a channel leaves the pulses of the others as they are. -/
theorem getElem?_remaining_walk_of_ne {channel i j : Nat} (hij : i ≤ j)
    (hother : ∀ k, i ≤ k → k < j → k % channelCount ≠ channel) :
    (g.walk source j).remaining[channel]? = (g.walk source i).remaining[channel]? := by
  induction j, hij using Nat.le_induction with
  | base => rfl
  | succ j hij ih =>
    rw [remaining_walk_succ, Array.getElem?_setIfInBounds_ne (hother j hij (Nat.lt_succ_self j))]
    exact ih fun k hik hkj => hother k hik (hkj.trans (Nat.lt_succ_self j))

section

variable {channel : Nat} (hchannel : channel < channelCount) (tick : Nat)

include hchannel

theorem sample_mod : (tick * channelCount + channel) % channelCount = channel := by
  rw [Nat.mul_comm, Nat.mul_add_mod, Nat.mod_eq_of_lt hchannel]

theorem getElem?_remaining_turn :
    (g.walk source (tick * channelCount + channel)).remaining[channel]? =
      (g.walk source (tick * channelCount)).remaining[channel]? := by
  apply getElem?_remaining_walk_of_ne source g (Nat.le_add_right _ _)
  intro k hfirst hlast
  simp only [channelCount, blocksPerFrame, channelsPerBlock] at *
  omega

theorem getElem?_remaining_tick (hsize : g.remaining.size = channelCount) :
    (g.walk source ((tick + 1) * channelCount)).remaining[channel]? =
      some (g.emitted source (tick * channelCount + channel)).remaining := by
  have hlater : (g.walk source ((tick + 1) * channelCount)).remaining[channel]? =
      (g.walk source (tick * channelCount + channel + 1)).remaining[channel]? := by
    apply getElem?_remaining_walk_of_ne source g
    · rw [Nat.succ_mul, Nat.add_assoc]
      exact Nat.add_le_add_left hchannel _
    · intro k hfirst hlast
      simp only [channelCount, blocksPerFrame, channelsPerBlock] at *
      omega
  rw [hlater, remaining_walk_succ, sample_mod hchannel]
  exact Array.getElem?_setIfInBounds_self_of_lt (by rwa [size_remaining_walk, hsize])

end

/-- A stream before its first sample, with what was drawn for its pedestals. -/
def opening (s : SyntheticSettings) (first : Array Nat × σ) : Synthetic σ where
  settings := s
  chance := .ofProbability s.pulseProbability
  draws := first.2
  pedestals := first.1
  remaining := .replicate channelCount 0
  nextTime := s.startTime

section

variable (s : SyntheticSettings) (first : Array Nat × σ)

@[simp] theorem settings_opening : (opening s first).settings = s := rfl

@[simp] theorem pedestals_opening : (opening s first).pedestals = first.1 := rfl

@[simp] theorem remaining_opening :
    (opening s first).remaining = .replicate channelCount 0 := rfl

@[simp] theorem nextTime_opening : (opening s first).nextTime = s.startTime := rfl

@[simp] theorem pulses_opening : (opening s first).pulses = 0 := rfl

end

variable {source g} {s : SyntheticSettings} {draws : σ}

theorem start_eq {first : Array Nat × σ}
    (hfirst : drawPedestals source s channelCount draws = first) :
    start source s draws = s.check.map fun () => opening s first := by
  rw [start, hfirst]
  cases s.check <;> rfl

theorem start_eq_ok_iff :
    start source s draws = .ok g ↔
      s.check = .ok () ∧ g = opening s (drawPedestals source s channelCount draws) := by
  rw [start_eq rfl]
  cases s.check with
  | error cause => simp [Except.map]
  | ok u => simp [Except.map, eq_comm]

end Synthetic

end TpcTrigger
