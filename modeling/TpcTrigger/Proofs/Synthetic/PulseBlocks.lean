import TpcTrigger.Proofs.Pipeline.Effort
import TpcTrigger.Proofs.Synthetic.SampleWalk

/-! # Pulses of synthetic streams

A pulse that has started goes on for its whole length, over the ends of superchunks too, and the
next one on its channel comes no earlier than behind it.  So the samples to which the pulse height
was added, and those that the running pulses still have to come, make up all pulses that were
started.
-/

namespace TpcTrigger

/-- The first ticks of pulses of one length, in order: no two of them meet, they cover exactly the
ticks that are on, and of the last one `left` ticks are still to come. -/
structure PulseBlocks (length ticks left : Nat) (starts : List Nat) (on : Nat → Bool) : Prop where
  begun : ∀ first ∈ starts, first < ticks
  apart : starts.Pairwise fun first next => first + length ≤ next
  covers : ∀ tick < ticks, on tick ↔ ∃ first ∈ starts, first ≤ tick ∧ tick < first + length
  whole : ∀ first ∈ starts.dropLast, first + length ≤ ticks
  unfinished : left = starts.getLast?.elim 0 fun first => first + length - ticks

namespace PulseBlocks

variable {length ticks left : Nat} {starts : List Nat} {on : Nat → Bool}

theorem nil (length : Nat) (on : Nat → Bool) : PulseBlocks length 0 0 [] on where
  begun := by simp
  apart := .nil
  covers := by simp
  whole := by simp
  unfinished := rfl

theorem last_cases (h : PulseBlocks length ticks left starts on) :
    (starts = [] ∧ left = 0) ∨
      ∃ earlier last, starts = earlier ++ [last] ∧ left = last + length - ticks := by
  have hleft := h.unfinished
  rcases List.eq_nil_or_concat' starts with rfl | ⟨earlier, last, rfl⟩
  · exact .inl ⟨rfl, hleft⟩
  · rw [List.getLast?_concat] at hleft
    exact .inr ⟨earlier, last, rfl, hleft⟩

theorem end_le (h : PulseBlocks length ticks left starts on) {first : Nat}
    (hfirst : first ∈ starts) : first + length ≤ ticks + left := by
  rcases h.last_cases with ⟨rfl, -⟩ | ⟨earlier, last, rfl, hleft⟩
  · cases hfirst
  · rcases List.mem_append.mp hfirst with hearlier | hlast
    · have := h.whole first (by rwa [List.dropLast_concat])
      omega
    · obtain rfl := List.mem_singleton.mp hlast
      omega

theorem start (h : PulseBlocks length ticks 0 starts on) (hlength : 0 < length)
    (hon : on ticks = true) :
    PulseBlocks length (ticks + 1) (length - 1) (starts ++ [ticks]) on where
  begun first hfirst := by
    rcases List.mem_append.mp hfirst with hearlier | hlast
    · have := h.begun first hearlier
      omega
    · obtain rfl := List.mem_singleton.mp hlast
      omega
  apart := by
    rw [List.pairwise_append]
    refine ⟨h.apart, List.pairwise_singleton .., fun first hfirst next hnext => ?_⟩
    obtain rfl := List.mem_singleton.mp hnext
    exact h.end_le hfirst
  covers tick htick := by
    rcases Nat.lt_succ_iff_lt_or_eq.mp htick with hearlier | rfl
    · rw [h.covers tick hearlier]
      refine ⟨fun ⟨first, hfirst, hspan⟩ => ⟨first, List.mem_append_left _ hfirst, hspan⟩, ?_⟩
      rintro ⟨first, hfirst, hspan⟩
      rcases List.mem_append.mp hfirst with hmem | hlast
      · exact ⟨first, hmem, hspan⟩
      · obtain rfl := List.mem_singleton.mp hlast
        omega
    · refine ⟨fun _ => ⟨tick, List.mem_append_right _ (List.mem_singleton_self tick), ?_⟩,
        fun _ => hon⟩
      omega
  whole first hfirst := by
    rw [List.dropLast_concat] at hfirst
    have := h.end_le hfirst
    omega
  unfinished := by
    rw [List.getLast?_concat, Option.elim_some]
    omega

theorem go (h : PulseBlocks length ticks left starts on) (hon : on ticks = decide (0 < left)) :
    PulseBlocks length (ticks + 1) (left - 1) starts on where
  begun first hfirst := (h.begun first hfirst).trans (Nat.lt_succ_self ticks)
  apart := h.apart
  covers tick htick := by
    rcases Nat.lt_succ_iff_lt_or_eq.mp htick with hearlier | rfl
    · exact h.covers tick hearlier
    · rw [hon, decide_eq_true_eq]
      constructor
      · intro hleft
        rcases h.last_cases with ⟨-, hnone⟩ | ⟨earlier, last, rfl, hlast⟩
        · omega
        · have hfirst := List.mem_append_right earlier (List.mem_singleton_self last)
          have := h.begun last hfirst
          exact ⟨last, hfirst, by omega⟩
      · rintro ⟨first, hfirst, hspan⟩
        have := h.end_le hfirst
        omega
  whole first hfirst := (h.whole first hfirst).trans (Nat.le_succ ticks)
  unfinished := by
    rcases h.last_cases with ⟨rfl, hnone⟩ | ⟨earlier, last, rfl, hlast⟩
    · rw [hnone]
      rfl
    · rw [List.getLast?_concat, Option.elim_some]
      omega

end PulseBlocks

namespace Synthetic

variable {σ : Type} (source : DrawSource σ) (g : Synthetic σ)

def pulseStarts (channel ticks : Nat) : List Nat :=
  (List.range ticks).filter (g.startsAt source channel)

theorem pulseStarts_succ (channel ticks : Nat) :
    g.pulseStarts source channel (ticks + 1) = g.pulseStarts source channel ticks ++
      if g.startsAt source channel ticks then [ticks] else [] := by
  rw [pulseStarts, List.range_succ, List.filter_append, List.filter_singleton, Bool.cond_eq_ite,
    pulseStarts]

theorem sum_setIfInBounds {counts : Array Nat} {i old : Nat} (hold : counts[i]? = some old)
    (new : Nat) : (counts.setIfInBounds i new).sum + old = counts.sum + new := by
  have hset := sum_map_set id (by rw [Array.getElem?_toList]; exact hold) new
  rwa [← Array.toList_setIfInBounds, List.map_id, List.map_id, Array.sum_toList,
    Array.sum_toList] at hset

/-- A sample takes a tick from the pulse that is running, and a new pulse brings its length. -/
theorem account_advance (hsize : g.remaining.size = channelCount) (i : Nat) :
    (g.raised source i).toNat + (g.walk source (i + 1)).remaining.sum =
      (g.walk source i).remaining.sum +
        (g.emitted source i).started.toNat * g.settings.pulseTicks := by
  have hchannel : i % channelCount < (g.walk source i).remaining.size := by
    rw [size_remaining_walk, hsize]
    exact Nat.mod_lt _ (by decide)
  have hleft := Array.getElem?_eq_getElem hchannel
  have hset := sum_setIfInBounds hleft (g.emitted source i).remaining
  have hcases := g.emitted_cases source i
  rw [hleft, Option.getD_some] at hcases
  rw [remaining_walk_succ]
  rcases hcases with ⟨hstarted, hidle, hlength, hraised, hremaining⟩ |
    ⟨hstarted, hraised, hremaining⟩
  · rw [hstarted, hraised, Bool.toNat_true, Nat.one_mul]
    omega
  · rw [hstarted, hraised, Bool.toNat_false, Nat.zero_mul]
    by_cases hrunning : 0 < (g.walk source i).remaining[i % channelCount]
    · rw [decide_eq_true hrunning, Bool.toNat_true]
      omega
    · rw [decide_eq_false hrunning, Bool.toNat_false]
      omega

theorem account_walk (hsize : g.remaining.size = channelCount) (i : Nat) :
    Nat.count (fun i => g.raised source i) i + (g.walk source i).remaining.sum =
      g.remaining.sum +
        Nat.count (fun i => (g.emitted source i).started) i * g.settings.pulseTicks := by
  induction i with
  | zero => simp [walk]
  | succ i ih =>
    have hstep := g.account_advance source hsize i
    rw [Bool.toNat, Bool.cond_eq_ite, Bool.toNat, Bool.cond_eq_ite] at hstep
    rw [Nat.count_succ, Nat.count_succ, Nat.add_mul]
    omega

theorem pulses_walk (i : Nat) :
    (g.walk source i).pulses =
      g.pulses + Nat.count (fun i => (g.emitted source i).started) i := by
  induction i with
  | zero => simp [walk]
  | succ i ih =>
    rw [pulses_walk_succ, ih, Nat.count_succ, Bool.toNat, Bool.cond_eq_ite, Nat.add_assoc]

theorem pulseBlocks_walk (hidle : g.remaining = .replicate channelCount 0) {channel : Nat}
    (hchannel : channel < channelCount) (ticks : Nat) :
    ∃ left, (g.walk source (ticks * channelCount)).remaining[channel]? = some left ∧
      PulseBlocks g.settings.pulseTicks ticks left (g.pulseStarts source channel ticks)
        (g.raisedAt source channel) := by
  induction ticks with
  | zero =>
    refine ⟨0, ?_, .nil ..⟩
    rw [Nat.zero_mul, walk, hidle, Array.getElem?_replicate, if_pos hchannel]
  | succ ticks ih =>
    obtain ⟨left, hleft, hblocks⟩ := ih
    have hsize : g.remaining.size = channelCount := by rw [hidle, Array.size_replicate]
    have hcases := g.emitted_cases source (ticks * channelCount + channel)
    rw [sample_mod hchannel, g.getElem?_remaining_turn source hchannel, hleft,
      Option.getD_some] at hcases
    refine ⟨_, g.getElem?_remaining_tick source hchannel ticks hsize, ?_⟩
    rw [pulseStarts_succ, startsAt]
    rcases hcases with ⟨hstarted, rfl, hlength, hraised, hremaining⟩ |
      ⟨hstarted, hraised, hremaining⟩
    · rw [hstarted, hremaining]
      exact hblocks.start hlength hraised
    · rw [hstarted, hremaining]
      exact (List.append_nil _).symm ▸ hblocks.go hraised

variable {source g} {s : SyntheticSettings} {draws : σ}

/-- All pulses are accounted for, whatever is drawn.  Of the samples that the superchunks hold,
those with the pulse height, together with those that the running pulses still have to come, make
up the pulses that were started; and on each channel the pulses stand one behind the other, each of
its whole length but for what is left of the last one. -/
theorem pulses_accounted (hstart : start source s draws = .ok g) (n : Nat) :
    (∀ k, ((g.after source k).draft source).samples =
      ((List.range superchunkSamples).map fun i =>
        (g.emitted source (k * superchunkSamples + i)).sample).toArray) ∧
    (∀ i, (g.emitted source i).sample = UInt16.ofNat (max 0 (min (maxSample : Int)
      (((g.pedestals[i % channelCount]?.getD 0 : Nat) : Int) + (g.drawnFor source i).noise +
        (if g.raised source i then s.pulseHeight else 0 : Nat)))).toNat) ∧
    (g.after source n).pulses =
      Nat.count (fun i => (g.emitted source i).started) (n * superchunkSamples) ∧
    Nat.count (fun i => g.raised source i) (n * superchunkSamples) +
      (g.after source n).remaining.sum = (g.after source n).pulses * s.pulseTicks ∧
    ∀ channel < channelCount, ∃ left, (g.after source n).remaining[channel]? = some left ∧
      PulseBlocks s.pulseTicks (n * superchunkTicks) left
        (g.pulseStarts source channel (n * superchunkTicks)) (g.raisedAt source channel) := by
  obtain ⟨-, hg⟩ := start_eq_ok_iff.mp hstart
  obtain ⟨hsettings, hidle, hpulses⟩ :
      g.settings = s ∧ g.remaining = .replicate channelCount 0 ∧ g.pulses = 0 := by simp [hg]
  have hticks : n * superchunkSamples = n * superchunkTicks * channelCount := by
    rw [Nat.mul_assoc, Nat.mul_comm superchunkTicks]
  have hcount := g.pulses_walk source (n * superchunkSamples)
  rw [hpulses, Nat.zero_add] at hcount
  have hsize : g.remaining.size = channelCount := by rw [hidle, Array.size_replicate]
  have haccount := g.account_walk source hsize (n * superchunkSamples)
  rw [hidle, Array.sum_replicate_nat, Nat.mul_zero, Nat.zero_add, ← hcount] at haccount
  rw [← hsettings, g.after_eq]
  refine ⟨g.samples_draft source, g.sample_emitted source, hcount, haccount, ?_⟩
  intro channel hchannel
  rw [hticks]
  exact g.pulseBlocks_walk source hidle hchannel (n * superchunkTicks)

/-- Pulses that start whenever they may, and last longer than three superchunks. -/
theorem pulses_accounted_crowded :
    let s : SyntheticSettings := { pulseProbability := 1.0, pulseTicks := 40 }
    ∃ g, start .random s (.ofSeed 7) = .ok g ∧
      Nat.count (fun i => g.raised .random i) (5 * superchunkSamples) +
          (g.after .random 5).remaining.sum = (g.after .random 5).pulses * 40 ∧
      ∃ left, (g.after .random 5).remaining[17]? = some left ∧
        PulseBlocks 40 60 left (g.pulseStarts .random 17 60) (g.raisedAt .random 17) := by
  intro s
  have hcheck : s.check = .ok () :=
    SyntheticSettings.check_eq_ok_iff.mpr ⟨by decide, by decide +kernel, by decide⟩
  have hstart : start .random s (.ofSeed 7) = .ok (opening s _) :=
    start_eq_ok_iff.mpr ⟨hcheck, rfl⟩
  obtain ⟨-, -, -, haccount, hblocks⟩ := pulses_accounted hstart 5
  exact ⟨_, hstart, haccount, hblocks 17 (by decide)⟩

end Synthetic

end TpcTrigger
