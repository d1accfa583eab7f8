import TpcTrigger.Proofs.Detection.CarriedStates

/-! # Cutting a window

A window may be cut into consecutive pieces of any lengths, and the pieces searched in turn.
Nothing shows where the cuts were: the states at the end are the same, and so are the hits of
every channel once those of a piece are counted from the start of the whole window.
-/

namespace TpcTrigger

def Window.IsCut (w : Window) (pieces : List Window) : Prop :=
  ∀ channel < channelCount, channelStream pieces channel = w.block.channelSamples channel

def Window.slice (w : Window) (first ticks : Nat) : Window where
  sequence := w.sequence
  timestamp := w.timestamp
  link := w.link
  ticks
  block := .ofFn ticks fun channel tick => w.block.sample channel (first + tick)

/-- Consecutive pieces of a window of the given lengths, from one of its ticks on. -/
def Window.cut (w : Window) : Nat → List Nat → List Window
  | _, [] => []
  | first, n :: ns => w.slice first n :: w.cut (first + n) ns

theorem Window.channelStream_cut (w : Window) (first : Nat) (lengths : List Nat) {channel : Nat}
    (hchannel : channel < channelCount) :
    channelStream (w.cut first lengths) channel =
      (List.range lengths.sum).map fun tick => w.block.sample channel (first + tick) := by
  induction lengths generalizing first with
  | nil => rfl
  | cons n ns ih =>
    have hslice : (w.slice first n).block.channelSamples channel =
        (List.range n).map fun tick => w.block.sample channel (first + tick) := by
      apply List.map_congr_left
      intro tick htick
      exact SampleBlock.sample_ofFn _ hchannel (List.mem_range.mp htick)
    rw [cut, channelStream_cons, hslice, ih, List.sum_cons, List.range_add, List.map_append,
      List.map_map]
    simp only [Function.comp_def, Nat.add_assoc]

theorem Window.isCut_cut (w : Window) {lengths : List Nat} (h : lengths.sum = w.ticks) :
    w.IsCut (w.cut 0 lengths) := by
  intro channel hchannel
  rw [w.channelStream_cut 0 lengths hchannel, h, SampleBlock.channelSamples]
  simp only [Nat.zero_add]

/-- The hits of all pieces, those of each counted from the start of the first piece. -/
def rejoin (pieces : List Window) (parts : List (Array Hit)) : List Hit :=
  (parts.mapIdx fun k part => part.toList.map (Hit.later (totalTicks (pieces.take k)))).flatten

theorem filter_rejoin (pieces : List Window) (parts : List (Array Hit)) (channel : Nat) :
    (rejoin pieces parts).filter (·.channel = channel) =
      (parts.mapIdx fun k part =>
        (hitsOn channel part).map (Hit.later (totalTicks (pieces.take k)))).flatten := by
  rw [rejoin, List.filter_flatten]
  congr 1
  apply List.ext_getElem
  · simp
  · intro k hk _
    simp only [List.getElem_map, List.getElem_mapIdx, List.filter_map, hitsOn]
    rfl

namespace KernelKind

variable (kind : KernelKind) (p : DetectorParams) (registers : RegisterRange)
  (states : Array ChannelState)

/-- Cuts leave no trace. -/
theorem processAll_pieces (hshape : checkShape registers states p = .ok ()) (w : Window)
    (pieces : List Window) (hcut : w.IsCut pieces) :
    ∃ found parts, kind.process p registers w states #[] = .ok found ∧
      kind.processAll p registers states pieces = .ok (found.states, parts) ∧
      parts.length = pieces.length ∧
      ∀ channel, hitsOn channel found.hits =
        (rejoin pieces parts).filter (·.channel = channel) := by
  have hstates : kind.carried p registers states [w] =
      kind.carried p registers states pieces := by
    simp only [carried]
    congr 1
    apply List.map_congr_left
    intro i hi
    rw [hcut _ (channel_lt_of_checkShape hshape (List.mem_range.mp hi)), channelStream_cons,
      channelStream_nil, List.append_nil]
  have hall := kind.processAll_eq p registers states hshape pieces
  rw [← hstates, ← states_found kind p registers states w #[]] at hall
  refine ⟨_, _, kind.process_eq_ok hshape w #[], hall, by rw [List.length_mapIdx], fun channel => ?_⟩
  rw [filter_rejoin, List.mapIdx_mapIdx]
  by_cases hplace : ∃ i < states.size, registers.firstChannel + i = channel
  · obtain ⟨i, hi, rfl⟩ := hplace
    rw [hitsOn_found _ _ _ _ _ hi, hitsOf, ← hcut _ (channel_lt_of_checkShape hshape hi),
      ChannelState.hitsFrom_channelStream]
    simp only [Function.comp_def, Nat.zero_add, hitsOn_found _ _ _ _ _ hi, hitsOf,
      getD_carried _ _ _ _ _ hi]
  · have houtside : ∀ i < states.size, registers.firstChannel + i ≠ channel :=
      fun i hi heq => hplace ⟨i, hi, heq⟩
    simp only [Function.comp_def, hitsOn_found_outside _ _ _ _ _ houtside, List.map_nil]
    symm
    rw [List.flatten_eq_nil_iff]
    intro l hl
    rw [List.mem_mapIdx] at hl
    obtain ⟨k, hk, rfl⟩ := hl
    rfl

/-- Four ticks on register 3, cut into a piece that is empty, one shorter than the filter and
the rest. -/
theorem processAll_pieces_uneven :
    let p : DetectorParams := ⟨⟨#[1, -2, 64], 6⟩, 5, 1⟩
    let registers : RegisterRange := ⟨3, 4⟩
    let states := p.freshStates 1
    let w : Window := ⟨0, 0, .zero, 4, .ofFn 4 fun channel tick =>
      if channel = 53 ∧ tick = 1 then 90 else 0⟩
    let pieces := w.cut 0 [0, 1, 3]
    checkShape registers states p = .ok () ∧ w.IsCut pieces ∧
      ∃ found parts, KernelKind.lockstep.process p registers w states #[] = .ok found ∧
        KernelKind.lockstep.processAll p registers states pieces = .ok (found.states, parts) ∧
        parts.length = pieces.length ∧
        ∀ channel, hitsOn channel found.hits =
          (rejoin pieces parts).filter (·.channel = channel) := by
  intro p registers states w pieces
  have hshape : checkShape registers states p = .ok () := by decide
  have hcut : w.IsCut pieces := w.isCut_cut rfl
  exact ⟨hshape, hcut,
    KernelKind.lockstep.processAll_pieces p registers states hshape w pieces hcut⟩

end KernelKind

end TpcTrigger
