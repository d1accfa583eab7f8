import TpcTrigger.Samples.Window
import Mathlib.Tactic

/-! # The layout of a sample block

Every channel of the frame has a place for every tick of a block, no two of them share one,
and the sixteen lanes of a register at one tick are the samples of its sixteen channels.
-/

namespace TpcTrigger.SampleBlock

theorem place_lt {ticks channel tick : Nat} (hchannel : channel < channelCount)
    (htick : tick < ticks) : place ticks channel tick < channelCount * ticks := by
  have hrow : channel / lanesPerRegister * ticks + tick < registerCount * ticks := by
    have hregister : channel / lanesPerRegister + 1 ≤ registerCount := by
      rw [channelCount_eq] at hchannel
      rw [lanesPerRegister_eq, registerCount_eq]
      omega
    calc channel / lanesPerRegister * ticks + tick
        < (channel / lanesPerRegister + 1) * ticks := by rw [Nat.add_mul]; omega
      _ ≤ registerCount * ticks := Nat.mul_le_mul_right _ hregister
  simp only [place, lanesStart, lanesPerRegister_eq, registerCount_eq, channelCount_eq] at hrow ⊢
  omega

theorem sample_eq {ticks : Nat} (b : SampleBlock ticks) {channel tick : Nat}
    (hplace : place ticks channel tick < channelCount * ticks) :
    b.sample channel tick = b.cells[place ticks channel tick] := by
  rw [sample, sample?, Vector.getElem?_eq_getElem hplace, Option.getD_some]

theorem sample?_eq {ticks : Nat} (b : SampleBlock ticks) {channel tick : Nat}
    (hchannel : channel < channelCount) (htick : tick < ticks) :
    b.sample? channel tick = some (b.sample channel tick) := by
  rw [sample_eq b (place_lt hchannel htick), sample?,
    Vector.getElem?_eq_getElem (place_lt hchannel htick)]

/-- Past the last register there is nothing. -/
theorem sample?_eq_none {ticks : Nat} (b : SampleBlock ticks) {channel tick : Nat}
    (hchannel : channelCount ≤ channel) : b.sample? channel tick = none := by
  have hregister : registerCount ≤ channel / lanesPerRegister := by
    rw [channelCount_eq] at hchannel
    rw [lanesPerRegister_eq, registerCount_eq]
    omega
  have hrow : registerCount * ticks ≤ channel / lanesPerRegister * ticks :=
    Nat.mul_le_mul_right _ hregister
  refine Vector.getElem?_eq_none ?_
  simp only [place, lanesStart, lanesPerRegister_eq, registerCount_eq, channelCount_eq] at hrow ⊢
  omega

/-- The block made of a function gives the function back. -/
theorem sample_ofFn {ticks : Nat} (f : Nat → Nat → UInt16) {channel tick : Nat}
    (hchannel : channel < channelCount) (htick : tick < ticks) :
    (ofFn ticks f).sample channel tick = f channel tick := by
  have hrow : place ticks channel tick / lanesPerRegister =
      channel / lanesPerRegister * ticks + tick := by
    simp only [place, lanesStart, lanesPerRegister_eq]
    omega
  have hlane : place ticks channel tick % lanesPerRegister = channel % lanesPerRegister := by
    simp only [place, lanesStart, lanesPerRegister_eq]
    omega
  have hregister : (channel / lanesPerRegister * ticks + tick) / ticks =
      channel / lanesPerRegister := by
    rw [Nat.add_comm, Nat.add_mul_div_right _ _ (by omega), Nat.div_eq_of_lt htick, Nat.zero_add]
  have htime : (channel / lanesPerRegister * ticks + tick) % ticks = tick := by
    rw [Nat.add_comm, Nat.add_mul_mod_self_right, Nat.mod_eq_of_lt htick]
  rw [sample_eq _ (place_lt hchannel htick), ofFn, Vector.getElem_ofFn]
  simp only [hrow, hlane, hregister, htime, Nat.div_add_mod']

theorem lanes?_eq {ticks : Nat} (b : SampleBlock ticks) {register tick : Nat}
    (hregister : register < registerCount) (htick : tick < ticks) :
    b.lanes? register tick =
      some (.ofFn fun l => b.sample (register * lanesPerRegister + l) tick) := by
  have hplace (l : Fin lanesPerRegister) :
      place ticks (register * lanesPerRegister + l) tick = lanesStart ticks register tick + l := by
    have hl := l.isLt
    have hdiv : (register * lanesPerRegister + l) / lanesPerRegister = register := by
      simp only [lanesPerRegister_eq] at hl ⊢
      omega
    have hmod : (register * lanesPerRegister + l) % lanesPerRegister = l := by
      simp only [lanesPerRegister_eq] at hl ⊢
      omega
    rw [place, hdiv, hmod]
  have hchannel (l : Nat) (hl : l < lanesPerRegister) :
      register * lanesPerRegister + l < channelCount := by
    simp only [lanesPerRegister_eq, registerCount_eq, channelCount_eq] at hl hregister ⊢
    omega
  have hlast : lanesStart ticks register tick + lanesPerRegister ≤ channelCount * ticks := by
    have h := place_lt (hchannel 15 (by decide)) htick
    rw [hplace ⟨15, by decide⟩] at h
    exact h
  rw [lanes?, dif_pos hlast]
  congr 1
  ext l hl
  rw [Vector.getElem_ofFn, Vector.getElem_ofFn, sample_eq b (place_lt (hchannel l hl) htick)]
  simp only [hplace ⟨l, hl⟩]

end TpcTrigger.SampleBlock

namespace TpcTrigger.Window

def repeated (samples : List UInt16) : Window where
  sequence := 0
  timestamp := 0
  link := .zero
  ticks := samples.length
  block := .ofFn samples.length fun _ tick => samples.getD tick 0

theorem sample_repeated (samples : List UInt16) {channel tick : Nat}
    (hchannel : channel < channelCount) (htick : tick < samples.length) :
    (repeated samples).block.sample channel tick = samples[tick] := by
  have hsample := SampleBlock.sample_ofFn (fun _ tick => samples.getD tick 0) hchannel htick
  rw [← List.getElem_eq_getD] at hsample
  exact hsample

theorem channelSamples_repeated (samples : List UInt16) {channel : Nat}
    (hchannel : channel < channelCount) :
    (repeated samples).block.channelSamples channel = samples := by
  apply List.ext_getElem
  · exact SampleBlock.channelSamples_length _ _
  · intro tick _ htick
    have hsample := sample_repeated samples hchannel htick
    simp only [SampleBlock.channelSamples, List.getElem_map, List.getElem_range]
    exact hsample

end TpcTrigger.Window
