import TpcTrigger.Proofs.Samples.BlockLayout
import TpcTrigger.Proofs.Samples.WindowSequence

/-! # Assembly in one buffer

A window can be laid out while its superchunks arrive: the samples of a superchunk go into the
buffer of the window as sixteen slices, one for each register, and a finished window takes the
buffer with it.  No slice touches another, so this hands out the same windows, at the same
superchunks, as an assembly that gathers superchunks and lays them out at the end.
-/

namespace TpcTrigger

namespace SampleBlock

def zeros (ticks : Nat) : SampleBlock ticks := ⟨.replicate _ 0⟩

abbrev sliceLength : Nat := superchunkTicks * lanesPerRegister

/-- Writes one register of a superchunk over the samples from tick `offset` on, if both slices lie
within their blocks. -/
def copyRegister? {ticks : Nat} (b : SampleBlock ticks) (chunk : SampleBlock superchunkTicks)
    (offset register : Nat) : Option (SampleBlock ticks) :=
  let source := lanesStart superchunkTicks register 0
  let target := lanesStart ticks register offset
  if target + sliceLength ≤ channelCount * ticks ∧
      source + sliceLength ≤ channelCount * superchunkTicks then
    some ⟨.ofFn fun i =>
      if target ≤ i ∧ i < target + sliceLength then (chunk.cells[source + (i - target)]?).getD 0
      else b.cells[i]⟩
  else none

def copyRegisters? {ticks : Nat} (b : SampleBlock ticks) (chunk : SampleBlock superchunkTicks)
    (offset : Nat) : Nat → Option (SampleBlock ticks)
  | 0 => some b
  | r + 1 => (b.copyRegisters? chunk offset r).bind (·.copyRegister? chunk offset r)

theorem sample_zeros {ticks channel tick : Nat} (hchannel : channel < channelCount)
    (htick : tick < ticks) : (zeros ticks).sample channel tick = 0 := by
  rw [sample_eq _ (place_lt hchannel htick), zeros, Vector.getElem_replicate]

theorem exists_place {ticks i : Nat} (hi : i < channelCount * ticks) :
    ∃ channel < channelCount, ∃ tick < ticks, place ticks channel tick = i := by
  have hticks : 0 < ticks := Nat.pos_of_mul_pos_left (Nat.zero_lt_of_lt hi)
  have hrow : i / lanesPerRegister / ticks < registerCount := by
    apply Nat.div_lt_of_lt_mul
    simp only [channelCount_eq, registerCount_eq, lanesPerRegister_eq] at hi ⊢
    omega
  refine ⟨i / lanesPerRegister / ticks * lanesPerRegister + i % lanesPerRegister, ?_,
    i / lanesPerRegister % ticks, Nat.mod_lt _ hticks, ?_⟩
  · simp only [channelCount_eq, registerCount_eq, lanesPerRegister_eq] at hrow ⊢
    omega
  · obtain ⟨hregister, hlane⟩ :
        (i / lanesPerRegister / ticks * lanesPerRegister + i % lanesPerRegister) /
            lanesPerRegister = i / lanesPerRegister / ticks ∧
          (i / lanesPerRegister / ticks * lanesPerRegister + i % lanesPerRegister) %
            lanesPerRegister = i % lanesPerRegister :=
      (Nat.div_mod_unique (by decide)).mpr
        ⟨by rw [Nat.add_comm, Nat.mul_comm], Nat.mod_lt _ (by decide)⟩
    rw [place, lanesStart, hregister, hlane, Nat.div_add_mod', Nat.div_add_mod']

theorem ext_sample {ticks : Nat} {b c : SampleBlock ticks}
    (h : ∀ channel < channelCount, ∀ tick < ticks, b.sample channel tick = c.sample channel tick) :
    b = c := by
  obtain ⟨cells⟩ := b
  obtain ⟨others⟩ := c
  congr 1
  ext i hi
  obtain ⟨channel, hchannel, tick, htick, rfl⟩ := exists_place hi
  have hsample := h channel hchannel tick htick
  rw [sample_eq _ hi, sample_eq _ hi] at hsample
  exact congrArg UInt16.toNat hsample

theorem place_mem_slice {ticks channel tick offset register : Nat} (htick : tick < ticks)
    (hroom : offset + superchunkTicks ≤ ticks) :
    (lanesStart ticks register offset ≤ place ticks channel tick ∧
        place ticks channel tick < lanesStart ticks register offset + sliceLength) ↔
      channel / lanesPerRegister = register ∧ offset ≤ tick ∧ tick < offset + superchunkTicks := by
  simp only [place, lanesStart, sliceLength, superchunkTicks, lanesPerRegister_eq] at hroom ⊢
  constructor
  · intro h
    -- A slice ends before the rows of the next register begin.
    have hsame : channel / 16 = register := by
      calc channel / 16 = (channel / 16 * ticks + tick) / ticks := by
            rw [Nat.add_comm, Nat.add_mul_div_right _ _ (by omega), Nat.div_eq_of_lt htick,
              Nat.zero_add]
        _ = register := Nat.div_eq_of_lt_le (by omega) (by rw [Nat.succ_mul]; omega)
    subst hsame
    omega
  · rintro ⟨rfl, hfirst, hlast⟩
    omega

theorem copyRegister?_eq {ticks : Nat} (b : SampleBlock ticks)
    (chunk : SampleBlock superchunkTicks) {offset register : Nat}
    (hregister : register < registerCount) (hroom : offset + superchunkTicks ≤ ticks) :
    ∃ filled, b.copyRegister? chunk offset register = some filled ∧
      ∀ channel < channelCount, ∀ tick < ticks,
        filled.sample channel tick =
          if channel / lanesPerRegister = register ∧ offset ≤ tick ∧
              tick < offset + superchunkTicks then
            chunk.sample channel (tick - offset)
          else b.sample channel tick := by
  have htarget : lanesStart ticks register offset + sliceLength ≤ channelCount * ticks := by
    have hrows : (register + 1) * ticks ≤ registerCount * ticks := Nat.mul_le_mul_right _ hregister
    rw [Nat.add_mul] at hrows
    simp only [lanesStart, sliceLength, superchunkTicks, lanesPerRegister_eq, registerCount_eq,
      channelCount_eq] at hrows hroom ⊢
    omega
  have hsource :
      lanesStart superchunkTicks register 0 + sliceLength ≤ channelCount * superchunkTicks := by
    simp only [lanesStart, sliceLength, superchunkTicks, lanesPerRegister_eq, registerCount_eq,
      channelCount_eq] at hregister ⊢
    omega
  refine ⟨_, if_pos ⟨htarget, hsource⟩, ?_⟩
  intro channel hchannel tick htick
  rw [sample_eq _ (place_lt hchannel htick), Vector.getElem_ofFn,
    sample_eq b (place_lt hchannel htick)]
  simp only [place_mem_slice htick hroom]
  by_cases hslice : channel / lanesPerRegister = register ∧ offset ≤ tick ∧
      tick < offset + superchunkTicks
  · obtain ⟨rfl, hfirst, hlast⟩ := hslice
    have hplace : lanesStart superchunkTicks (channel / lanesPerRegister) 0 +
        (place ticks channel tick - lanesStart ticks (channel / lanesPerRegister) offset) =
          place superchunkTicks channel (tick - offset) := by
      simp only [place, lanesStart, lanesPerRegister_eq]
      omega
    rw [if_pos ⟨rfl, hfirst, hlast⟩, if_pos ⟨rfl, hfirst, hlast⟩, hplace]
    rfl
  · rw [if_neg hslice, if_neg hslice]
    rfl

theorem copyRegisters?_eq {ticks : Nat} (b : SampleBlock ticks)
    (chunk : SampleBlock superchunkTicks) {offset : Nat} (hroom : offset + superchunkTicks ≤ ticks)
    {r : Nat} (hr : r ≤ registerCount) :
    ∃ filled, b.copyRegisters? chunk offset r = some filled ∧
      ∀ channel < channelCount, ∀ tick < ticks,
        filled.sample channel tick =
          if channel / lanesPerRegister < r ∧ offset ≤ tick ∧ tick < offset + superchunkTicks then
            chunk.sample channel (tick - offset)
          else b.sample channel tick := by
  induction r with
  | zero =>
    refine ⟨b, rfl, fun channel _ tick _ => ?_⟩
    rw [if_neg fun h => absurd h.1 (Nat.not_lt_zero _)]
  | succ r ih =>
    obtain ⟨before, hbefore, hsamples⟩ := ih (Nat.le_of_succ_le hr)
    obtain ⟨filled, hfilled, hslice⟩ := before.copyRegister?_eq chunk hr hroom
    refine ⟨filled, by rw [copyRegisters?, hbefore, Option.bind_some, hfilled], ?_⟩
    intro channel hchannel tick htick
    rw [hslice channel hchannel tick htick, hsamples channel hchannel tick htick]
    by_cases hlast : channel / lanesPerRegister = r
    · simp [hlast]
    · have hearlier : channel / lanesPerRegister < r + 1 ↔ channel / lanesPerRegister < r := by
        omega
      simp only [hlast, hearlier, false_and, if_false]

end SampleBlock

namespace Assembly

def gatheredSample (chunks : Array Superchunk) (channel tick : Nat) : UInt16 :=
  (chunks[tick / superchunkTicks]?.map
    fun chunk => chunk.block.sample channel (tick % superchunkTicks)).getD 0

theorem gatheredSample_push (chunks : Array Superchunk) (chunk : Superchunk) (channel tick : Nat) :
    gatheredSample (chunks.push chunk) channel tick =
      if chunks.size * superchunkTicks ≤ tick ∧
          tick < chunks.size * superchunkTicks + superchunkTicks then
        chunk.block.sample channel (tick - chunks.size * superchunkTicks)
      else gatheredSample chunks channel tick := by
  rw [gatheredSample, Array.getElem?_push]
  simp only [superchunkTicks]
  by_cases hlast : tick / 12 = chunks.size
  · have hrest : tick % 12 = tick - chunks.size * 12 := by omega
    rw [if_pos hlast, if_pos (by omega), hrest]
    rfl
  · rw [if_neg hlast, if_neg (by omega)]
    rfl

theorem finish_eq {n : Nat} {chunks : Array Superchunk} (hsize : chunks.size = n)
    {first : Superchunk} (hfirst : chunks[0]? = some first) (sequence : UInt64)
    {block : SampleBlock (n * superchunkTicks)}
    (hsamples : ∀ channel < channelCount, ∀ tick < n * superchunkTicks,
      block.sample channel tick = gatheredSample chunks channel tick) :
    finish sequence chunks =
      ⟨sequence, first.timestamp, first.header.link, n * superchunkTicks, block⟩ := by
  subst hsize
  have hblock : block = .ofFn _ (gatheredSample chunks) := by
    apply SampleBlock.ext_sample
    intro channel hchannel tick htick
    rw [hsamples channel hchannel tick htick, SampleBlock.sample_ofFn _ hchannel htick]
  rw [finish, hfirst, hblock]
  rfl

def answers (a : Assembly) : List Superchunk → List (Option Window)
  | [] => []
  | chunk :: chunks => (a.push chunk).2 :: (a.push chunk).1.answers chunks

end Assembly

/-- An assembly that lays a window of `n` superchunks out while they arrive.  The time and link are
those of the last superchunk that began a window. -/
structure BufferAssembly (n : Nat) where
  nextSequence : UInt64 := 0
  /-- Superchunks whose samples stand in the buffer. -/
  filled : Nat := 0
  timestamp : UInt64 := 0
  link : Link := .zero
  buffer : SampleBlock (n * superchunkTicks) := .zeros _

namespace BufferAssembly

variable {n : Nat}

/-- Adds a superchunk, and hands out the window that it completes; fails where the samples do not
fit into the buffer. -/
def push? (f : BufferAssembly n) (chunk : Superchunk) :
    Option (BufferAssembly n × Option Window) :=
  let timestamp := if f.filled = 0 then chunk.timestamp else f.timestamp
  let link := if f.filled = 0 then chunk.header.link else f.link
  (f.buffer.copyRegisters? chunk.block (f.filled * superchunkTicks) registerCount).map
    fun buffer =>
      if f.filled + 1 < n then
        ({ f with filled := f.filled + 1, timestamp, link, buffer }, none)
      else
        ({ nextSequence := f.nextSequence + 1, timestamp, link },
          some ⟨f.nextSequence, timestamp, link, n * superchunkTicks, buffer⟩)

def run? (f : BufferAssembly n) :
    List Superchunk → Option (BufferAssembly n × List (Option Window))
  | [] => some (f, [])
  | chunk :: chunks => do
    let (f, answer) ← f.push? chunk
    let (f, answers) ← f.run? chunks
    return (f, answer :: answers)

structure Holds (f : BufferAssembly n) (a : Assembly) : Prop where
  perWindow : a.perWindow = n
  nextSequence : f.nextSequence = a.nextSequence
  filled : f.filled = a.gathered.size
  room : a.gathered.size < n
  first : ∀ chunk, a.gathered[0]? = some chunk →
    f.timestamp = chunk.timestamp ∧ f.link = chunk.header.link
  samples : ∀ channel < channelCount, ∀ tick < n * superchunkTicks,
    f.buffer.sample channel tick = Assembly.gatheredSample a.gathered channel tick

theorem holds_start (hn : 0 < n) : Holds ({} : BufferAssembly n) (.start n) where
  perWindow := rfl
  nextSequence := rfl
  filled := rfl
  room := hn
  first := fun _ h => by cases h
  samples := fun channel hchannel tick htick => SampleBlock.sample_zeros hchannel htick

theorem Holds.first_push {f : BufferAssembly n} {a : Assembly} (h : f.Holds a)
    (chunk : Superchunk) :
    ∃ first, (a.gathered.push chunk)[0]? = some first ∧
      (if f.filled = 0 then chunk.timestamp else f.timestamp) = first.timestamp ∧
      (if f.filled = 0 then chunk.header.link else f.link) = first.header.link := by
  rw [h.filled]
  by_cases hempty : a.gathered.size = 0
  · refine ⟨chunk, ?_, by rw [if_pos hempty], by rw [if_pos hempty]⟩
    rw [Array.getElem?_push, if_pos hempty.symm]
  · have hpos : 0 < a.gathered.size := Nat.pos_of_ne_zero hempty
    have hfirst : a.gathered[0]? = some a.gathered[0] := Array.getElem?_eq_getElem _
    obtain ⟨htimestamp, hlink⟩ := h.first _ hfirst
    refine ⟨_, ?_, by rw [if_neg hempty, htimestamp], by rw [if_neg hempty, hlink]⟩
    rw [Array.getElem?_push, if_neg (Ne.symm hempty), hfirst]

/-- The samples of a superchunk fit, and its answer is that of the assembly that gathers. -/
theorem Holds.push {f : BufferAssembly n} {a : Assembly} (h : f.Holds a) (chunk : Superchunk) :
    ∃ next, f.push? chunk = some (next, (a.push chunk).2) ∧ next.Holds (a.push chunk).1 := by
  have hroom : f.filled * superchunkTicks + superchunkTicks ≤ n * superchunkTicks := by
    have hnext : f.filled + 1 ≤ n := h.filled ▸ h.room
    rw [← Nat.succ_mul]
    exact Nat.mul_le_mul_right _ hnext
  obtain ⟨buffer, hbuffer, hwritten⟩ :=
    f.buffer.copyRegisters?_eq chunk.block hroom (Nat.le_refl registerCount)
  have hsamples (channel : Nat) (hchannel : channel < channelCount) (tick : Nat)
      (htick : tick < n * superchunkTicks) : buffer.sample channel tick =
        Assembly.gatheredSample (a.gathered.push chunk) channel tick := by
    have hregister : channel / lanesPerRegister < registerCount :=
      Nat.div_lt_of_lt_mul hchannel
    rw [hwritten channel hchannel tick htick, Assembly.gatheredSample_push, h.filled,
      h.samples channel hchannel tick htick]
    simp only [hregister, true_and]
  obtain ⟨first, hfirst, htimestamp, hlink⟩ := h.first_push chunk
  rw [push?, hbuffer, Option.map_some, htimestamp, hlink, Assembly.push]
  simp only [Array.size_push, h.perWindow, h.filled]
  by_cases hmore : a.gathered.size + 1 < n
  · rw [if_pos hmore, if_pos hmore]
    refine ⟨_, rfl, rfl, h.nextSequence, ?_, ?_, ?_, hsamples⟩
    · rw [Array.size_push]
    · rwa [Array.size_push]
    · intro other hother
      obtain rfl := Option.some.inj (hfirst.symm.trans hother)
      exact ⟨rfl, rfl⟩
  · rw [if_neg hmore, if_neg hmore]
    have hsize : (a.gathered.push chunk).size = n := by
      have := h.room
      rw [Array.size_push]
      omega
    have hn : 0 < n := Nat.zero_lt_of_lt h.room
    rw [Assembly.finish_eq hsize hfirst a.nextSequence hsamples, h.nextSequence]
    refine ⟨_, rfl, rfl, rfl, rfl, hn, fun _ hnone => (by cases hnone), ?_⟩
    exact fun channel hchannel tick htick => SampleBlock.sample_zeros hchannel htick

theorem Holds.run {f : BufferAssembly n} {a : Assembly} (h : f.Holds a)
    (chunks : List Superchunk) :
    ∃ next, f.run? chunks = some (next, a.answers chunks) ∧ next.Holds (a.after chunks) := by
  induction chunks generalizing f a with
  | nil => exact ⟨f, rfl, h⟩
  | cons chunk chunks ih =>
    obtain ⟨mid, hpush, hmid⟩ := h.push chunk
    obtain ⟨next, hrun, hnext⟩ := ih hmid
    refine ⟨next, ?_, hnext⟩
    rw [run?, hpush]
    simp only [Option.bind_eq_bind, Option.bind_some, hrun]
    rfl

end BufferAssembly

end TpcTrigger
