import TpcTrigger.Signal.DelayLine
import Mathlib.Tactic

/-! # Delay lines by their entries

Two delay lines that hold the same entries, read from the oldest, give the same filter output
and stay alike under new samples, however far their rings are turned against each other.  A
line is determined by its length, its phase and its entries.
-/

namespace TpcTrigger.DelayLine

/-- A new sample is the youngest entry, and all others are one place older. -/
theorem entry_push {line : DelayLine} {n : Nat} (h : line.Fits n) (x : Int) {k : Nat}
    (hk : k < n) : (line.push x).entry k = if k + 1 = n then x else line.entry (k + 1) := by
  obtain ⟨rfl, hphase⟩ := h
  have hslot : (k + (line.phase + 1) % line.cells.size) % line.cells.size =
      (k + 1 + line.phase) % line.cells.size := by
    rw [Nat.add_mod_mod, Nat.add_right_comm, Nat.add_assoc]
  simp only [entry, push, Array.size_setIfInBounds, hslot]
  split
  · next hlast =>
    have hmod : (k + 1 + line.phase) % line.cells.size = line.phase := by
      rw [hlast, Nat.add_mod_left, Nat.mod_eq_of_lt hphase]
    rw [hmod, Array.getD_eq_getD_getElem?, Array.getElem?_setIfInBounds_self_of_lt hphase,
      Option.getD_some]
  · next hlast =>
    have hne : line.phase ≠ (k + 1 + line.phase) % line.cells.size := by
      intro heq
      by_cases hwrap : k + 1 + line.phase < line.cells.size
      · rw [Nat.mod_eq_of_lt hwrap] at heq
        omega
      · rw [Nat.mod_eq_sub_mod (by omega), Nat.mod_eq_of_lt (by omega)] at heq
        omega
    rw [Array.getD_eq_getD_getElem?, Array.getElem?_setIfInBounds_ne hne,
      ← Array.getD_eq_getD_getElem?]

/-- The first `n` terms of the filter sum, each tap times the entry of its index, as an exact
number. -/
def partialSum (taps : Array Int) (line : DelayLine) (n : Nat) : Int :=
  n.fold (fun i _ sum => sum + taps.getD i 0 * line.entry i) 0

theorem partialSum_succ (taps : Array Int) (line : DelayLine) (n : Nat) :
    line.partialSum taps (n + 1) = line.partialSum taps n + taps.getD n 0 * line.entry n :=
  Nat.fold_succ ..

/-- Wrapping every product and every sum comes to wrapping the exact sum once. -/
theorem output_eq_wrap (taps : Array Int) (line : DelayLine) :
    line.output taps = wrap (line.partialSum taps taps.size) := by
  have hsum (n : Nat) :
      n.fold (fun i _ sum => wrap (sum + wrap (taps.getD i 0 * line.entry i))) 0 =
        wrap (line.partialSum taps n) := by
    induction n with
    | zero => rfl
    | succ n ih => rw [Nat.fold_succ, ih, partialSum_succ, wrap_wrap_add, wrap_add_wrap]
  exact hsum taps.size

theorem partialSum_congr (taps : Array Int) {a b : DelayLine} {n : Nat}
    (h : ∀ i < n, a.entry i = b.entry i) : a.partialSum taps n = b.partialSum taps n := by
  induction n with
  | zero => rfl
  | succ n ih =>
    rw [partialSum_succ, partialSum_succ, ih fun i hi => h i (by omega), h n (by omega)]

/-- Both lines have `n` slots and the same entries from the oldest on. -/
structure Alike (n : Nat) (a b : DelayLine) : Prop where
  left : a.Fits n
  right : b.Fits n
  entry : ∀ k < n, a.entry k = b.entry k

theorem Alike.push {n : Nat} {a b : DelayLine} (h : Alike n a b) (x : Int) :
    Alike n (a.push x) (b.push x) where
  left := h.left.push x
  right := h.right.push x
  entry k hk := by
    rw [entry_push h.left x hk, entry_push h.right x hk]
    split
    · rfl
    · exact h.entry (k + 1) (by omega)

theorem Alike.output {taps : Array Int} {a b : DelayLine} (h : Alike taps.size a b) :
    a.output taps = b.output taps := by
  rw [output_eq_wrap, output_eq_wrap, partialSum_congr taps h.entry]

/-- Writing the entries of a line to the slots that they came from gives the line back. -/
theorem ofEntries_entry {line : DelayLine} {n : Nat} (h : line.Fits n) {entries : Nat → Int}
    (hentry : ∀ k < n, entries k = line.entry k) : ofEntries n line.phase entries = line := by
  obtain ⟨rfl, hphase⟩ := h
  have hcells : (ofEntries line.cells.size line.phase entries).cells = line.cells := by
    apply Array.ext
    · simp [ofEntries]
    · intro slot _ hslot
      have hback : ((slot + (line.cells.size - line.phase)) % line.cells.size + line.phase) %
          line.cells.size = slot := by
        rw [Nat.mod_add_mod, Nat.add_assoc, Nat.sub_add_cancel hphase.le, Nat.add_mod_right,
          Nat.mod_eq_of_lt hslot]
      simp only [ofEntries, Array.getElem_ofFn]
      rw [hentry _ (Nat.mod_lt _ (by omega)), DelayLine.entry, hback]
      simp [Array.getD, hslot]
  cases line
  simpa [ofEntries] using hcells

theorem phase_push {line : DelayLine} {n : Nat} (h : line.Fits n) (x : Int) :
    (line.push x).phase = (line.phase + 1) % n := by
  rw [push, h.1]

end TpcTrigger.DelayLine
