import TpcTrigger.Proofs.Signal.RingEntries

/-! # The sequence behind a delay line

The entries of a delay line, read from the oldest, are the end of the sequence of everything that
it has held: what it held at first, followed by what was pushed.  The ring turns, but a push only
drops the first entry and adds a last one.  The filter lays its taps over the entries, so its
output is a sum over a stretch of the sequence that moves on by one place with every push.
-/

namespace TpcTrigger.DelayLine

def entries (line : DelayLine) : List Int := (List.range line.cells.size).map line.entry

@[simp] theorem length_entries (line : DelayLine) : line.entries.length = line.cells.size := by
  simp [entries]

theorem getElem?_entries {line : DelayLine} {k : Nat} (hk : k < line.cells.size) :
    line.entries[k]? = some (line.entry k) := by
  simp [entries, hk]

variable {line : DelayLine} {n : Nat}

/-- A push drops the oldest entry and adds a youngest one. -/
theorem entries_push (h : line.Fits n) (x : Int) :
    (line.push x).entries = (line.entries ++ [x]).drop 1 := by
  have hsize := h.1
  apply List.ext_getElem?
  intro k
  rw [List.getElem?_drop]
  rcases Nat.lt_or_ge k n with hk | hk
  · rw [getElem?_entries (by rwa [cells_size_push, hsize]), entry_push h x hk]
    split
    · next hlast =>
      rw [Nat.add_comm 1 k, hlast, ← hsize, ← length_entries, List.getElem?_concat_length]
    · rw [Nat.add_comm 1 k, List.getElem?_append_left (by rw [length_entries]; omega),
        getElem?_entries (by omega)]
  · have hlength : (line.entries ++ [x]).length = n + 1 := by
      rw [List.length_append, length_entries, List.length_singleton, hsize]
    rw [List.getElem?_eq_none (by rw [length_entries, cells_size_push]; omega),
      List.getElem?_eq_none (by omega)]

/-- After many pushes a line holds the end of the sequence of all that it has held. -/
theorem entries_pushes (h : line.Fits n) (xs : List Int) :
    (xs.foldl push line).entries = (line.entries ++ xs).drop xs.length := by
  induction xs generalizing line with
  | nil => simp
  | cons x xs ih =>
    have hone : 1 ≤ (line.entries ++ [x]).length := by simp
    rw [List.foldl_cons, ih (h.push x), entries_push h, ← List.drop_append_of_le_length hone,
      List.drop_drop, List.append_assoc, List.singleton_append, List.length_cons, Nat.add_comm 1]

theorem fits_pushes (h : line.Fits n) (xs : List Int) : (xs.foldl push line).Fits n := by
  induction xs generalizing line with
  | nil => exact h
  | cons x xs ih => exact ih (h.push x)

/-- A line on its way reads the sequence from the place of the next push on. -/
theorem entry_pushes (h : line.Fits n) (xs : List Int) {t k : Nat} (ht : t ≤ xs.length)
    (hk : k < n) : ((xs.take t).foldl push line).entry k = (line.entries ++ xs).getD (t + k) 0 := by
  have hfits := fits_pushes h (xs.take t)
  have hentry := getElem?_entries (hk.trans_eq hfits.1.symm)
  have hsoFar : line.entries ++ xs.take t = (line.entries ++ xs).take (n + t) := by
    rw [← List.take_length_add_append, length_entries, h.1]
  rw [entries_pushes h, List.length_take_of_le ht, List.getElem?_drop, hsoFar,
    List.getElem?_take_of_lt (by omega)] at hentry
  rw [List.getD_eq_getElem?_getD, hentry, Option.getD_some]

theorem partialSum_eq_sum (taps : Array Int) (line : DelayLine) (n : Nat) :
    line.partialSum taps n = ∑ i ∈ Finset.range n, taps.getD i 0 * line.entry i := by
  induction n with
  | zero => rfl
  | succ n ih => rw [partialSum_succ, Finset.sum_range_succ, ih]

theorem output_eq_sum (taps : Array Int) (line : DelayLine) :
    line.output taps = wrap (∑ i ∈ Finset.range taps.size, taps.getD i 0 * line.entry i) := by
  rw [output_eq_wrap, partialSum_eq_sum]

end TpcTrigger.DelayLine
