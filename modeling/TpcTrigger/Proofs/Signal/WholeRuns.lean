import TpcTrigger.Proofs.Signal.Runs

/-! # Whole runs

Among the first ticks of a stream a run is whole if it cannot be extended to the right either: a
tick that is not over ends it, or the stretch does.  Where fewer ticks are over, every whole run
lies within one of those that there were before.
-/

namespace TpcTrigger

/-- A run among the first `total` ticks that cannot be extended in either direction. -/
structure IsWholeRun (above : Nat → Bool) (total start stop : Nat) : Prop where
  run : IsRun above start stop
  within : stop ≤ total
  ends : stop = total ∨ above stop = false

variable {above : Nat → Bool} {total start stop : Nat}

theorem IsRun.exists_whole (h : IsRun above start stop) (hwithin : stop ≤ total) :
    ∃ last, stop ≤ last ∧ IsWholeRun above total start last := by
  induction hroom : total - stop generalizing stop with
  | zero => exact ⟨stop, le_rfl, h, hwithin, .inl (by omega)⟩
  | succ n ih =>
    cases habove : above stop with
    | false => exact ⟨stop, le_rfl, h, hwithin, .inr habove⟩
    | true =>
      obtain ⟨last, hlast, hwhole⟩ := ih (h.succ habove) (by omega) (by omega)
      exact ⟨last, (Nat.le_succ stop).trans hlast, hwhole⟩

/-- A run has taken in all ticks before its end that are over without a gap. -/
theorem IsRun.start_le {first : Nat} (h : IsRun above start stop)
    (hover : ∀ t < stop, first ≤ t → above t = true) : start ≤ first := by
  by_contra hlate
  rcases h.2.2 with hzero | hbefore
  · omega
  · have hlong := h.1
    rw [hover (start - 1) (by omega) (by omega)] at hbefore
    cases hbefore

theorem IsWholeRun.exists_around {fewer : Nat → Bool}
    (hfewer : ∀ t < total, fewer t = true → above t = true)
    (h : IsWholeRun fewer total start stop) :
    ∃ first last, IsWholeRun above total first last ∧ first ≤ start ∧ stop ≤ last := by
  have hover (t : Nat) (ht : t < stop) (hstart : start ≤ t) : above t = true :=
    hfewer t (ht.trans_le h.within) (h.run.2.1 t ht hstart)
  obtain ⟨t, rfl⟩ : ∃ t, stop = t + 1 := Nat.exists_eq_add_one.mpr (Nat.zero_lt_of_lt h.run.1)
  obtain ⟨first, hrun⟩ :=
    exists_isRun_of_above (hover t (Nat.lt_succ_self t) (Nat.le_of_lt_succ h.run.1))
  obtain ⟨last, hlast, hwhole⟩ := hrun.exists_whole h.within
  exact ⟨first, last, hwhole, hrun.start_le hover, hlast⟩

/-- The excursion that is open at the end of a stretch is the run that reaches up to it. -/
theorem Excursion.Holds.closed?_false {height : Nat → Int} {e : Excursion}
    (h : e.Holds above height total) (x : Excursion) :
    x ∈ e.closed? false ↔ ∃ start, IsRun above start total ∧ x = .spanning height start total := by
  obtain ⟨hopen, hquiet⟩ := h
  by_cases hrun : ∃ start, IsRun above start total
  · obtain ⟨start, hrun⟩ := hrun
    have hclosed : (spanning height start total).closed? false =
        some (spanning height start total) := rfl
    rw [hopen start hrun, hclosed]
    constructor
    · intro hx
      exact ⟨start, hrun, (Option.mem_some_iff.mp hx).symm⟩
    · rintro ⟨other, hother, rfl⟩
      rw [hrun.unique hother]
      exact Option.mem_some_self _
  · rw [hquiet (not_exists.mp hrun)]
    constructor
    · intro hx
      cases hx
    · rintro ⟨start, hstart, -⟩
      exact absurd ⟨start, hstart⟩ hrun

end TpcTrigger
