import TpcTrigger.Signal.Excursion
import Mathlib.Tactic

/-! # Runs over threshold

A run is a stretch of ticks that are all over threshold and that cannot be extended to the
left.  An excursion that started empty holds, before every tick, exactly the run that ends
there: its length, as far as a word can count it, and the charge that it gathered.  The tick that
is not over threshold hands out that run, and no other tick hands out anything.
-/

namespace TpcTrigger

/-- All ticks from `start` on and before `stop` are over, and the one before `start` is not. -/
def IsRun (above : Nat → Bool) (start stop : Nat) : Prop :=
  start < stop ∧ (∀ t < stop, start ≤ t → above t = true) ∧ (start = 0 ∨ above (start - 1) = false)

instance (above : Nat → Bool) (start stop : Nat) : Decidable (IsRun above start stop) :=
  inferInstanceAs (Decidable (_ ∧ _ ∧ _))

/-- The starts of the runs that are ended by the tick `stop`, which is not over itself. -/
def runsEnding (above : Nat → Bool) (stop : Nat) : List Nat :=
  (List.range stop).filter fun start => IsRun above start stop ∧ above stop = false

/-- The charge gathered from `start` on and before `stop`. -/
def gathered (height : Nat → Int) (start stop : Nat) : Int :=
  (List.range' start (stop - start)).foldl (fun charge t => saturatingAdd charge (height t)) 0

/-- The excursion that has been open from `start` on and before `stop`.  It counts its ticks in a
word, so after so many the count starts again from the least word. -/
def Excursion.spanning (height : Nat → Int) (start stop : Nat) : Excursion :=
  ⟨true, gathered height start stop, wrap (stop - start : Nat)⟩

/-- What an excursion holds before the tick `stop`: the run that reaches up to it, or nothing. -/
def Excursion.Holds (above : Nat → Bool) (height : Nat → Int) (stop : Nat) (e : Excursion) : Prop :=
  (∀ start, IsRun above start stop → e = .spanning height start stop) ∧
    ((∀ start, ¬ IsRun above start stop) → e = .none)

variable {above : Nat → Bool} {height : Nat → Int}

theorem IsRun.unique {stop start other : Nat} (h : IsRun above start stop)
    (h' : IsRun above other stop) : start = other := by
  obtain ⟨hlt, habove, hleft⟩ := h
  obtain ⟨hlt', habove', hleft'⟩ := h'
  rcases Nat.lt_trichotomy start other with hcmp | heq | hcmp
  · have := habove (other - 1) (by omega) (by omega)
    rcases hleft' with hzero | hbefore
    · omega
    · rw [this] at hbefore
      cases hbefore
  · exact heq
  · have := habove' (start - 1) (by omega) (by omega)
    rcases hleft with hzero | hbefore
    · omega
    · rw [this] at hbefore
      cases hbefore

theorem IsRun.succ {start stop : Nat} (h : IsRun above start stop) (habove : above stop = true) :
    IsRun above start (stop + 1) := by
  refine ⟨by have := h.1; omega, fun t ht hstart => ?_, h.2.2⟩
  by_cases hlast : t = stop
  · rw [hlast, habove]
  · exact h.2.1 t (by omega) hstart

theorem exists_isRun_of_above {t : Nat} (h : above t = true) : ∃ start, IsRun above start (t + 1) := by
  induction t with
  | zero =>
    refine ⟨0, by omega, fun t ht _ => ?_, .inl rfl⟩
    rwa [show t = 0 by omega]
  | succ t ih =>
    cases hprev : above t with
    | true =>
      obtain ⟨start, hrun⟩ := ih hprev
      exact ⟨start, hrun.succ h⟩
    | false =>
      refine ⟨t + 1, by omega, fun u hu hstart => ?_, .inr hprev⟩
      rwa [show u = t + 1 by omega]

theorem above_of_isRun_succ {start stop : Nat} (h : IsRun above start (stop + 1)) :
    above stop = true :=
  h.2.1 stop (by omega) (by have := h.1; omega)

theorem gathered_succ {start stop : Nat} (h : start ≤ stop) :
    gathered height start (stop + 1) =
      saturatingAdd (gathered height start stop) (height stop) := by
  have hsub : stop + 1 - start = (stop - start) + 1 := by omega
  have hlast : start + 1 * (stop - start) = stop := by omega
  rw [gathered, hsub, List.range'_concat, List.foldl_append, hlast]
  rfl

theorem Excursion.extend_spanning {start stop : Nat} (h : start ≤ stop) :
    (spanning height start stop).extend (height stop) = spanning height start (stop + 1) := by
  rw [spanning, extend, spanning, gathered_succ h, wrap_wrap_add, Nat.sub_add_comm h, Nat.cast_succ]

theorem Excursion.extend_none (start : Nat) :
    Excursion.none.extend (height start) = spanning height start (start + 1) := by
  rw [← extend_spanning le_rfl, spanning, gathered, Nat.sub_self]
  rfl

theorem Excursion.holds_zero : Excursion.none.Holds above height 0 :=
  ⟨fun _ h => absurd h.1 (Nat.not_lt_zero _), fun _ => rfl⟩

theorem Excursion.Holds.step {stop : Nat} {e : Excursion} (h : e.Holds above height stop) :
    (e.step (above stop) (height stop)).Holds above height (stop + 1) := by
  obtain ⟨hopen, hquiet⟩ := h
  cases habove : above stop with
  | true =>
    obtain ⟨start, hrun⟩ := exists_isRun_of_above habove
    refine ⟨fun other hother => ?_, fun hnone => absurd hrun (hnone start)⟩
    obtain rfl := hrun.unique hother
    by_cases hlong : start < stop
    · have hshorter : IsRun above start stop :=
        ⟨hlong, fun t ht hstart => hrun.2.1 t (by omega) hstart, hrun.2.2⟩
      rw [hopen start hshorter, Excursion.step, if_pos rfl, extend_spanning hlong.le]
    · have heq : start = stop := by have := hrun.1; omega
      subst heq
      have hnone : ∀ other, ¬ IsRun above other start := by
        intro other hother
        have hlong := hrun.unique (hother.succ habove)
        have := hother.1
        omega
      rw [hquiet hnone, Excursion.step, if_pos rfl, extend_none]
  | false =>
    have hnone : ∀ start, ¬ IsRun above start (stop + 1) := by
      intro start hrun
      rw [above_of_isRun_succ hrun] at habove
      cases habove
    refine ⟨fun start hrun => absurd hrun (hnone start), fun _ => ?_⟩
    by_cases hrun : ∃ start, IsRun above start stop
    · obtain ⟨start, hrun⟩ := hrun
      rw [hopen start hrun]
      rfl
    · rw [hquiet (not_exists.mp hrun)]
      rfl

theorem runsEnding_of_isRun {start stop : Nat} (hrun : IsRun above start stop)
    (hend : above stop = false) : runsEnding above stop = [start] := by
  have hstart : start ∈ runsEnding above stop := by
    simp [runsEnding, hrun, hend, hrun.1]
  have hall : ∀ other ∈ runsEnding above stop, other = start := by
    intro other hother
    simp only [runsEnding, List.mem_filter, decide_eq_true_eq] at hother
    exact hother.2.1.unique hrun
  have hnodup : (runsEnding above stop).Nodup := List.nodup_range.filter _
  match hl : runsEnding above stop with
  | [] => simp [hl] at hstart
  | [other] => rw [hall other (by simp [hl])]
  | a :: b :: rest =>
    have hsame : a = b := (hall a (by simp [hl])).trans (hall b (by simp [hl])).symm
    simp [hl, hsame] at hnodup

theorem runsEnding_eq_nil {stop : Nat} (h : ∀ start, above stop = false → ¬ IsRun above start stop) :
    runsEnding above stop = [] := by
  refine List.filter_eq_nil_iff.mpr fun start _ => ?_
  simp only [decide_eq_true_eq]
  exact fun hrun => h start hrun.2 hrun.1

theorem Excursion.Holds.closed? {stop : Nat} {e : Excursion} (h : e.Holds above height stop) :
    (e.closed? (above stop)).toList =
      (runsEnding above stop).map fun start => .spanning height start stop := by
  obtain ⟨hopen, hquiet⟩ := h
  cases habove : above stop with
  | true =>
    rw [runsEnding_eq_nil fun start hend => by rw [habove] at hend; cases hend]
    simp [Excursion.closed?]
  | false =>
    by_cases hrun : ∃ start, IsRun above start stop
    · obtain ⟨start, hrun⟩ := hrun
      rw [runsEnding_of_isRun hrun habove, hopen start hrun]
      rfl
    · rw [runsEnding_eq_nil fun start _ => not_exists.mp hrun start, hquiet (not_exists.mp hrun)]
      rfl

end TpcTrigger
