import TpcTrigger.Detection.Kernel

/-! # Tracker rules of the kernels

The channelwise kernel lets a tracker step up, starts its count again and only then asks
whether to step down.  The lockstep kernel decides both steps by the balance after the count.
The two rules part only below a step limit of one, so what is said of a channel for any rule
holds for either kernel and every limit.
-/

namespace TpcTrigger

/-- How a tracker takes in a sample. -/
abbrev TrackerRule := Tracker → Int → Tracker

namespace Tracker

/-- Takes in one sample, both steps decided by the balance after the count. -/
def observeAtOnce (limit : Int) (t : Tracker) (sample : Int) : Tracker :=
  let balance := (t.weigh sample).balance
  { estimate := t.estimate + (if limit ≤ balance then 1 else 0)
      - (if balance ≤ -limit then 1 else 0)
    balance := if limit ≤ balance ∨ balance ≤ -limit then 0 else balance }

theorem observeAtOnce_eq_observe {limit : Int} (hlimit : 1 ≤ limit) :
    observeAtOnce limit = observe limit := by
  funext t sample
  simp only [observeAtOnce, observe]
  generalize hw : t.weigh sample = w
  have hestimate : w.estimate = t.estimate := by rw [← hw, weigh]
  by_cases hup : limit ≤ w.balance
  · have hdown : ¬ w.balance ≤ -limit := by omega
    have hzero : ¬ limit ≤ 0 := by omega
    simp [stepUp, stepDown, hup, hdown, hzero, hestimate]
  · by_cases hdown : w.balance ≤ -limit
    · simp [stepUp, stepDown, hup, hdown, hestimate]
    · simp [stepUp, stepDown, hup, hdown, ← hestimate]

end Tracker

def KernelKind.rule (kind : KernelKind) (limit : Int) : TrackerRule :=
  match kind with
  | channelwise => Tracker.observe limit
  | lockstep => Tracker.observeAtOnce limit

theorem KernelKind.rule_eq_of_one_le {limit : Int} (hlimit : 1 ≤ limit) (kind other : KernelKind) :
    kind.rule limit = other.rule limit := by
  have h := Tracker.observeAtOnce_eq_observe hlimit
  cases kind <;> cases other <;> simp only [rule, h]

def Baseline.observeBy (rule : TrackerRule) (b : Baseline) (sample : Int) : Baseline :=
  let median := rule b.median sample
  { median
    lower := if sample < median.estimate then rule b.lower sample else b.lower
    upper := if median.estimate < sample then rule b.upper sample else b.upper }

end TpcTrigger
