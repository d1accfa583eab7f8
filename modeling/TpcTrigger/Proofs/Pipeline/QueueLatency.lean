import TpcTrigger.Proofs.Pipeline.GapCounts

/-! # Waiting times in the queue

The dispatcher adds the waiting time of a superchunk to the total when it takes it, and counts it
among those that the mean is taken over when it is done with it.  In between there is one waiting
time more in the total than superchunks in the count, so what is shown as their mean can be greater
than the greatest of them.  Before and behind it, it is their mean.
-/

namespace TpcTrigger

def DispatchAct.wait? : DispatchAct → Option Nat
  | .countDequeued latency _ => some (Metrics.latencyWord latency).toNat
  | _ => none

def waitCount (acts : List DispatchAct) : Nat := acts.countP (·.wait?.isSome)

theorem waitCount_cons (act : DispatchAct) (acts : List DispatchAct) :
    waitCount (act :: acts) = waitCount acts + act.wait?.toList.length := by
  rw [waitCount, List.countP_cons, waitCount]
  cases act.wait? <;> rfl

/-- What is left of the acts for one task: a waiting time is added first, and only for a
superchunk that is still to be counted as done with. -/
structure WaitFirst (acts : List DispatchAct) : Prop where
  first : waitCount acts.tail = 0
  paired : waitCount acts ≤ acts.count .countConsumed
  once : acts.count .countConsumed ≤ 1

theorem WaitFirst.tail {act : DispatchAct} {acts : List DispatchAct}
    (h : WaitFirst (act :: acts)) : WaitFirst acts where
  first := Nat.le_zero.mp ((acts.tail_sublist.countP_le).trans h.first.le)
  paired := h.first.le.trans (Nat.zero_le _)
  once := List.count_le_count_cons.trans h.once

namespace Dispatcher

/-- Whether the superchunk in hand is in the total, but not yet in the count. -/
def isMidway (d : Dispatcher) : Bool := waitCount d.acts < d.acts.count .countConsumed

def Between (acts : List DispatchAct) : Prop :=
  ∀ act ∈ acts, act.wait? = none ∧ act ≠ .countConsumed

theorem between_singleton {act : DispatchAct} (hwait : act.wait? = none)
    (hact : act ≠ .countConsumed) : Between [act] := fun _ hother =>
  (List.mem_singleton.mp hother).symm ▸ ⟨hwait, hact⟩

theorem Between.append {xs ys : List DispatchAct} (hxs : Between xs) (hys : Between ys) :
    Between (xs ++ ys) := fun act hact =>
  (List.mem_append.mp hact).elim (hxs act) (hys act)

theorem between_toAll (d : Dispatcher) (message : WorkerMessage) : Between (d.toAll message) := by
  intro act hact
  obtain ⟨worker, -, rfl⟩ := List.mem_map.mp hact
  exact ⟨rfl, nofun⟩

theorem between_handOut (d : Dispatcher) (window : Window) : Between (d.handOut window) := by
  have hcount : Between [.countDispatched] := between_singleton rfl nofun
  have hwindow := hcount.append (d.between_toAll (.window window))
  rw [handOut]
  cases d.seeded with
  | true => exact hwindow
  | false => exact (d.between_toAll (.seed window)).append hwindow

theorem waitCount_of_between {acts : List DispatchAct} (h : Between acts) :
    waitCount acts = 0 ∧ acts.count .countConsumed = 0 := by
  refine ⟨List.countP_eq_zero.mpr fun act hact => ?_,
    List.count_eq_zero.mpr fun hmem => (h _ hmem).2 rfl⟩
  rw [(h act hact).1]
  exact Bool.false_ne_true

/-- A superchunk that is taken is added to the total first and counted last, whatever is in it. -/
theorem exists_between (d : Dispatcher) (timestamp : UInt64) (bytes : ByteArray) (latency : Nat) :
    ∃ lagging acts, (d.acceptSuperchunk timestamp bytes latency).acts =
      .countDequeued latency lagging :: (acts ++ [.countConsumed]) ∧ Between acts := by
  have hgap : Between (List.replicate (d.continuity.gapsAt timestamp) .countGap) := by
    intro act hact
    obtain rfl := List.eq_of_mem_replicate hact
    exact ⟨rfl, nofun⟩
  cases hdecode : Superchunk.decode bytes with
  | error cause =>
    have hmalformed : Between [.countMalformed] := between_singleton rfl nofun
    refine ⟨(d.lag.observe latency).1.lagging, _, ?_, hgap.append hmalformed⟩
    rw [acceptSuperchunk, hdecode, ContinuityCheck.gapsAt, ContinuityCheck.observe]
    cases d.continuity.compare timestamp <;> rfl
  | ok chunk =>
    have hwindow : Between ((d.assembly.push chunk).2.toList.flatMap d.handOut) := by
      intro act hact
      obtain ⟨window, -, hact⟩ := List.mem_flatMap.mp hact
      exact d.between_handOut window act hact
    refine ⟨(d.lag.observe latency).1.lagging, _, ?_, hgap.append hwindow⟩
    rw [acceptSuperchunk, hdecode, ContinuityCheck.gapsAt, ContinuityCheck.observe]
    rcases hpush : d.assembly.push chunk with ⟨assembly, _ | window⟩ <;>
      cases d.continuity.compare timestamp <;> simp [hpush]

/-- A task that is taken adds a waiting time if it is going to be counted. -/
theorem waitFirst_accept (d : Dispatcher) (task : Task) (latency : Nat) :
    WaitFirst (d.accept task latency).acts ∧
      waitCount (d.accept task latency).acts =
        (d.accept task latency).acts.count .countConsumed := by
  cases task with
  | shutdown =>
    have hbetween : Between (d.accept .shutdown latency).acts :=
      (d.between_toAll .shutdown).append (between_singleton rfl nofun)
    obtain ⟨hwaits, hcount⟩ := waitCount_of_between hbetween
    have htail := waitCount_of_between fun act hact => hbetween act (List.mem_of_mem_tail hact)
    rw [hwaits, hcount]
    exact ⟨⟨htail.1, by omega, by omega⟩, rfl⟩
  | superchunk timestamp bytes =>
    obtain ⟨lagging, acts, hacts, hbetween⟩ := d.exists_between timestamp bytes latency
    obtain ⟨hwaits, hcount⟩ := waitCount_of_between hbetween
    have hrest : waitCount (acts ++ [.countConsumed]) = 0 := by
      rw [waitCount, List.countP_append, ← waitCount, hwaits]
      rfl
    have hone : (DispatchAct.countDequeued latency lagging :: (acts ++ [.countConsumed])).count
        .countConsumed = 1 := by
      rw [List.count_cons_of_ne (by simp), List.count_append, hcount]
      rfl
    have hall : waitCount (.countDequeued latency lagging :: (acts ++ [.countConsumed])) = 1 := by
      rw [waitCount_cons, hrest]
      rfl
    rw [accept, hacts, hone, hall]
    exact ⟨⟨hrest, by omega, by omega⟩, rfl⟩

end Dispatcher

namespace Pipeline

def waitAt (p : Pipeline) : Move → Option Nat
  | .dispatch _ => if p.dispatcher.stopped then none else p.dispatcher.acts.head?.bind (·.wait?)
  | _ => none

/-- The waiting times that the moves of a run add to the total, in order. -/
def waits (m : Method) (p : Pipeline) : List Move → List Nat
  | [] => []
  | move :: moves =>
    (p.waitAt move).toList ++ (p.move? m move).elim [] fun q => q.waits m moves

theorem waitAt_of_acts {p : Pipeline} (hthere : p.dispatcher.stopped = false) {act : DispatchAct}
    {acts : List DispatchAct} (hacts : p.dispatcher.acts = act :: acts) (latency : Nat) :
    p.waitAt (.dispatch latency) = act.wait? := by
  rw [waitAt, hthere, hacts]
  rfl

/-- What the counters know of the waiting times so far. -/
structure Waited (waits : List Nat) (p : Pipeline) : Prop where
  acts : WaitFirst p.dispatcher.acts
  last : p.metrics.lastLatency.toNat = waits.getLastD 0
  greatest : p.metrics.maxLatency.toNat = waits.foldl max 0
  total : p.metrics.totalLatency.toNat = waits.sum % UInt64.size
  counted : waits.length + waitCount p.dispatcher.acts =
    p.metrics.consumed + p.dispatcher.acts.count .countConsumed

theorem waited_start (s : Settings) : (start s).Waited [] where
  acts := ⟨rfl, le_rfl, Nat.zero_le 1⟩
  last := rfl
  greatest := rfl
  total := rfl
  counted := rfl

namespace Waited

variable {m : Method} {waits : List Nat} {p q : Pipeline}

/-- Clients, workers and the merger count no waiting times. -/
theorem congr (hp : p.Waited waits) (hacts : q.dispatcher.acts = p.dispatcher.acts)
    (hlast : q.metrics.lastLatency = p.metrics.lastLatency)
    (hgreatest : q.metrics.maxLatency = p.metrics.maxLatency)
    (htotal : q.metrics.totalLatency = p.metrics.totalLatency)
    (hconsumed : q.metrics.consumed = p.metrics.consumed) : q.Waited waits where
  acts := hacts ▸ hp.acts
  last := hlast ▸ hp.last
  greatest := hgreatest ▸ hp.greatest
  total := htotal ▸ hp.total
  counted := by rw [hacts, hconsumed, hp.counted]

theorem act (hp : p.Waited waits) {act : DispatchAct} {acts : List DispatchAct}
    (hacts : p.dispatcher.acts = act :: acts) (hnext : q.dispatcher.acts = acts)
    (hmetrics : q.metrics = act.count p.metrics) :
    q.Waited (waits ++ act.wait?.toList) := by
  have horder : WaitFirst (act :: acts) := hacts ▸ hp.acts
  have hcounted : (waits ++ act.wait?.toList).length + waitCount acts =
      (act.count p.metrics).consumed + acts.count .countConsumed := by
    have hbefore := hp.counted
    have hdone : (act.count p.metrics).consumed =
        p.metrics.consumed + [act].count .countConsumed := by cases act <;> rfl
    rw [hacts, waitCount_cons, ← List.singleton_append, List.count_append] at hbefore
    rw [List.length_append, hdone]
    omega
  cases act with
  | countDequeued latency lagging =>
    have hword : (DispatchAct.countDequeued latency lagging).wait?.toList =
        [(Metrics.latencyWord latency).toNat] := rfl
    rw [hword]
    refine ⟨hnext ▸ horder.tail, ?_, ?_, ?_, by rw [hnext, hmetrics]; exact hcounted⟩
    · rw [hmetrics, List.getLastD_concat]
      rfl
    · rw [hmetrics, List.foldl_append, ← hp.greatest]
      exact UInt64.toNat_max ..
    · have hsum : q.metrics.totalLatency =
          p.metrics.totalLatency + Metrics.latencyWord latency := by rw [hmetrics]; rfl
      rw [hsum, UInt64.toNat_add, hp.total, List.sum_append, List.sum_singleton]
      exact Nat.mod_add_mod ..
  | _ =>
    refine (List.append_nil waits).symm ▸ ⟨hnext ▸ horder.tail, ?_, ?_, ?_, ?_⟩
    · rw [hmetrics]
      exact hp.last
    · rw [hmetrics]
      exact hp.greatest
    · rw [hmetrics]
      exact hp.total
    · rw [hnext, hmetrics]
      exact (List.append_nil waits) ▸ hcounted

theorem move (hp : p.Waited waits) {move : Move} (hmove : p.move? m move = some q) :
    q.Waited (waits ++ (p.waitAt move).toList) := by
  cases step_of_move? hmove with
  | @take latency task _ hthere hacts hnext =>
    obtain ⟨hfirst, hpaired⟩ := p.dispatcher.waitFirst_accept task latency
    have hnone : p.waitAt (.dispatch latency) = none := by
      rw [waitAt, hthere, hacts]
      rfl
    have hcounted := hp.counted
    rw [hacts] at hcounted
    rw [hnone, Option.toList_none, List.append_nil]
    exact ⟨hfirst, hp.last, hp.greatest, hp.total, by rw [hpaired]; exact congrArg (· + _) hcounted⟩
  | @note _ act acts hthere hacts hnote =>
    rw [waitAt_of_acts hthere hacts]
    exact hp.act hacts rfl rfl
  | send hthere hacts hnode hsend =>
    rw [waitAt_of_acts hthere hacts]
    exact hp.act hacts rfl rfl
  | pass hthere hacts hgone =>
    rw [waitAt_of_acts hthere hacts]
    exact hp.act hacts rfl rfl
  | leave hthere hacts =>
    rw [waitAt_of_acts hthere hacts]
    exact hp.act hacts rfl rfl
  | @count _ c hcall =>
    refine (List.append_nil waits).symm ▸ ?_
    cases c <;> exact hp.congr rfl rfl rfl rfl rfl
  | storeBatch hphase hfull =>
    refine (List.append_nil waits).symm ▸ ?_
    rw [storeBatch]
    split <;> exact hp.congr rfl rfl rfl rfl rfl
  | _ => exact (List.append_nil waits).symm ▸ hp.congr rfl rfl rfl rfl rfl

theorem run (hp : p.Waited waits) {moves : List Move} (hrun : p.run? m moves = some q) :
    q.Waited (waits ++ p.waits m moves) := by
  induction moves generalizing p waits with
  | nil =>
    rw [run?, Option.some.injEq] at hrun
    rw [Pipeline.waits, List.append_nil, ← hrun]
    exact hp
  | cons move moves ih =>
    obtain ⟨next, hmove, hrest⟩ := Option.bind_eq_some_iff.mp hrun
    rw [Pipeline.waits, hmove, Option.elim_some, ← List.append_assoc]
    exact ih (hp.move hmove) hrest

end Waited

theorem le_foldl_max {wait : Nat} {waits : List Nat} (hwait : wait ∈ waits) :
    wait ≤ waits.foldl max 0 := by
  induction waits using List.reverseRecOn with
  | nil => cases hwait
  | append_singleton waits last ih =>
    rw [List.foldl_append]
    rcases List.mem_append.mp hwait with hearlier | hlast
    · exact (ih hearlier).trans (le_max_left ..)
    · obtain rfl := List.mem_singleton.mp hlast
      exact le_max_right _ wait

theorem toNat_meanLatency (metrics : Metrics) :
    metrics.meanLatency.toNat = metrics.totalLatency.toNat / metrics.consumed := by
  have hquotient : (if metrics.consumed = 0 then 0
      else metrics.totalLatency.toNat / metrics.consumed) =
        metrics.totalLatency.toNat / metrics.consumed := by
    split
    · rename_i hnone
      rw [hnone, Nat.div_zero]
    · rfl
  rw [Metrics.meanLatency, hquotient, UInt64.toNat_ofNat_of_lt']
  exact (Nat.div_le_self ..).trans_lt metrics.totalLatency.toNat_lt

/-- What a snapshot shows of the waiting times so far, if it is not taken within the call that records
one.  It shows the last and the greatest of them, and their mean unless the superchunk in hand is in
the total, but not in the count: what is then shown as the mean can be greater than the greatest by
as much as that is over the count. -/
theorem mean_of_waits {s : Settings} {m : Method} {moves : List Move} {p : Pipeline}
    (hrun : (start s).run? m moves = some p)
    (hsum : ((start s).waits m moves).sum < UInt64.size) :
    let waits := (start s).waits m moves
    let last := p.snapshot.counters.lastLatency.toNat
    let greatest := p.snapshot.counters.maxLatency.toNat
    let mean := p.snapshot.meanLatency.toNat
    let consumed := p.snapshot.counters.consumed
    last = waits.getLastD 0 ∧ greatest = waits.foldl max 0 ∧ last ≤ greatest ∧
      (p.dispatcher.isMidway = false → mean = waits.sum / waits.length ∧ mean ≤ greatest) ∧
      (p.dispatcher.isMidway = true → waits.length = consumed + 1 ∧
        mean = waits.sum / consumed ∧ mean ≤ greatest + greatest / consumed) := by
  intro waits last greatest mean consumed
  have hp : p.Waited waits := by
    have hlater := (waited_start s).run hrun
    rwa [List.nil_append] at hlater
  have hmean : mean = waits.sum / consumed := by
    have htotal := hp.total
    rw [Nat.mod_eq_of_lt hsum] at htotal
    exact (toNat_meanLatency p.metrics).trans (congrArg (· / p.metrics.consumed) htotal)
  have hbound : waits.sum ≤ waits.length * greatest :=
    List.sum_le_card_nsmul _ _ fun wait hwait => (le_foldl_max hwait).trans hp.greatest.ge
  have hpaired := hp.acts.paired
  have honce := hp.acts.once
  have hcounted := hp.counted
  refine ⟨hp.last, hp.greatest, ?_, fun hmidway => ?_, fun hmidway => ?_⟩
  · have hmem : waits.getLastD 0 ∈ 0 :: waits := List.getLastD_mem_cons
    rw [← hp.last] at hmem
    rcases List.mem_cons.mp hmem with hnone | hsome
    · exact hnone.le.trans (Nat.zero_le _)
    · exact (le_foldl_max hsome).trans hp.greatest.ge
  · rw [Dispatcher.isMidway, decide_eq_false_iff_not] at hmidway
    have hlength : waits.length = consumed := by
      change waits.length = p.metrics.consumed
      omega
    rw [hlength] at hbound ⊢
    exact ⟨hmean, hmean.trans_le (Nat.div_le_of_le_mul hbound)⟩
  · rw [Dispatcher.isMidway, decide_eq_true_eq] at hmidway
    have hlength : waits.length = consumed + 1 := by
      change waits.length = p.metrics.consumed + 1
      omega
    refine ⟨hlength, hmean, ?_⟩
    rw [hlength, Nat.succ_mul] at hbound
    rcases Nat.eq_zero_or_pos consumed with hnone | hsome
    · rw [hmean, hnone, Nat.div_zero]
      exact Nat.zero_le _
    · calc mean = waits.sum / consumed := hmean
        _ ≤ (consumed * greatest + greatest) / consumed := Nat.div_le_div_right hbound
        _ = greatest + greatest / consumed := Nat.mul_add_div hsome ..

/-- Two superchunks of different waits, with the second one in hand and behind it. -/
theorem mean_of_waits_pair :
    let s : Settings := { tapCount := 2, taps := some #[-3, 64] }
    let m : Method := s.method s.kernel.kernel
    let bytes : ByteArray := ⟨.replicate superchunkBytes 7⟩
    let moves : List Move := [.offer bytes, .offer bytes] ++
      List.replicate 3 (.dispatch 10000) ++ List.replicate 2 (.dispatch 30000)
    let more : List Move := List.replicate 2 (.dispatch 30000)
    ∃ p q, (start s).run? m moves = some p ∧ (start s).run? m (moves ++ more) = some q ∧
      p.dispatcher.isMidway = true ∧ p.snapshot.meanLatency.toNat = 40000 ∧
      p.snapshot.counters.lastLatency.toNat ≤ p.snapshot.counters.maxLatency.toNat ∧
      q.dispatcher.isMidway = false ∧ q.snapshot.meanLatency.toNat = 20000 ∧
      q.snapshot.meanLatency.toNat ≤ q.snapshot.counters.maxLatency.toNat := by
  intro s m bytes moves more
  have hmidway : ((start s).run? m moves).map (fun p =>
      (p.dispatcher.isMidway, p.snapshot.counters.consumed)) = some (true, 1) := by decide +kernel
  have hdone : ((start s).run? m (moves ++ more)).map (·.dispatcher.isMidway) = some false := by
    decide +kernel
  have hwaits : (start s).waits m moves = [10000, 30000] := by decide +kernel
  have hlater : (start s).waits m (moves ++ more) = [10000, 30000] := by decide +kernel
  obtain ⟨p, hrun, hread⟩ := Option.map_eq_some_iff.mp hmidway
  obtain ⟨hmidway, hone⟩ := Prod.mk.inj hread
  obtain ⟨q, hrest, hdone⟩ := Option.map_eq_some_iff.mp hdone
  obtain ⟨-, -, hle, -, htaken⟩ := mean_of_waits hrun (by rw [hwaits]; decide)
  obtain ⟨-, -, -, hbetween, -⟩ := mean_of_waits hrest (by rw [hlater]; decide)
  obtain ⟨-, hmean, -⟩ := htaken hmidway
  obtain ⟨hexact, hbound⟩ := hbetween hdone
  rw [hwaits, hone] at hmean
  rw [hlater] at hexact
  exact ⟨p, q, hrun, hrest, hmidway, hmean, hle, hdone, hexact, hbound⟩

/-- Two superchunks that wait equally long.  While the second one is in hand, twice its wait is
shown as the mean. -/
theorem mean_exceeds_greatest :
    let s : Settings := { tapCount := 2, taps := some #[-3, 64] }
    let m : Method := s.method s.kernel.kernel
    let bytes : ByteArray := ⟨.replicate superchunkBytes 7⟩
    let moves : List Move := [.offer bytes, .offer bytes] ++ List.replicate 5 (.dispatch 10000)
    ∃ p, (start s).run? m moves = some p ∧ (start s).waits m moves = [10000, 10000] ∧
      p.snapshot.counters.maxLatency = 10000 ∧ p.snapshot.meanLatency = 20000 ∧
      ¬ p.snapshot.meanLatency ≤ p.snapshot.counters.maxLatency := by
  intro s m bytes moves
  have hmoves : ((start s).run? m moves).map (fun p =>
      (p.snapshot.counters.maxLatency, p.snapshot.meanLatency)) = some (10000, 20000) := by
    decide +kernel
  have hwaits : (start s).waits m moves = [10000, 10000] := by decide +kernel
  obtain ⟨p, hrun, hread⟩ := Option.map_eq_some_iff.mp hmoves
  obtain ⟨hgreatest, hmean⟩ := Prod.mk.inj hread
  refine ⟨p, hrun, hwaits, hgreatest, hmean, ?_⟩
  rw [hgreatest, hmean]
  decide

end Pipeline

end TpcTrigger
