import TpcTrigger.Proofs.Pipeline.PipelineCourse
import TpcTrigger.Proofs.Pipeline.Wiring

/-! # The counters of a pipeline

What has happened to superchunks and windows is counted a little later than it happens.  At all
times every counter lags behind by what its part of the pipeline is about to count, and the
dispatcher counts a superchunk as done with after everything else that it does for it.
-/

namespace TpcTrigger

def ClientCall.isQueued : ClientCall → Bool
  | .queued => true
  | .refused _ => false

structure OrderlyActs (closing : Bool) (acts : List DispatchAct) : Prop where
  consumed_last : .countConsumed ∉ acts.dropLast
  window_once : ∀ worker, (messagesFor worker acts).countP (·.isWindow) ≤ 1
  not_consumed : closing = true → .countConsumed ∉ acts

namespace OrderlyActs

variable {closing : Bool} {act : DispatchAct} {acts : List DispatchAct}

theorem tail (h : OrderlyActs closing (act :: acts)) : OrderlyActs closing acts where
  consumed_last := by
    intro hmem
    have hne : acts ≠ [] := by rintro rfl; simp at hmem
    apply h.consumed_last
    rw [List.dropLast_cons_of_ne_nil hne]
    exact List.mem_cons_of_mem _ hmem
  window_once := by
    intro worker
    refine le_trans ?_ (h.window_once worker)
    rw [← List.singleton_append, messagesFor_append, List.countP_append]
    exact Nat.le_add_left _ _
  not_consumed := fun hclosing hmem => h.not_consumed hclosing (List.mem_cons_of_mem _ hmem)

/-- Nothing is left once the dispatcher is done with a superchunk. -/
theorem eq_nil_of_consumed (h : OrderlyActs closing (.countConsumed :: acts)) : acts = [] := by
  by_contra hne
  apply h.consumed_last
  rw [List.dropLast_cons_of_ne_nil hne]
  exact List.mem_cons_self ..

end OrderlyActs

structure CountsFor (s : Settings) (h after : Intake) (acts : List DispatchAct) : Prop where
  orderly : OrderlyActs after.closing acts
  consumed : h.taken.length + acts.count .countConsumed = after.taken.length
  dispatched :
    (h.windows s).length + acts.count .countDispatched = (after.windows s).length

namespace Dispatcher

theorem count_toAll (d : Dispatcher) (message : WorkerMessage) (act : DispatchAct)
    (hact : act.isNote = true) : (d.toAll message).count act = 0 := by
  rw [List.count_eq_zero]
  intro hmem
  obtain ⟨worker, -, rfl⟩ := List.mem_map.mp hmem
  cases hact

theorem count_handOut (d : Dispatcher) (window : Window) :
    (d.handOut window).count .countDispatched = 1 ∧
      (d.handOut window).count .countConsumed = 0 := by
  have hdispatched (message : WorkerMessage) := d.count_toAll message .countDispatched rfl
  have hconsumed (message : WorkerMessage) := d.count_toAll message .countConsumed rfl
  cases hseeded : d.seeded <;> simp [handOut, hseeded, hdispatched, hconsumed]

theorem countP_messagesFor_toAll (d : Dispatcher) (worker : Nat) (message : WorkerMessage) :
    (messagesFor worker (d.toAll message)).countP (·.isWindow) ≤ message.isWindow.toNat := by
  rw [toAll, messagesFor_send_range]
  split <;> cases message <;> simp [WorkerMessage.isWindow]

theorem countP_messagesFor_handOut (d : Dispatcher) (worker : Nat) (window : Window) :
    (messagesFor worker (d.handOut window)).countP (·.isWindow) ≤ 1 := by
  have hcount : messagesFor worker [DispatchAct.countDispatched] = [] := rfl
  have hseeds : (messagesFor worker (if d.seeded then [] else d.toAll (.seed window))).countP
      (·.isWindow) = 0 := by
    cases d.seeded with
    | true => rfl
    | false => exact Nat.le_zero.mp (d.countP_messagesFor_toAll worker (.seed window))
  rw [handOut, ← List.singleton_append, messagesFor_append, messagesFor_append, hcount,
    List.nil_append, List.countP_append, hseeds, Nat.zero_add]
  exact d.countP_messagesFor_toAll worker (.window window)

theorem counts_shutdown (d : Dispatcher) (s : Settings) (h : Intake) (latency : Nat) :
    CountsFor s h (h.take .shutdown) (d.accept .shutdown latency).acts := by
  have hall : (d.accept .shutdown latency).acts = d.toAll .shutdown ++ [.leave] := rfl
  have hnone : DispatchAct.countConsumed ∉ d.toAll .shutdown ++ [.leave] := by simp [toAll]
  have hleave (worker : Nat) : messagesFor worker [DispatchAct.leave] = [] := rfl
  rw [hall]
  constructor
  · refine ⟨fun hmem => hnone (List.mem_of_mem_dropLast hmem), fun worker => ?_, fun _ => hnone⟩
    rw [messagesFor_append, hleave, List.append_nil]
    exact (d.countP_messagesFor_toAll worker .shutdown).trans (Nat.zero_le 1)
  · rw [List.count_eq_zero_of_not_mem hnone]
    rfl
  · rw [List.count_append, d.count_toAll .shutdown .countDispatched rfl]
    rfl

namespace Follows

variable {s : Settings} {h : Intake} {queue : IngestQueue} {d : Dispatcher}

/-- A superchunk that the dispatcher takes is counted last, after the window it completes. -/
theorem counts_superchunk (hd : d.Follows s h queue) (hthere : d.stopped = false)
    (hacts : d.acts = []) {timestamp : UInt64} {bytes : ByteArray}
    (hsize : Superchunk.checkSize bytes = .ok ()) (latency : Nat) :
    CountsFor s h (h.take (.superchunk timestamp bytes))
      (d.accept (.superchunk timestamp bytes) latency).acts := by
  obtain ⟨before, hbefore, hnext⟩ := d.acceptSuperchunk_eq timestamp hsize latency
  obtain ⟨window?, hwindow⟩ : ∃ window?, window? = (d.assembly.push (.ofBytes bytes)).2 :=
    ⟨_, rfl⟩
  have hall : (d.accept (.superchunk timestamp bytes) latency).acts =
      before ++ window?.toList.flatMap d.handOut ++ [.countConsumed] := by
    rw [hwindow]
    exact congrArg Dispatcher.acts hnext
  have hnone : before.count .countConsumed = 0 ∧ before.count .countDispatched = 0 :=
    ⟨List.count_eq_zero.mpr fun hmem => (hbefore _ hmem).2.2 rfl,
      List.count_eq_zero.mpr fun hmem => (hbefore _ hmem).2.1 rfl⟩
  have hsent (worker : Nat) : messagesFor worker before = [] :=
    messagesFor_eq_nil worker fun act hact => (hbefore act hact).1
  have hlast (worker : Nat) : messagesFor worker [DispatchAct.countConsumed] = [] := rfl
  have hhanded : (window?.toList.flatMap d.handOut).count .countConsumed = 0 := by
    cases window? <;> simp [count_handOut]
  have hopen : (h.take (.superchunk timestamp bytes)).closing = false :=
    hd.closing_eq_false hacts hthere
  rw [hall]
  constructor
  · refine ⟨?_, fun worker => ?_, by simp [hopen]⟩
    · rw [List.dropLast_concat, ← List.count_eq_zero, List.count_append, hnone.1, hhanded]
    · rw [messagesFor_append, messagesFor_append, hsent, hlast, List.append_nil, List.nil_append]
      cases window? with
      | none => exact Nat.zero_le 1
      | some window =>
        rw [Option.toList_some, List.flatMap_singleton]
        exact d.countP_messagesFor_handOut worker window
  · rw [List.count_append, List.count_append, hnone.1, hhanded, Intake.take, List.length_append]
    rfl
  · rw [hd.windows_take, ← hwindow, List.count_append, List.count_append, hnone.2,
      List.length_append]
    cases window? <;> simp [count_handOut]

theorem counts_accept (hd : d.Follows s h queue) (hthere : d.stopped = false)
    (hacts : d.acts = []) {task : Task} {rest : IngestQueue}
    (hnext : IngestQueue.next? queue = some (task, rest)) (latency : Nat) :
    CountsFor s h (h.take task) (d.accept task latency).acts := by
  cases task with
  | shutdown => exact d.counts_shutdown s h latency
  | superchunk timestamp bytes =>
    have hsize := hd.checkSize_of_next hthere hnext bytes rfl
    exact hd.counts_superchunk hthere hacts hsize latency

end Follows

end Dispatcher

namespace Pipeline

structure Tally (s : Settings) (h : Intake) (p : Pipeline) : Prop where
  acts : OrderlyActs h.closing p.dispatcher.acts
  received : p.metrics.received + p.calls.countP (·.isQueued) = h.accepted.length
  consumed : p.metrics.consumed + p.dispatcher.acts.count .countConsumed = h.taken.length
  dispatched :
    p.metrics.dispatched + p.dispatcher.acts.count .countDispatched = (h.windows s).length
  /-- A window is handed out before its last superchunk is counted. -/
  handed_out : p.metrics.consumed / s.superchunksPerWindow ≤ p.metrics.dispatched

theorem tally_start (s : Settings) : (start s).Tally s ⟨[], [], false⟩ where
  acts := ⟨by simp [start], by simp [start, messagesFor], by simp⟩
  received := rfl
  consumed := rfl
  dispatched := rfl
  handed_out := by simp [start]

namespace Tally

variable {s : Settings} {m : Method} {h : Intake} {p q : Pipeline}

/-- Workers and the merger count nothing of this. -/
theorem congr (hp : p.Tally s h) (hacts : q.dispatcher.acts = p.dispatcher.acts)
    (hcalls : q.calls = p.calls) (hreceived : q.metrics.received = p.metrics.received)
    (hconsumed : q.metrics.consumed = p.metrics.consumed)
    (hdispatched : q.metrics.dispatched = p.metrics.dispatched) : q.Tally s h where
  acts := hacts ▸ hp.acts
  received := by rw [hreceived, hcalls, hp.received]
  consumed := by rw [hconsumed, hacts, hp.consumed]
  dispatched := by rw [hdispatched, hacts, hp.dispatched]
  handed_out := by rw [hconsumed, hdispatched]; exact hp.handed_out

theorem length_windows (s : Settings) (h : Intake) :
    h.taken.length / s.superchunksPerWindow ≤ (h.windows s).length := by
  rcases Nat.eq_zero_or_pos s.superchunksPerWindow with hzero | hpos
  · simp [hzero]
  · rw [Intake.windows, Assembly.length_completed hpos, List.length_map]

theorem act (hp : p.Tally s h) {act : DispatchAct} {acts : List DispatchAct}
    (hacts : p.dispatcher.acts = act :: acts) (hnext : q.dispatcher.acts = acts)
    (hcalls : q.calls = p.calls) (hreceived : q.metrics.received = p.metrics.received)
    (hconsumed : q.metrics.consumed = p.metrics.consumed + [act].count .countConsumed)
    (hdispatched : q.metrics.dispatched = p.metrics.dispatched + [act].count .countDispatched) :
    q.Tally s h := by
  have horderly := hp.acts
  have htaken := hp.consumed
  have hwindows := hp.dispatched
  rw [hacts] at horderly
  rw [hacts, ← List.singleton_append, List.count_append, ← Nat.add_assoc, ← hconsumed] at htaken
  rw [hacts, ← List.singleton_append, List.count_append, ← Nat.add_assoc,
    ← hdispatched] at hwindows
  refine ⟨hnext ▸ horderly.tail, ?_, hnext ▸ htaken, hnext ▸ hwindows, ?_⟩
  · rw [hreceived, hcalls, hp.received]
  · by_cases hlast : act = .countConsumed
    · -- nothing is left to be counted, so the windows are those of the superchunks
      subst hlast
      rw [horderly.eq_nil_of_consumed, List.count_nil, Nat.add_zero] at htaken hwindows
      rw [htaken, hwindows]
      exact length_windows s h
    · have hsame : q.metrics.consumed = p.metrics.consumed := by
        rw [hconsumed, List.count_singleton, if_neg (by simpa using hlast), Nat.add_zero]
      rw [hsame, hdispatched]
      exact hp.handed_out.trans (Nat.le_add_right _ _)

theorem count (hp : p.Tally s h) {call : Nat} {c : ClientCall} (hcall : p.calls[call]? = some c) :
    { p with calls := p.calls.eraseIdx call, metrics := c.count p.metrics }.Tally s h := by
  obtain ⟨hlt, hc⟩ := List.getElem?_eq_some_iff.mp hcall
  have hreceived := hp.received
  rw [← (List.getElem_cons_eraseIdx_perm hlt).countP_eq (·.isQueued), hc] at hreceived
  cases c with
  | queued =>
    rw [List.countP_cons_of_pos rfl, ← Nat.add_assoc, Nat.add_right_comm] at hreceived
    exact { hp with received := hreceived }
  | refused bytes =>
    rw [List.countP_cons_of_neg (by simp [ClientCall.isQueued])] at hreceived
    exact { hp with received := hreceived }

theorem move (hp : p.Tally s h) (hfollows : p.Follows s m h) {move : Move}
    (hmove : p.move? m move = some q) : q.Tally s (p.intakeAfter h move) := by
  cases step_of_move? hmove with
  | malformed hcheck =>
    rw [intakeAfter_of_none (admits_of_error hcheck)]
    exact hp.congr rfl rfl rfl rfl rfl
  | enqueue hcheck hsend =>
    rw [intakeAfter, admits_of_done hcheck hsend]
    refine { hp with received := ?_ }
    simp [ClientCall.isQueued, ← hp.received, Nat.add_assoc]
  | refuse hcheck hsend =>
    rw [intakeAfter_of_none (admits_of_none hsend)]
    refine { hp with received := ?_ }
    simp [ClientCall.isQueued, ← hp.received]
  | count hcall => exact hp.count hcall
  | @take latency task _ hthere hacts hnext =>
    have hcounts := hfollows.dispatcher.counts_accept hthere hacts hnext latency
    rw [intakeAfter_of_next hthere hacts hnext]
    refine ⟨hcounts.orderly, ?_, ?_, ?_, hp.handed_out⟩
    · rw [hp.received]
      cases task <;> rfl
    · rw [← hcounts.consumed, ← hp.consumed, hacts]
      rfl
    · rw [← hcounts.dispatched, ← hp.dispatched, hacts]
      rfl
  | @note _ act _ hthere hacts hnote =>
    rw [intakeAfter_of_acts hacts]
    cases act with
    | send worker message | leave => cases hnote
    | _ => exact hp.act hacts rfl rfl rfl rfl rfl
  | send hthere hacts hnode hsend =>
    rw [intakeAfter_of_acts hacts]
    exact hp.act hacts rfl rfl rfl rfl rfl
  | pass hthere hacts hgone =>
    rw [intakeAfter_of_acts hacts]
    exact hp.act hacts rfl rfl rfl rfl rfl
  | leave hthere hacts =>
    rw [intakeAfter_of_acts hacts]
    exact hp.act hacts rfl rfl rfl rfl rfl
  | storeBatch hphase hfull =>
    rw [storeBatch]
    split <;> exact hp.congr rfl rfl rfl rfl rfl
  | _ => exact hp.congr rfl rfl rfl rfl rfl

end Tally

structure Account (s : Settings) (m : Method) (h : Intake) (p : Pipeline) : Prop where
  follows : p.Follows s m h
  tally : p.Tally s h
  wired : p.Wired s

namespace Account

variable {s : Settings} {m : Method} {h : Intake} {p q : Pipeline}

theorem move (hp : p.Account s m h) {move : Move} (hmove : p.move? m move = some q) :
    q.Account s m (p.intakeAfter h move) :=
  ⟨hp.follows.move hmove, hp.tally.move hp.follows hmove, hp.wired.move hmove⟩

theorem run_induction {I : Intake → Pipeline → Prop} (hp : p.Account s m h) (hI : I h p)
    {moves : List Move} (hkeep : ∀ h p q, ∀ move ∈ moves, p.Account s m h → I h p →
      p.move? m move = some q → I (p.intakeAfter h move) q)
    (hrun : p.run? m moves = some q) :
    q.Account s m (p.intake m h moves) ∧ I (p.intake m h moves) q := by
  have hinduct := hp.follows.run_induction (I := fun h p => p.Account s m h ∧ I h p) ⟨hp, hI⟩
    (fun h p q move hmem _ hI hmove => ⟨hI.1.move hmove, hkeep h p q move hmem hI.1 hI.2 hmove⟩)
    hrun
  exact hinduct.2

theorem run (hp : p.Account s m h) {moves : List Move} (hrun : p.run? m moves = some q) :
    ∃ after : Intake, q.Account s m after ∧ after.accepted = h.accepted ++ p.accepted m moves :=
  ⟨_, (hp.run_induction (I := fun _ _ => True) trivial (fun _ _ _ _ _ _ _ _ => trivial) hrun).1,
    accepted_intake hrun h⟩

end Account

theorem account_start (s : Settings) (m : Method) : (start s).Account s m ⟨[], [], false⟩ :=
  ⟨follows_start s m, tally_start s, wired_start s⟩

end Pipeline

end TpcTrigger
