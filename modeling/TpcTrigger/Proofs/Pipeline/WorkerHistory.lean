import TpcTrigger.Pipeline.Worker
import Mathlib.Tactic

/-! # The history of one worker

A worker that handles a list of messages ends in a state and gives a list of results that
depend on the messages alone.  Every worker is meant to get the same messages: the first
window to start from, then every window, and in the end the request to stop.
-/

namespace TpcTrigger

def WorkerMessage.isWindow : WorkerMessage → Bool
  | .window _ => true
  | _ => false

namespace Worker

variable (m : Method) (w : Worker)

def handle (w : Worker) : WorkerMessage → Worker × Option WindowResult
  | .seed window => ((w.seed? window).getD w, none)
  | .window window => ((w.process m window).1, some (w.process m window).2)
  | .shutdown => (w, none)

/-- Starting the baselines changes nothing but the states. -/
theorem exists_states_seed (window : Window) :
    ∃ states, (w.seed? window).getD w = { w with states } := by
  cases hseed : w.seed? window with
  | none => exact ⟨w.states, rfl⟩
  | some seeded =>
    rw [seed?] at hseed
    by_cases hticks : window.ticks = 0
    · rw [if_pos hticks] at hseed
      exact ⟨w.states, (Option.some.inj hseed).symm⟩
    · rw [if_neg hticks] at hseed
      rcases Option.bind_eq_some_iff.mp hseed with ⟨states, -, hstates⟩
      exact ⟨states, (Option.some.inj hstates).symm⟩

def after (messages : List WorkerMessage) : Worker :=
  messages.foldl (fun w message => (w.handle m message).1) w

def results (w : Worker) : List WorkerMessage → List WindowResult
  | [] => []
  | message :: messages => (w.handle m message).2.toList ++ (w.handle m message).1.results messages

theorem after_append (xs ys : List WorkerMessage) :
    w.after m (xs ++ ys) = (w.after m xs).after m ys :=
  List.foldl_append

theorem results_append (xs ys : List WorkerMessage) :
    w.results m (xs ++ ys) = w.results m xs ++ (w.after m xs).results m ys := by
  induction xs generalizing w with
  | nil => rfl
  | cons x xs ih =>
    rw [List.cons_append, results, ih, results, List.append_assoc]
    rfl

theorem length_results (messages : List WorkerMessage) :
    (w.results m messages).length = messages.countP (·.isWindow) := by
  induction messages generalizing w with
  | nil => rfl
  | cons message messages ih =>
    rw [results, List.length_append, ih, List.countP_cons, Nat.add_comm]
    cases message <;> rfl

end Worker

def ordersFor (windows : List Window) (closing : Bool) : List WorkerMessage :=
  (windows.head?.map .seed).toList ++ windows.map .window ++ if closing then [.shutdown] else []

theorem ordersFor_append_singleton (windows : List Window) (window : Window) :
    ordersFor (windows ++ [window]) false =
      ordersFor windows false ++ ((if windows = [] then [.seed window] else []) ++
        [.window window]) := by
  cases windows <;> simp [ordersFor]

theorem ordersFor_append {windows : List Window} (h : windows ≠ []) (more : List Window) :
    ordersFor (windows ++ more) false = ordersFor windows false ++ more.map .window := by
  cases windows with
  | nil => exact absurd rfl h
  | cons window windows => simp [ordersFor]

theorem ordersFor_true (windows : List Window) :
    ordersFor windows true = ordersFor windows false ++ [.shutdown] := by
  simp [ordersFor]

theorem countP_ordersFor (windows : List Window) (closing : Bool) :
    (ordersFor windows closing).countP (·.isWindow) = windows.length := by
  have hwindows : (windows.map WorkerMessage.window).countP (·.isWindow) = windows.length := by
    rw [List.countP_map]
    exact List.countP_eq_length.mpr fun _ _ => rfl
  have hrest : (if closing then [WorkerMessage.shutdown] else []).countP (·.isWindow) = 0 := by
    cases closing <;> rfl
  rw [ordersFor, List.countP_append, List.countP_append, hwindows, hrest]
  cases windows <;> simp [WorkerMessage.isWindow]

theorem shutdown_not_mem_ordersFor (windows : List Window) :
    WorkerMessage.shutdown ∉ ordersFor windows false := by
  cases windows <;> simp [ordersFor]

/-- Nothing is meant for a worker after the request to stop. -/
theorem eq_nil_of_shutdown {windows : List Window} {closing : Bool}
    {done rest : List WorkerMessage}
    (h : done ++ .shutdown :: rest = ordersFor windows closing) : rest = [] ∧ closing = true := by
  have hnot := shutdown_not_mem_ordersFor windows
  cases closing with
  | false =>
    rw [← h] at hnot
    simp at hnot
  | true =>
    rw [ordersFor_true] at h
    induction rest using List.reverseRecOn with
    | nil => exact ⟨rfl, rfl⟩
    | append_singleton rest last =>
      rw [← List.cons_append, ← List.append_assoc] at h
      have hinit := (List.append_inj' h rfl).1
      rw [← hinit] at hnot
      simp at hnot

theorem eq_nil_of_seed {windows : List Window} {closing : Bool} {window : Window}
    {done rest : List WorkerMessage}
    (h : done ++ .seed window :: rest = ordersFor windows closing) : done = [] := by
  cases done with
  | nil => rfl
  | cons message done =>
    have hmem : WorkerMessage.seed window ∈ (ordersFor windows closing).tail := by
      rw [← h]
      simp
    cases windows <;> cases closing <;> simp [ordersFor] at hmem

namespace Worker

variable (m : Method) (w : Worker)

def resultAt (windows : List Window) (k : Nat) : WindowResult :=
  (w.results m (ordersFor windows false)).getD k default

theorem results_ordersFor (windows : List Window) (closing : Bool) :
    w.results m (ordersFor windows closing) = w.results m (ordersFor windows false) := by
  cases closing with
  | false => rfl
  | true => rw [ordersFor_true, results_append, results, results, handle]; simp

theorem length_results_ordersFor (windows : List Window) (closing : Bool) :
    (w.results m (ordersFor windows closing)).length = windows.length := by
  rw [length_results, countP_ordersFor]

theorem resultAt_append {windows : List Window} {k : Nat} (hk : k < windows.length)
    (more : List Window) : w.resultAt m (windows ++ more) k = w.resultAt m windows k := by
  have hwindows : windows ≠ [] := List.ne_nil_of_length_pos (by omega)
  have hearly : k < (w.results m (ordersFor windows false)).length := by
    rw [length_results_ordersFor]
    exact hk
  rw [resultAt, resultAt, ordersFor_append hwindows, results_append,
    List.getD_eq_getElem?_getD, List.getD_eq_getElem?_getD, List.getElem?_append_left hearly]

end Worker

end TpcTrigger
