import TpcTrigger.Finder
import TpcTrigger.Proofs.Pipeline.GapCounts

/-! # The answers to calls

A buffer of the wrong size is turned away at once.  Any other is answered when its call returns:
it is queued, or it comes back.  Each of the three answers has its counter, so as many buffers
were offered as the three counters say, but for those of the calls that have not returned yet.
-/

namespace TpcTrigger

/-- What a call brings back to the client that offered a buffer. -/
abbrev Answer := Except FinderError Finder.Offer

namespace Answer

def isQueued : Answer → Bool
  | .ok .queued => true
  | _ => false

/-- Whether the buffer comes back for lack of room. -/
def isRefused : Answer → Bool
  | .ok (.refused _) => true
  | _ => false

def isBadFrame : Answer → Bool
  | .error (.badFrame _) => true
  | _ => false

end Answer

def ClientCall.answer : ClientCall → Answer
  | .queued => .ok .queued
  | .refused bytes => .ok (.refused bytes)

namespace Pipeline

def answer? (p : Pipeline) : Move → Option Answer
  | .offer bytes =>
    match Superchunk.checkSize bytes with
    | .error cause => some (.error (.badFrame cause))
    | .ok () => none
  | .count call => (p.calls[call]?).map (·.answer)
  | _ => none

/-- The answers in a run, in the order in which calls return. -/
def answers (m : Method) (p : Pipeline) : List Move → List Answer
  | [] => []
  | move :: moves =>
    (p.answer? move).toList ++ (p.move? m move).elim [] fun q => q.answers m moves

/-- A buffer of the right size leads to a call that is not counted yet. -/
theorem calls_offer (p : Pipeline) {bytes : ByteArray}
    (hcheck : Superchunk.checkSize bytes = .ok ()) :
    ∃ c, (p.offer bytes).metrics = p.metrics ∧ (p.offer bytes).calls = p.calls ++ [c] := by
  cases hsubmit : p.queue.submit? (Header.ofBytes bytes).timestamp bytes with
  | none => exact ⟨.refused bytes, by simp [offer, hcheck, hsubmit]⟩
  | some queue => exact ⟨.queued, by simp [offer, hcheck, hsubmit]⟩

/-- The answers on the way from `p` to `q` are counted, and what is offered is counted or its call
has not returned. -/
structure CountsCalls (p : Pipeline) (moves : List Move) (answers : List Answer) (q : Pipeline) :
    Prop where
  received : q.metrics.received = p.metrics.received + answers.countP (·.isQueued)
  rejected : q.metrics.rejected = p.metrics.rejected + answers.countP (·.isRefused)
  malformed : q.metrics.malformed = p.metrics.malformed + answers.countP (·.isBadFrame)
  offered :
    q.metrics.received + q.metrics.rejected + q.metrics.malformed + q.calls.length =
      p.metrics.received + p.metrics.rejected + p.metrics.malformed + p.calls.length +
        moves.countP (·.isOffer)

namespace CountsCalls

variable {s : Settings} {m : Method} {h : Intake} {p q r : Pipeline} {xs ys : List Move}
  {first rest : List Answer}

theorem refl (p : Pipeline) : p.CountsCalls [] [] p := ⟨rfl, rfl, rfl, rfl⟩

theorem trans (hfirst : p.CountsCalls xs first q) (hrest : q.CountsCalls ys rest r) :
    p.CountsCalls (xs ++ ys) (first ++ rest) r where
  received := by rw [hrest.received, hfirst.received, List.countP_append, Nat.add_assoc]
  rejected := by rw [hrest.rejected, hfirst.rejected, List.countP_append, Nat.add_assoc]
  malformed := by rw [hrest.malformed, hfirst.malformed, List.countP_append, Nat.add_assoc]
  offered := by rw [hrest.offered, hfirst.offered, List.countP_append, Nat.add_assoc]

theorem silent {move : Move} (hnone : p.answer? move = none) (hoffer : move.isOffer = false)
    (hreceived : q.metrics.received = p.metrics.received)
    (hrejected : q.metrics.rejected = p.metrics.rejected)
    (hmalformed : q.metrics.malformed = p.metrics.malformed) (hcalls : q.calls = p.calls) :
    p.CountsCalls [move] (p.answer? move).toList q := by
  rw [hnone]
  refine ⟨hreceived, hrejected, hmalformed, ?_⟩
  rw [hreceived, hrejected, hmalformed, hcalls, List.countP_singleton, hoffer]
  rfl

theorem count {call : Nat} {c : ClientCall} (hcall : p.calls[call]? = some c) :
    p.CountsCalls [.count call] (p.answer? (.count call)).toList
      { p with calls := p.calls.eraseIdx call, metrics := c.count p.metrics } := by
  have hlength : (p.calls.eraseIdx call).length + 1 = p.calls.length :=
    List.length_eraseIdx_add_one (List.getElem?_eq_some_iff.mp hcall).1
  have hnone : [Move.count call].countP (·.isOffer) = 0 := rfl
  rw [answer?, hcall]
  cases c with
  | queued =>
    refine ⟨rfl, rfl, rfl, ?_⟩
    rw [hnone]
    simp only [ClientCall.count, Metrics.countReceived]
    omega
  | refused bytes =>
    refine ⟨rfl, rfl, rfl, ?_⟩
    rw [hnone]
    simp only [ClientCall.count, Metrics.countRejected]
    omega

theorem offer (p : Pipeline) (bytes : ByteArray) :
    p.CountsCalls [.offer bytes] (p.answer? (.offer bytes)).toList (p.offer bytes) := by
  have hone : [Move.offer bytes].countP (·.isOffer) = 1 := rfl
  cases hcheck : Superchunk.checkSize bytes with
  | error cause =>
    have hoffer : p.offer bytes = { p with metrics := p.metrics.countMalformed } := by
      simp only [Pipeline.offer, hcheck]
    simp only [answer?, hcheck]
    rw [hoffer]
    refine ⟨rfl, rfl, rfl, ?_⟩
    rw [hone]
    simp only [Metrics.countMalformed]
    omega
  | ok u =>
    obtain ⟨c, hmetrics, hcalls⟩ := p.calls_offer hcheck
    simp only [answer?, hcheck]
    refine ⟨?_, ?_, ?_, ?_⟩ <;> rw [hmetrics]
    · rfl
    · rfl
    · rfl
    · rw [hcalls, hone, List.length_append]
      rfl

/-- The dispatcher counts no call: it never meets a damaged superchunk. -/
theorem move (htimed : p.Timed h) {move : Move} (hmove : p.move? m move = some q) :
    p.CountsCalls [move] (p.answer? move).toList q := by
  cases step_of_move? hmove with
  | @malformed bytes | @enqueue bytes | @refuse bytes =>
    rw [← Option.some.inj hmove]
    exact offer p bytes
  | count hcall => exact count hcall
  | @note _ act _ hthere hacts hnote =>
    cases act with
    | send worker message | leave => cases hnote
    | countMalformed =>
      have hundamaged := htimed.undamaged
      rw [hacts] at hundamaged
      exact absurd (List.mem_cons_self ..) hundamaged
    | _ => exact silent rfl rfl rfl rfl rfl rfl
  | storeBatch hphase hfull =>
    rw [storeBatch]
    split <;> exact silent rfl rfl rfl rfl rfl rfl
  | _ => exact silent rfl rfl rfl rfl rfl rfl

theorem run {moves : List Move} (haccount : p.Account s m h) (htimed : p.Timed h)
    (hrun : p.run? m moves = some q) : p.CountsCalls moves (p.answers m moves) q := by
  induction moves generalizing p h with
  | nil => exact Option.some.inj hrun ▸ refl p
  | cons move moves ih =>
    obtain ⟨next, hmove, hrest⟩ := Option.bind_eq_some_iff.mp hrun
    rw [answers, hmove, Option.elim_some]
    exact (CountsCalls.move htimed hmove).trans
      (ih (haccount.move hmove) (htimed.move haccount hmove) hrest)

end CountsCalls

end Pipeline

/-- An offer to a finder is a short run that brings back one answer, namely its result. -/
theorem Finder.answers_offer (f : Finder) (hopen : f.isShutDown = false) (bytes : ByteArray) :
    ∃ moves, f.pipeline.run? f.method moves = some (f.offer bytes).2.pipeline ∧
      f.pipeline.answers f.method moves = [(f.offer bytes).1] := by
  have hensure : f.ensureOpen = .ok () := by rw [ensureOpen, hopen]; rfl
  cases hcheck : Superchunk.checkSize bytes with
  | error cause =>
    refine ⟨[.offer bytes], ?_, ?_⟩ <;>
      simp [offer, hensure, hcheck, Pipeline.run?, Pipeline.move?, Pipeline.answers,
        Pipeline.answer?]
  | ok u =>
    obtain ⟨c, -, hc⟩ := f.pipeline.calls_offer hcheck
    have hlast : (f.pipeline.offer bytes).calls[f.pipeline.calls.length]? = some c := by
      rw [hc, List.getElem?_concat_length]
    have hlength : (f.pipeline.offer bytes).calls.length - 1 = f.pipeline.calls.length := by
      rw [hc, List.length_append]
      rfl
    refine ⟨[.offer bytes, .count f.pipeline.calls.length], ?_, ?_⟩ <;>
      cases c <;>
        simp [offer, hensure, hcheck, hlength, hlast, Pipeline.run?, Pipeline.move?,
          Pipeline.count?, Pipeline.answers, Pipeline.answer?, ClientCall.answer]

end TpcTrigger
