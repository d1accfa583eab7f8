import TpcTrigger.Proofs.Capture.Replay
import TpcTrigger.Proofs.Frame.BitFields

/-! # What failed reads take with them

A reader keeps nothing of a file but where it stands.  A call that fails in the middle of a
superchunk has moved on by then, and the next call reads from there, across the border between
two superchunks.  What a reader hands out are pieces of the file, each as long as a superchunk, in
order and apart from each other; the bytes that went with failed calls say how far the pieces are
away from the blocks.
-/

namespace TpcTrigger

namespace CaptureReader

/-- Filling stays within the buffer, and only a buffer that is not full can fail. -/
def Filling.Fits (available : Nat) : Filling → Prop
  | .stopped filled => filled ≤ min superchunkBytes available
  | .failed filled _ => filled < superchunkBytes

theorem fits_fill (available : Nat) {filled : Nat} (outcomes : List ReadOutcome)
    (hfilled : filled ≤ min superchunkBytes available) :
    (fill available filled outcomes).1.Fits available := by
  induction outcomes generalizing filled with
  | nil => exact Nat.le_refl _
  | cons outcome outcomes ih =>
    rw [fill.eq_def]
    dsimp only
    by_cases hfull : filled = superchunkBytes
    · rw [if_pos hfull]
      exact hfilled
    · rw [if_neg hfull]
      cases outcome with
      | interrupted => exact ih hfilled
      | failed cause =>
        dsimp only [Filling.Fits]
        omega
      | short n =>
        dsimp only
        split
        · exact hfilled
        · exact ih (by omega)

/-- What a call does: it hands out the superchunk that lies before the reader, or it hands out
nothing and has taken less than a superchunk. -/
inductive Moves (r : CaptureReader) : Answer → CaptureReader → Prop
  | handsOut {next : CaptureReader} (hcontent : next.content = r.content)
      (hposition : next.position = r.position + superchunkBytes)
      (hroom : r.position + superchunkBytes ≤ r.content.size) :
      Moves r (.ok (some (r.content.extract r.position (r.position + superchunkBytes)))) next
  | takes {answer : Answer} {next : CaptureReader} (hcontent : next.content = r.content)
      (hposition : r.position ≤ next.position)
      (hless : next.position < r.position + superchunkBytes)
      (hnothing : answer.isSuperchunk = false) : Moves r answer next

theorem moves_next (r : CaptureReader) (outcomes : List ReadOutcome) :
    r.Moves (r.next outcomes).1 (r.next outcomes).2.1 := by
  have hpos : 0 < superchunkBytes := by decide
  have hfits := fits_fill r.remaining outcomes (Nat.zero_le _)
  have hremaining : r.remaining = r.content.size - r.position := rfl
  rw [next]
  split
  · exact .takes rfl (Nat.le_refl _) (Nat.lt_add_of_pos_right hpos) rfl
  · generalize fill r.remaining 0 outcomes = filling at hfits
    obtain ⟨filled | ⟨filled, cause⟩, rest⟩ := filling
    · dsimp only [Filling.Fits] at hfits ⊢
      by_cases hnone : filled = 0
      · rw [if_pos hnone]
        exact .takes rfl (Nat.le_refl _) (Nat.lt_add_of_pos_right hpos) rfl
      · rw [if_neg hnone]
        by_cases hless : filled < superchunkBytes
        · rw [if_pos hless]
          exact .takes rfl (Nat.le_add_right _ _) (Nat.add_lt_add_left hless _) rfl
        · have hwhole : filled = superchunkBytes := by omega
          rw [if_neg hless, hwhole]
          exact .handsOut rfl rfl (by omega)
    · exact .takes rfl (Nat.le_add_right _ _) (Nat.add_lt_add_left hfits _) rfl

namespace Moves

variable {r next : CaptureReader} {answer : Answer} {bytes : ByteArray}

theorem content_eq (h : r.Moves answer next) : next.content = r.content := by
  cases h <;> assumption

/-- A call takes a superchunk and hands it out, or all that it takes is lost. -/
theorem position_eq (h : r.Moves answer next) :
    next.position = r.position +
      if answer.isSuperchunk then superchunkBytes else next.position - r.position := by
  cases h with
  | handsOut hcontent hposition hroom => exact hposition
  | takes hcontent hposition hless hnothing =>
    rw [hnothing, if_neg Bool.false_ne_true]
    omega

theorem of_superchunk (h : r.Moves (.ok (some bytes)) next) :
    bytes = r.content.extract r.position (r.position + superchunkBytes) ∧
      next.position = r.position + superchunkBytes ∧
        r.position + superchunkBytes ≤ r.content.size := by
  cases h with
  | handsOut hcontent hposition hroom => exact ⟨rfl, hposition, hroom⟩
  | takes hcontent hposition hless hnothing => cases hnothing

end Moves

/-- The number of superchunks that the first `n` calls hand out. -/
def handedOut (n : Nat) (r : CaptureReader) (outcomes : List ReadOutcome) : Nat :=
  (r.answers n outcomes).countP Answer.isSuperchunk

/-- The number of bytes taken by those of the first `n` calls that hand out nothing. -/
def lost : Nat → CaptureReader → List ReadOutcome → Nat
  | 0, _, _ => 0
  | n + 1, r, outcomes =>
    let (answer, next, rest) := r.next outcomes
    (if answer.isSuperchunk then 0 else next.position - r.position) + lost n next rest

variable {r : CaptureReader} {outcomes : List ReadOutcome}

/-- Where a reader stands after a number of calls. -/
theorem position_after (n : Nat) : (r.after n outcomes).position =
    r.position + r.handedOut n outcomes * superchunkBytes + r.lost n outcomes := by
  induction n generalizing r outcomes with
  | zero => rw [after, handedOut, answers, lost, List.countP_nil, Nat.zero_mul]; rfl
  | succ n ih =>
    have hposition := (r.moves_next outcomes).position_eq
    rw [after, handedOut, answers, lost]
    generalize r.next outcomes = call at hposition
    obtain ⟨answer, next, rest⟩ := call
    dsimp only at hposition ⊢
    rw [ih, handedOut, List.countP_cons]
    cases hsome : answer.isSuperchunk with
    | true =>
      rw [hsome, if_pos rfl] at hposition
      rw [hposition, if_pos rfl, if_pos rfl, Nat.add_mul]
      omega
    | false =>
      rw [hsome, if_neg Bool.false_ne_true] at hposition
      rw [if_neg Bool.false_ne_true, if_neg Bool.false_ne_true, Nat.add_zero]
      omega

theorem content_after (n : Nat) : (r.after n outcomes).content = r.content := by
  induction n generalizing r outcomes with
  | zero => rfl
  | succ n ih => rw [after, ih, (r.moves_next outcomes).content_eq]

@[simp] theorem length_answers (n : Nat) : (r.answers n outcomes).length = n := by
  induction n generalizing r outcomes with
  | zero => rfl
  | succ n ih => rw [answers, List.length_cons, ih]

theorem moves_after {n j : Nat} {answer : Answer}
    (hanswer : (r.answers n outcomes)[j]? = some answer) :
    (r.after j outcomes).Moves answer (r.after (j + 1) outcomes) := by
  induction n generalizing j r outcomes with
  | zero => cases hanswer
  | succ n ih =>
    cases j with
    | zero =>
      cases hanswer
      exact r.moves_next outcomes
    | succ j =>
      rw [answers, List.getElem?_cons_succ] at hanswer
      rw [after, after]
      exact ih hanswer

/-- Further calls do not go back in the file. -/
theorem position_after_mono (r : CaptureReader) (outcomes : List ReadOutcome) :
    Monotone fun n => (r.after n outcomes).position := by
  refine monotone_nat_of_le_succ fun n => ?_
  have hlast : n < (r.answers (n + 1) outcomes).length := by simp
  have hposition := (moves_after (List.getElem?_eq_getElem hlast)).position_eq
  exact Nat.le.intro hposition.symm

def rest (r : CaptureReader) : ByteArray := r.content.extract r.position r.content.size

theorem size_rest (r : CaptureReader) : r.rest.size = r.remaining := by
  rw [rest, ByteArray.size_extract, remaining, Nat.min_self]

theorem extract_rest (r : CaptureReader) {n : Nat} (hroom : r.position + n ≤ r.content.size) :
    r.rest.extract 0 n = r.content.extract r.position (r.position + n) := by
  rw [rest, ByteArray.extract_extract, Nat.add_zero, Nat.min_eq_left hroom]

theorem rest_moved {r next : CaptureReader} {n : Nat} (hcontent : next.content = r.content)
    (hposition : next.position = r.position + n) : next.rest = r.rest.extract n r.rest.size := by
  have hend : min (r.position + r.remaining) r.content.size = r.content.size := by
    rw [remaining]
    omega
  rw [rest, hcontent, hposition, size_rest, rest, ByteArray.extract_extract, hend]

theorem next_congr {r s : CaptureReader} (hrest : r.rest = s.rest) (hended : r.ended = s.ended)
    (outcomes : List ReadOutcome) :
    (r.next outcomes).1 = (s.next outcomes).1 ∧
      (r.next outcomes).2.1.rest = (s.next outcomes).2.1.rest ∧
      (r.next outcomes).2.1.ended = (s.next outcomes).2.1.ended ∧
      (r.next outcomes).2.2 = (s.next outcomes).2.2 := by
  have hremaining : r.remaining = s.remaining := by rw [← size_rest, hrest, size_rest]
  have hmoved (n : Nat) {r' s' : CaptureReader} (hr : r'.content = r.content)
      (hr' : r'.position = r.position + n) (hs : s'.content = s.content)
      (hs' : s'.position = s.position + n) : r'.rest = s'.rest := by
    rw [rest_moved hr hr', rest_moved hs hs', hrest]
  have hfits := fits_fill r.remaining outcomes (Nat.zero_le _)
  rw [next, next, ← hended, ← hremaining]
  split
  · exact ⟨rfl, hrest, hended, rfl⟩
  · generalize fill r.remaining 0 outcomes = filling at hfits
    obtain ⟨filled | ⟨filled, cause⟩, rest⟩ := filling
    · dsimp only [Filling.Fits] at hfits ⊢
      split
      · exact ⟨rfl, hrest, rfl, rfl⟩
      · split
        · exact ⟨rfl, hmoved filled rfl rfl rfl rfl, rfl, rfl⟩
        · next hwhole =>
          have hroom : r.position + filled ≤ r.content.size := by
            rw [remaining] at hfits
            omega
          have hroom' : s.position + filled ≤ s.content.size := by
            rw [hremaining, remaining] at hfits
            omega
          refine ⟨?_, hmoved filled rfl rfl rfl rfl, rfl, rfl⟩
          rw [← r.extract_rest hroom, ← s.extract_rest hroom', hrest]
    · exact ⟨rfl, hmoved filled rfl rfl rfl rfl, rfl, rfl⟩

/-- A reader keeps nothing of a file but what lies before it. -/
theorem answers_congr {r s : CaptureReader} (hrest : r.rest = s.rest) (hended : r.ended = s.ended)
    (n : Nat) (outcomes : List ReadOutcome) : r.answers n outcomes = s.answers n outcomes := by
  induction n generalizing r s outcomes with
  | zero => rfl
  | succ n ih =>
    obtain ⟨hanswer, hnext, hnextEnded, hreads⟩ := next_congr hrest hended outcomes
    rw [answers, answers]
    dsimp only
    rw [hanswer, ih hnext hnextEnded, hreads]

/-- Whatever the reads do, what a reader hands out are pieces of the file, in order and apart from
each other.  A piece starts as many bytes behind the end of a block as failed calls have taken
before it, and it is a block where these bytes make up blocks, in particular where there are
none. -/
theorem hands_out_pieces (content : ByteArray) (outcomes : List ReadOutcome) {n j : Nat}
    {bytes : ByteArray}
    (hbytes : (({ content } : CaptureReader).answers n outcomes)[j]? = some (.ok (some bytes))) :
    let r : CaptureReader := { content }
    let start (k : Nat) := r.handedOut k outcomes * superchunkBytes + r.lost k outcomes
    bytes = content.extract (start j) (start j + superchunkBytes) ∧
      start j + superchunkBytes ≤ content.size ∧
      (∀ k, j < k → start j + superchunkBytes ≤ start k) ∧
      (superchunkBytes ∣ start j ↔ superchunkBytes ∣ r.lost j outcomes) ∧
      (superchunkBytes ∣ r.lost j outcomes → bytes = blockOf content (start j / superchunkBytes)) := by
  intro r start
  have hposition (k : Nat) : (r.after k outcomes).position = start k := by
    rw [position_after]
    simp only [r, start, Nat.zero_add]
  obtain ⟨hpiece, hnext, hroom⟩ := (moves_after hbytes).of_superchunk
  rw [content_after, hposition] at hpiece hroom
  rw [hposition, hposition] at hnext
  have hgrid : superchunkBytes ∣ start j ↔ superchunkBytes ∣ r.lost j outcomes :=
    Nat.dvd_add_right (Nat.dvd_mul_left _ _)
  refine ⟨hpiece, hroom, fun k hk => ?_, hgrid, fun hlost => ?_⟩
  · rw [← hnext, ← hposition, ← hposition]
    exact r.position_after_mono outcomes hk
  · obtain ⟨k, hk⟩ := hgrid.mpr hlost
    rw [hpiece, hk, Nat.mul_div_cancel_left k (by decide), blockOf, Nat.add_mul, Nat.one_mul,
      Nat.mul_comm superchunkBytes k]

/-- A call whose second read fails takes what the first one has handed out. -/
theorem next_short_failed (content : ByteArray) {n taken : Nat} (htaken : n + 1 = taken)
    (hless : taken < superchunkBytes) (hroom : taken ≤ content.size) (cause : FileTrouble)
    (outcomes : List ReadOutcome) :
    ({ content } : CaptureReader).next (.short n :: .failed cause :: outcomes) =
      (.error (.fileTrouble cause), { content, position := taken }, outcomes) := by
  have hremaining : ({ content } : CaptureReader).remaining = content.size := Nat.sub_zero _
  have hcount : min (n + 1) (min (superchunkBytes - 0) (content.size - 0)) = taken := by omega
  have hsome : taken ≠ 0 := by omega
  rw [next, if_neg Bool.false_ne_true, hremaining, fill, if_neg (by decide)]
  dsimp only
  rw [hcount, if_neg hsome, Nat.zero_add, fill, if_neg hless.ne]
  dsimp only
  rw [Nat.zero_add]

/-- A call whose reads are not disturbed hands out the next superchunk, wherever it starts. -/
theorem next_undisturbed {r : CaptureReader} (hopen : r.ended = false)
    (hroom : r.position + superchunkBytes ≤ r.content.size) :
    (r.next []).1 = .ok (some (r.content.extract r.position (r.position + superchunkBytes))) := by
  have hfull : min superchunkBytes r.remaining = superchunkBytes := by
    rw [remaining]
    omega
  rw [next, hopen, if_neg Bool.false_ne_true, fill, hfull]
  dsimp only
  rw [if_neg (by decide), if_neg (lt_irrefl _)]

/-- A read that fails in the middle of a superchunk makes the next one start there. -/
theorem answers_short_failed (content : ByteArray) {n taken : Nat} (htaken : n + 1 = taken)
    (hless : taken < superchunkBytes) (hroom : taken + superchunkBytes ≤ content.size)
    (cause : FileTrouble) :
    ({ content } : CaptureReader).answers 2 [.short n, .failed cause] =
      [.error (.fileTrouble cause),
        .ok (some (content.extract taken (taken + superchunkBytes)))] := by
  have hnext := next_undisturbed (r := { content, position := taken }) rfl hroom
  rw [answers, next_short_failed content htaken hless (Nat.le_of_add_right_le hroom)]
  dsimp only
  rw [answers]
  dsimp only
  rw [answers, hnext]

/-- So does a reader that is opened on what the failed call has left of the file. -/
theorem answers_opened_on_rest (content : ByteArray) {taken : Nat}
    (hroom : taken + superchunkBytes ≤ content.size) :
    ({ content := content.extract taken content.size } : CaptureReader).answers 1 [] =
      [.ok (some (content.extract taken (taken + superchunkBytes)))] := by
  have hnext := next_undisturbed (r := { content, position := taken }) rfl hroom
  have hrest := answers_congr (r := { content, position := taken })
    (s := { content := content.extract taken content.size })
    (by rw [rest, rest, ByteArray.extract_zero_size]) rfl 1 []
  rw [← hrest, answers]
  dsimp only
  rw [answers, hnext]

/-- A file of two superchunks, the bytes of the first all one and those of the second all two. -/
def twoSuperchunks : ByteArray :=
  bytesOfFn (2 * superchunkBytes) fun i => i / superchunkBytes + 1

theorem size_twoSuperchunks : twoSuperchunks.size = 2 * superchunkBytes := bytesOfFn_size _ _

/-- A read of two superchunks that fails after a hundred bytes. -/
theorem hands_out_pieces_late :
    let r : CaptureReader := { content := twoSuperchunks }
    let outcomes : List ReadOutcome := [.short 99, .failed (.other "Input/output error")]
    let bytes := twoSuperchunks.extract 100 (100 + superchunkBytes)
    let start (k : Nat) := r.handedOut k outcomes * superchunkBytes + r.lost k outcomes
    (r.answers 2 outcomes)[1]? = some (.ok (some bytes)) ∧
      bytes = twoSuperchunks.extract (start 1) (start 1 + superchunkBytes) ∧
      start 1 + superchunkBytes ≤ twoSuperchunks.size ∧
      (∀ k, 1 < k → start 1 + superchunkBytes ≤ start k) ∧
      (superchunkBytes ∣ start 1 ↔ superchunkBytes ∣ r.lost 1 outcomes) ∧
      (superchunkBytes ∣ r.lost 1 outcomes →
        bytes = blockOf twoSuperchunks (start 1 / superchunkBytes)) := by
  intro r outcomes bytes start
  have hroom : 100 + superchunkBytes ≤ twoSuperchunks.size := by
    rw [size_twoSuperchunks]
    decide
  have hanswers := answers_short_failed twoSuperchunks (n := 99) rfl (by decide) hroom
    (.other "Input/output error")
  have hbytes : (r.answers 2 outcomes)[1]? = some (.ok (some bytes)) := by
    rw [hanswers, List.getElem?_cons_succ, List.getElem?_cons_zero]
  exact ⟨hbytes, hands_out_pieces twoSuperchunks outcomes hbytes⟩

/-- The piece begins in the first superchunk and ends in the second. -/
theorem straddling_ne_blockOf (k : Nat) :
    twoSuperchunks.extract 100 (100 + superchunkBytes) ≠ blockOf twoSuperchunks k := by
  intro hblock
  have hbyte {i : Nat} (hi : i < 2 * superchunkBytes) :
      byteAt twoSuperchunks i = (i / superchunkBytes + 1) % 256 := byteAt_bytesOfFn _ hi
  have hpiece {i : Nat} (hi : i < superchunkBytes) :
      byteAt twoSuperchunks (k * superchunkBytes + i) = byteAt twoSuperchunks (100 + i) := by
    have hplace : k * superchunkBytes + i < (k + 1) * superchunkBytes := by
      rw [Nat.succ_mul]
      omega
    rw [← byteAt_extract _ hplace, ← blockOf, ← hblock, byteAt_extract _ (by omega)]
  have hfirst := hpiece (i := 0) (by decide)
  have hlast := hpiece (i := 5567) (by decide)
  have hlength : superchunkBytes = 5568 := rfl
  rw [hlength] at hbyte hfirst hlast
  rw [hbyte (i := 100 + 0) (by omega)] at hfirst
  rw [hbyte (i := 100 + 5567) (by omega)] at hlast
  -- a block of the file has the same byte everywhere, the piece has two
  by_cases hk : k < 2
  · rw [hbyte (by omega)] at hfirst hlast
    omega
  · have hpast : byteAt twoSuperchunks (k * 5568 + 0) = 0 := by
      have hbeyond : ¬ k * 5568 + 0 < twoSuperchunks.size := by
        rw [size_twoSuperchunks, hlength]
        omega
      rw [byteAt, dif_neg hbeyond]
    rw [hpast] at hfirst
    omega

/-- After a read that failed in the middle of a superchunk the reader hands out what no block of
the file is, and so does a reader that is opened on the rest of the file. -/
theorem straddles_after_failed_read :
    let r : CaptureReader := { content := twoSuperchunks }
    let cause : FileTrouble := .other "Input/output error"
    let bytes := twoSuperchunks.extract 100 (100 + superchunkBytes)
    r.answers 2 [.short 99, .failed cause] = [.error (.fileTrouble cause), .ok (some bytes)] ∧
      (∀ k, bytes ≠ blockOf twoSuperchunks k) ∧
      ({ content := twoSuperchunks.extract 100 twoSuperchunks.size } : CaptureReader).answers 1 [] =
        [.ok (some bytes)] := by
  intro r cause bytes
  have hroom : 100 + superchunkBytes ≤ twoSuperchunks.size := by
    rw [size_twoSuperchunks]
    decide
  exact ⟨answers_short_failed twoSuperchunks rfl (by decide) hroom cause,
    straddling_ne_blockOf, answers_opened_on_rest twoSuperchunks hroom⟩

end CaptureReader

end TpcTrigger
