import TpcTrigger.Capture.Reader
import TpcTrigger.Proofs.Samples.WindowSequence
import Mathlib.Tactic

/-! # Captures play back what was written

A capture holds the superchunks that were accepted, back to back.  As long as no read fails,
reads that hand out little or have to be made again do not show: the calls of a reader give the
blocks of the file in order, then the bytes that are left over as one error, and then nothing.
-/

namespace TpcTrigger

def joined : List ByteArray → ByteArray
  | [] => .empty
  | bytes :: rest => bytes ++ joined rest

/-- The bytes of a file that belong to the superchunk at a place. -/
def blockOf (content : ByteArray) (k : Nat) : ByteArray :=
  content.extract (k * superchunkBytes) ((k + 1) * superchunkBytes)

theorem size_joined {buffers : List ByteArray} (hsize : ∀ b ∈ buffers, b.size = superchunkBytes) :
    (joined buffers).size = buffers.length * superchunkBytes := by
  induction buffers with
  | nil => rw [joined, List.length_nil, Nat.zero_mul, ByteArray.size_empty]
  | cons bytes rest ih =>
    have hrest := ih fun b hb => hsize b (List.mem_cons_of_mem _ hb)
    rw [joined, ByteArray.size_append, hsize bytes List.mem_cons_self, hrest, List.length_cons,
      Nat.succ_mul, Nat.add_comm]

theorem blockOf_joined {buffers : List ByteArray} (hsize : ∀ b ∈ buffers, b.size = superchunkBytes)
    (tail : ByteArray) {k : Nat} (hk : k < buffers.length) :
    blockOf (joined buffers ++ tail) k = buffers[k] := by
  induction buffers generalizing k with
  | nil => exact absurd hk (Nat.not_lt_zero k)
  | cons bytes rest ih =>
    have hfirst : bytes.size = superchunkBytes := hsize bytes List.mem_cons_self
    have hassoc : joined (bytes :: rest) ++ tail = bytes ++ (joined rest ++ tail) := by
      rw [joined, ByteArray.append_assoc]
    cases k with
    | zero =>
      rw [hassoc, blockOf, Nat.zero_mul, Nat.zero_add, Nat.one_mul, List.getElem_cons_zero]
      exact ByteArray.extract_append_eq_left hfirst.symm
    | succ k =>
      have hrest := ih (fun b hb => hsize b (List.mem_cons_of_mem _ hb)) (Nat.lt_of_succ_lt_succ hk)
      have hstart : (k + 1) * superchunkBytes = bytes.size + k * superchunkBytes := by
        rw [hfirst, Nat.succ_mul, Nat.add_comm]
      have hstop : (k + 1 + 1) * superchunkBytes = bytes.size + (k + 1) * superchunkBytes := by
        rw [hfirst, Nat.succ_mul (k + 1), Nat.add_comm]
      rw [hassoc, blockOf, hstart, hstop, ByteArray.extract_append_size_add, List.getElem_cons_succ]
      exact hrest

namespace CaptureWriter

variable (w : CaptureWriter)

theorem write_eq (bytes : ByteArray) :
    w.write bytes =
      if bytes.size = superchunkBytes then .ok ⟨w.content ++ bytes, w.written + 1⟩
      else .error (.badSuperchunk (.superchunkSize bytes.size)) := by
  rw [write, Superchunk.checkSize]
  by_cases h : bytes.size = superchunkBytes
  · rw [if_pos h, if_pos h]
  · rw [if_neg h, if_neg h]

theorem writeAll_append (xs ys : List ByteArray) :
    w.writeAll (xs ++ ys) = (w.writeAll xs).writeAll ys :=
  List.foldl_append

theorem writeAll_singleton (bytes : ByteArray) :
    w.writeAll [bytes] =
      if bytes.size = superchunkBytes then ⟨w.content ++ bytes, w.written + 1⟩ else w := by
  rw [writeAll, List.foldl_cons, List.foldl_nil, write_eq]
  split <;> rfl

/-- The accepted buffers stand behind what was written before, and refused ones leave no trace. -/
theorem writeAll_eq (buffers : List ByteArray) :
    let accepted := buffers.filter (·.size = superchunkBytes)
    w.writeAll buffers = ⟨w.content ++ joined accepted, w.written + accepted.length⟩ := by
  induction buffers generalizing w with
  | nil => simp [writeAll, joined]
  | cons bytes rest ih =>
    rw [← List.singleton_append, writeAll_append, ih, writeAll_singleton]
    by_cases h : bytes.size = superchunkBytes
    · simp only [h, if_true, List.singleton_append, List.filter_cons, decide_true, joined,
        ByteArray.append_assoc, List.length_cons]
      congr 1
      omega
    · simp [h]

end CaptureWriter

/-- No read of a file fails. -/
def Undamaged (outcomes : List ReadOutcome) : Prop := ∀ cause, .failed cause ∉ outcomes

namespace CaptureReader

/-- However the reads go, filling stops where the buffer is full or the file has ended. -/
theorem fill_eq (available : Nat) {filled : Nat} {outcomes : List ReadOutcome}
    (h : Undamaged outcomes) (hfilled : filled ≤ min superchunkBytes available) :
    ∃ rest, Undamaged rest ∧
      fill available filled outcomes = (.stopped (min superchunkBytes available), rest) := by
  induction outcomes generalizing filled with
  | nil => exact ⟨[], h, rfl⟩
  | cons outcome outcomes ih =>
    have hrest : Undamaged outcomes := fun cause hmem => h cause (List.mem_cons_of_mem _ hmem)
    rw [fill.eq_def]
    dsimp only
    by_cases hfull : filled = superchunkBytes
    · have hstop : filled = min superchunkBytes available := by omega
      rw [if_pos hfull]
      exact ⟨outcome :: outcomes, h, by rw [hstop]⟩
    rw [if_neg hfull]
    cases outcome with
    | interrupted => exact ih hrest hfilled
    | failed cause => exact absurd List.mem_cons_self (h cause)
    | short n =>
      dsimp only
      by_cases hend : min (n + 1) (min (superchunkBytes - filled) (available - filled)) = 0
      · have hstop : filled = min superchunkBytes available := by omega
        rw [if_pos hend]
        exact ⟨outcomes, hrest, by rw [← hstop]⟩
      · rw [if_neg hend]
        exact ih hrest (by omega)

/-- An answer as the step of an iteration, which is over where there is nothing to hand out. -/
def Answer.item? : Answer → Option (Except CaptureError ByteArray)
  | .ok none => none
  | .ok (some bytes) => some (.ok bytes)
  | .error cause => some (.error cause)

def Answer.ofItem? : Option (Except CaptureError ByteArray) → Answer
  | none => .ok none
  | some (.ok bytes) => .ok (some bytes)
  | some (.error cause) => .error cause

theorem Answer.ofItem?_item? : (a : Answer) → Answer.ofItem? a.item? = a
  | .ok none => rfl
  | .ok (some _) => rfl
  | .error _ => rfl

def Answer.isSuperchunk : Answer → Bool
  | .ok (some _) => true
  | .ok none => false
  | .error _ => false

/-- What a file has to give: its blocks, and an error if bytes are left over. -/
def items (r : CaptureReader) : List (Except CaptureError ByteArray) :=
  (List.range r.superchunks).map (fun k => .ok (blockOf r.content k)) ++
    if r.content.size % superchunkBytes = 0 then []
    else [.error (.truncated (r.content.size % superchunkBytes))]

def after : Nat → CaptureReader → List ReadOutcome → CaptureReader
  | 0, r, _ => r
  | n + 1, r, outcomes =>
    let (_, r, outcomes) := r.next outcomes
    after n r outcomes

/-- A call counts the superchunk that it hands out, if any, whatever its reads do. -/
theorem superchunksRead_next (r : CaptureReader) (outcomes : List ReadOutcome) :
    (r.next outcomes).2.1.superchunksRead =
      r.superchunksRead + if (r.next outcomes).1.isSuperchunk then 1 else 0 := by
  rw [next]
  split
  · rfl
  · split
    · rfl
    · dsimp only
      split
      · rfl
      · split <;> rfl

theorem superchunksRead_after (n : Nat) (r : CaptureReader) (outcomes : List ReadOutcome) :
    (r.after n outcomes).superchunksRead =
      r.superchunksRead + (r.answers n outcomes).countP Answer.isSuperchunk := by
  induction n generalizing r outcomes with
  | zero => rfl
  | succ n ih =>
    rw [after, answers, ih, superchunksRead_next, List.countP_cons]
    omega

/-- Where a reader stands after `k` calls: at the end of as many blocks, or at the end of all. -/
structure Stands (content : ByteArray) (k : Nat) (r : CaptureReader) : Prop where
  content_eq : r.content = content
  superchunksRead : r.superchunksRead = min k (content.size / superchunkBytes)
  position : k ≤ content.size / superchunkBytes → r.position = k * superchunkBytes
  ended : r.ended = decide (content.size / superchunkBytes < k)

namespace Stands

variable {content : ByteArray} {k : Nat} {r : CaptureReader} {outcomes : List ReadOutcome}

theorem start (content : ByteArray) : Stands content 0 { content } where
  content_eq := rfl
  superchunksRead := (Nat.zero_min _).symm
  position _ := (Nat.zero_mul _).symm
  ended := by simp

/-- A call in front of a whole block hands it out. -/
theorem next_block (h : Stands content k r) (hreads : Undamaged outcomes)
    (hk : k < content.size / superchunkBytes) :
    ∃ r' rest, r.next outcomes = (.ok (some (blockOf content k)), r', rest) ∧
      Stands content (k + 1) r' ∧ Undamaged rest := by
  have hposition := h.position hk.le
  have hnext : (k + 1) * superchunkBytes = k * superchunkBytes + superchunkBytes :=
    Nat.succ_mul k superchunkBytes
  have hroom : (k + 1) * superchunkBytes ≤ content.size :=
    (Nat.le_div_iff_mul_le (by decide)).mp hk
  have hopen : r.ended = false := by rw [h.ended, decide_eq_false (by omega)]
  have havailable : min superchunkBytes r.remaining = superchunkBytes := by
    rw [remaining, h.content_eq, hposition]
    omega
  obtain ⟨rest, hrest, hfill⟩ := fill_eq r.remaining hreads (Nat.zero_le _)
  rw [havailable] at hfill
  have hstop : r.position + superchunkBytes = (k + 1) * superchunkBytes := by
    rw [hposition, hnext]
  refine ⟨{ r with
    position := (k + 1) * superchunkBytes, superchunksRead := r.superchunksRead + 1 }, rest, ?_,
    ⟨h.content_eq, ?_, fun _ => rfl, ?_⟩, hrest⟩
  · rw [next, hopen, if_neg Bool.false_ne_true, hfill]
    dsimp only
    rw [if_neg (by decide : superchunkBytes ≠ 0), if_neg (lt_irrefl _), hstop, hposition,
      h.content_eq, blockOf]
  · simp only [h.superchunksRead]
    omega
  · rw [hopen, decide_eq_false (by omega)]

/-- The call behind the last whole block reports what is left over. -/
theorem next_rest (h : Stands content (content.size / superchunkBytes) r)
    (hreads : Undamaged outcomes) :
    ∃ r' rest,
      r.next outcomes =
        (if content.size % superchunkBytes = 0 then .ok none
          else .error (.truncated (content.size % superchunkBytes)), r', rest) ∧
        Stands content (content.size / superchunkBytes + 1) r' ∧ Undamaged rest := by
  have hposition := h.position le_rfl
  have hless : content.size % superchunkBytes < superchunkBytes := Nat.mod_lt _ (by decide)
  have hparts : content.size / superchunkBytes * superchunkBytes + content.size % superchunkBytes =
      content.size :=
    Nat.div_add_mod' _ _
  have hopen : r.ended = false := by rw [h.ended, decide_eq_false (lt_irrefl _)]
  have havailable : min superchunkBytes r.remaining = content.size % superchunkBytes := by
    rw [remaining, h.content_eq, hposition]
    omega
  obtain ⟨rest, hrest, hfill⟩ := fill_eq r.remaining hreads (Nat.zero_le _)
  rw [havailable] at hfill
  have hread := h.superchunksRead
  by_cases hwhole : content.size % superchunkBytes = 0
  · refine ⟨{ r with ended := true }, rest, ?_, ⟨h.content_eq, ?_, ?_, ?_⟩, hrest⟩
    · rw [next, hopen, hfill]
      simp [hwhole]
    · simp only [hread]
      omega
    · omega
    · simp
  · refine ⟨{ r with position := r.position + content.size % superchunkBytes, ended := true }, rest,
      ?_, ⟨h.content_eq, ?_, ?_, ?_⟩, hrest⟩
    · rw [next, hopen, hfill]
      simp [hwhole, hless]
    · simp only [hread]
      omega
    · omega
    · simp

/-- Once the end has shown, every call answers nothing. -/
theorem next_ended (h : Stands content k r) (hk : content.size / superchunkBytes < k)
    (outcomes : List ReadOutcome) :
    r.next outcomes = (.ok none, r, outcomes) ∧ Stands content (k + 1) r := by
  have hended : r.ended = true := by rw [h.ended, decide_eq_true hk]
  refine ⟨by rw [next, hended, if_pos rfl], h.content_eq, ?_, ?_, ?_⟩
  · rw [h.superchunksRead]
    omega
  · omega
  · rw [hended, decide_eq_true (by omega)]

end Stands

/-- The place in the list of items that an answer comes from. -/
theorem getElem?_items (content : ByteArray) (k : Nat) :
    ({ content } : CaptureReader).items[k]? =
      if k < content.size / superchunkBytes then some (.ok (blockOf content k))
      else if k = content.size / superchunkBytes ∧ content.size % superchunkBytes ≠ 0 then
        some (.error (.truncated (content.size % superchunkBytes)))
      else none := by
  rw [items, superchunks]
  dsimp only
  by_cases hk : k < content.size / superchunkBytes
  · rw [if_pos hk, List.getElem?_append_left (by simpa using hk)]
    simp [hk]
  · rw [if_neg hk, List.getElem?_append_right (by simpa using hk)]
    by_cases hwhole : content.size % superchunkBytes = 0
    · simp [hwhole]
    · by_cases hlast : k = content.size / superchunkBytes
      · simp [hwhole, hlast]
      · have hbeyond : k - content.size / superchunkBytes ≠ 0 := by omega
        simp [hwhole, hlast, hbeyond]

/-- One call hands out the next item and counts it if it is a block. -/
theorem Stands.next {content : ByteArray} {k : Nat} {r : CaptureReader}
    {outcomes : List ReadOutcome} (h : Stands content k r) (hreads : Undamaged outcomes) :
    ∃ answer r' rest, r.next outcomes = (answer, r', rest) ∧
      answer.item? = ({ content } : CaptureReader).items[k]? ∧
      Stands content (k + 1) r' ∧ Undamaged rest := by
  rw [getElem?_items]
  rcases Nat.lt_trichotomy k (content.size / superchunkBytes) with hk | rfl | hk
  · obtain ⟨r', rest, hnext, hstands, hrest⟩ := h.next_block hreads hk
    exact ⟨_, r', rest, hnext, by rw [if_pos hk]; rfl, hstands, hrest⟩
  · obtain ⟨r', rest, hnext, hstands, hrest⟩ := h.next_rest hreads
    refine ⟨_, r', rest, hnext, ?_, hstands, hrest⟩
    rw [if_neg (lt_irrefl _)]
    by_cases hwhole : content.size % superchunkBytes = 0
    · simp [hwhole, Answer.item?]
    · simp [hwhole, Answer.item?]
  · obtain ⟨hnext, hstands⟩ := h.next_ended hk outcomes
    refine ⟨_, r, outcomes, hnext, ?_, hstands, hreads⟩
    rw [if_neg (by omega), if_neg (by omega)]
    rfl

/-- Calls that follow each other hand out the items in order, and count the blocks among them. -/
theorem Stands.calls {content : ByteArray} {k : Nat} {r : CaptureReader}
    {outcomes : List ReadOutcome} (h : Stands content k r) (hreads : Undamaged outcomes) (n : Nat) :
    (r.answers n outcomes).map Answer.item? =
        (List.range' k n).map (({ content } : CaptureReader).items[·]?) ∧
      Stands content (k + n) (r.after n outcomes) := by
  induction n generalizing k r outcomes with
  | zero => exact ⟨rfl, h⟩
  | succ n ih =>
    obtain ⟨answer, r', rest, hnext, hitem, hstands, hrest⟩ := h.next hreads
    obtain ⟨hanswers, hafter⟩ := ih hstands hrest
    rw [answers, after, hnext]
    dsimp only
    refine ⟨?_, ?_⟩
    · rw [List.map_cons, hitem, hanswers, List.range'_succ, List.map_cons]
    · rwa [Nat.add_right_comm, Nat.add_assoc] at hafter

/-- Whatever was written, and whatever stands behind it, only buffers of one superchunk were
accepted, and a reader whose reads do not fail gives the blocks of the file in order, those that
were written first, then the bytes that are left over as one error, and then nothing. -/
theorem plays_back (buffers : List ByteArray) (tail : ByteArray) {outcomes : List ReadOutcome}
    (hreads : Undamaged outcomes) :
    let accepted := buffers.filter (·.size = superchunkBytes)
    let written (n : Nat) := ({} : CaptureWriter).writeAll (buffers.take n)
    let r : CaptureReader := { content := (({} : CaptureWriter).writeAll buffers).content ++ tail }
    (∀ i (hi : i < buffers.length),
      if buffers[i].size = superchunkBytes then
        (written i).write buffers[i] = .ok (written (i + 1))
      else
        (written i).write buffers[i] = .error (.badSuperchunk (.superchunkSize buffers[i].size)) ∧
          written (i + 1) = written i) ∧
      r.content = joined accepted ++ tail ∧
      (∀ k (hk : k < accepted.length), r.items[k]? = some (.ok accepted[k])) ∧
      ∀ n, (r.answers n outcomes).map Answer.item? = (List.range n).map (r.items[·]?) ∧
        (r.after n outcomes).superchunksRead =
          (r.answers n outcomes).countP Answer.isSuperchunk := by
  intro accepted written r
  have haccepted : ∀ b ∈ accepted, b.size = superchunkBytes := fun b hb => by
    simpa using (List.mem_filter.mp hb).2
  have hcontent : r.content = joined accepted ++ tail := by
    have hall := ({} : CaptureWriter).writeAll_eq buffers
    simp only [r, hall, ByteArray.empty_append, accepted]
  refine ⟨fun i hi => ?_, hcontent, fun k hk => ?_, fun n => ⟨?_, ?_⟩⟩
  · have hnext : written (i + 1) =
        if buffers[i].size = superchunkBytes then
          ⟨(written i).content ++ buffers[i], (written i).written + 1⟩
        else written i := by
      simp only [written]
      rw [List.take_succ_eq_append_getElem hi, CaptureWriter.writeAll_append,
        CaptureWriter.writeAll_singleton]
    rw [CaptureWriter.write_eq]
    split
    · next hsize => rw [hnext, if_pos hsize]
    · next hsize => exact ⟨rfl, by rw [hnext, if_neg hsize]⟩
  · have hroom : k < r.content.size / superchunkBytes := by
      rw [hcontent, ByteArray.size_append, size_joined haccepted]
      exact (Nat.le_div_iff_mul_le (by decide)).mpr
        ((Nat.mul_le_mul_right _ hk).trans (Nat.le_add_right _ _))
    rw [getElem?_items r.content, if_pos hroom, hcontent, blockOf_joined haccepted tail hk]
  · rw [((Stands.start r.content).calls hreads n).1, List.range_eq_range']
  · rw [superchunksRead_after, Nat.zero_add]

/-- A refused buffer in the middle, bytes left over at the end, and reads that hand out one byte
or are interrupted in between. -/
theorem plays_back_disturbed :
    let chunk := Superchunk.encode default 0 fun channel tick => UInt16.ofNat (channel + tick)
    let buffers := [chunk, ⟨#[1, 2, 3]⟩, chunk]
    let r : CaptureReader :=
      { content := (({} : CaptureWriter).writeAll buffers).content ++ ⟨#[7, 8]⟩ }
    let outcomes : List ReadOutcome :=
      [.short 0, .interrupted, .short 5000, .interrupted, .short 9999]
    Undamaged outcomes ∧
      r.items[0]? = some (.ok chunk) ∧ r.items[1]? = some (.ok chunk) ∧
      (r.answers 4 outcomes).map Answer.item? = (List.range 4).map (r.items[·]?) := by
  intro chunk buffers r outcomes
  have hreads : Undamaged outcomes := fun cause => by simp [outcomes]
  have hchunk : chunk.size = superchunkBytes := Superchunk.encode_size _ _ _
  have hsmall : (⟨#[1, 2, 3]⟩ : ByteArray).size ≠ superchunkBytes := by decide
  have haccepted : buffers.filter (·.size = superchunkBytes) = [chunk, chunk] := by
    simp [buffers, hchunk, hsmall]
  obtain ⟨-, -, hblocks, hcalls⟩ := plays_back buffers ⟨#[7, 8]⟩ hreads
  rw [haccepted] at hblocks
  exact ⟨hreads, hblocks 0 (by decide), hblocks 1 (by decide), (hcalls 4).1⟩

theorem toEnd_eq (content : ByteArray) :
    ({ content } : CaptureReader).toEnd =
      ((List.range (content.size / superchunkBytes)).map (blockOf content),
        if content.size % superchunkBytes = 0 then none
        else some (.truncated (content.size % superchunkBytes))) := by
  have hreads : Undamaged [] := fun _ => List.not_mem_nil
  have hcalls := ((Stands.start content).calls hreads (content.size / superchunkBytes + 1)).1
  have hanswers : ({ content } : CaptureReader).answers (content.size / superchunkBytes + 1) [] =
      (List.range (content.size / superchunkBytes)).map (fun k => .ok (some (blockOf content k))) ++
        [if content.size % superchunkBytes = 0 then .ok none
          else .error (.truncated (content.size % superchunkBytes))] := by
    have hback := congrArg (List.map Answer.ofItem?) hcalls
    have hsame : Answer.ofItem? ∘ Answer.item? = id := funext Answer.ofItem?_item?
    rw [List.map_map, hsame, List.map_id, ← List.range_eq_range', List.map_map, List.range_succ,
      List.map_append] at hback
    rw [hback]
    congr 1
    · apply List.map_congr_left
      intro k hk
      rw [Function.comp_apply, getElem?_items, if_pos (List.mem_range.mp hk)]
      rfl
    · rw [List.map_singleton, Function.comp_apply, getElem?_items, if_neg (lt_irrefl _)]
      by_cases hwhole : content.size % superchunkBytes = 0
      · simp [hwhole, Answer.ofItem?]
      · simp [hwhole, Answer.ofItem?]
  rw [toEnd, superchunks, hanswers]
  generalize List.range (content.size / superchunkBytes) = places
  induction places with
  | nil => split <;> rfl
  | cons k places ih => rw [List.map_cons, List.cons_append, untilError, ih, List.map_cons]

end CaptureReader

end TpcTrigger
