import TpcTrigger.Proofs.Pipeline.Crew

/-! # Channels apart

A kernel call treats every channel on its own: what becomes of it depends on its samples and its
state, whatever the channels beside it contain.  So a range of registers may be cut anywhere, and
the workers' shares of a frame come to what one call over the whole frame finds, down to the error
of a call that is refused.
-/

namespace TpcTrigger

/-- The states of the range's channels among those of a whole frame. -/
def RegisterRange.statesIn (r : RegisterRange) (states : Array ChannelState) :
    Array ChannelState :=
  states.extract r.firstChannel (r.last * lanesPerRegister)

namespace RegisterRange

theorem size_statesIn {r : RegisterRange} (hlast : r.last ≤ registerCount)
    {states : Array ChannelState} (hsize : states.size = channelCount) :
    (r.statesIn states).size = r.channels := by
  have hend : r.last * lanesPerRegister ≤ channelCount := by
    rw [channelCount_eq_registers]
    exact Nat.mul_le_mul_right _ hlast
  rw [statesIn, Array.size_extract, hsize, Nat.min_eq_left hend, firstChannel, ← Nat.sub_mul]
  rfl

theorem statesIn_append {a b c : Nat} (hab : a ≤ b) (hbc : b ≤ c) (states : Array ChannelState) :
    statesIn ⟨a, b⟩ states ++ statesIn ⟨b, c⟩ states = statesIn ⟨a, c⟩ states := by
  have hfirst := Nat.mul_le_mul_right lanesPerRegister hab
  have hlast := Nat.mul_le_mul_right lanesPerRegister hbc
  rw [statesIn, statesIn, firstChannel, firstChannel, Array.extract_append_extract,
    Nat.min_eq_left hfirst, Nat.max_eq_right hlast]
  rfl

end RegisterRange

namespace Detections

/-- What one call finds, and behind it what another one finds. -/
instance : Append Detections := ⟨fun xs ys => ⟨xs.states ++ ys.states, xs.hits ++ ys.hits⟩⟩

def join (parts : List Detections) : Detections := parts.foldl (· ++ ·) ⟨#[], #[]⟩

theorem join_concat (parts : List Detections) (last : Detections) :
    join (parts ++ [last]) = join parts ++ last := by
  rw [join, List.foldl_append, List.foldl_cons, List.foldl_nil, ← join]

end Detections

/-- The error about the first delay line that is out of shape, if there is one. -/
def misfit (first : Nat) (states : Array ChannelState) (p : DetectorParams) :
    Except KernelError Unit :=
  match states.zipIdx.find? fun (s, _) => ¬ s.line.Fits p.filter.length with
  | some (s, i) => .error (.delayLine (first + i) s.line.cells.size p.filter.length)
  | none => .ok ()

theorem checkShape_eq_misfit {registers : RegisterRange} {states : Array ChannelState}
    (hrange : registers.first ≤ registers.last ∧ registers.last ≤ registerCount)
    (hsize : states.size = registers.channels) (p : DetectorParams) :
    checkShape registers states p = misfit registers.firstChannel states p := by
  rw [checkShape, if_neg (by omega), if_neg (not_not.mpr hsize)]
  rfl

theorem misfit_append (first : Nat) (xs ys : Array ChannelState) (p : DetectorParams) :
    misfit first (xs ++ ys) p =
      (misfit first xs p).bind fun () => misfit (first + xs.size) ys p := by
  have hlater : ys.zipIdx (0 + xs.size) = ys.zipIdx.map fun x => (x.1, 0 + xs.size + x.2) :=
    Array.zipIdx_eq_map_add
  have hunfit : ((fun x : ChannelState × Nat => decide ¬ x.1.line.Fits p.filter.length) ∘
      fun x : ChannelState × Nat => (x.1, 0 + xs.size + x.2)) =
        fun x : ChannelState × Nat => decide ¬ x.1.line.Fits p.filter.length := rfl
  rw [misfit, misfit, misfit, Array.zipIdx_append, Array.find?_append, hlater, Array.find?_map,
    hunfit]
  cases xs.zipIdx.find? fun x => ¬ x.1.line.Fits p.filter.length with
  | some bad => rfl
  | none =>
    cases ys.zipIdx.find? fun x => ¬ x.1.line.Fits p.filter.length with
    | some bad =>
      simp only [Option.none_or, Option.map_some, Except.bind, Nat.zero_add, Nat.add_assoc]
    | none => rfl

section

variable {a b c : Nat} (hab : a ≤ b) (hbc : b ≤ c) {xs ys : Array ChannelState}
  (hxs : xs.size = RegisterRange.channels ⟨a, b⟩) (hys : ys.size = RegisterRange.channels ⟨b, c⟩)

include hab hxs

/-- The second part of a range starts behind the states of the first. -/
theorem firstChannel_add_size :
    RegisterRange.firstChannel ⟨a, c⟩ + xs.size = RegisterRange.firstChannel ⟨b, c⟩ := by
  have hsum : a + (b - a) = b := by omega
  rw [hxs, RegisterRange.firstChannel, RegisterRange.channels, RegisterRange.count, ← Nat.add_mul,
    hsum, RegisterRange.firstChannel]

include hbc hys

theorem size_append_channels : (xs ++ ys).size = RegisterRange.channels ⟨a, c⟩ := by
  have hsum : b - a + (c - b) = c - a := by omega
  rw [Array.size_append, hxs, hys, RegisterRange.channels, RegisterRange.channels,
    RegisterRange.count, RegisterRange.count, ← Nat.add_mul, hsum, RegisterRange.channels,
    RegisterRange.count]

/-- A range is in shape if its two parts are, and the first error is that of either part. -/
theorem checkShape_append (hc : c ≤ registerCount) (p : DetectorParams) :
    checkShape ⟨a, c⟩ (xs ++ ys) p =
      (checkShape ⟨a, b⟩ xs p).bind fun () => checkShape ⟨b, c⟩ ys p := by
  rw [checkShape_eq_misfit ⟨hab.trans hbc, hc⟩ (size_append_channels hab hbc hxs hys),
    checkShape_eq_misfit ⟨hab, hbc.trans hc⟩ hxs, checkShape_eq_misfit ⟨hbc, hc⟩ hys,
    misfit_append, firstChannel_add_size hab hxs]
  rfl

end

namespace KernelKind

variable (kind : KernelKind) (p : DetectorParams) (window : Window)

section

variable {a b c : Nat} (hab : a ≤ b) {xs ys : Array ChannelState}
  (hxs : xs.size = RegisterRange.channels ⟨a, b⟩)

include hab hxs

/-- What the two parts of a range come to stands side by side. -/
theorem found_append (hits : Array Hit) :
    kind.found p ⟨a, c⟩ window (xs ++ ys) hits (xs.size + ys.size) =
      kind.found p ⟨a, b⟩ window xs hits xs.size ++
        kind.found p ⟨b, c⟩ window ys #[] ys.size := by
  have hfront {i : Nat} (hi : i < xs.size) :
      (xs ++ ys).getD i default = xs.getD i default := by
    rw [Array.getD_eq_getD_getElem?, Array.getElem?_append_left hi, Array.getD_eq_getD_getElem?]
  have hback (j : Nat) : (xs ++ ys).getD (xs.size + j) default = ys.getD j default := by
    rw [Array.getD_eq_getD_getElem?, Array.getElem?_append_right (Nat.le_add_right _ _),
      Nat.add_sub_cancel_left, Array.getD_eq_getD_getElem?]
  have hplace (j : Nat) : RegisterRange.firstChannel ⟨a, c⟩ + (xs.size + j) =
      RegisterRange.firstChannel ⟨b, c⟩ + j := by
    rw [← Nat.add_assoc, firstChannel_add_size hab hxs]
  have hstates : (List.range xs.size).map (kind.stateAfter p ⟨a, c⟩ window (xs ++ ys)) =
      (List.range xs.size).map (kind.stateAfter p ⟨a, b⟩ window xs) := by
    apply List.map_congr_left
    intro i hi
    rw [stateAfter, hfront (List.mem_range.mp hi)]
    rfl
  have hhits : (List.range xs.size).flatMap (kind.hitsOf p ⟨a, c⟩ window (xs ++ ys)) =
      (List.range xs.size).flatMap (kind.hitsOf p ⟨a, b⟩ window xs) := by
    apply List.flatMap_congr
    intro i hi
    rw [hitsOf, hfront (List.mem_range.mp hi)]
    rfl
  have hrest : kind.stateAfter p ⟨a, c⟩ window (xs ++ ys) ∘ (xs.size + ·) =
        kind.stateAfter p ⟨b, c⟩ window ys ∧
      (fun j => kind.hitsOf p ⟨a, c⟩ window (xs ++ ys) (xs.size + j)) =
        kind.hitsOf p ⟨b, c⟩ window ys := by
    constructor <;> funext j
    · rw [Function.comp_apply, stateAfter, hback, hplace, stateAfter]
    · rw [hitsOf, hback, hplace, hitsOf]
  change Detections.mk _ _ = Detections.mk _ _
  congr 1
  · rw [List.range_add, List.map_append, List.map_map, hstates, hrest.1, ← List.append_toArray]
    rfl
  · rw [List.range_add, List.flatMap_append, List.flatMap_map, hhits, hrest.2,
      ← List.append_toArray, ← Array.append_assoc, found, found, Array.empty_append]

theorem process_append (hbc : b ≤ c) (hc : c ≤ registerCount)
    (hys : ys.size = RegisterRange.channels ⟨b, c⟩) (hits : Array Hit) :
    kind.process p ⟨a, c⟩ window (xs ++ ys) hits = do
      let front ← kind.process p ⟨a, b⟩ window xs hits
      let back ← kind.process p ⟨b, c⟩ window ys #[]
      return front ++ back := by
  rw [process_eq, process_eq, process_eq, checkShape_append hab hbc hxs hys hc, Array.size_append,
    kind.found_append p window hab hxs]
  cases checkShape ⟨a, b⟩ xs p with
  | error cause => rfl
  | ok u => cases checkShape ⟨b, c⟩ ys p <;> rfl

end

theorem process_shares {n : Nat} (hn : 0 < n) {states : Array ChannelState}
    (hsize : states.size = channelCount) {k : Nat} (hk : k ≤ n) :
    kind.process p ⟨0, Partition.start n k⟩ window
        (RegisterRange.statesIn ⟨0, Partition.start n k⟩ states) #[] =
      ((List.range k).mapM fun i =>
        let share : RegisterRange := ⟨Partition.start n i, Partition.start n (i + 1)⟩
        kind.process p share window (share.statesIn states) #[]).map Detections.join := by
  induction k with
  | zero =>
    have hnone : RegisterRange.statesIn ⟨0, Partition.start n 0⟩ states = #[] := by
      rw [Partition.start_zero, RegisterRange.statesIn]
      exact Array.extract_eq_empty_of_le (by simp)
    rw [hnone, Partition.start_zero, process_eq]
    rfl
  | succ k ih =>
    have hnext : Partition.start n k ≤ Partition.start n (k + 1) :=
      Partition.start_mono n (Nat.le_succ k)
    have hlast : Partition.start n (k + 1) ≤ registerCount := by
      rw [← Partition.start_self hn]
      exact Partition.start_mono n hk
    have hsplit := RegisterRange.statesIn_append (Nat.zero_le _) hnext states
    rw [← hsplit, kind.process_append p window (Nat.zero_le _)
      (RegisterRange.size_statesIn (hnext.trans hlast) hsize) hnext hlast
      (RegisterRange.size_statesIn hlast hsize), ih (Nat.le_of_succ_le hk), List.range_succ,
      List.mapM_append, List.mapM_cons, List.mapM_nil]
    cases (List.range k).mapM fun i =>
        kind.process p ⟨Partition.start n i, Partition.start n (i + 1)⟩ window
          (RegisterRange.statesIn ⟨Partition.start n i, Partition.start n (i + 1)⟩ states) #[] with
    | error cause => rfl
    | ok parts =>
      cases kind.process p ⟨Partition.start n k, Partition.start n (k + 1)⟩ window
          (RegisterRange.statesIn ⟨Partition.start n k, Partition.start n (k + 1)⟩ states) #[] with
      | error cause => rfl
      | ok last => exact congrArg Except.ok (Detections.join_concat parts last).symm

/-- The workers' shares of a frame come to what one call over the frame does. -/
theorem process_ranges (workers : Nat) {states : Array ChannelState}
    (hsize : states.size = channelCount) :
    kind.process p .all window states #[] =
      ((Partition.ranges workers).mapM fun share =>
        kind.process p share window (share.statesIn states) #[]).map Detections.join := by
  have hpos := Partition.parts_pos workers
  have hshares := kind.process_shares p window hpos hsize le_rfl
  have hall : RegisterRange.statesIn .all states = states := by
    rw [RegisterRange.statesIn, RegisterRange.all]
    exact Array.extract_eq_self_of_le hsize.le
  rw [Partition.start_self hpos] at hshares
  rw [Partition.ranges, List.mapM_map]
  refine Eq.trans ?_ hshares
  rw [← RegisterRange.all, hall]

theorem process_alone {registers registers' : RegisterRange} {states states' : Array ChannelState}
    (hshape : checkShape registers states p = .ok ())
    (hshape' : checkShape registers' states' p = .ok ()) {i i' : Nat} {s : ChannelState}
    (hs : states[i]? = some s) (hs' : states'[i']? = some s)
    (hchannel : registers.firstChannel + i = registers'.firstChannel + i') {window' : Window}
    (hsamples : window.block.channelSamples (registers.firstChannel + i) =
      window'.block.channelSamples (registers.firstChannel + i)) :
    ∃ found found', kind.process p registers window states #[] = .ok found ∧
      kind.process p registers' window' states' #[] = .ok found' ∧
      found.states[i]? = found'.states[i']? ∧
      hitsOn (registers.firstChannel + i) found.hits =
        hitsOn (registers.firstChannel + i) found'.hits := by
  obtain ⟨hi, -⟩ := Array.getElem?_eq_some_iff.mp hs
  obtain ⟨hi', -⟩ := Array.getElem?_eq_some_iff.mp hs'
  have hsame : states.getD i default = states'.getD i' default := by
    rw [Array.getD_eq_getD_getElem?, Array.getD_eq_getD_getElem?, hs, hs']
  refine ⟨_, _, kind.process_eq_ok hshape window #[], kind.process_eq_ok hshape' window' #[],
    ?_, ?_⟩
  · simp [found, hi, hi', stateAfter, hsame, hsamples, ← hchannel]
  · rw [hitsOn_found _ _ _ _ _ hi, hchannel, hitsOn_found _ _ _ _ _ hi', hitsOf, hitsOf, hsame,
      ← hchannel, hsamples]

end KernelKind

namespace Lockstep

variable (d : Detector) (window : Window) (registers : RegisterRange)
  (states : Array ChannelState)

/-- Moves the hits of every lane in turn behind those of a call, and leaves its buffer empty. -/
def drain (buffers : Lanes (Array Hit)) (hits : Array Hit) : Lanes (Array Hit) × Array Hit :=
  (List.range lanesPerRegister).foldl
    (fun (buffers, hits) l => (buffers.setIfInBounds l #[], hits ++ buffers[l]?.getD #[]))
    (buffers, hits)

/-- `Lockstep.next` with buffers for the hits that are kept from register to register. -/
def nextReusing (done : Detections × Lanes (Array Hit)) (i : Nat) :
    Detections × Lanes (Array Hit) :=
  let register := registers.first + i
  let loaded : Lanes ChannelState := .ofFn fun l => states.getD (i * lanesPerRegister + l) default
  let w : RegisterWalk := (registerSamples window register).foldl
    (RegisterWalk.step d (register * lanesPerRegister)) ⟨.load d.taps.size loaded, 0, done.2⟩
  let stored : Lanes ChannelState := .ofFn fun l => w.state.store window.ticks l (loaded.get l)
  let (buffers, hits) := drain w.hits done.1.hits
  (⟨done.1.states ++ stored.toArray, hits⟩, buffers)

/-- `Lockstep.process` with one set of buffers for all registers of the call. -/
def processReusing (p : DetectorParams) (hits : Array Hit) : Except KernelError Detections :=
  (checkShape registers states p).map fun () =>
    ((List.range registers.count).foldl (nextReusing p.detector window registers states)
      (⟨#[], hits⟩, .splat #[])).1

theorem drain_front (buffers : Lanes (Array Hit)) (hits : Array Hit) {k : Nat}
    (hk : k ≤ lanesPerRegister) :
    (List.range k).foldl
        (fun (buffers, hits) l => (buffers.setIfInBounds l #[], hits ++ buffers[l]?.getD #[]))
        (buffers, hits) =
      ((.ofFn fun l => if l.val < k then #[] else buffers[l] : Lanes (Array Hit)),
        (buffers.toList.take k).foldl (· ++ ·) hits) := by
  induction k with
  | zero =>
    refine Prod.ext (Vector.ext fun l hl => ?_) rfl
    simp
  | succ k ih =>
    have hlane : k < lanesPerRegister := hk
    have htake : buffers.toList.take (k + 1) = buffers.toList.take k ++ [buffers[k]] := by
      rw [List.take_add_one, List.getElem?_eq_getElem (by simpa using hlane), Vector.getElem_toList]
      rfl
    rw [List.range_succ, List.foldl_append, ih hlane.le, htake, List.foldl_append]
    refine Prod.ext (Vector.ext fun l hl => ?_) ?_
    · simp only [List.foldl_cons, List.foldl_nil, Vector.getElem_setIfInBounds, Vector.getElem_ofFn]
      grind
    · simp [Vector.getElem?_eq_getElem hlane]

theorem drain_eq (buffers : Lanes (Array Hit)) (hits : Array Hit) :
    drain buffers hits = (.splat #[], buffers.foldl (· ++ ·) hits) := by
  rw [drain, drain_front buffers hits le_rfl]
  refine Prod.ext (Vector.ext fun l hl => ?_) ?_
  · simp [Lanes.splat]
  · rw [List.take_of_length_le (by simp), Vector.foldl_toList]

/-- Every register finds the buffers empty. -/
theorem nextReusing_eq (done : Detections) (i : Nat) :
    nextReusing d window registers states (done, .splat #[]) i =
      (next d window registers states done i, .splat #[]) := by
  rw [nextReusing]
  simp only [drain_eq]
  rfl

/-- Buffers that are kept from register to register change nothing. -/
theorem processReusing_eq (p : DetectorParams) (hits : Array Hit) :
    processReusing window registers states p hits = process p registers window states hits := by
  have hfold (is : List Nat) (done : Detections) :
      is.foldl (nextReusing p.detector window registers states) (done, .splat #[]) =
        (is.foldl (next p.detector window registers states) done, .splat #[]) := by
    induction is generalizing done with
    | nil => rfl
    | cons i is ih => rw [List.foldl_cons, nextReusing_eq, ih, List.foldl_cons]
  rw [processReusing, process, hfold]

end Lockstep

namespace KernelKind

/-- Channels do not meet in a kernel.  A range may be cut between any two of its registers; a
channel comes to the same whatever the others contain, and also in another range; the workers'
shares of a frame come to what one call over the frame does; and the buffers that the lockstep
kernel keeps from register to register carry nothing over. -/
theorem process_separates (kind : KernelKind) (p : DetectorParams) (window : Window) :
    (∀ a b c, a ≤ b → b ≤ c → c ≤ registerCount → ∀ xs ys : Array ChannelState,
      xs.size = RegisterRange.channels ⟨a, b⟩ → ys.size = RegisterRange.channels ⟨b, c⟩ → ∀ hits,
        kind.process p ⟨a, c⟩ window (xs ++ ys) hits = do
          let front ← kind.process p ⟨a, b⟩ window xs hits
          let back ← kind.process p ⟨b, c⟩ window ys #[]
          return ⟨front.states ++ back.states, front.hits ++ back.hits⟩) ∧
      (∀ registers registers' states states' window', checkShape registers states p = .ok () →
        checkShape registers' states' p = .ok () → ∀ (i i' : Nat) (s : ChannelState),
          states[i]? = some s → states'[i']? = some s →
          registers.firstChannel + i = registers'.firstChannel + i' →
          window.block.channelSamples (registers.firstChannel + i) =
            window'.block.channelSamples (registers.firstChannel + i) →
          ∃ found found', kind.process p registers window states #[] = .ok found ∧
            kind.process p registers' window' states' #[] = .ok found' ∧
            found.states[i]? = found'.states[i']? ∧
            hitsOn (registers.firstChannel + i) found.hits =
              hitsOn (registers.firstChannel + i) found'.hits) ∧
      (∀ workers states, states.size = channelCount →
        kind.process p .all window states #[] =
          ((Partition.ranges workers).mapM fun share =>
            kind.process p share window (share.statesIn states) #[]).map Detections.join) ∧
      ∀ registers states hits, Lockstep.processReusing window registers states p hits =
        Lockstep.process p registers window states hits := by
  refine ⟨fun a b c hab hbc hc xs ys hxs hys hits => ?_, ?_, ?_, ?_⟩
  · exact kind.process_append p window hab hxs hbc hc hys hits
  · intro registers registers' states states' window' hshape hshape' i i' s hs hs' hchannel hsamples
    exact kind.process_alone p window hshape hshape' hs hs' hchannel hsamples
  · exact fun workers states hsize => kind.process_ranges p window workers hsize
  · exact fun registers states hits => Lockstep.processReusing_eq window registers states p hits

/-- Registers 2 to 4 cut behind the first; channel 83 beside silent neighbours and, at another place
of a longer range, beside saturated ones with hits left open; and a frame shared by three. -/
theorem process_separates_neighbours :
    let p : DetectorParams := ⟨⟨#[1, -2, 64], 6⟩, 5, 1⟩
    let quiet := Window.repeated [100, 160, 90]
    let loud : Window := ⟨0, 0, .zero, quiet.ticks, .ofFn quiet.ticks fun channel tick =>
      if channel = 83 then quiet.block.sample 83 tick else 4095⟩
    let busy : Array ChannelState := .ofFn fun i : Fin 32 =>
      if i = 19 then .fresh 3 else ⟨.start 0, ⟨#[7, i, -3], i % 3⟩, ⟨true, 40, 2⟩⟩
    checkShape ⟨5, 6⟩ (p.freshStates 1) p = .ok () ∧ checkShape ⟨4, 6⟩ busy p = .ok () ∧
      quiet.block.channelSamples 83 = loud.block.channelSamples 83 ∧
      (∀ hits,
        KernelKind.lockstep.process p ⟨2, 5⟩ quiet (p.freshStates 1 ++ p.freshStates 2) hits = do
          let front ← KernelKind.lockstep.process p ⟨2, 3⟩ quiet (p.freshStates 1) hits
          let back ← KernelKind.lockstep.process p ⟨3, 5⟩ quiet (p.freshStates 2) #[]
          return ⟨front.states ++ back.states, front.hits ++ back.hits⟩) ∧
      (∃ found found',
        KernelKind.lockstep.process p ⟨5, 6⟩ quiet (p.freshStates 1) #[] = .ok found ∧
        KernelKind.lockstep.process p ⟨4, 6⟩ loud busy #[] = .ok found' ∧
        found.states[3]? = found'.states[19]? ∧ hitsOn 83 found.hits = hitsOn 83 found'.hits) ∧
      KernelKind.lockstep.process p .all quiet (p.freshStates 16) #[] =
        ((Partition.ranges 3).mapM fun share => KernelKind.lockstep.process p share quiet
          (share.statesIn (p.freshStates 16)) #[]).map Detections.join := by
  intro p quiet loud busy
  have hfresh : checkShape ⟨5, 6⟩ (p.freshStates 1) p = .ok () := by decide
  have hbusy : checkShape ⟨4, 6⟩ busy p = .ok () := by decide
  have hsamples : quiet.block.channelSamples 83 = loud.block.channelSamples 83 := by
    apply List.map_congr_left
    intro tick htick
    have hchannel : 83 < channelCount := by decide
    exact (SampleBlock.sample_ofFn (fun channel tick => if channel = 83 then
      quiet.block.sample 83 tick else 4095) hchannel (List.mem_range.mp htick)).symm
  have hthere : (p.freshStates 1)[3]? = some (.fresh 3) := by decide
  have hbeside : busy[19]? = some (.fresh 3) := by decide
  obtain ⟨hcut, halone, hshares, -⟩ := KernelKind.lockstep.process_separates p quiet
  refine ⟨hfresh, hbusy, hsamples, ?_, ?_, ?_⟩
  · exact hcut 2 3 5 (by decide) (by decide) (by decide) (p.freshStates 1) (p.freshStates 2)
      Array.size_replicate Array.size_replicate
  · exact halone ⟨5, 6⟩ ⟨4, 6⟩ _ _ loud hfresh hbusy 3 19 _ hthere hbeside rfl hsamples
  · exact hshares 3 (p.freshStates 16) Array.size_replicate

end KernelKind

end TpcTrigger
