import TpcTrigger.Samples.Window
import Mathlib.Tactic

/-! # The windows of a stream of superchunks

Superchunks that are pushed one after the other complete a window at every multiple of the
number that a window holds.  The window with a given number is made of the superchunks at its
own place in the stream, so a longer stream has the same windows and possibly more.
-/

namespace TpcTrigger

/-- What a buffer of the right size decodes to. -/
def Superchunk.ofBytes (bytes : ByteArray) : Superchunk := ⟨.ofBytes bytes, blockOfBytes bytes⟩

theorem Superchunk.decode_eq {bytes : ByteArray} (h : checkSize bytes = .ok ()) :
    decode bytes = .ok (ofBytes bytes) := by
  rw [decode, h]
  rfl

theorem Superchunk.checkSize_eq_ok_iff {bytes : ByteArray} :
    checkSize bytes = .ok () ↔ bytes.size = superchunkBytes := by
  rw [checkSize]
  split <;> simp_all

namespace Assembly

def after (a : Assembly) (chunks : List Superchunk) : Assembly :=
  chunks.foldl (fun a chunk => (a.push chunk).1) a

def completed (a : Assembly) : List Superchunk → List Window
  | [] => []
  | chunk :: chunks => (a.push chunk).2.toList ++ (a.push chunk).1.completed chunks

theorem after_append (a : Assembly) (xs ys : List Superchunk) :
    a.after (xs ++ ys) = (a.after xs).after ys :=
  List.foldl_append

theorem completed_append (a : Assembly) (xs ys : List Superchunk) :
    a.completed (xs ++ ys) = a.completed xs ++ (a.after xs).completed ys := by
  induction xs generalizing a with
  | nil => rfl
  | cons x xs ih =>
    rw [List.cons_append, completed, ih, completed, List.append_assoc]
    rfl

def nthWindow (n : Nat) (chunks : List Superchunk) (k : Nat) : Window :=
  finish (UInt64.ofNat k) ((chunks.drop (k * n)).take n).toArray

theorem nthWindow_append {n k : Nat} {chunks : List Superchunk} (hk : k < chunks.length / n)
    (more : List Superchunk) : nthWindow n (chunks ++ more) k = nthWindow n chunks k := by
  have hend : k * n + n ≤ chunks.length := by
    have hmul := Nat.mul_le_mul_right n (Nat.succ_le_of_lt hk)
    have hdiv := Nat.div_mul_le_self chunks.length n
    rw [Nat.succ_mul] at hmul
    omega
  rw [nthWindow, nthWindow, List.drop_append_of_le_length (by omega),
    List.take_append_of_le_length (by rw [List.length_drop]; omega)]

/-- An assembly that has seen nothing. -/
def start (n : Nat) : Assembly := { perWindow := n }

/-- Where the assembly stands after a stream, and the windows that the stream completes. -/
theorem after_start {n : Nat} (hn : 0 < n) (chunks : List Superchunk) :
    (start n).after chunks =
        ⟨n, UInt64.ofNat (chunks.length / n), (chunks.drop (chunks.length / n * n)).toArray⟩ ∧
      (start n).completed chunks =
        (List.range (chunks.length / n)).map (nthWindow n chunks) := by
  induction chunks using List.reverseRecOn with
  | nil => simp [after, completed, start]
  | append_singleton chunks chunk ih =>
    obtain ⟨hafter, hcompleted⟩ := ih
    have hmod : chunks.length % n < n := Nat.mod_lt _ hn
    have hsplit : chunks.length / n * n + chunks.length % n = chunks.length :=
      Nat.div_add_mod' _ _
    have hearlier : (List.range (chunks.length / n)).map (nthWindow n (chunks ++ [chunk])) =
        (List.range (chunks.length / n)).map (nthWindow n chunks) :=
      List.map_congr_left fun k hk => nthWindow_append (List.mem_range.mp hk) [chunk]
    rw [after_append, completed_append, hafter, hcompleted, List.length_append,
      List.length_singleton]
    simp only [after, completed, List.foldl_cons, List.foldl_nil, push, Array.size_push,
      List.size_toArray, List.length_drop]
    by_cases hlast : chunks.length % n + 1 < n
    · have hsame : (chunks.length + 1) / n = chunks.length / n := by
        apply Nat.div_eq_of_lt_le
        · omega
        · rw [Nat.succ_mul]
          omega
      rw [if_pos (by omega), hsame, List.drop_append_of_le_length (by omega)]
      refine ⟨by simp, ?_⟩
      rw [hearlier, Option.toList_none, List.append_nil, List.append_nil]
    · have hnext : (chunks.length + 1) / n = chunks.length / n + 1 := by
        apply Nat.div_eq_of_lt_le
        · rw [Nat.succ_mul]
          omega
        · rw [Nat.succ_mul, Nat.succ_mul]
          omega
      have hwindow : finish (UInt64.ofNat (chunks.length / n))
          ((chunks.drop (chunks.length / n * n)).toArray.push chunk) =
            nthWindow n (chunks ++ [chunk]) (chunks.length / n) := by
        rw [nthWindow, List.drop_append_of_le_length (by omega), List.take_of_length_le]
        · simp
        · simp only [List.length_append, List.length_drop, List.length_singleton]
          omega
      rw [if_neg (by omega), hnext, hwindow, List.range_succ, List.map_append, hearlier]
      constructor
      · rw [List.drop_eq_nil_of_le]
        · simp
        · rw [List.length_append, List.length_singleton, Nat.add_mul]
          omega
      · rw [Option.toList_some, List.append_nil, List.map_singleton]

theorem length_completed {n : Nat} (hn : 0 < n) (chunks : List Superchunk) :
    ((start n).completed chunks).length = chunks.length / n := by
  rw [(after_start hn chunks).2, List.length_map, List.length_range]

theorem completed_take {n k : Nat} (hn : 0 < n) {chunks : List Superchunk}
    (hk : k ≤ chunks.length / n) :
    (start n).completed (chunks.take (k * n)) = ((start n).completed chunks).take k := by
  have hlength : k * n ≤ chunks.length :=
    (Nat.mul_le_mul_right n hk).trans (Nat.div_mul_le_self _ _)
  have htake : ((start n).completed (chunks.take (k * n))).length = k := by
    rw [length_completed hn, List.length_take, Nat.min_eq_left hlength, Nat.mul_div_cancel _ hn]
  have happend := completed_append (start n) (chunks.take (k * n)) (chunks.drop (k * n))
  rw [List.take_append_drop] at happend
  rw [happend, List.take_append_of_le_length htake.ge, List.take_of_length_le htake.le]

theorem ticks_pos_of_mem_completed {n : Nat} (hn : 0 < n) {chunks : List Superchunk}
    {window : Window} (h : window ∈ (start n).completed chunks) : 0 < window.ticks := by
  rw [(after_start hn chunks).2] at h
  obtain ⟨k, hk, rfl⟩ := List.mem_map.mp h
  have hroom : k * n < chunks.length := by
    have := Nat.mul_le_mul_right n (Nat.succ_le_of_lt (List.mem_range.mp hk))
    have := Nat.div_mul_le_self chunks.length n
    rw [Nat.succ_mul] at *
    omega
  apply Nat.mul_pos
  · simp only [List.size_toArray, List.length_take, List.length_drop]
    omega
  · decide

end Assembly

end TpcTrigger
