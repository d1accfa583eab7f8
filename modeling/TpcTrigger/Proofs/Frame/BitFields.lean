import TpcTrigger.Bytes
import Mathlib.Tactic

/-! # Bit fields of a buffer

A buffer is one stream of bits, the low bit of every byte first, and a field is the number in
consecutive bits of it.  Fields that follow each other make up a wider one, and a field within
one byte is cut out by division and remainder; every field of the wire format is pieced
together from these two.
-/

namespace TpcTrigger

/-- Bit `i` of a buffer, the low bit of every byte first; past the end it reads zero. -/
def bitAt (bytes : ByteArray) (i : Nat) : Bool := (byteAt bytes (i / 8)).testBit (i % 8)

/-- The number in the `width` bits from bit `start` on, low bit first. -/
def bitField (bytes : ByteArray) (start width : Nat) : Nat :=
  Nat.ofBits fun i : Fin width => bitAt bytes (start + i)

theorem testBit_bitField (bytes : ByteArray) (start width i : Nat) :
    (bitField bytes start width).testBit i = (decide (i < width) && bitAt bytes (start + i)) := by
  rw [bitField, Nat.testBit_ofBits]
  by_cases h : i < width <;> simp [h]

theorem bitField_lt (bytes : ByteArray) (start width : Nat) :
    bitField bytes start width < 2 ^ width :=
  Nat.ofBits_lt_two_pow _

theorem bitField_add (bytes : ByteArray) (start low high : Nat) :
    bitField bytes start (low + high) =
      bitField bytes start low + 2 ^ low * bitField bytes (start + low) high := by
  apply Nat.eq_of_testBit_eq
  intro i
  rw [Nat.add_comm (bitField bytes start low), Nat.testBit_two_pow_mul_add _ (bitField_lt ..),
    testBit_bitField]
  by_cases h : i < low
  · rw [if_pos h, testBit_bitField]
    simp [h, Nat.lt_add_right]
  · have hplace : start + low + (i - low) = start + i := by omega
    have hlast : i - low < high ↔ i < low + high := by omega
    rw [if_neg h, testBit_bitField, hplace, decide_eq_decide.mpr hlast]

theorem bitField_within (bytes : ByteArray) (i : Nat) {offset width : Nat}
    (h : offset + width ≤ 8) :
    bitField bytes (8 * i + offset) width = byteAt bytes i / 2 ^ offset % 2 ^ width := by
  apply Nat.eq_of_testBit_eq
  intro bit
  rw [testBit_bitField, Nat.testBit_mod_two_pow, Nat.testBit_div_two_pow]
  by_cases hbit : bit < width
  · have hbyte : (8 * i + offset + bit) / 8 = i := by omega
    have hplace : (8 * i + offset + bit) % 8 = bit + offset := by omega
    rw [bitAt, hbyte, hplace]
  · simp [hbit]

/-- A field that takes up the rest of one byte and goes on in the next. -/
theorem bitField_across (bytes : ByteArray) (i : Nat) {offset low high : Nat}
    (hlow : offset + low = 8) (hhigh : high ≤ 8) :
    bitField bytes (8 * i + offset) (low + high) =
      byteAt bytes i / 2 ^ offset + 2 ^ low * (byteAt bytes (i + 1) % 2 ^ high) := by
  have hnext : 8 * i + offset + low = 8 * (i + 1) + 0 := by omega
  have hrest : byteAt bytes i / 2 ^ offset < 2 ^ low := by
    rw [Nat.div_lt_iff_lt_mul (Nat.two_pow_pos offset), ← Nat.pow_add, Nat.add_comm low, hlow]
    exact byteAt_lt bytes i
  rw [bitField_add, bitField_within bytes i hlow.le, hnext,
    bitField_within bytes (i + 1) (by omega), Nat.mod_eq_of_lt hrest, Nat.pow_zero, Nat.div_one]

theorem byteAt_extract (bytes : ByteArray) {first last i : Nat} (h : first + i < last) :
    byteAt (bytes.extract first last) i = byteAt bytes (first + i) := by
  have hsize : i < (bytes.extract first last).size ↔ first + i < bytes.size := by
    rw [ByteArray.size_extract]
    omega
  by_cases hi : first + i < bytes.size
  · rw [byteAt, byteAt, dif_pos (hsize.mpr hi), dif_pos hi, ByteArray.getElem_extract]
  · rw [byteAt, byteAt, dif_neg (hsize.not.mpr hi), dif_neg hi]

theorem bitField_extract (bytes : ByteArray) {first last start width : Nat}
    (h : 8 * first + start + width ≤ 8 * last) :
    bitField (bytes.extract first last) start width = bitField bytes (8 * first + start) width := by
  apply Nat.eq_of_testBit_eq
  intro i
  rw [testBit_bitField, testBit_bitField]
  by_cases hi : i < width
  · have hbyte : (8 * first + start + i) / 8 = first + (start + i) / 8 := by omega
    have hbit : (8 * first + start + i) % 8 = (start + i) % 8 := by omega
    rw [bitAt, bitAt, byteAt_extract bytes (by omega), hbyte, hbit]
  · simp [hi]

theorem ext_byteAt {a b : ByteArray} (hsize : a.size = b.size)
    (h : ∀ i < a.size, byteAt a i = byteAt b i) : a = b := by
  apply ByteArray.ext
  apply Array.ext hsize
  intro i hi hi'
  have hbyte := h i hi
  have ha : i < a.size := hi
  have hb : i < b.size := hi'
  rw [byteAt, byteAt, dif_pos ha, dif_pos hb, UInt8.toNat_inj] at hbyte
  exact hbyte

end TpcTrigger
