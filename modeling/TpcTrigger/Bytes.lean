/-! # Bytes as numbers

Byte `i` of a number is its `i`-th digit to base 256, least significant first, and a buffer
is read one byte at a time as a natural number.  Every codec of the wire format is a formula
over these two readings, so its laws are facts of arithmetic.
-/

namespace TpcTrigger

/-- Byte `i` of a number, counted from the least significant one. -/
def byteOf (n i : Nat) : Nat := n / Nat.pow 256 i % 256

theorem byteOf_lt (n i : Nat) : byteOf n i < 256 := Nat.mod_lt _ (by decide)

/-- The byte at index `i` as a number; past the end of the buffer it reads zero. -/
def byteAt (bytes : ByteArray) (i : Nat) : Nat :=
  if h : i < bytes.size then bytes[i].toNat else 0

theorem byteAt_lt (bytes : ByteArray) (i : Nat) : byteAt bytes i < 256 := by
  unfold byteAt
  split
  · exact bytes[i].toNat_lt
  · decide

/-- The buffer of `n` bytes whose byte at index `i` is the low byte of `f i`. -/
def bytesOfFn (n : Nat) (f : Nat → Nat) : ByteArray :=
  ⟨Array.ofFn fun i : Fin n => UInt8.ofNat (f i)⟩

@[simp] theorem bytesOfFn_size (n : Nat) (f : Nat → Nat) : (bytesOfFn n f).size = n := by
  simp [bytesOfFn, ByteArray.size]

theorem byteAt_bytesOfFn {n i : Nat} (f : Nat → Nat) (h : i < n) :
    byteAt (bytesOfFn n f) i = f i % 256 := by
  have hs : i < (bytesOfFn n f).size := by simpa using h
  rw [byteAt, dif_pos hs]
  simp [bytesOfFn, ByteArray.getElem_eq_getElem_data]

end TpcTrigger
