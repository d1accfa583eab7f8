import TpcTrigger.Frame.Codec
import TpcTrigger.Proofs.Frame.BitFields

/-! # The bytes of a header

A header that is written and read again has its fields cut to their widths, and a buffer whose
header is read and written again keeps the bits of every field and loses the rest.
-/

namespace TpcTrigger

namespace Header

def cut (h : Header) : Header :=
  { h with
    version := h.version &&& 0x1F
    link :=
      { crate := h.link.crate &&& 0x1F
        slot := h.link.slot &&& 0x7
        fiber := h.link.fiber &&& 0x7 } }

/-- Whether every field has room in a written header. -/
structure Fits (h : Header) : Prop where
  version : h.version.toNat < 32
  crate : h.link.crate.toNat < 32
  slot : h.link.slot.toNat < 8
  fiber : h.link.fiber.toNat < 8

theorem byte_lt (h : Header) (i : Nat) : h.byte i < 256 := by
  match i with
  | 0 => exact h.marker.toNat_lt
  | 1 | 2 => simp only [byte]; omega
  | 3 | 5 => exact Nat.zero_lt_succ _
  | 4 =>
    have := h.mismatch.toNat_lt
    have := h.outOfSync.toNat_lt
    simp only [byte]
    omega
  | 6 | 7 => exact byteOf_lt _ _
  | i + 8 =>
    simp only [byte]
    split
    · exact byteOf_lt _ _
    · decide

theorem toNat_and_five (x : UInt8) : (x &&& 0x1F).toNat = x.toNat % 32 :=
  (UInt8.toNat_and x 0x1F).trans (Nat.and_two_pow_sub_one_eq_mod _ 5)

theorem toNat_and_three (x : UInt8) : (x &&& 0x7).toNat = x.toNat % 8 :=
  (UInt8.toNat_and x 0x7).trans (Nat.and_two_pow_sub_one_eq_mod _ 3)

/-- The eight bytes of a number below `2 ^ 64` make it up again. -/
theorem timestampAt_of_byteOf {bytes : ByteArray} {start n : Nat} (hn : n < UInt64.size)
    (hbytes : ∀ i < 8, byteAt bytes (start + i) = byteOf n i) : timestampAt bytes start = n := by
  have hsum : timestampAt bytes start =
      (List.range 8).foldr (fun k rest => byteOf n k + 256 * rest) 0 := by
    rw [timestampAt]
    apply List.foldr_ext
    intro k hk rest
    rw [hbytes k (List.mem_range.mp hk)]
  rw [hsum]
  simp only [List.range, List.range.loop, List.foldr_cons, List.foldr_nil, byteOf, Nat.pow_eq,
    Nat.reducePow, UInt64.size] at hn ⊢
  omega

theorem byteOf_timestampAt {bytes : ByteArray} {start i : Nat} (hi : i < 8) :
    byteOf (timestampAt bytes start % UInt64.size) i = byteAt bytes (start + i) := by
  have hlt (k : Nat) : byteAt bytes (start + k) < 256 := byteAt_lt _ _
  have h0 := hlt 0
  have h1 := hlt 1
  have h2 := hlt 2
  have h3 := hlt 3
  have h4 := hlt 4
  have h5 := hlt 5
  have h6 := hlt 6
  have h7 := hlt 7
  simp only [timestampAt, List.range, List.range.loop, List.foldr_cons, List.foldr_nil, byteOf,
    Nat.pow_eq, UInt64.size]
  interval_cases i <;> simp only [Nat.reducePow] <;> omega

theorem ofBytes_of_byte {h : Header} {bytes : ByteArray}
    (hbytes : ∀ i < headerBytes, byteAt bytes i = h.byte i) : ofBytes bytes = h.cut := by
  have hb (i : Nat) (hi : i < headerBytes := by decide) : byteAt bytes i = h.byte i := hbytes i hi
  have hmismatch := h.mismatch.toNat_lt
  have houtOfSync := h.outOfSync.toNat_lt
  simp only [ofBytes, cut, Header.mk.injEq, Link.mk.injEq]
  refine ⟨?_, ?_, ⟨?_, ?_, ?_⟩, ?_, ?_, ?_, ?_⟩
  · rw [hb 0, byte, UInt8.ofNat_toNat]
  · rw [hb 1, byte, ← UInt8.toNat_inj, UInt8.toNat_ofNat', toNat_and_five]
    omega
  · rw [hb 2, byte, ← UInt8.toNat_inj, UInt8.toNat_ofNat', toNat_and_five]
    omega
  · rw [hb 2, byte, ← UInt8.toNat_inj, UInt8.toNat_ofNat', toNat_and_three]
    omega
  · rw [hb 1, byte, ← UInt8.toNat_inj, UInt8.toNat_ofNat', toNat_and_three]
    omega
  · rw [hb 4, byte]
    cases h.mismatch <;> cases h.outOfSync <;> rfl
  · rw [hb 4, byte]
    cases h.mismatch <;> cases h.outOfSync <;> rfl
  · have herrors := h.errors.toNat_lt
    rw [hb 6, hb 7, byte, byte, ← UInt16.toNat_inj, UInt16.toNat_ofNat']
    simp only [byteOf, Nat.pow_eq, Nat.reducePow]
    omega
  · rw [timestampAt_of_byteOf h.timestamp.toNat_lt, UInt64.ofNat_toNat]
    intro i hi
    have hplace : 8 + i = i + 8 := by omega
    rw [hb (8 + i) (by simp only [headerBytes]; omega), hplace, byte, if_pos hi]

theorem byte_ofBytes (bytes : ByteArray) {i : Nat} (hi : i < headerBytes) :
    (ofBytes bytes).byte i =
      if i = 3 ∨ i = 5 then 0 else if i = 4 then byteAt bytes 4 % 4 else byteAt bytes i := by
  have hlt := byteAt_lt bytes
  have h0 := hlt 0
  have h1 := hlt 1
  have h2 := hlt 2
  have h6 := hlt 6
  have h7 := hlt 7
  match i with
  | 0 | 1 | 2 =>
    simp only [byte, ofBytes, UInt8.toNat_ofNat']
    simp
    omega
  | 3 => rfl
  | 4 =>
    have hlow := Nat.mod_two_eq_zero_or_one (byteAt bytes 4)
    have hhigh := Nat.mod_two_eq_zero_or_one (byteAt bytes 4 / 2)
    simp only [byte, ofBytes]
    rcases hlow with hlow | hlow <;> rcases hhigh with hhigh | hhigh <;>
      simp [hlow, hhigh] <;> omega
  | 5 => rfl
  | 6 | 7 =>
    simp only [byte, ofBytes, UInt16.toNat_ofNat', byteOf]
    simp
    omega
  | i + 8 =>
    have hi8 : i < 8 := by simp only [headerBytes] at hi; omega
    have hplace : i + 8 = 8 + i := by omega
    simp only [byte, ofBytes, if_pos hi8, UInt64.toNat_ofNat']
    rw [if_neg (by omega), if_neg (by omega), hplace]
    exact byteOf_timestampAt hi8

theorem cut_of_fits {h : Header} (hfits : h.Fits) : h.cut = h := by
  have hfive {x : UInt8} (hx : x.toNat < 32) : x &&& 0x1F = x := by
    rw [← UInt8.toNat_inj, toNat_and_five, Nat.mod_eq_of_lt hx]
  have hthree {x : UInt8} (hx : x.toNat < 8) : x &&& 0x7 = x := by
    rw [← UInt8.toNat_inj, toNat_and_three, Nat.mod_eq_of_lt hx]
  rw [cut, hfive hfits.version, hfive hfits.crate, hthree hfits.slot, hthree hfits.fiber]

end Header

end TpcTrigger
