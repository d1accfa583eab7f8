import TpcTrigger.Detection.Lanes

/-! # What masked operations do in one lane

A mask selects the lanes that it is all ones in.  Counting by a mask and choosing by a mask
are then ordinary case distinctions, lane by lane, so code with masks can be read as sixteen
copies of code with branches.
-/

namespace TpcTrigger

namespace Lanes

@[simp] theorem get_splat {α : Type} (a : α) (l : Fin lanesPerRegister) : (splat a).get l = a :=
  Vector.getElem_replicate l.isLt

@[simp] theorem get_ofFn {α : Type} (f : Fin lanesPerRegister → α) (l : Fin lanesPerRegister) :
    (Vector.ofFn f).get l = f l :=
  Vector.getElem_ofFn l.isLt

@[simp] theorem get_map {α β : Type} (a : Lanes α) (f : α → β) (l : Fin lanesPerRegister) :
    (a.map f).get l = f (a.get l) :=
  Vector.getElem_map f l.isLt

@[simp] theorem get_zipWith {α β γ : Type} (f : α → β → γ) (a : Lanes α) (b : Lanes β)
    (l : Fin lanesPerRegister) : (a.zipWith f b).get l = f (a.get l) (b.get l) :=
  Vector.getElem_zipWith l.isLt

end Lanes

namespace Mask

theorem get_words (m : Mask) (l : Fin lanesPerRegister) :
    m.words.get l = if m.test l then -1 else 0 := by
  have h : m.words.get l = 0 ∨ m.words.get l = -1 := m.uniform l l.isLt
  rcases h with h | h <;> simp [test, h]

@[simp] theorem test_ofBools (bits : Lanes Bool) (l : Fin lanesPerRegister) :
    (ofBools bits).test l = bits.get l := by
  cases h : bits.get l <;> simp [test, ofBools, h]

@[simp] theorem test_full (l : Fin lanesPerRegister) : full.test l = true := by
  have h : full.words.get l = -1 := Vector.getElem_replicate l.isLt
  simp [test, h]

@[simp] theorem test_both (m n : Mask) (l : Fin lanesPerRegister) :
    (m.both n).test l = (m.test l && n.test l) := by
  have h : (m.both n).words.get l = bitAnd (m.words.get l) (n.words.get l) :=
    Lanes.get_zipWith ..
  rw [test, h, get_words, get_words]
  cases m.test l <;> cases n.test l <;> decide

@[simp] theorem test_either (m n : Mask) (l : Fin lanesPerRegister) :
    (m.either n).test l = (m.test l || n.test l) := by
  have h : (m.either n).words.get l = bitOr (m.words.get l) (n.words.get l) :=
    Lanes.get_zipWith ..
  rw [test, h, get_words, get_words]
  cases m.test l <;> cases n.test l <;> decide

@[simp] theorem test_invert (m : Mask) (l : Fin lanesPerRegister) :
    m.invert.test l = !m.test l := by
  have h : m.invert.words.get l = ~~~m.words.get l := Lanes.get_map ..
  rw [test, h, get_words]
  cases m.test l <;> decide

end Mask

namespace Lanes

@[simp] theorem test_less (a b : Lanes Int) (l : Fin lanesPerRegister) :
    (a.less b).test l = decide (a.get l < b.get l) := by
  simp [less]

@[simp] theorem test_atLeast (a b : Lanes Int) (l : Fin lanesPerRegister) :
    (a.atLeast b).test l = decide (b.get l ≤ a.get l) := by
  simp [atLeast]

@[simp] theorem get_replace (a b : Lanes Int) (m : Mask) (l : Fin lanesPerRegister) :
    (a.replace m b).get l = if m.test l then b.get l else a.get l := by
  simp only [replace, get_zipWith, Mask.get_words, Mask.test_invert]
  cases m.test l <;> simp

@[simp] theorem get_increment (a : Lanes Int) (m : Mask) (l : Fin lanesPerRegister) :
    (a.increment m).get l = a.get l + if m.test l then 1 else 0 := by
  simp only [increment, get_zipWith, Mask.get_words]
  split <;> omega

@[simp] theorem get_decrement (a : Lanes Int) (m : Mask) (l : Fin lanesPerRegister) :
    (a.decrement m).get l = a.get l - if m.test l then 1 else 0 := by
  simp only [decrement, get_zipWith, Mask.get_words]
  split <;> omega

@[simp] theorem get_tally (a : Lanes Int) (m : Mask) (l : Fin lanesPerRegister) :
    (a.tally m).get l = if m.test l then wrap (a.get l + 1) else a.get l := by
  rw [tally, get_replace, get_map, get_increment]
  split <;> rfl

@[simp] theorem get_add (a b : Lanes Int) (l : Fin lanesPerRegister) :
    (a.add b).get l = wrap (a.get l + b.get l) :=
  get_zipWith ..

@[simp] theorem get_sub (a b : Lanes Int) (l : Fin lanesPerRegister) :
    (a.sub b).get l = wrap (a.get l - b.get l) :=
  get_zipWith ..

@[simp] theorem get_atMost (a : Lanes Int) (bound : Int) (l : Fin lanesPerRegister) :
    (a.atMost bound).get l = min (a.get l) bound :=
  get_map ..

@[simp] theorem get_scaleBy (a : Lanes Int) (factor : Int) (l : Fin lanesPerRegister) :
    (a.scaleBy factor).get l = wrap (factor * a.get l) :=
  get_map ..

end Lanes

end TpcTrigger
