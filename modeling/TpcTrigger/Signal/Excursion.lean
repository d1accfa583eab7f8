import TpcTrigger.Word

/-! # Excursions over threshold

While the filter output stays over threshold an excursion is open: its charge adds up, held in
range, and its ticks are counted, with a count that wraps round like any other word.  The first
tick that is not over closes it.
-/

namespace TpcTrigger

/-- Whether the last tick was over threshold, and what the open excursion has gathered. -/
structure Excursion where
  isOpen : Bool
  charge : Int
  ticks : Int
deriving Repr, DecidableEq, Inhabited

namespace Excursion

def none : Excursion := ⟨false, 0, 0⟩

def extend (e : Excursion) (height : Int) : Excursion :=
  ⟨true, saturatingAdd e.charge height, wrap (e.ticks + 1)⟩

/-- A tick that is not over threshold closes an open excursion. -/
def close (e : Excursion) : Excursion :=
  if e.isOpen then .none else { e with isOpen := false }

def closed? (e : Excursion) (above : Bool) : Option Excursion :=
  if e.isOpen && !above then some e else .none

def step (e : Excursion) (above : Bool) (height : Int) : Excursion :=
  if above then e.extend height else e.close

end Excursion

end TpcTrigger
