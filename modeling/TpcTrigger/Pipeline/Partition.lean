import TpcTrigger.Detection.Shape

/-! # Sharing registers among workers

The registers of a frame are cut into contiguous ranges, one for each worker, whose sizes
differ by at most one; the larger ranges come first.  No more workers are used than there are
registers, and never none.
-/

namespace TpcTrigger.Partition

def parts (workers : Nat) : Nat := max 1 (min workers registerCount)

def start (n i : Nat) : Nat := i * (registerCount / n) + min i (registerCount % n)

def ranges (workers : Nat) : List RegisterRange :=
  (List.range (parts workers)).map fun i =>
    ⟨start (parts workers) i, start (parts workers) (i + 1)⟩

end TpcTrigger.Partition
