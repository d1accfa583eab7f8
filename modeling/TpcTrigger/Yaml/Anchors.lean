import TpcTrigger.Yaml.Node

/-! # Named nodes

A name in front of a node lets aliases stand for it from there on, also inside the node.  Names
are numbered by how many there are already.  A name that is given again does not add to them, so
the next new name can come to the same number; a number stands for the node that began last
under it.
-/

namespace TpcTrigger.Yaml

structure Anchors where
  /-- The number of every name. -/
  numbers : List (String × Nat) := []
  /-- The numbers under which nodes began, the latest first. -/
  begun : List Nat := []
  /-- The nodes that are complete, by how many began before them. -/
  nodes : List (Nat × Node) := []

namespace Anchors

def begin (a : Anchors) (name : String) : Anchors :=
  let number := a.numbers.length
  { a with
    numbers := (name, number) :: a.numbers.filter (·.1 ≠ name)
    begun := number :: a.begun }

def complete (a : Anchors) (before : Nat) (node : Node) : Anchors :=
  { a with nodes := (before, node) :: a.nodes }

def alias? (a : Anchors) (name : String) : Option Node := (a.numbers.lookup name).map .aliasOf

def node? (a : Anchors) (number : Nat) : Option Node := do
  let later ← a.begun.idxOf? number
  a.nodes.lookup (a.begun.length - 1 - later)

end Anchors

end TpcTrigger.Yaml
