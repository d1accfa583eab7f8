import TpcTrigger.Yaml.Token

/-! # Nodes

The contents of a document: scalars, sequences and mappings, each with the tag written in
front of it.  An alias stands for a node elsewhere in the document, which may be one that the
alias is a part of, so it is kept as the number of that node.
-/

namespace TpcTrigger.Yaml

inductive Node where
  | scalar (tag : Option Tag) (style : ScalarStyle) (text : String)
  | sequence (tag : Option Tag) (items : List Node)
  | mapping (tag : Option Tag) (entries : List (Node × Node))
  | aliasOf (number : Nat)
deriving Inhabited

namespace Node

def empty : Node := .scalar none .plain ""

def isBlank : Node → Bool
  | scalar _ .plain "" => true
  | _ => false

def nullTexts : List String := ["~", "null", "Null", "NULL"]

end Node

end TpcTrigger.Yaml
