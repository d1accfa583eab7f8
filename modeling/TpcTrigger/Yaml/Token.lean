import TpcTrigger.Yaml.Scalar
import TpcTrigger.Yaml.Tag

/-! # Tokens

What a document is made of.  Besides what is written there are tokens for what indentation
says: where a block collection starts and ends, and that the node ahead is a key.
-/

namespace TpcTrigger.Yaml

inductive Token where
  /-- What version of the language a document is written in. -/
  | version (major minor : Nat)
  /-- What a handle of tags stands for in a document. -/
  | declaration (handle : String) (start : Tag)
  | documentStart
  | documentEnd
  | blockSequenceStart
  | blockMappingStart
  | blockEnd
  | flowSequenceStart
  | flowSequenceEnd
  | flowMappingStart
  | flowMappingEnd
  /-- A dash in front of an item. -/
  | blockEntry
  /-- A comma in a flow collection. -/
  | flowEntry
  | key
  | value
  | anchor (name : String)
  | aliasOf (name : String)
  | tag (word : TagWord)
  | scalar (style : ScalarStyle) (text : String)
deriving Repr, DecidableEq, Inhabited

end TpcTrigger.Yaml
