import TpcTrigger.Yaml.Anchors
import TpcTrigger.Yaml.Lexer

/-! # From tokens to nodes

A text holds at most one document, and directives in front of it.  Where a node is missing, as
behind a colon at the end of a line, an empty one stands in for it.
-/

namespace TpcTrigger.Yaml

/-- The tokens that are left, the handles that were declared, and the nodes that have a name. -/
structure Reader where
  tokens : List Token
  handles : TagHandles := []
  anchors : Anchors := {}

namespace Reader

/-- A node, and the reader behind it; there is none if the tokens do not fit together. -/
abbrev Reading := Option (Node × Reader)

def sees (r : Reader) (p : Token → Bool) : Bool := (r.tokens.head?.map p).getD false

def seesToken (r : Reader) (t : Token) : Bool := r.sees (· == t)

def skip (r : Reader) : Reader := { r with tokens := r.tokens.tail }

def expect? (r : Reader) (t : Token) : Option Reader := if r.seesToken t then some r.skip else none

/-- What is written in front of a node. -/
structure Properties where
  anchor : Option String := none
  tag : Option Tag := none

/-- Reads what is written in front of a node, in either order; there is none if the handle of the
tag was not declared. -/
def properties? (r : Reader) : Option (Properties × Reader) := do
  let (anchor, word, rest) := match r.tokens with
    | .anchor a :: .tag w :: rest | .tag w :: .anchor a :: rest => (some a, some w, rest)
    | .anchor a :: rest => (some a, none, rest)
    | .tag w :: rest => (none, some w, rest)
    | rest => (none, none, rest)
  let tag ← match word with
    | some w => (r.handles.resolve? w).map some
    | none => some none
  return ({ anchor, tag }, { r with tokens := rest })

/-- Reads a node that may have a name with a function that reads what the name belongs to. -/
def named (anchor : Option String) (read : Reader → Reading) (r : Reader) : Reading :=
  match anchor with
  | none => read r
  | some name => do
    let before := r.anchors.begun.length
    let (n, r) ← read { r with anchors := r.anchors.begin name }
    return (n, { r with anchors := r.anchors.complete before n })

/-- Whether the next token ends a node of a block collection before it has begun. -/
def endsBlockNode (r : Reader) : Bool :=
  r.tokens.isEmpty || r.sees fun t => t == .key || t == .value || t == .blockEnd

def endsFlowEntry (r : Reader) : Bool := r.seesToken .flowEntry || r.seesToken .flowMappingEnd

def endsFlowItem (r : Reader) : Bool := r.seesToken .flowEntry || r.seesToken .flowSequenceEnd

mutual

/-- Reads a node.  Block collections may be barred, and the items of a sequence may be allowed
to stand in the column of the key above them. -/
def node (block indentless : Bool) : Nat → Reader → Reading
  | 0, _ => none
  | fuel + 1, r =>
    match r.tokens with
    | .aliasOf name :: _ => (r.anchors.alias? name).map (·, r.skip)
    | _ => do
      let (p, r) ← r.properties?
      r.named p.anchor (content block indentless p fuel)

def content (block indentless : Bool) (p : Properties) : Nat → Reader → Reading
  | 0, _ => none
  | fuel + 1, r =>
    let missing : Reading :=
      if p.tag.isSome || p.anchor.isSome then some (.scalar p.tag .plain "", r) else none
    match r.tokens with
    | .scalar style text :: _ => some (.scalar p.tag style text, r.skip)
    | .blockEntry :: _ => if indentless then indentlessItems p.tag [] fuel r else missing
    | .flowSequenceStart :: _ => flowItems p.tag true [] fuel r.skip
    | .flowMappingStart :: _ => flowEntries p.tag true [] fuel r.skip
    | .blockSequenceStart :: _ => if block then blockItems p.tag [] fuel r.skip else missing
    | .blockMappingStart :: _ => if block then blockEntries p.tag [] fuel r.skip else missing
    | _ => missing

def blockItems (tag : Option Tag) (items : List Node) : Nat → Reader → Reading
  | 0, _ => none
  | fuel + 1, r =>
    if r.seesToken .blockEnd then some (.sequence tag items.reverse, r.skip)
    else do
      let r ← r.expect? .blockEntry
      let (item, r) ←
        if r.seesToken .blockEntry || r.seesToken .blockEnd then some (Node.empty, r)
        else node true false fuel r
      blockItems tag (item :: items) fuel r

def indentlessItems (tag : Option Tag) (items : List Node) : Nat → Reader → Reading
  | 0, _ => none
  | fuel + 1, r =>
    if !r.seesToken .blockEntry then some (.sequence tag items.reverse, r)
    else do
      let r := r.skip
      let (item, r) ←
        if r.seesToken .blockEntry || r.endsBlockNode then some (Node.empty, r)
        else node true false fuel r
      indentlessItems tag (item :: items) fuel r

def blockEntries (tag : Option Tag) (entries : List (Node × Node)) : Nat → Reader → Reading
  | 0, _ => none
  | fuel + 1, r =>
    if r.seesToken .blockEnd then some (.mapping tag entries.reverse, r.skip)
    else do
      let r ← r.expect? .key
      let (key, r) ← if r.endsBlockNode then some (Node.empty, r) else node true true fuel r
      let (value, r) ←
        if r.seesToken .value then
          if r.skip.endsBlockNode then some (Node.empty, r.skip) else node true true fuel r.skip
        else some (Node.empty, r)
      blockEntries tag ((key, value) :: entries) fuel r

def flowEntries (tag : Option Tag) (first : Bool) (entries : List (Node × Node)) :
    Nat → Reader → Reading
  | 0, _ => none
  | fuel + 1, r =>
    if r.seesToken .flowMappingEnd then some (.mapping tag entries.reverse, r.skip)
    else do
      let r ← if first then some r else r.expect? .flowEntry
      if r.seesToken .flowMappingEnd then return (.mapping tag entries.reverse, r.skip)
      else if r.seesToken .key then
        let r := r.skip
        let (key, r) ←
          if r.endsFlowEntry || r.seesToken .value then some (Node.empty, r)
          else node false false fuel r
        let (value, r) ← flowValue Reader.endsFlowEntry fuel r
        flowEntries tag false ((key, value) :: entries) fuel r
      else
        let (key, r) ← node false false fuel r
        flowEntries tag false ((key, .empty) :: entries) fuel r

/-- Reads the items of a flow sequence; one that has a key is a mapping of one entry.  The token
that shows that the key is missing is passed over. -/
def flowItems (tag : Option Tag) (first : Bool) (items : List Node) : Nat → Reader → Reading
  | 0, _ => none
  | fuel + 1, r =>
    if r.seesToken .flowSequenceEnd then some (.sequence tag items.reverse, r.skip)
    else do
      let r ← if first then some r else r.expect? .flowEntry
      if r.seesToken .flowSequenceEnd then return (.sequence tag items.reverse, r.skip)
      else if r.seesToken .key then
        let r := r.skip
        let (key, r) ←
          if r.endsFlowItem || r.seesToken .value then some (Node.empty, r.skip)
          else node false false fuel r
        let (value, r) ← flowValue Reader.endsFlowItem fuel r
        flowItems tag false (.mapping none [(key, value)] :: items) fuel r
      else
        let (item, r) ← node false false fuel r
        flowItems tag false (item :: items) fuel r

def flowValue (ends : Reader → Bool) : Nat → Reader → Reading
  | 0, _ => none
  | fuel + 1, r =>
    if r.seesToken .value then
      if ends r.skip then some (.empty, r.skip) else node false false fuel r.skip
    else some (.empty, r)

end

/-- Whether the next token shows that a document whose start was announced is empty. -/
def endsDocument (r : Reader) : Bool :=
  r.tokens.isEmpty || r.sees fun
    | .version .. | .declaration .. | .documentStart | .documentEnd => true
    | _ => false

def root (directives : Bool) (r : Reader) : Reading :=
  let fuel := 4 * r.tokens.length + 4
  match r.expect? .documentStart with
  | some r => if r.endsDocument then some (.empty, r) else node true false fuel r
  | none => if directives then none else node true false fuel r

end Reader

/-- A document: its root, if there is anything, and the nodes that aliases stand for. -/
structure Document where
  root : Option Node := none
  anchors : Anchors := {}

namespace Document

def ofText? (text : List Char) : Option Document := do
  let tokens ← tokens? text
  if tokens.isEmpty then return {}
  else
    let (p, rest) ← Preamble.read? {} tokens
    let directives := rest.length < tokens.length
    let (n, r) ← Reader.root directives { tokens := rest, handles := p.handles }
    if r.tokens.all (· == .documentEnd) then return { root := some n, anchors := r.anchors }
    else none

def follow (d : Document) : Node → Node
  | .aliasOf number => (d.anchors.node? number).getD .empty
  | n => n

def items? (d : Document) : Node → Option (List Node)
  | .sequence _ items => some (items.map d.follow)
  | n => if n.isBlank then some [] else none

def entries? (d : Document) : Node → Option (List (String × Node))
  | .mapping _ entries => entries.mapM fun (key, value) =>
    match d.follow key with
    | .scalar _ _ name => some (name, d.follow value)
    | _ => none
  | n => if n.isBlank then some [] else none

end Document

end TpcTrigger.Yaml
