import TpcTrigger.Yaml.Directive

/-! # From text to tokens

Block structure is read off the columns: a token right of the current indentation may open a
collection, and one left of it closes those it has left.  A key is recognised only by the
colon behind it, so the place where one may have started is remembered, and the tokens that
announce it are put there later.  Such a key stays within a line and within a thousand and
twenty-four bytes.
-/

namespace TpcTrigger.Yaml

/-- The place of a node that may turn out to be a key. -/
structure KeyPlace where
  /-- Number of tokens before the node. -/
  token : Nat
  index : Nat
  line : Nat
  column : Nat
  /-- Whether nothing but a key can stand there. -/
  required : Bool
deriving Repr

structure Lexer where
  cursor : Cursor
  tokens : Array Token := #[]
  /-- Column of the current block collection; `-1` outside of all. -/
  indent : Int := -1
  /-- Columns of the collections around it. -/
  outer : List Int := []
  /-- The latest possible key of the current flow collection, or of the block. -/
  place : Option KeyPlace := none
  /-- The same for the collections around it, one for each flow level. -/
  outerPlaces : List (Option KeyPlace) := []
  /-- The same for the block around all flow collections, while there are some. -/
  blockPlace : Option KeyPlace := none
  /-- Whether a key may start here. -/
  keyAllowed : Bool := true

namespace Lexer

def inFlow (l : Lexer) : Bool := !l.outerPlaces.isEmpty

def column (l : Lexer) : Int := l.cursor.column

def add (l : Lexer) (t : Token) : Lexer := { l with tokens := l.tokens.push t }

def insert (l : Lexer) (i : Nat) (t : Token) : Lexer :=
  { l with tokens := l.tokens.insertIdxIfInBounds i t }

def take (l : Lexer) (n : Nat) (t : Token) : Lexer :=
  { l with cursor := l.cursor.skip n }.add t

/-- Gives up a possible key; one that was required is missing its colon. -/
def dropPlace? (l : Lexer) : Option Lexer :=
  match l.place with
  | some p => if p.required then none else some { l with place := none }
  | none => some l

def notePlace? (l : Lexer) : Option Lexer :=
  if !l.keyAllowed then some l
  else do
    let l ← l.dropPlace?
    let c := l.cursor
    let required := !l.inFlow && l.indent == l.column
    return { l with place := some ⟨l.tokens.size, c.index, c.line, c.column, required⟩ }

def keyReach : Nat := 1024

/-- Gives a possible key up once it is too far behind. -/
def freshPlace? (c : Cursor) (place : Option KeyPlace) : Option (Option KeyPlace) :=
  match place with
  | none => some none
  | some p =>
    if p.line < c.line ∨ p.index + keyReach < c.index then
      if p.required then none else some none
    else some (some p)

/-- Gives up the possible keys that are too far behind: the latest one, and the one of the block,
which may be required.  None of those in between is, so they can wait until they are the latest. -/
def freshPlaces? (l : Lexer) : Option Lexer := do
  let place ← freshPlace? l.cursor l.place
  let blockPlace ← freshPlace? l.cursor l.blockPlace
  return { l with place, blockPlace }

/-- Opens a block collection at a column right of the current one, with its token in front of
the tokens from index `i` on. -/
def openBlock (l : Lexer) (column : Int) (i : Nat) (t : Token) : Lexer :=
  if l.inFlow || column ≤ l.indent then l
  else { l.insert i t with indent := column, outer := l.indent :: l.outer }

def closeBlocks (column : Int) : List Int → Lexer → Lexer
  | [], l => l
  | before :: rest, l =>
    if l.indent ≤ column then l
    else closeBlocks column rest { l.add .blockEnd with indent := before, outer := rest }

/-- Closes the block collections that a token at a column has left. -/
def unroll (l : Lexer) (column : Int) : Lexer :=
  if l.inFlow then l else closeBlocks column l.outer l

/-- Moves to the next token over byte order marks, blanks, comments and line ends.  Where a block
could start, a tab is no blank. -/
def skipGap : Nat → Lexer → Lexer
  | 0, l => l
  | fuel + 1, l =>
    let tabs := l.inFlow || !l.keyAllowed
    let c := (l.cursor.skipMark.takeWhile fun d => d == ' ' || (tabs && d == '\t')).2.skipComment
    if c.sees 0 isBreak then
      skipGap fuel { l with cursor := (c.takeBreak).2, keyAllowed := l.keyAllowed || !l.inFlow }
    else { l with cursor := c }

def directive? (l : Lexer) : Option Lexer := do
  let l ← (l.unroll (-1)).dropPlace?
  let (t, c) ← readDirective? (l.cursor.skip 1)
  return { l with cursor := c, keyAllowed := false }.add t

def boundary? (l : Lexer) (t : Token) : Option Lexer := do
  let l ← (l.unroll (-1)).dropPlace?
  return { l with keyAllowed := false }.take 3 t

def flowStart? (l : Lexer) (t : Token) : Option Lexer := do
  let l ← l.notePlace?
  return { l with
    place := none
    outerPlaces := l.place :: l.outerPlaces
    blockPlace := if l.inFlow then l.blockPlace else l.place
    keyAllowed := true }.take 1 t

def flowEnd? (l : Lexer) (t : Token) : Option Lexer := do
  let l ← l.dropPlace?
  let l := match l.outerPlaces with
    | place :: outerPlaces =>
      { l with
        place, outerPlaces
        blockPlace := if outerPlaces.isEmpty then none else l.blockPlace }
    | [] => l
  return { l with keyAllowed := false }.take 1 t

def flowEntry? (l : Lexer) : Option Lexer := do
  let l ← l.dropPlace?
  return { l with keyAllowed := true }.take 1 .flowEntry

/-- A dash, which opens a block sequence if it stands right of the current collection. -/
def blockEntry? (l : Lexer) : Option Lexer := do
  if !l.inFlow && !l.keyAllowed then none
  else
    let l ← (l.openBlock l.column l.tokens.size .blockSequenceStart).dropPlace?
    return { l with keyAllowed := true }.take 1 .blockEntry

def explicitKey? (l : Lexer) : Option Lexer := do
  if !l.inFlow && !l.keyAllowed then none
  else
    let l ← (l.openBlock l.column l.tokens.size .blockMappingStart).dropPlace?
    return { l with keyAllowed := !l.inFlow }.take 1 .key

/-- A colon: what is possibly a key is one, or else a key was announced, or it is empty. -/
def value? (l : Lexer) : Option Lexer :=
  match l.place with
  | some p =>
    let l := (l.insert p.token .key).openBlock p.column p.token .blockMappingStart
    some ({ l with place := none, keyAllowed := false }.take 1 .value)
  | none =>
    if !l.inFlow && !l.keyAllowed then none
    else
      let l := l.openBlock l.column l.tokens.size .blockMappingStart
      some ({ l with keyAllowed := !l.inFlow }.take 1 .value)

def name? (l : Lexer) (t : String → Token) : Option Lexer := do
  let l ← l.notePlace?
  let (name, c) := (l.cursor.skip 1).takeWhile isNameChar
  let ends := c.endsWord 0 || c.sees 0 ("?:,]\x7d%@\x60".toList.contains ·)
  if name.isEmpty || !ends then none
  else return { l with cursor := c, keyAllowed := false }.add (t (String.ofList name))

def tag? (l : Lexer) : Option Lexer := do
  let l ← l.notePlace?
  let (word, c) ← TagWord.read? l.cursor
  if c.endsWord 0 || (l.inFlow && c.seesChar 0 ',') then
    return { l with cursor := c, keyAllowed := false }.add (.tag word)
  else none

def blockScalar? (l : Lexer) (literal : Bool) : Option Lexer := do
  let l ← l.dropPlace?
  let (text, c) ← blockScalar literal l.indent (l.cursor.skip 1)
  let style := if literal then ScalarStyle.literal else .folded
  return { l with cursor := c, keyAllowed := true }.add (.scalar style text)

def quoted? (l : Lexer) : Option Lexer := do
  let l ← l.notePlace?
  let (text, c) ← quotedScalar l.cursor
  return { l with cursor := c, keyAllowed := false }.add (.scalar .quoted text)

/-- A plain scalar; behind a line end a key may start again. -/
def plain? (l : Lexer) : Option Lexer := do
  let l ← l.notePlace?
  let c := l.cursor
  let (s, c) ← readPlain l.inFlow (l.indent + 1).toNat c.bound {} c
  return { l with cursor := c, keyAllowed := s.gap.first.isSome }.add
    (.scalar .plain s.text)

def startsPlain (l : Lexer) : Bool :=
  let c := l.cursor
  (!c.endsWord 0 && !c.sees 0 ("-?:,[]\x7b\x7d#&*!|>'\"%@\x60".toList.contains ·))
    || (c.seesChar 0 '-' && !c.sees 1 isBlank)
    || (!l.inFlow && (c.seesChar 0 '?' || c.seesChar 0 ':') && !c.endsWord 1)

/-- Reads the next token, whose first character is `d`. -/
def token? (l : Lexer) (d : Char) : Option Lexer :=
  let c := l.cursor
  if c.column == 0 && d == '%' then l.directive?
  else if c.seesMarker '-' then l.boundary? .documentStart
  else if c.seesMarker '.' then l.boundary? .documentEnd
  else
    match d with
    | '[' => l.flowStart? .flowSequenceStart
    | '{' => l.flowStart? .flowMappingStart
    | ']' => l.flowEnd? .flowSequenceEnd
    | '}' => l.flowEnd? .flowMappingEnd
    | ',' => l.flowEntry?
    | '*' => l.name? .aliasOf
    | '&' => l.name? .anchor
    | '!' => l.tag?
    | '\'' | '"' => l.quoted?
    | _ =>
      if d == '-' && c.endsWord 1 then l.blockEntry?
      else if d == '?' && (l.inFlow || c.endsWord 1) then l.explicitKey?
      else if d == ':' && (l.inFlow || c.endsWord 1) then l.value?
      else if d == '|' && !l.inFlow then l.blockScalar? true
      else if d == '>' && !l.inFlow then l.blockScalar? false
      else if l.startsPlain then l.plain?
      else none

/-- The end of the text closes all blocks. -/
def finish? (l : Lexer) : Option (List Token) := do
  let l ← (l.unroll (-1)).dropPlace?
  return l.tokens.toList

/-- Reads tokens to the end of the text.  Every token but those that indentation implies takes
a character at least. -/
def run? : Nat → Lexer → Option (List Token)
  | 0, _ => none
  | fuel + 1, l => do
    let l ← (skipGap (fuel + 1) l).freshPlaces?
    let l := l.unroll l.column
    match l.cursor.rest with
    | [] => l.finish?
    | d :: _ => run? fuel (← l.token? d)

end Lexer

def tokens? (text : List Char) : Option (List Token) :=
  if text.all isAllowed then
    Lexer.run? (text.length + 1) { cursor := .ofText text }
  else none

end TpcTrigger.Yaml
