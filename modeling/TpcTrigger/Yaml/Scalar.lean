import TpcTrigger.Decimal.Numeral
import TpcTrigger.Yaml.Cursor

/-! # Scalars

A scalar is written plain, between quotes, or as a block of indented lines.  In the first two
a single line end counts as a space, and of several in a row all but the first remain; blanks
around line ends do not count.
-/

namespace TpcTrigger.Yaml

inductive ScalarStyle where
  | plain
  | quoted
  | literal
  | folded
deriving Repr, DecidableEq, Inhabited

/-- The blanks and line ends between two words. -/
structure Gap where
  /-- Blanks before the first line end. -/
  blanks : String := ""
  /-- The first line end; it has no text if it was escaped. -/
  first : Option String := none
  /-- The further line ends. -/
  more : String := ""
deriving Repr

namespace Gap

def text (g : Gap) : String :=
  match g.first with
  | none => g.blanks
  | some first =>
    if first == "\n" then if g.more.isEmpty then " " else g.more else first ++ g.more

/-- Reads on in a gap.  A tab at the start of a line must not stand left of `floor`. -/
def read (floor : Nat) : Nat → Gap → Cursor → Option (Gap × Cursor)
  | 0, g, c => some (g, c)
  | fuel + 1, g, c =>
    match c.rest with
    | [] => some (g, c)
    | d :: _ =>
      if isBlank d then
        match g.first with
        | none => read floor fuel { g with blanks := g.blanks.push d } (c.skip 1)
        | some _ => if d == '\t' && c.column < floor then none else read floor fuel g (c.skip 1)
      else if isBreak d then
        let (lineEnd, c) := c.takeBreak
        match g.first with
        | none => read floor fuel { g with first := some lineEnd } c
        | some _ => read floor fuel { g with more := g.more ++ lineEnd } c
      else some (g, c)

end Gap

/-! ## Quoted scalars -/

def numberEscape? (n : Nat) (rest : List Char) : Option (Char × Nat) := do
  let digits := rest.take n
  let code ← Numeral.ofBase? 16 digits
  if digits.length = n ∧ code.isValidChar then some (.ofNat code, n + 1) else none

def escape? : List Char → Option (Char × Nat)
  | '0' :: _ => some ('\x00', 1)
  | 'a' :: _ => some ('\x07', 1)
  | 'b' :: _ => some ('\x08', 1)
  | 't' :: _ | '\t' :: _ => some ('\t', 1)
  | 'n' :: _ => some ('\n', 1)
  | 'v' :: _ => some ('\x0b', 1)
  | 'f' :: _ => some ('\x0c', 1)
  | 'r' :: _ => some ('\r', 1)
  | 'e' :: _ => some ('\x1b', 1)
  | ' ' :: _ => some (' ', 1)
  | '"' :: _ => some ('"', 1)
  | '/' :: _ => some ('/', 1)
  | '\\' :: _ => some ('\\', 1)
  | 'N' :: _ => some ('\u0085', 1)
  | '_' :: _ => some ('\u00a0', 1)
  | 'L' :: _ => some ('\u2028', 1)
  | 'P' :: _ => some ('\u2029', 1)
  | 'x' :: rest => numberEscape? 2 rest
  | 'u' :: rest => numberEscape? 4 rest
  | 'U' :: rest => numberEscape? 8 rest
  | _ => none

/-- Reads on between quotes up to the closing one.  Between single quotes a quote is written
twice; between double quotes a backslash escapes. -/
def readQuoted (double : Bool) : Nat → String → Cursor → Option (String × Cursor)
  | 0, _, _ => none
  | fuel + 1, text, c =>
    if c.atBoundary then none
    else
      match c.rest with
      | [] => none
      | d :: rest =>
        if isGap d then do
          let (gap, c) ← Gap.read 0 fuel {} c
          readQuoted double fuel (text ++ gap.text) c
        else if !double && d == '\'' then
          if c.seesChar 1 '\'' then readQuoted double fuel (text.push '\'') (c.skip 2)
          else some (text, c.skip 1)
        else if double && d == '"' then some (text, c.skip 1)
        else if double && d == '\\' then
          if c.sees 1 isBreak then do
            let (gap, c) ← Gap.read 0 fuel { first := some "" } ((c.skip 1).takeBreak).2
            readQuoted double fuel (text ++ gap.text) c
          else do
            let (e, n) ← escape? rest
            readQuoted double fuel (text.push e) (c.skip (n + 1))
        else readQuoted double fuel (text.push d) (c.skip 1)

def quotedScalar (c : Cursor) : Option (String × Cursor) :=
  readQuoted (c.seesChar 0 '"') (c.bound + 1) "" (c.skip 1)

/-! ## Plain scalars -/

/-- Whether a character is a bracket or a comma of a flow collection. -/
def isFlowPunctuation (c : Char) : Bool :=
  c == ',' || c == '[' || c == ']' || c == '{' || c == '}'

/-- The length of the word of a plain scalar that comes first and of which `n` characters were
read already.  There is none if a colon stands before punctuation. -/
def plainWord? (inFlow : Bool) (n : Nat) : List Char → Option Nat
  | [] => some n
  | d :: rest =>
    let next (p : Char → Bool) : Bool := match rest with
      | e :: _ => p e
      | [] => false
    if isGap d then some n
    else if inFlow && d == ':' && next (fun e => isFlowPunctuation e || e == '?') then none
    else if d == ':' && (rest.isEmpty || next isGap) then some n
    else if inFlow && isFlowPunctuation d then some n
    else plainWord? inFlow (n + 1) rest

/-- A plain scalar as far as it is read. -/
structure PlainScalar where
  text : String := ""
  /-- What came after the last word. -/
  gap : Gap := {}
deriving Repr

/-- Reads on in a plain scalar.  In a block its further lines must not start left of
`floor`. -/
def readPlain (inFlow : Bool) (floor : Nat) :
    Nat → PlainScalar → Cursor → Option (PlainScalar × Cursor)
  | 0, s, c => some (s, c)
  | fuel + 1, s, c =>
    if c.atBoundary || c.seesChar 0 '#' then some (s, c)
    else do
      let n ← plainWord? inFlow 0 c.rest
      let s : PlainScalar :=
        if n = 0 then s
        else { text := s.text ++ s.gap.text ++ String.ofList (c.rest.take n), gap := {} }
      let c := c.skip n
      if c.sees 0 isGap then
        let (gap, c) ← Gap.read floor (fuel + 1) s.gap c
        let s := { s with gap }
        if !inFlow && c.column < floor then return (s, c)
        else readPlain inFlow floor fuel s c
      else return (s, c)

/-! ## Block scalars -/

/-- What the first line of a block scalar says. -/
structure BlockHeader where
  /-- Whether to keep all line ends at the end, or to drop them all. -/
  chomping : Option Bool
  /-- By how much the lines are indented. -/
  increment : Option Nat

def increment? (c : Cursor) : Option (Option Nat × Cursor) :=
  match c.rest with
  | d :: _ =>
    if Numeral.isDigit d then
      if d == '0' then none else some (Numeral.digit? d, c.skip 1)
    else some (none, c)
  | [] => some (none, c)

/-- Reads the mark for the line ends at the end. -/
def chomping (c : Cursor) : Option Bool × Cursor :=
  if c.seesChar 0 '+' then (some true, c.skip 1)
  else if c.seesChar 0 '-' then (some false, c.skip 1)
  else (none, c)

/-- Reads the first line of a block scalar behind its indicator. -/
def blockHeader? (c : Cursor) : Option (BlockHeader × Cursor) := do
  let (before, c) := chomping c
  let (increment, c) ← increment? c
  let (after, c) := if before.isSome || increment.isNone then (before, c) else chomping c
  return (⟨after, increment⟩, ← c.endLine?)

/-- Reads empty lines and indentation up to the column `indent`, or as far as it goes if the
column is not known yet.  Hands out the line ends and the farthest column. -/
def readIndent (indent : Option Nat) :
    Nat → String → Nat → Cursor → Option (String × Nat × Cursor)
  | 0, breaks, far, c => some (breaks, far, c)
  | fuel + 1, breaks, far, c =>
    let open' (c : Cursor) : Bool := match indent with
      | some n => decide (c.column < n)
      | none => true
    let spaces := (c.rest.takeWhile (· == ' ')).length
    let c := c.skip (match indent with
      | some n => min spaces (n - c.column)
      | none => spaces)
    let far := max far c.column
    if open' c && c.seesChar 0 '\t' then none
    else if c.sees 0 isBreak then
      let (lineEnd, c) := c.takeBreak
      readIndent indent fuel (breaks ++ lineEnd) far c
    else some (breaks, far, c)

/-- A block scalar as far as it is read. -/
structure BlockScalar where
  text : String := ""
  /-- The line end of the last line. -/
  lineEnd : String := ""
  /-- The empty lines behind it. -/
  breaks : String := ""
  /-- Whether the last line started with a blank. -/
  blankBefore : Bool := false

def readBlock (literal : Bool) (indent : Nat) :
    Nat → BlockScalar → Cursor → Option (BlockScalar × Cursor)
  | 0, s, c => some (s, c)
  | fuel + 1, s, c =>
    if c.column != indent || c.atEnd then some (s, c)
    else do
      let blankHere := c.sees 0 isBlank
      let folds := !literal && s.lineEnd == "\n" && !s.blankBefore && !blankHere
      let joint := if folds then if s.breaks.isEmpty then " " else "" else s.lineEnd
      let (line, c) := c.takeWhile (!isBreak ·)
      let (lineEnd, c) := c.takeBreak
      let (breaks, _, c) ← readIndent (some indent) fuel "" 0 c
      let text := s.text ++ joint ++ s.breaks ++ String.ofList line
      readBlock literal indent fuel { text, lineEnd, breaks, blankBefore := blankHere } c

/-- Reads a block scalar behind its indicator, inside a block indented to the column
`parent`. -/
def blockScalar (literal : Bool) (parent : Int) (c : Cursor) : Option (String × Cursor) := do
  let (header, c) ← blockHeader? c
  let known := header.increment.map fun n => (max 0 parent).toNat + n
  let (breaks, far, c) ← readIndent known (c.bound + 1) "" 0 c
  let indent := known.getD (max far (max 1 (parent + 1)).toNat)
  let (s, c) ← readBlock literal indent (c.bound + 1) { breaks } c
  let text := s.text ++ (if header.chomping == some false then "" else s.lineEnd)
    ++ (if header.chomping == some true then s.breaks else "")
  return (text, c)

end TpcTrigger.Yaml
