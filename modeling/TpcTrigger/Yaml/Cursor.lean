/-! # Places in a text

A cursor is what is left of a text and the place where that begins: how many bytes came before
it, the line, and the column in characters.  Both kinds of line end, and the pair of them, count
as one.
-/

namespace TpcTrigger.Yaml

structure Cursor where
  rest : List Char
  /-- Number of bytes before. -/
  index : Nat
  line : Nat
  column : Nat
  /-- A number of characters that the text does not exceed. -/
  bound : Nat
deriving Repr

def isBreak (c : Char) : Bool :=
  c == '\n' || c == '\r' || c == '\u0085' || c == '\u2028' || c == '\u2029'

/-- Whether a character is a space or a tab. -/
def isBlank (c : Char) : Bool := c == ' ' || c == '\t'

/-- Whether a word ends before a character. -/
def isGap (c : Char) : Bool := isBlank c || isBreak c

/-- Whether a character may stand in a document at all. -/
def isAllowed (c : Char) : Bool :=
  let n := c.toNat
  c == '\t' || c == '\n' || c == '\r' || (0x20 ≤ n && n ≤ 0x7e) || n == 0x85
    || (0xa0 ≤ n && n ≤ 0xfffd) || 0x10000 ≤ n

def isNameChar (c : Char) : Bool := c.isAlphanum || c == '_' || c == '-'

namespace Cursor

def ofText (text : List Char) : Cursor := ⟨text, 0, 0, 0, text.length⟩

def atEnd (c : Cursor) : Bool := c.rest.isEmpty

/-- Whether the character `n` places ahead satisfies a condition. -/
def sees (c : Cursor) (n : Nat) (p : Char → Bool) : Bool :=
  match c.rest[n]? with
  | some d => p d
  | none => false

/-- Whether the character `n` places ahead is the given one. -/
def seesChar (c : Cursor) (n : Nat) (d : Char) : Bool := c.sees n (· == d)

/-- Whether a word would end `n` places ahead: at a blank, a line end or the end. -/
def endsWord (c : Cursor) (n : Nat) : Bool :=
  match c.rest[n]? with
  | some d => isGap d
  | none => true

def byteCount (cs : List Char) : Nat := cs.foldl (fun n d => n + d.utf8Size) 0

def skip (c : Cursor) (n : Nat) : Cursor :=
  { c with
    rest := c.rest.drop n
    index := c.index + byteCount (c.rest.take n)
    column := c.column + n }

/-- Moves over the characters of the line that satisfy a condition, and hands them out. -/
def takeWhile (c : Cursor) (p : Char → Bool) : List Char × Cursor :=
  let taken := c.rest.takeWhile p
  (taken, c.skip taken.length)

def skipBlanks (c : Cursor) : Cursor := (c.takeWhile isBlank).2

/-- Moves over a byte order mark at the start of a line; it takes a column. -/
def skipMark (c : Cursor) : Cursor :=
  if c.column == 0 && c.seesChar 0 '\ufeff' then c.skip 1 else c

def skipToBreak (c : Cursor) : Cursor := (c.takeWhile (!isBreak ·)).2

def skipComment (c : Cursor) : Cursor := if c.seesChar 0 '#' then c.skipToBreak else c

/-- The start of the next line, behind a line end of `n` bytes. -/
def newLine (c : Cursor) (rest : List Char) (n : Nat) : Cursor :=
  { c with rest, index := c.index + n, line := c.line + 1, column := 0 }

/-- Moves over a line end, and hands it out: the usual ones as a line feed, the others as they
are. -/
def takeBreak (c : Cursor) : String × Cursor :=
  match c.rest with
  | '\r' :: '\n' :: rest => ("\n", c.newLine rest 2)
  | d :: rest =>
    if isBreak d then
      (if d == '\u2028' || d == '\u2029' then d.toString else "\n", c.newLine rest d.utf8Size)
    else ("", c)
  | [] => ("", c)

/-- Moves to the next line if nothing but blanks and a comment is left of this one. -/
def endLine? (c : Cursor) : Option Cursor :=
  let c := c.skipBlanks.skipComment
  if c.atEnd || c.sees 0 isBreak then some c.takeBreak.2 else none

/-- Whether three characters at the start of a line mark a boundary of the document. -/
def seesMarker (c : Cursor) (d : Char) : Bool :=
  c.column == 0 && c.seesChar 0 d && c.seesChar 1 d && c.seesChar 2 d && c.endsWord 3

/-- Whether a document starts or ends here. -/
def atBoundary (c : Cursor) : Bool := c.seesMarker '-' || c.seesMarker '.'

end Cursor

end TpcTrigger.Yaml
