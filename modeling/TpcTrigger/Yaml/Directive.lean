import TpcTrigger.Yaml.Token

/-! # Directives

A line in front of a document says in what version of the language the document is written, or
what a handle of tags stands for in it.
-/

namespace TpcTrigger.Yaml

def maxVersionDigits : Nat := 9

def versionNumber? (c : Cursor) : Option (Nat × Cursor) := do
  let (digits, c) := c.takeWhile Numeral.isDigit
  if maxVersionDigits < digits.length then none else return (← Numeral.ofBase? 10 digits, c)

def version? (c : Cursor) : Option (Token × Cursor) := do
  let (major, c) ← versionNumber? c.skipBlanks
  if !c.seesChar 0 '.' then none
  else
    let (minor, c) ← versionNumber? (c.skip 1)
    return (.version major minor, c)

def declaration? (c : Cursor) : Option (Token × Cursor) := do
  let c := c.skipBlanks
  if !c.seesChar 0 '!' then none
  else
    let (handle, c) := TagWord.handle c
    if handle.getLast? != some '!' || !c.sees 0 isBlank then none
    else
      let (start, c) ← TagWord.chars? true c.skipBlanks
      if c.endsWord 0 then return (.declaration (String.ofList handle) start, c) else none

/-- Reads a directive behind its percent sign, to the end of its line. -/
def readDirective? (c : Cursor) : Option (Token × Cursor) := do
  let (name, c) := c.takeWhile isNameChar
  if !c.endsWord 0 then none
  else
    let (t, c) ← match String.ofList name with
      | "YAML" => version? c
      | "TAG" => declaration? c
      | _ => none
    return (t, ← c.endLine?)

/-- What the directives in front of a document say. -/
structure Preamble where
  versionGiven : Bool := false
  handles : TagHandles := []

namespace Preamble

/-- Whether documents of a version can be read. -/
def knows (major minor : Nat) : Bool := major == 1 && (minor == 1 || minor == 2)

/-- Takes directives in from the front of some tokens.  The version is said once at most, and
so is what a handle stands for. -/
def read? (p : Preamble) : List Token → Option (Preamble × List Token)
  | .version major minor :: rest =>
    if p.versionGiven || !knows major minor then none
    else read? { p with versionGiven := true } rest
  | .declaration handle start :: rest =>
    if (p.handles.lookup handle).isSome then none
    else read? { p with handles := (handle, start) :: p.handles } rest
  | rest => some (p, rest)

end Preamble

end TpcTrigger.Yaml
