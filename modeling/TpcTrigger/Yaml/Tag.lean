import TpcTrigger.Decimal.Numeral
import TpcTrigger.Yaml.Cursor

/-! # Tags

A tag names the kind of the node behind it.  It is written in full between angle brackets, or
as a handle and a suffix, where the handle stands for what all tags under it begin with.  A
percent sign announces a byte by two digits, so a tag is a run of bytes that need not be text.
-/

namespace TpcTrigger.Yaml

structure Tag where
  bytes : List UInt8 := []
deriving Repr, DecidableEq, Inhabited

namespace Tag

def ofText (text : String) : Tag := ⟨text.toUTF8.toList⟩

def text? (t : Tag) : Option String := String.fromUTF8? ⟨t.bytes.toArray⟩

/-- A tag that begins with one part and goes on with another. -/
def append (t u : Tag) : Tag := ⟨t.bytes ++ u.bytes⟩

def core (kind : String) : Tag := ofText ("tag:yaml.org,2002:" ++ kind)

def bare : Tag := ofText "!"

/-- The name that a tag of one's own gives: what stands behind its mark. -/
def ownName? (t : Tag) : Option String :=
  match t.bytes with
  | 0x21 :: [] => some "!"
  | 0x21 :: name => text? ⟨name⟩
  | _ => none

def isTagChar (inAngles : Bool) (c : Char) : Bool :=
  isNameChar c || ";/?:@&=+$.!~*'()%".toList.contains c
    || (inAngles && (c == ',' || c == '[' || c == ']'))

def width? (first : Nat) : Option Nat :=
  if first < 0x80 then some 1
  else if first < 0xc0 then none
  else if first < 0xe0 then some 2
  else if first < 0xf0 then some 3
  else if first < 0xf8 then some 4
  else none

/-- The bytes that the characters of a tag stand for.  Of a character announced by its bytes
`due` ones are still to come, and have to follow at once. -/
def bytes? : Nat → List Char → Option (List UInt8)
  | due, '%' :: high :: low :: rest => do
    let byte ← Numeral.ofBase? 16 [high, low]
    let due ← match due with
      | 0 => (width? byte).map (· - 1)
      | due + 1 => if 0x80 ≤ byte ∧ byte < 0xc0 then some due else none
    return .ofNat byte :: (← bytes? due rest)
  | 0, c :: rest => do
    if c = '%' then none
    else return .ofNat c.toNat :: (← bytes? 0 rest)
  | 0, [] => some []
  | _ + 1, _ => none

/-- The tag that some characters stand for.  A zero byte ends it. -/
def ofChars? (cs : List Char) : Option Tag :=
  (bytes? 0 cs).map fun bytes => ⟨bytes.takeWhile (· ≠ 0)⟩

end Tag

inductive TagWord where
  | full (tag : Tag)
  | short (handle : String) (suffix : Tag)
deriving Repr, DecidableEq, Inhabited

namespace TagWord

/-- Reads an exclamation mark with the name behind it, and the mark that makes it a handle. -/
def handle (c : Cursor) : List Char × Cursor :=
  let (name, c) := (c.skip 1).takeWhile isNameChar
  if c.seesChar 0 '!' then ('!' :: (name ++ ['!']), c.skip 1) else ('!' :: name, c)

def chars? (inAngles : Bool) (c : Cursor) : Option (Tag × Cursor) :=
  let (cs, c) := c.takeWhile (Tag.isTagChar inAngles)
  if cs.isEmpty then none else (Tag.ofChars? cs).map (·, c)

/-- Reads a tag.  A mark with a name behind it is no handle without another mark, and then the
name belongs to the suffix. -/
def read? (c : Cursor) : Option (TagWord × Cursor) := do
  if c.seesChar 1 '<' then
    let (tag, c) ← chars? true (c.skip 2)
    if c.seesChar 0 '>' then return (.full tag, c.skip 1) else none
  else
    let (handle, rest) := handle c
    if 1 < handle.length && handle.getLast? == some '!' then
      let (suffix, c) ← chars? false rest
      return (.short (String.ofList handle) suffix, c)
    else
      let (cs, c) := (c.skip 1).takeWhile (Tag.isTagChar false)
      let suffix ← Tag.ofChars? cs
      return (if suffix.bytes.isEmpty then .full .bare else .short "!" suffix, c)

end TagWord

abbrev TagHandles := List (String × Tag)

namespace TagHandles

def usual : TagHandles := [("!", .bare), ("!!", .core "")]

/-- The tag that is meant; there is none if its handle was not declared.  A declaration goes
before the usual meaning. -/
def resolve? (declared : TagHandles) : TagWord → Option Tag
  | .full tag => some tag
  | .short handle suffix => ((declared ++ usual).lookup handle).map (·.append suffix)

end TagHandles

end TpcTrigger.Yaml
