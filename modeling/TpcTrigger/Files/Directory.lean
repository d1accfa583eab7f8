import TpcTrigger.Files.Trouble

/-! # A directory of files

The files of one directory, by their names.  Names with slashes lie in directories below it,
which exist as far as there are files in them.  Of the world outside little is known: that
there are directories above, the usual ones below its root, and a device that is always empty.
-/

namespace TpcTrigger

inductive Found where
  | nothing
  /-- Something that cannot be read as a file. -/
  | unreadable (cause : FileTrouble)
  | file (content : ByteArray)

def pathParts (path : String) : List String :=
  (path.splitOn "/").filter fun part => part ≠ "" ∧ part ≠ "."

inductive PathEnd where
  | name
  /-- A name and a slash: what is there has to be a directory. -/
  | slash
  /-- A dot, and perhaps a slash: the directory that the path before it leads to. -/
  | dot
deriving Repr, DecidableEq

def PathEnd.of (path : String) : PathEnd :=
  if ((path.splitOn "/").filter (· ≠ "")).getLast? = some "." then .dot
  else if path.endsWith "/" then .slash
  else .name

inductive Place where
  /-- Below the directory, by the parts that lead there. -/
  | inside (parts : List String)
  /-- Somewhere above the directory. -/
  | above
  /-- Something in a directory above. -/
  | beside (name : String)
  /-- A place of the world, by the parts that lead there from its root. -/
  | world (parts : List String)
deriving Repr, DecidableEq

/-- The directories that every world has: its root, the usual ones right below it, and those in
them that are as usual. -/
def worldDirectories : List (List String) :=
  [] :: ["bin", "boot", "dev", "etc", "home", "lib", "media", "mnt", "opt", "proc", "root", "run",
    "sbin", "srv", "sys", "tmp", "usr", "var"].map ([·])
  ++ ["bin", "lib", "local", "sbin", "share"].map (["usr", ·])
  ++ ["cache", "lib", "log", "tmp"].map (["var", ·])

/-- The device that is always empty, whatever is written to it. -/
def nullDevice : List String := ["dev", "null"]

def maxNameBytes : Nat := 255

def maxPathBytes : Nat := 4095

/-- Files by name, each name once. -/
structure Directory where
  files : List (String × ByteArray) := []

namespace Directory

def ofFiles (files : List (String × ByteArray)) : Directory :=
  ⟨files.map fun (name, content) => ("/".intercalate (pathParts name), content)⟩

def content? (d : Directory) (parts : List String) : Option ByteArray :=
  d.files.lookup ("/".intercalate parts)

def hasDirectory (d : Directory) : Place → Bool
  | .inside parts => parts.isEmpty || d.files.any fun (name, _) =>
    parts.isPrefixOf (pathParts name).dropLast
  | .above => true
  | .beside _ => false
  | .world parts => worldDirectories.contains parts

def hasFile (d : Directory) : Place → Bool
  | .inside parts => (d.content? parts).isSome
  | .above | .beside _ => false
  | .world parts => parts == nullDevice

/-- Where one more part leads from a directory; two dots lead up. -/
def step : Place → String → Place
  | .inside parts, part =>
    if part ≠ ".." then .inside (parts ++ [part])
    else if parts.isEmpty then .above
    else .inside parts.dropLast
  | .above, part => if part = ".." then .above else .beside part
  | .beside name, _ => .beside name
  | .world parts, part => .world (if part = ".." then parts.dropLast else parts ++ [part])

def enter (d : Directory) (place : Place) : Except FileTrouble Unit :=
  if d.hasDirectory place then .ok ()
  else .error (if d.hasFile place then .notDirectory else .notFound)

def walk (d : Directory) (place : Place) : List String → Except FileTrouble Place
  | [] => .ok place
  | part :: parts => do
    d.enter place
    if maxNameBytes < part.utf8ByteSize then throw .nameTooLong
    else d.walk (step place part) parts

def origin (path : String) : Except FileTrouble Place :=
  if path.isEmpty then .error .notFound
  else if maxPathBytes < path.utf8ByteSize then .error .nameTooLong
  else .ok (if path.startsWith "/" then .world [] else .inside [])

def place (d : Directory) (path : String) : Except FileTrouble Place := do
  d.walk (← origin path) (pathParts path)

def find (d : Directory) (path : String) : Found :=
  match d.place path with
  | .error _ => .nothing
  | .ok place =>
    if d.hasDirectory place then .unreadable .isDirectory
    else if PathEnd.of path ≠ .name then .nothing
    else
      match place with
      | .inside parts => ((d.content? parts).map .file).getD .nothing
      | place => if d.hasFile place then .file .empty else .nothing

def put (d : Directory) (parts : List String) (content : ByteArray) : Directory :=
  let name := "/".intercalate parts
  ⟨(name, content) :: d.files.filter (·.1 ≠ name)⟩

/-- Writes a file, in the place of one that is there already.  What is written outside leaves no
trace in the directory.  A path that ends with a slash names a directory, so it will not do as soon
as the path before its last part leads to one. -/
def write (d : Directory) (path : String) (content : ByteArray) : Except FileTrouble Directory := do
  if PathEnd.of path = .slash then
    d.enter (← d.walk (← origin path) (pathParts path).dropLast)
    throw .isDirectory
  else
    let place ← d.place path
    if d.hasDirectory place then throw .isDirectory
    else if PathEnd.of path = .dot then throw (if d.hasFile place then .notDirectory else .notFound)
    else
      match place with
      | .inside parts => return d.put parts content
      | place => if d.hasFile place || mayHold place then return d else throw .notFound
where
  /-- Whether a file may be made at a place outside: above, or among the temporary ones. -/
  mayHold : Place → Bool
    | .beside _ | .world ["tmp", _] => true
    | _ => false

/-- Writes into the file of the directory that a path leads to, from a position on and over what
is there.  What the file lacks before the position is filled up with zeros. -/
def overwrite (d : Directory) (path : String) (position : Nat) (bytes : ByteArray) : Directory :=
  let parts := pathParts path
  let old := (d.content? parts).getD .empty
  let gap : ByteArray := ⟨Array.replicate (position - old.size) 0⟩
  d.put parts
    (old.extract 0 position ++ gap ++ bytes ++ old.extract (position + bytes.size) old.size)

end Directory

end TpcTrigger
