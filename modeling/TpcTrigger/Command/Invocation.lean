import TpcTrigger.Decimal.Numeral

/-! # Reading the command line

The words of the command line are options, values and the names of commands.  A value follows
its option in the same word or as the next one, and then it must not look like an option.
Every option may be given once.  Reading ends early at a request for help or at the first
mistake; a value that is a word of its own is looked at only when the next option or the end
is met.
-/

namespace TpcTrigger.Command

inductive ValueOption where
  | path
  | input
  | superchunks
  | seed
  | hits
deriving Repr, DecidableEq, Inhabited

def ValueOption.name : ValueOption → String
  | path => "path"
  | input => "input"
  | superchunks => "superchunks"
  | seed => "seed"
  | hits => "hits"

def ValueOption.letter? : ValueOption → Option Char
  | path => some 'p'
  | input => some 'i'
  | superchunks => some 'n'
  | seed | hits => none

/-- A number in the 64-bit range, with or without a plus sign. -/
def readCount? (text : String) : Option Nat := do
  let digits := match text.toList with
    | '+' :: digits => digits
    | digits => digits
  let value ← Numeral.ofBase? 10 digits
  if value < UInt64.size then some value else none

def ValueOption.accepts (o : ValueOption) (value : String) : Bool :=
  match o with
  | superchunks | seed => (readCount? value).isSome
  | path | input | hits => true

inductive Refusal where
  | help
  | usage
deriving Repr, DecidableEq, Inhabited

def Refusal.exitCode : Refusal → Nat
  | help => 0
  | usage => 2

inductive Word where
  | value (text : String)
  /-- The end of all options. -/
  | escape
  | long (name : String) (value : Option String)
  /-- Letters behind a dash, with what follows the first of them. -/
  | short (letter : Char) (rest : List Char)
deriving Repr, DecidableEq, Inhabited

namespace Word

/-- Splits a long option at the first equals sign. -/
def splitLong (cs : List Char) : Word :=
  let name := String.ofList (cs.takeWhile (· ≠ '='))
  match cs.dropWhile (· ≠ '=') with
  | _ :: text => .long name (some (String.ofList text))
  | [] => .long name none

def ofString (word : String) : Word :=
  match word.toList with
  | ['-', '-'] => .escape
  | '-' :: '-' :: cs => splitLong cs
  | '-' :: letter :: rest => .short letter rest
  | _ => .value word

end Word

/-- What can stand at one place of the command line. -/
structure Scope where
  options : List ValueOption
  commands : List String := []

namespace Scope

def long? (s : Scope) (name : String) : Option ValueOption := s.options.find? (·.name = name)

def short? (s : Scope) (letter : Char) : Option ValueOption :=
  s.options.find? (·.letter? = some letter)

end Scope

/-- What was read at one place of the command line. -/
structure Draft where
  /-- The values that were looked at. -/
  values : List (ValueOption × String) := []
  /-- A value that is still to be looked at. -/
  last : Option (ValueOption × String) := none
deriving Repr

namespace Draft

def accept (d : Draft) (o : ValueOption) (value : String) : Except Refusal Draft :=
  if (d.values.lookup o).isSome || !o.accepts value then .error .usage
  else .ok { d with values := (o, value) :: d.values }

def commit (d : Draft) : Except Refusal Draft :=
  match d.last with
  | none => .ok d
  | some (o, value) => { d with last := none }.accept o value

def value? (d : Draft) (o : ValueOption) : Option String := d.values.lookup o

end Draft

/-- How reading in a scope came to its end. -/
structure Reach where
  draft : Draft
  /-- The command that was met, with the words behind it. -/
  command : Option (String × List String) := none

/-- Reads words in a scope up to the end or to a command. -/
def scan (s : Scope) (d : Draft) : List String → Except Refusal Reach
  | [] => .ok { draft := d }
  | word :: rest =>
    match Word.ofString word with
    | .value text =>
      if s.commands.contains text then .ok { draft := d, command := some (text, rest) }
      else .error .usage
    | .escape => if rest.isEmpty then .ok { draft := d } else .error .usage
    | .long "help" none | .short 'h' _ => do
      let _ ← d.commit
      .error .help
    | .long name (some value) => do
      let some o := s.long? name | .error .usage
      let d ← d.commit
      scan s (← d.accept o value) rest
    | .long name none => do
      let some o := s.long? name | .error .usage
      scanValue (← d.commit) o rest
    | .short letter [] => do
      let some o := s.short? letter | .error .usage
      scanValue (← d.commit) o rest
    | .short letter (c :: cs) => do
      let some o := s.short? letter | .error .usage
      let d ← d.commit
      scan s (← d.accept o (String.ofList (if c = '=' then cs else c :: cs))) rest
where
  /-- Reads the value of an option as a word of its own, and goes on. -/
  scanValue (d : Draft) (o : ValueOption) : List String → Except Refusal Reach
    | [] => .error .usage
    | word :: rest =>
      match Word.ofString word with
      | .value text => scan s { d with last := some (o, text) } rest
      | _ => .error .usage

structure RunOptions where
  /-- The capture to read; without one the superchunks are synthetic. -/
  input : Option String := none
  superchunks : Nat := 1000
  seed : Nat := 0
  hits : Option String := none
deriving Repr, DecidableEq

inductive Action where
  /-- Write a settings file with the usual values. -/
  | new
  | run (options : RunOptions)
deriving Repr, DecidableEq

structure Invocation where
  settingsPath : String
  action : Option Action
deriving Repr, DecidableEq

def rootScope : Scope := ⟨[.path], ["new", "run", "help"]⟩

def runScope : Scope := { options := [.input, .superchunks, .seed, .hits] }

/-- Behind the command that writes a settings file. -/
def newScope : Scope := { options := [] }

def scanAll (s : Scope) (words : List String) : Except Refusal Draft := do
  (← scan s {} words).draft.commit

def RunOptions.ofDraft (d : Draft) : RunOptions where
  input := d.value? .input
  superchunks := ((d.value? .superchunks).bind readCount?).getD 1000
  seed := ((d.value? .seed).bind readCount?).getD 0
  hits := d.value? .hits

def readTopics (words : List String) : Refusal :=
  match words with
  | [] => .help
  | [topic] => if rootScope.commands.contains topic then .help else .usage
  | _ => .usage

def readAction (command : Option (String × List String)) : Except Refusal (Option Action) :=
  match command with
  | none => .ok none
  | some ("new", words) => (scanAll newScope words).map fun _ => some .new
  | some ("run", words) => (scanAll runScope words).map fun d => some (.run (.ofDraft d))
  | some (_, words) => .error (readTopics words)

def Invocation.ofWords (words : List String) : Except Refusal Invocation := do
  let reach ← scan rootScope {} words
  let action ← readAction reach.command
  match (← reach.draft.commit).value? .path with
  | none => .error .usage
  | some settingsPath => .ok ⟨settingsPath, action⟩

end TpcTrigger.Command
