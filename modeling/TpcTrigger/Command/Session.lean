import TpcTrigger.Command.Log

/-! # Sessions

A session is a program that asks for files and reports in lines of a log.  What answers its
requests is left open: a directory that is a plain value, or the world.
-/

namespace TpcTrigger.Command

/-- A program that makes requests one after the other. -/
inductive Session (α : Type) where
  | done (a : α)
  | log (line : LogLine) (next : Session α)
  | read (path : String) (next : Found → Session α)
  /-- Asks to write a file, and hears what came of it. -/
  | write (path : String) (text : String) (next : Except FileTrouble Unit → Session α)

namespace Session

variable {α β : Type}

def andThen (s : Session α) (f : α → Session β) : Session β :=
  match s with
  | done a => f a
  | log line next => log line (next.andThen f)
  | read path next => read path fun found => (next found).andThen f
  | write path text next => write path text fun answer => (next answer).andThen f

instance : Monad Session where
  pure := done
  bind := andThen

def info (text : String) : Session Unit := log ⟨.info, text⟩ (done ())

def error (text : String) : Session Unit := log ⟨.error, text⟩ (done ())

def find (path : String) : Session Found := read path done

def save (path : String) (text : String) : Session (Except FileTrouble Unit) :=
  write path text done

/-- What a session leaves behind. -/
structure Trace (α : Type) where
  result : α
  directory : Directory
  lines : List LogLine

/-- Runs a session in a directory.  Its log file is there up to the given position, or there is
none.  No clock runs in a directory, so all lines have the same stamp. -/
def runIn (d : Directory) (position : Option Nat) : Session α → Trace α
  | done a => ⟨a, d, []⟩
  | log line next =>
    let bytes := (line.written {}).toUTF8
    let d := position.elim d fun n => d.overwrite logPath n bytes
    let trace := next.runIn d (position.map (· + bytes.size))
    { trace with lines := line :: trace.lines }
  | read path next => (next (d.find path)).runIn d position
  | write path text next =>
    match d.write path text.toUTF8 with
    | .ok d => (next (.ok ())).runIn d position
    | .error cause => (next (.error cause)).runIn d position

/-- Runs a session in a directory from the start of its log on.  If the log file cannot be made
the session goes on without it. -/
def runLogged (d : Directory) (s : Session α) : Trace α :=
  match d.write logPath .empty with
  | .ok d => s.runIn d (some 0)
  | .error _ => s.runIn d none

end Session

end TpcTrigger.Command
