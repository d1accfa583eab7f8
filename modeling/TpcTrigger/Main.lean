import TpcTrigger.Command.Action

/-! # The program

Reads the command line, runs what it asks for against the files of the world, and writes the
log to the terminal and to a file.
-/

namespace TpcTrigger.Command

/-- What is known about why a file could not be used. -/
def troubleOf : IO.Error → FileTrouble
  | .noFileOrDirectory .. => .notFound
  | .inappropriateType _ code _ =>
    if code = 20 ∨ code = 0 - 20 then .notDirectory else .isDirectory
  | e@(.invalidArgument _ code _) =>
    if code = 36 ∨ code = 0 - 36 then .nameTooLong else .other (toString e)
  | e => .other (toString e)

def findFile (path : String) : IO Found := do
  try
    return .file (← IO.FS.readBinFile path)
  catch e =>
    match troubleOf e with
    | .notFound | .notDirectory | .nameTooLong => return .nothing
    | cause => return .unreadable cause

def saveFile (path text : String) : IO (Except FileTrouble Unit) := do
  try
    IO.FS.writeFile path text
    return .ok ()
  catch e => return .error (troubleOf e)

/-- Runs a session against the files of the world. -/
def Session.perform {α : Type} (report : LogLine → IO Unit) : Session α → IO α
  | .done a => return a
  | .log line next => do
    report line
    next.perform report
  | .read path next => do
    let found ← findFile path
    (next found).perform report
  | .write path text next => do
    let answer ← saveFile path text
    (next answer).perform report

def noLogFile (cause : FileTrouble) : LogLine :=
  ⟨.error, s!"Could not create the log file: {cause.message}"⟩

/-- The stamp of a line that is written now; the moment is what the clock of the machine shows. -/
def stampNow : IO LogStamp := do
  let now ← IO.monoMsNow
  let thread ← IO.getTID
  return { moment := s!"{now} ms", thread := thread.toNat }

def startLog : IO (LogLine → IO Unit) := do
  try
    let file ← IO.FS.Handle.mk logPath .write
    return fun line => do
      let text := line.written (← stampNow)
      IO.print text
      file.putStr text
      file.flush
  catch e =>
    IO.print ((noLogFile (troubleOf e)).written (← stampNow))
    return fun line => do IO.print (line.written (← stampNow))

def usage : String := String.intercalate "\n" [
  "Usage: --path <path> [COMMAND]",
  "",
  "Commands:",
  "  new   Make a template configuration yaml file",
  "  run   Find trigger primitives in a capture or a synthetic stream",
  "  help  Print this message",
  "",
  "Options:",
  "  -p, --path <path>                Path to the configuration file",
  "  -h, --help                       Print help",
  "",
  "Options of run:",
  "  -i, --input <input>              File of raw superchunks; synthetic data is used if absent",
  "  -n, --superchunks <superchunks>  Number of synthetic superchunks [default: 1000]",
  "      --seed <seed>                Seed of the synthetic stream [default: 0]",
  "      --hits <hits>                Write the trigger primitives to this YAML file"]

end TpcTrigger.Command

def main (words : List String) : IO UInt32 := do
  match TpcTrigger.Command.Invocation.ofWords words with
  | .error refusal =>
    match refusal with
    | .help => IO.println TpcTrigger.Command.usage
    | .usage => IO.eprintln TpcTrigger.Command.usage
    return UInt32.ofNat refusal.exitCode
  | .ok invocation =>
    let report ← TpcTrigger.Command.startLog
    invocation.session.perform report
    return 0
