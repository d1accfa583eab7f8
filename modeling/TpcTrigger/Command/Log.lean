import TpcTrigger.Files.Directory

/-! # The log

What a session reports goes to a file, a line at a time.  A line says when it was written, by
which thread, how much it matters, and what was done, with dashes in between.  The file is one
like any other: the session may read it, or write another text in its place, and then the next
line still goes to where the line before it ended.
-/

namespace TpcTrigger.Command

/-- How much a line of the log matters. -/
inductive LogLevel where
  | info
  | error
deriving Repr, DecidableEq, Inhabited

def LogLevel.name : LogLevel → String
  | info => "info"
  | error => "error"

structure LogLine where
  level : LogLevel
  text : String
deriving Repr, DecidableEq, Inhabited

/-- When a line was written, and by which thread. -/
structure LogStamp where
  moment : String := "01/01/00 00:00"
  thread : Nat := 1
deriving Repr, DecidableEq, Inhabited

def logPath : String := "./tpfinder.log"

def reportStarts : List String := ["Making a template", "Done.", "Loading config",
  "Config successfully", "Window: ", "Threshold factor", "Reading ", "Generating ", "Processed ",
  "Rejected:", "Windows:", "Worker ", "Wrote "]

namespace LogLine

def dash : String := " - "

def written (line : LogLine) (stamp : LogStamp) : String :=
  s!"[{stamp.moment}]{dash}[thread: {stamp.thread}]{dash}[{line.level.name}]{dash}{line.text}\n"

/-- Reads a line back, with or without a carriage return at its end.  What stands in front of its
moment may be left over from another text. -/
def ofText? (text : String) : Option LogLine :=
  match (text.dropSuffix "\r").toString.splitOn dash with
  | _ :: _ :: mark :: rest@(_ :: _) =>
    ([.info, .error].find? fun level => mark = s!"[{LogLevel.name level}]").map
      (⟨·, dash.intercalate rest⟩)
  | _ => none

/-- Whether a line is an error or a report.  A line that a text with line ends in it has brought
into the log need not be. -/
def isReport (line : LogLine) : Bool :=
  line.level == .error || reportStarts.any (line.text.startsWith ·)

end LogLine

/-- The errors and reports that are read from the log file of a directory, if there is one. -/
def logLines? (d : Directory) : Option (List LogLine) :=
  match d.find logPath with
  | .file content =>
    some ((String.fromUTF8? content).elim [] fun text =>
      ((text.splitOn "\n").filterMap LogLine.ofText?).filter (·.isReport))
  | _ => none

end TpcTrigger.Command
