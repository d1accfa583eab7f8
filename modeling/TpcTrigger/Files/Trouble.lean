/-! # Trouble with files

Why a file cannot be read or written, and how the system words it.
-/

namespace TpcTrigger

/-- Why a file cannot be read or written. -/
inductive FileTrouble where
  | notFound
  | isDirectory
  /-- A path leads through a file. -/
  | notDirectory
  /-- A name on a path, or the path, has too many bytes. -/
  | nameTooLong
  /-- The content is no text. -/
  | notText
  /-- Any other cause, as the system words it. -/
  | other (text : String)
deriving Repr, DecidableEq

def FileTrouble.message : FileTrouble → String
  | notFound => "No such file or directory (os error 2)"
  | isDirectory => "Is a directory (os error 21)"
  | notDirectory => "Not a directory (os error 20)"
  | nameTooLong => "File name too long (os error 36)"
  | notText => "stream did not contain valid UTF-8"
  | other text => text

end TpcTrigger
