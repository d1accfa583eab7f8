import TpcTrigger.Files.Trouble
import TpcTrigger.Superchunk
import TpcTrigger.Text.Quoted

/-! # Captures

A capture is a file of superchunks back to back, with nothing in between.  Only buffers of
exactly one superchunk are written; any other is refused and leaves the capture as it was.
-/

namespace TpcTrigger

inductive CaptureError where
  | missingFile (path : String)
  /-- The capture ends in the middle of a superchunk. -/
  | truncated (found : Nat)
  | badSuperchunk (cause : FrameError)
  | fileTrouble (cause : FileTrouble)
deriving Repr, DecidableEq

/-- The text shown when something is wrong with a capture. -/
def CaptureError.message : CaptureError → String
  | missingFile path =>
      s!"Could not open frame file because file {Quoted.encode path} does not exist"
  | truncated n => s!"Frame file ended with a partial superchunk of {n} bytes"
  | badSuperchunk cause => s!"Frame file was given a bad superchunk: {cause.message}"
  | fileTrouble cause => s!"Frame file failed due to IO error: {cause.message}"

structure CaptureWriter where
  content : ByteArray := .empty
  written : Nat := 0

namespace CaptureWriter

def write (w : CaptureWriter) (bytes : ByteArray) : Except CaptureError CaptureWriter :=
  match Superchunk.checkSize bytes with
  | .ok () => .ok ⟨w.content ++ bytes, w.written + 1⟩
  | .error cause => .error (.badSuperchunk cause)

/-- Appends the superchunks among some buffers, and passes the refused ones over. -/
def writeAll (w : CaptureWriter) (buffers : List ByteArray) : CaptureWriter :=
  buffers.foldl (fun w bytes => (w.write bytes).toOption.getD w) w

end CaptureWriter

end TpcTrigger
