import TpcTrigger.Capture.Writer

/-! # Reading captures

A superchunk is read by as many reads as it takes to fill it.  A read may hand out less than
it was asked for, may be interrupted and made again, or may fail.  What a failed read leaves
unfinished is lost: the next superchunk is read from where the file stands then.
-/

namespace TpcTrigger

/-- What a single read of a file does.  Where the file ends every read hands out nothing,
unless it is interrupted or fails. -/
inductive ReadOutcome where
  /-- Hands out at most `n + 1` bytes. -/
  | short (n : Nat)
  /-- Does nothing, and is made again. -/
  | interrupted
  | failed (cause : FileTrouble)
deriving Repr, DecidableEq

structure CaptureReader where
  content : ByteArray
  /-- Bytes that the file has handed out. -/
  position : Nat := 0
  superchunksRead : Nat := 0
  ended : Bool := false

namespace CaptureReader

def sizeBytes (r : CaptureReader) : Nat := r.content.size

def superchunks (r : CaptureReader) : Nat := r.content.size / superchunkBytes

/-- Number of bytes that the file has not handed out. -/
def remaining (r : CaptureReader) : Nat := r.content.size - r.position

/-- How reading into a buffer came to its end, with the number of bytes in it. -/
inductive Filling where
  /-- The buffer is full or the file has ended. -/
  | stopped (filled : Nat)
  | failed (filled : Nat) (cause : FileTrouble)
deriving Repr, DecidableEq

/-- Reads until a buffer that already holds `filled` bytes is full, from a file with
`available` bytes for it.  The outcomes of the reads are given; when they are used up the
reads are undisturbed.  Hands out the outcomes that are left. -/
def fill (available : Nat) : Nat → List ReadOutcome → Filling × List ReadOutcome
  | _, [] => (.stopped (min superchunkBytes available), [])
  | filled, outcome :: rest =>
    if filled = superchunkBytes then (.stopped filled, outcome :: rest)
    else
      match outcome with
      | .interrupted => fill available filled rest
      | .failed cause => (.failed filled cause, rest)
      | .short n =>
        let count := min (n + 1) (min (superchunkBytes - filled) (available - filled))
        if count = 0 then (.stopped filled, rest) else fill available (filled + count) rest

/-- What a call of the reader answers: a superchunk, nothing at the end, or an error. -/
abbrev Answer := Except CaptureError (Option ByteArray)

/-- Reads the next superchunk.  The end of the file is remembered, and an unfinished
superchunk before it is reported once. -/
def next (r : CaptureReader) (outcomes : List ReadOutcome) :
    Answer × CaptureReader × List ReadOutcome :=
  if r.ended then (.ok none, r, outcomes)
  else
    match fill r.remaining 0 outcomes with
    | (.failed filled cause, outcomes) =>
      (.error (.fileTrouble cause), { r with position := r.position + filled }, outcomes)
    | (.stopped filled, outcomes) =>
      let position := r.position + filled
      if filled = 0 then (.ok none, { r with ended := true }, outcomes)
      else if filled < superchunkBytes then
        (.error (.truncated filled), { r with position, ended := true }, outcomes)
      else
        (.ok (some (r.content.extract r.position position)),
          { r with position, superchunksRead := r.superchunksRead + 1 }, outcomes)

/-- Makes a number of calls, and hands out their answers in order. -/
def answers : Nat → CaptureReader → List ReadOutcome → List Answer
  | 0, _, _ => []
  | n + 1, r, outcomes =>
    let (answer, r, outcomes) := r.next outcomes
    answer :: answers n r outcomes

def untilError : List Answer → List ByteArray × Option CaptureError
  | .ok (some bytes) :: rest =>
    let (superchunks, trouble) := untilError rest
    (bytes :: superchunks, trouble)
  | .error cause :: _ => ([], some cause)
  | .ok none :: _ | [] => ([], none)

def toEnd (r : CaptureReader) : List ByteArray × Option CaptureError :=
  untilError (answers (r.superchunks + 1) r [])

end CaptureReader

end TpcTrigger
