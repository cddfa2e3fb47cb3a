import CallTrace.Frame

/-!
# Tracebacks
-/

namespace CallTrace

/-- The frames of a call stack at one moment, the oldest call first. -/
structure Traceback where
  frames : List Frame := []
deriving DecidableEq

namespace Traceback

/-- The number of frames. -/
def length (t : Traceback) : Nat := t.frames.length

/-- Whether no call was active. -/
def isEmpty (t : Traceback) : Bool := t.frames.isEmpty

/-- The most recent call. -/
def innermost? (t : Traceback) : Option Frame := t.frames.getLast?

/-- The numbered lines of a traceback, counting from `start`. -/
def renderFrom (legend : Legend) (start : Nat) : List Frame → Option String
  | [] => some ""
  | f :: rest => do
    let frame ← f.render legend
    let lines ← renderFrom legend (start + 1) rest
    some ("  " ++ toString start ++ ": " ++ frame ++ "\n" ++ lines)

/-- The text of a traceback: a heading and a line per frame, or nothing at all. It has no end where
one of its frames has none. -/
def render (t : Traceback) (legend : Legend) : Option String :=
  if t.isEmpty then some ""
  else (renderFrom legend 0 t.frames).map ("traceback (most recent call last):\n" ++ ·)

/-- The developer-facing text. -/
def describe (t : Traceback) : String :=
  "TraceBack \x7b frames: [" ++ ", ".intercalate (t.frames.map Frame.describe) ++ "] \x7d"

end Traceback

end CallTrace
