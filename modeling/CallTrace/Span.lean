/-!
# Spans of source text
-/

namespace CallTrace

/-- A range of byte offsets in a source text. Nothing keeps `stop` from lying before `start`. -/
structure Span where
  start : UInt32
  stop : UInt32
deriving DecidableEq

namespace Span

/-- The span of code that has no place in a source text. -/
def none : Span := ⟨0, 0⟩

/-- The number of bytes covered, zero if the span is reversed. -/
def length (s : Span) : UInt32 :=
  if s.start ≤ s.stop then s.stop - s.start else 0

/-- Whether the span covers nothing. -/
def isEmpty (s : Span) : Bool :=
  s.stop ≤ s.start

/-- The smallest start and the largest stop of two spans. -/
def merge (a b : Span) : Span :=
  ⟨if a.start ≤ b.start then a.start else b.start, if a.stop ≤ b.stop then b.stop else a.stop⟩

/-- The text of a span, `3..9`. -/
def render (s : Span) : String :=
  toString s.start.toNat ++ ".." ++ toString s.stop.toNat

end Span

end CallTrace
