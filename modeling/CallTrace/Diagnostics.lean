import CallTrace.Text.Keyword

/-!
# Diagnostics

What an evaluation logs besides its results, as a set of flags that can be named in a setting such
as `stack, traceback`.
-/

namespace CallTrace

/-- A set of things to log, one bit for each. -/
structure Diagnostics where
  bits : UInt32
deriving DecidableEq

namespace Diagnostics

/-- Nothing. -/
def none : Diagnostics := ⟨0⟩

/-- The events of the call stack. -/
def calls : Diagnostics := ⟨1⟩

/-- The tracebacks of failures. -/
def tracebacks : Diagnostics := ⟨2⟩

/-- What is in one of two sets. -/
def union (a b : Diagnostics) : Diagnostics := ⟨a.bits ||| b.bits⟩

/-- What is in the first set and not in the second. -/
def difference (a b : Diagnostics) : Diagnostics := ⟨a.bits &&& ~~~b.bits⟩

/-- Everything. -/
def all : Diagnostics := calls.union tracebacks

instance : Inhabited Diagnostics := ⟨none⟩

/-- Whether the set is empty. -/
def isEmpty (a : Diagnostics) : Bool := a.bits = 0

/-- Whether all of `b` is in `a`. -/
def contains (a b : Diagnostics) : Bool := a.bits &&& b.bits = b.bits

/-- The set that a keyword stands for; an unknown one stands for nothing. -/
def ofKeyword (word : List Char) : Diagnostics :=
  if word = "stack".toList then calls
  else if word = "traceback".toList then tracebacks
  else if word = "all".toList then all
  else none

/-- The set named by a comma-separated list. -/
def parse (s : String) : Diagnostics :=
  (Text.keywords s).foldl (fun set word => set.union (ofKeyword word)) none

/-- The set named by a setting, which may not have been made. -/
def ofSetting (setting : Option String) : Diagnostics :=
  (setting.map parse).getD none

/-- The developer-facing text, `DebugFlags(3)`. -/
def describe (a : Diagnostics) : String :=
  "DebugFlags(" ++ toString a.bits.toNat ++ ")"

end Diagnostics

end CallTrace
