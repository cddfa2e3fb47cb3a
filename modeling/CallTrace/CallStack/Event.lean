import CallTrace.Callable

/-!
# Call events

What happens on a call stack, as an observer is told of it.
-/

namespace CallTrace

/-- Something that happened on a call stack. -/
inductive CallEvent
  /-- A call was made. Its frame now counts `repeats` repeats, and `collapsed` says whether it was
  there before. -/
  | entered (callable : CallableId) (repeats : UInt32) (collapsed : Bool)
  /-- A call was left, or there was none to leave. -/
  | left (callable : Option CallableId)
deriving DecidableEq

namespace CallEvent

/-- The line that reports an event, with callables named by `label`. -/
def line (label : CallableId → String) : CallEvent → String
  | .entered callable repeats _ =>
    if repeats = 0 then "[Stack] --> " ++ label callable
    else "[Stack] --> " ++ label callable ++ " (repeat " ++ toString repeats.toNat ++ ")"
  | .left (some callable) => "[Stack] <-- " ++ label callable
  | .left none => "[Stack] <-- nil"

/-- The line that reports an event, with callables named by their numbers. -/
def render (e : CallEvent) : String :=
  e.line CallableId.render

end CallEvent

end CallTrace
