import CallTrace.CallStack.Transition
import CallTrace.Traceback

/-!
# Failures of evaluation
-/

namespace CallTrace

/-- What went wrong. -/
inductive Fault
  /-- The call could not be made. -/
  | push (cause : PushError)
  /-- A function was given the wrong number of arguments. -/
  | arity (name : String) (expected got : Nat)
  /-- Something that cannot be called was called. -/
  | notCallable (name : String)
  /-- Anything else. -/
  | custom (text : String)
deriving DecidableEq

namespace Fault

/-- The text shown to a user. -/
def message : Fault → String
  | .push cause => cause.message
  | .arity name expected got =>
    name ++ " expects " ++ toString expected ++
      (if expected = 1 then " argument" else " arguments") ++ ", got " ++ toString got
  | .notCallable name => name ++ " is not callable"
  | .custom text => text

end Fault

/-- A fault on its way out of an evaluation and, as far as it is known by now, where in the source
and under which calls it came up. -/
structure Failure where
  fault : Fault
  span : Option Span := none
  traceback : Option Traceback := none
deriving DecidableEq

namespace Failure

/-- The text shown to a user. -/
def message (e : Failure) : String := e.fault.message

/-- The failure with a place in the source, in place of the one it had. -/
def withSpan (e : Failure) (span : Span) : Failure :=
  { e with span := some span }

/-- The failure with a place in the source, if it had none and there is one. -/
def orSpan (e : Failure) (span : Option Span) : Failure :=
  { e with span := e.span <|> span }

/-- The failure with the calls it came up under, if it had none. Those given first are the
innermost, so they stay. -/
def withTraceback (e : Failure) (traceback : Traceback) : Failure :=
  { e with traceback := e.traceback <|> some traceback }

end Failure

end CallTrace
