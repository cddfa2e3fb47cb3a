import CallTrace.Attempt
import CallTrace.Context

/-!
# Native calls

Native functions are called like any other: the call is on the stack while the function runs. A
failure takes with it where it was called from and which calls were active, and whatever happened
the stack is then as it was before.
-/

namespace CallTrace.Context

/-- Gives a failure the calls that are active now, unless it has some already or there are none.
Where tracebacks are logged this one is, as long as it has an end. -/
def withActiveCalls (c : Context) (e : Failure) : Attempt Failure :=
  if e.traceback.isSome || c.stack.isEmpty then pure e
  else
    let traceback := c.stack.traceback
    if c.config.logsTracebacks then do
      let text ← Attempt.ofText (traceback.render c.legend)
      Attempt.record (.message .traceback (e.message ++ "\n" ++ text) [])
      pure (e.withTraceback traceback)
    else pure (e.withTraceback traceback)

/-- Runs the function behind a callable on some arguments. -/
def invoke (c : Context) (scope : Scope) (site : FormId) (callable : CallableId)
    (args : List Value) : Except Failure Value :=
  match (c.functions.get? callable).map FunctionEntry.callee with
  | some (.native f) => f.run scope site args
  | _ => .error { fault := .notCallable (c.nameOf callable) }

/-- Gives a failed result the place it was called from and the calls it happened under. -/
def complete (c : Context) (site : FormId) :
    Except Failure Value → Attempt (Except Failure Value)
  | .ok value => pure (.ok value)
  | .error e => do
    let e ← c.withActiveCalls (e.orSpan (c.forms.span? site))
    pure (.error e)

/-- The activity of calling a native function. -/
def nativeCall (callable : CallableId) : Activity :=
  ⟨"call_native", .context, [("callable", callable.render)]⟩

/-- Calls a native function. A call that cannot be made fails without a place and without a
traceback. -/
def call (c : Context) (scope : Scope) (site : FormId) (callable : CallableId)
    (args : List Value) : Attempt (Except Failure Value × Context) :=
  Attempt.within (nativeCall callable) <|
    match c.stack.push site callable with
    | .error cause => pure (.error { fault := .push cause }, c)
    | .ok pushed => do
      let during := { c with stack := ← ExceptT.lift pushed }
      let result ← during.complete site (during.invoke scope site callable args)
      let stack ← ExceptT.lift (during.stack.restore c.stack.mark)
      pure (result, { during with stack })

end CallTrace.Context
