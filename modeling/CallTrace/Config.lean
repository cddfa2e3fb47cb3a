import CallTrace.Diagnostics

/-!
# Configurations
-/

namespace CallTrace

/-- How an evaluation is set up. -/
structure Config where
  diagnostics : Diagnostics := .none
deriving DecidableEq

namespace Config

/-- Whether the events of the call stack are logged. -/
def logsCalls (c : Config) : Bool := c.diagnostics.contains .calls

/-- Whether the tracebacks of failures are logged. -/
def logsTracebacks (c : Config) : Bool := c.diagnostics.contains .tracebacks

/-- The configuration with or without logging of the call stack. -/
def withCallLogging (c : Config) (wanted : Bool) : Config :=
  ⟨if wanted then c.diagnostics.union .calls else c.diagnostics.difference .calls⟩

end Config

end CallTrace
