import CallTrace.Attempt
import CallTrace.Bindings
import CallTrace.Breakdown
import CallTrace.CallStack
import CallTrace.CallStack.Event
import CallTrace.CallStack.Mark
import CallTrace.CallStack.Observer
import CallTrace.CallStack.Transition
import CallTrace.Callable
import CallTrace.Config
import CallTrace.Context
import CallTrace.Context.Call
import CallTrace.Diagnostics
import CallTrace.Digest
import CallTrace.Failure
import CallTrace.Form
import CallTrace.Form.Source
import CallTrace.Frame
import CallTrace.Log
import CallTrace.Native
import CallTrace.Native.Registry
import CallTrace.Scope
import CallTrace.Scope.Forest
import CallTrace.Span
import CallTrace.Stored
import CallTrace.Symbol
import CallTrace.Text.Blank
import CallTrace.Text.Bytes
import CallTrace.Text.Combining
import CallTrace.Text.Escape
import CallTrace.Text.Keyword
import CallTrace.Text.Ranges
import CallTrace.Text.Unprintable
import CallTrace.Traceback
import CallTrace.Value
import CallTrace.Proofs.Context.CallLog
import CallTrace.Proofs.Context.Diagnostics
import CallTrace.Proofs.Context.Growth
import CallTrace.Proofs.Context.Identity
import CallTrace.Proofs.Context.Labels
import CallTrace.Proofs.Context.NativeCall
import CallTrace.Proofs.Context.Outcome
import CallTrace.Proofs.Context.Propagation
import CallTrace.Proofs.Context.Reachable
import CallTrace.Proofs.Context.TracebackLines
import CallTrace.Proofs.Context.Writable
import CallTrace.Proofs.Diagnostics
import CallTrace.Proofs.Digest
import CallTrace.Proofs.Form.Ending
import CallTrace.Proofs.Form.Growth
import CallTrace.Proofs.Form.Tree
import CallTrace.Proofs.Form.Unambiguous
import CallTrace.Proofs.MapM
import CallTrace.Proofs.Native.Registry
import CallTrace.Proofs.Run
import CallTrace.Proofs.Scope.Lexical
import CallTrace.Proofs.Stack.History
import CallTrace.Proofs.Stack.Lines
import CallTrace.Proofs.Stack.Observers
import CallTrace.Proofs.Stack.Operation
import CallTrace.Proofs.Stack.Replay
import CallTrace.Proofs.Stack.Restore
import CallTrace.Proofs.Stack.Settle
import CallTrace.Proofs.Stack.WellFormed
import CallTrace.Proofs.Stored
import CallTrace.Proofs.Symbol.Interning
import CallTrace.Proofs.Text.Escape
import CallTrace.Proofs.Text.Keyword
import CallTrace.Proofs.Text.Line
import CallTrace.Proofs.Text.Split
import CallTrace.Proofs.Text.Word
