import CallTrace.Digest
import CallTrace.Failure
import CallTrace.Scope

/-!
# Native functions

Functions that are part of the evaluator itself.
-/

namespace CallTrace

/-- A native function: given the scope and the place it is called from and its arguments, it gives
a value or fails. -/
structure Native where
  name : String
  run : Scope → FormId → List Value → Except Failure Value

namespace Native

/-- The developer-facing text, `NativeFunction(hash)`. -/
def describe (f : Native) : String :=
  "NativeFunction(" ++ f.name ++ ")"

/-- The hash of the one argument, as an integer. -/
def hash : Native where
  name := "hash"
  run _ _
    | [v] => .ok (.int v.hash)
    | args => .error { fault := .arity "hash" 1 args.length }

/-- Where it failed is not for the function to say. -/
theorem eq_of_run_hash_eq_error {scope : Scope} {site : FormId} {args : List Value} {e : Failure}
    (h : hash.run scope site args = .error e) : e = { fault := e.fault } := by
  match args with
  | [_] => contradiction
  | [] => rw [← Except.error.inj h]
  | _ :: _ :: _ => rw [← Except.error.inj h]

end Native

end CallTrace
