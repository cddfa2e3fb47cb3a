import CallTrace.Bindings
import CallTrace.Native

/-!
# Registries of native functions

A registry finds native functions by name, and it lists the names and the functions, both in the
byte order of the names.
-/

namespace CallTrace

/-- Native functions, each found by its own name. -/
structure Registry where
  table : Bindings String Native
  named : ∀ name f, table.get? name = some f → f.name = name

namespace Registry

/-- The registry without functions. -/
def empty : Registry where
  table := ∅
  named := nofun

/-- Adds a function, in place of one of the same name. -/
def insert (r : Registry) (f : Native) : Registry where
  table := r.table.insert f.name f
  named name g h := by
    rw [Bindings.get?_insert] at h
    split at h
    · next hname => exact Option.some.inj h ▸ hname
    · exact r.named name g h

/-- The registry of the functions in a list; of those with the same name the last one counts. -/
def ofList (fs : List Native) : Registry :=
  fs.foldl insert empty

/-- The functions that every evaluation knows. -/
def builtin : Registry := ofList [Native.hash]

/-- The function of a name. -/
def get? (r : Registry) (name : String) : Option Native :=
  r.table.get? name

/-- The names of all functions, in byte order. -/
def names (r : Registry) : List String :=
  Text.sortBy id r.table.keys

/-- All functions, in the byte order of their names. -/
def functions (r : Registry) : List Native :=
  Text.sortBy Native.name r.table.values

/-- The number of functions. -/
def size (r : Registry) : Nat := r.table.size

/-- Whether there are no functions. -/
def isEmpty (r : Registry) : Bool := r.table.entries.isEmpty

/-! ## The builtin functions -/

theorem functions_builtin : builtin.functions = [Native.hash] := rfl

theorem get?_builtin_of_mem {f : Native} (h : f ∈ builtin.functions) :
    builtin.get? f.name = some f := by
  obtain rfl : f = Native.hash := List.mem_singleton.mp h
  rfl

/-- No builtin says where it failed. -/
theorem eq_of_run_builtin_eq_error {f : Native} (hf : f ∈ builtin.functions) {scope : Scope}
    {site : FormId} {args : List Value} {e : Failure} (h : f.run scope site args = .error e) :
    e = { fault := e.fault } := by
  obtain rfl : f = Native.hash := List.mem_singleton.mp hf
  exact Native.eq_of_run_hash_eq_error h

theorem nodup_names_builtin : builtin.names.Nodup := by
  decide

end Registry

end CallTrace
