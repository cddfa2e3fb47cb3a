/-!
# Log records

Operations that log return their records beside their result, in the order in which they were
written. What is done with them is up to the caller.
-/

namespace CallTrace

/-- The part of the program that a record comes from. -/
inductive LogTarget
  | context
  | stack
  | traceback
deriving DecidableEq

namespace LogTarget

/-- The name under which records are filtered. -/
def name : LogTarget → String
  | .context => "serene_eval::runtime"
  | .stack => "serene_eval::stack"
  | .traceback => "serene_eval::traceback"

end LogTarget

/-- A stretch of work that other records may fall into. -/
structure Activity where
  name : String
  target : LogTarget
  fields : List (String × String)
deriving DecidableEq

/-- One record. -/
inductive LogRecord
  /-- An activity has begun. -/
  | began (activity : Activity)
  /-- Something happened within the activities of the given names, the outermost first. -/
  | message (target : LogTarget) (text : String) (within : List String)
deriving DecidableEq

namespace LogRecord

/-- The level of every record. -/
def level : String := "DEBUG"

/-- The record as it appears inside an activity. -/
def inside (activity : Activity) : LogRecord → LogRecord
  | .began inner => .began inner
  | .message target text within => .message target text (activity.name :: within)

end LogRecord

/-- A result together with the records written on the way to it. -/
structure Logged (α : Type) where
  value : α
  log : List LogRecord := []

namespace Logged

variable {α β : Type}

instance : Monad Logged where
  pure a := ⟨a, []⟩
  bind x f := ⟨(f x.value).value, x.log ++ (f x.value).log⟩

@[simp] theorem value_pure (a : α) : (pure a : Logged α).value = a := rfl

@[simp] theorem log_pure (a : α) : (pure a : Logged α).log = [] := rfl

@[simp] theorem value_bind (x : Logged α) (f : α → Logged β) :
    (x >>= f).value = (f x.value).value := rfl

@[simp] theorem log_bind (x : Logged α) (f : α → Logged β) :
    (x >>= f).log = x.log ++ (f x.value).log := rfl

theorem mk_bind (a : α) (log : List LogRecord) (f : α → Logged β) :
    (⟨a, log⟩ >>= f) = ⟨(f a).value, log ++ (f a).log⟩ := rfl

@[ext] theorem ext {x y : Logged α} (hv : x.value = y.value) (hl : x.log = y.log) : x = y := by
  cases x
  cases y
  simp_all

instance : LawfulMonad Logged :=
  LawfulMonad.mk' Logged
    (fun x => ext rfl (List.append_nil x.log))
    (fun _ _ => rfl)
    (fun _ _ _ => ext rfl (List.append_assoc _ _ _))

@[simp] theorem value_map (f : α → β) (x : Logged α) : (f <$> x).value = f x.value := rfl

@[simp] theorem log_map (f : α → β) (x : Logged α) : (f <$> x).log = x.log :=
  List.append_nil x.log

theorem map_mk (f : α → β) (a : α) (log : List LogRecord) :
    f <$> (⟨a, log⟩ : Logged α) = ⟨f a, log⟩ :=
  ext rfl (log_map f ⟨a, log⟩)

/-- Does some work as part of an activity, whose beginning is recorded first. -/
def within (activity : Activity) (work : Logged α) : Logged α :=
  ⟨work.value, .began activity :: work.log.map (LogRecord.inside activity)⟩

@[simp] theorem value_within (activity : Activity) (work : Logged α) :
    (within activity work).value = work.value := rfl

end Logged

end CallTrace
