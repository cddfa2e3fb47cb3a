import CallTrace.Breakdown
import CallTrace.Log

/-!
# Attempts

An operation that may break down still leaves the records it wrote until then.
-/

namespace CallTrace

/-- An operation that gives a result or breaks down, with the records it writes either way. -/
abbrev Attempt : Type → Type := ExceptT Breakdown Logged

namespace Attempt

variable {α β : Type}

/-- Does something that writes no record. -/
def ofExcept (x : Except Breakdown α) : Attempt α :=
  .mk (pure x)

/-- Goes on with a text, if it has an end. -/
def ofText (text : Option String) : Attempt String :=
  match text with
  | some text => pure text
  | none => throw .endless

/-- Writes a record. -/
def record (r : LogRecord) : Attempt Unit :=
  ExceptT.lift ⟨(), [r]⟩

/-- Attempts something as part of an activity, whose beginning is recorded first. -/
def within (activity : Activity) (work : Attempt α) : Attempt α :=
  .mk (Logged.within activity work.run)

@[simp] theorem run_within (activity : Activity) (work : Attempt α) :
    (within activity work).run = Logged.within activity work.run := rfl

@[simp] theorem value_run_pure (a : α) : (pure a : Attempt α).run.value = .ok a := rfl

@[simp] theorem value_run_ofExcept (x : Except Breakdown α) : (ofExcept x).run.value = x := rfl

@[simp] theorem value_run_lift (x : Logged α) :
    (ExceptT.lift x : Attempt α).run.value = .ok x.value := rfl

@[simp] theorem log_run_pure (a : α) : (pure a : Attempt α).run.log = [] := rfl

@[simp] theorem log_run_lift (x : Logged α) : (ExceptT.lift x : Attempt α).run.log = x.log :=
  Logged.log_map _ x

@[simp] theorem value_run_bind (x : Attempt α) (f : α → Attempt β) :
    (x >>= f).run.value = (x.run.value >>= fun a => (f a).run.value) := by
  rw [ExceptT.run_bind, Logged.value_bind]
  cases x.run.value <;> rfl

/-- Where the first of two steps gives a result, the records of the second follow. -/
theorem log_run_bind_of_ok {x : Attempt α} {a : α} (h : x.run.value = .ok a) (f : α → Attempt β) :
    (x >>= f).run.log = x.run.log ++ (f a).run.log := by
  rw [ExceptT.run_bind, Logged.log_bind, h]

/-- Where it breaks down, no records follow. -/
theorem log_run_bind_of_error {x : Attempt α} {b : Breakdown} (h : x.run.value = .error b)
    (f : α → Attempt β) : (x >>= f).run.log = x.run.log := by
  rw [ExceptT.run_bind, Logged.log_bind, h]
  exact List.append_nil _

theorem value_run_bind_pure (x : Attempt α) (f : α → β) :
    (x >>= fun a => pure (f a)).run.value = x.run.value.map f := by
  rw [value_run_bind]
  cases x.run.value <;> rfl

theorem log_run_bind_pure (x : Attempt α) (f : α → β) :
    (x >>= fun a => pure (f a)).run.log = x.run.log := by
  cases h : x.run.value with
  | error b => exact log_run_bind_of_error h _
  | ok a => exact (log_run_bind_of_ok h _).trans (List.append_nil _)

/-- A second step that changes none of the results of the first changes nothing. -/
theorem bind_eq_self {x : Attempt α} {f : α → Attempt α}
    (h : ∀ a, x.run.value = .ok a → f a = pure a) : x >>= f = x := by
  refine ExceptT.ext ?_
  cases hx : x.run.value with
  | error b =>
    refine Logged.ext ?_ (log_run_bind_of_error hx f)
    rw [value_run_bind, hx]
    rfl
  | ok a =>
    refine Logged.ext ?_ ?_
    · rw [value_run_bind, hx]
      show (f a).run.value = _
      rw [h a hx]
      rfl
    · rw [log_run_bind_of_ok hx, h a hx]
      exact List.append_nil _

end Attempt

end CallTrace
