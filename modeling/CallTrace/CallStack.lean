import CallTrace.CallStack.Observer
import CallTrace.CallStack.Transition
import CallTrace.Traceback

/-!
# Call stacks

The active calls of an evaluation, with an observer that is told of every change.
-/

namespace CallTrace

/-- The active calls, the innermost first, and who watches them. -/
structure CallStack where
  frames : List Frame := []
  observer : Observer := .silent

namespace CallStack

/-- An empty stack, whose events are logged if `logged` says so. -/
def new (logged : Bool) : CallStack :=
  { observer := if logged then .newLogging else .silent }

/-- Makes a transition and reports its events. -/
def commit (s : CallStack) (t : Transition) : Logged CallStack := do
  let observer ← s.observer.notifyAll t.events
  pure { frames := t.frames, observer }

/-- What a transition leaves is left, whoever watches. -/
@[simp] theorem frames_commit (s : CallStack) (t : Transition) :
    (s.commit t).value.frames = t.frames := rfl

/-- One transition after the other. -/
theorem commit_andThen (s : CallStack) (t : Transition) (next : List Frame → Transition) :
    s.commit (t.andThen next) = (s.commit t >>= fun s => s.commit (next s.frames)) := by
  simp [commit, Transition.andThen, Observer.notifyAll_append]

/-- Makes a call. A call that is refused leaves no trace. -/
def push (s : CallStack) (site : FormId) (callable : CallableId) :
    Except PushError (Logged CallStack) :=
  (Transition.push s.frames site callable).map s.commit

theorem push_of_transition_eq_error {s : CallStack} {site : FormId} {callable : CallableId}
    {cause : PushError} (h : Transition.push s.frames site callable = .error cause) :
    s.push site callable = .error cause := by
  rw [push, h]
  rfl

theorem push_of_transition_eq_ok {s : CallStack} {site : FormId} {callable : CallableId}
    {t : Transition} (h : Transition.push s.frames site callable = .ok t) :
    s.push site callable = .ok (s.commit t) := by
  rw [push, h]
  rfl

theorem push_cases (s : CallStack) (site : FormId) (callable : CallableId) :
    callable.isValid = false ∧ s.push site callable = .error .nilCallable ∨
      callable.isValid = true ∧ site.isValid = false ∧
        s.push site callable = .error .nilSite ∨
      callable.isValid = true ∧ site.isValid = true ∧
        s.push site callable = .ok (s.commit (.enter s.frames site callable)) := by
  rcases Transition.push_cases s.frames site callable with ⟨hc, hp⟩ | ⟨hc, hs, hp⟩ | ⟨hc, hs, hp⟩
  · exact Or.inl ⟨hc, push_of_transition_eq_error hp⟩
  · exact Or.inr (Or.inl ⟨hc, hs, push_of_transition_eq_error hp⟩)
  · exact Or.inr (Or.inr ⟨hc, hs, push_of_transition_eq_ok hp⟩)

theorem eq_commit_of_push_eq_ok {s : CallStack} {site : FormId} {callable : CallableId}
    {pushed : Logged CallStack} (h : s.push site callable = .ok pushed) :
    pushed = s.commit (.enter s.frames site callable) := by
  rcases s.push_cases site callable with ⟨_, hp⟩ | ⟨_, _, hp⟩ | ⟨_, _, hp⟩
  · rw [hp] at h; contradiction
  · rw [hp] at h; contradiction
  · exact Except.ok.inj (h.symm.trans hp)

/-- Leaves the innermost frame. -/
def pop (s : CallStack) : Logged (Option Frame × CallStack) := do
  let after ← s.commit (Transition.pop s.frames)
  pure (s.frames.head?, after)

/-- Leaves the innermost frames until no more than `depth` remain. -/
def unwind (s : CallStack) (depth : Nat) : Logged CallStack :=
  s.commit (Transition.unwind s.frames depth)

/-- To unwind is to leave the innermost frame again and again. -/
theorem unwind_of_lt {s : CallStack} {depth : Nat} (h : depth < s.frames.length) :
    s.unwind depth = (s.pop >>= fun popped => popped.2.unwind depth) := by
  simp [unwind, pop, Transition.unwind_of_lt h, commit_andThen]

theorem unwind_of_le {s : CallStack} {depth : Nat} (h : s.frames.length ≤ depth) :
    s.unwind depth = pure s := by
  rw [unwind, Transition.unwind_of_le h]
  rfl

/-- The point to come back to with `restore`. -/
def mark (s : CallStack) : Mark := .ofFrames s.frames

/-- Goes back to a mark. -/
def restore (s : CallStack) (m : Mark) : Logged CallStack :=
  s.commit (Transition.restore s.frames m)

/-- The innermost frame. -/
def top? (s : CallStack) : Option Frame := s.frames.head?

/-- The callable of the innermost call. -/
def current? (s : CallStack) : Option CallableId := s.top?.map Frame.callable

/-- The number of frames. -/
def depth (s : CallStack) : Nat := s.frames.length

/-- Whether no call is active. -/
def isEmpty (s : CallStack) : Bool := s.frames.isEmpty

/-- The frames as they are now, the oldest call first. -/
def traceback (s : CallStack) : Traceback := ⟨s.frames.reverse⟩

/-- Gives a callable a name, for an observer that uses names. -/
def learnName (s : CallStack) (callable : CallableId) (name : String) : CallStack :=
  { s with observer := s.observer.learnName callable name }

end CallStack

end CallTrace
