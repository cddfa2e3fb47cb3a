import CallTrace.CallStack
import CallTrace.Proofs.Run

/-!
# Operations of a call stack

The operations as data, so that one can speak of any sequence of them. An operation is determined
by the frames: it makes a transition, and the observer is told. The main statements are
`value_move` and `value_perform`, from which everything about sequences follows.
-/

namespace CallTrace

/-! ## What an observer keeps -/

namespace Observer

/-- The observer after it was told of some events: a recording one has them all, in order, behind
those it had, and the others are as before. -/
def record : Observer → List CallEvent → Observer
  | .recording kept, events => .recording (kept ++ events.toArray)
  | o, _ => o

@[simp] theorem record_nil (o : Observer) : o.record [] = o := by
  cases o <;> simp [record]

@[simp] theorem record_record (o : Observer) (first second : List CallEvent) :
    (o.record first).record second = o.record (first ++ second) := by
  cases o <;> simp [record]

theorem value_notify (o : Observer) (e : CallEvent) : (o.notify e).value = o.record [e] := by
  cases o <;> simp [notify, record]

/-- Telling an observer of some events amounts to recording them. -/
@[simp] theorem value_notifyAll (o : Observer) (events : List CallEvent) :
    (o.notifyAll events).value = o.record events := by
  induction events generalizing o with
  | nil => simp [notifyAll]
  | cons e rest ih =>
    rw [notifyAll, Logged.value_bind, ih, value_notify, record_record]
    rfl

end Observer

@[simp] theorem CallStack.value_commit (s : CallStack) (t : Transition) :
    (s.commit t).value = ⟨t.frames, s.observer.record t.events⟩ := by
  show (⟨t.frames, (s.observer.notifyAll t.events).value⟩ : CallStack) = _
  rw [Observer.value_notifyAll]

/-! ## Operations as data -/

/-- An operation that makes or leaves calls. -/
inductive StackMove
  | push (site : FormId) (callable : CallableId)
  | pop
  | unwind (depth : Nat)
deriving DecidableEq

/-- An operation of a call stack. Marks are plain data, so there is no telling where the one to go
back to comes from. -/
inductive StackOp
  | move (m : StackMove)
  | mark
  | restore (m : Mark)
deriving DecidableEq

/-- What an operation answers. -/
inductive StackAnswer
  | done
  /-- The call could not be made. -/
  | refused (cause : PushError)
  /-- The frame that was left, if there was one. -/
  | left (frame : Option Frame)
  /-- The mark that was taken. -/
  | marked (m : Mark)
deriving DecidableEq

namespace CallStack

/-- Makes a move. -/
def move (s : CallStack) : StackMove → Logged (StackAnswer × CallStack)
  | .push site callable =>
    match s.push site callable with
    | .error cause => pure (.refused cause, s)
    | .ok pushed => do pure (.done, ← pushed)
  | .pop => do
    let (frame, after) ← s.pop
    pure (.left frame, after)
  | .unwind depth => do pure (.done, ← s.unwind depth)

/-- Performs an operation. -/
def perform (s : CallStack) : StackOp → Logged (StackAnswer × CallStack)
  | .move m => s.move m
  | .mark => pure (.marked s.mark, s)
  | .restore m => do pure (.done, ← s.restore m)

/-- The stack after some operations. -/
def after (s : CallStack) (ops : List StackOp) : CallStack :=
  (runAll (fun s op => (s.perform op).value) s ops).2

end CallStack

/-! ## Operations and transitions -/

namespace StackMove

/-- What a move does to the frames. A call that is refused does nothing. -/
def transition (frames : List Frame) : StackMove → Transition
  | .push site callable =>
    match Transition.push frames site callable with
    | .error _ => .stay frames
    | .ok t => t
  | .pop => .pop frames
  | .unwind depth => .unwind frames depth

/-- What a move answers. -/
def answer (frames : List Frame) : StackMove → StackAnswer
  | .push site callable =>
    match Transition.push frames site callable with
    | .error cause => .refused cause
    | .ok _ => .done
  | .pop => .left frames.head?
  | .unwind _ => .done

end StackMove

namespace StackOp

/-- What an operation does to the frames. -/
def transition (frames : List Frame) : StackOp → Transition
  | .move m => m.transition frames
  | .mark => .stay frames
  | .restore m => .restore frames m

/-- What an operation answers. -/
def answer (frames : List Frame) : StackOp → StackAnswer
  | .move m => m.answer frames
  | .mark => .marked (.ofFrames frames)
  | .restore _ => .done

end StackOp

namespace CallStack

theorem commit_stay (s : CallStack) : (s.commit (.stay s.frames)).value = s := by
  rw [value_commit]
  show (⟨s.frames, s.observer.record []⟩ : CallStack) = s
  rw [Observer.record_nil]

/-- A move gives the answer and makes the transition that the frames ask for. -/
theorem value_move (s : CallStack) (m : StackMove) :
    (s.move m).value = (m.answer s.frames, (s.commit (m.transition s.frames)).value) := by
  cases m with
  | push site callable =>
    cases h : Transition.push s.frames site callable with
    | error cause =>
      simp only [move, push, StackMove.answer, StackMove.transition, h, Except.map, commit_stay]
      rfl
    | ok t =>
      simp only [move, push, StackMove.answer, StackMove.transition, h, Except.map]
      rfl
  | pop => rfl
  | unwind depth => rfl

/-- An operation gives the answer and makes the transition that the frames ask for. -/
theorem value_perform (s : CallStack) (op : StackOp) :
    (s.perform op).value = (op.answer s.frames, (s.commit (op.transition s.frames)).value) := by
  cases op with
  | move m => exact value_move s m
  | mark =>
    show (StackAnswer.marked s.mark, s) = (_, (s.commit (.stay s.frames)).value)
    rw [commit_stay]
    rfl
  | restore m => rfl

@[simp] theorem frames_perform (s : CallStack) (op : StackOp) :
    (s.perform op).value.2.frames = (op.transition s.frames).frames := by
  rw [value_perform]
  exact frames_commit s _

@[simp] theorem after_nil (s : CallStack) : s.after [] = s := rfl

@[simp] theorem after_cons (s : CallStack) (op : StackOp) (rest : List StackOp) :
    s.after (op :: rest) = (s.perform op).value.2.after rest := rfl

end CallStack

end CallTrace
