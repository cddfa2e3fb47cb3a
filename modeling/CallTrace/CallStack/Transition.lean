import CallTrace.CallStack.Event
import CallTrace.CallStack.Mark

/-!
# Transitions of the frames

The operations of a call stack, as far as its frames are concerned. Frames are listed with the
innermost call first. Each operation gives the frames it leaves and the events it reports, so an
observer has no say in what happens.
-/

namespace CallTrace

/-- What an operation does to the frames. -/
structure Transition where
  frames : List Frame
  /-- The events to report, in order. -/
  events : List CallEvent := []
deriving DecidableEq

/-- Why a call cannot be made. -/
inductive PushError
  | nilCallable
  | nilSite
deriving DecidableEq

namespace PushError

/-- The text shown to a user. -/
def message : PushError → String
  | .nilCallable => "can't push a nil callable to the call stack"
  | .nilSite => "can't push a nil call site to the call stack"

end PushError

namespace Transition

/-- Leaves the frames as they are. -/
def stay (frames : List Frame) : Transition := ⟨frames, []⟩

/-- Goes on from the frames that a transition leaves. -/
def andThen (t : Transition) (next : List Frame → Transition) : Transition :=
  ⟨(next t.frames).frames, t.events ++ (next t.frames).events⟩

/-- Makes a call, known to have a callable and a call site. A call equal to the innermost one is
counted there and gets no frame of its own. -/
def enter (frames : List Frame) (site : FormId) (callable : CallableId) : Transition :=
  match frames with
  | top :: rest =>
    if top.isCall site callable then
      ⟨top.again :: rest, [.entered callable top.again.repeats true]⟩
    else ⟨⟨0, callable, site⟩ :: top :: rest, [.entered callable 0 false]⟩
  | [] => ⟨[⟨0, callable, site⟩], [.entered callable 0 false]⟩

/-- A call is the innermost one made again, or it is not. -/
theorem isCall_cases (frames : List Frame) (site : FormId) (callable : CallableId) :
    (∃ top rest, frames = top :: rest ∧ top.isCall site callable = true) ∨
      ∀ top ∈ frames.head?, top.isCall site callable = false := by
  cases frames with
  | nil => exact Or.inr fun _ h => nomatch h
  | cons top rest =>
    cases h : top.isCall site callable with
    | true => exact Or.inl ⟨top, rest, rfl, h⟩
    | false =>
      refine Or.inr fun f hf => ?_
      obtain rfl : top = f := Option.some.inj hf
      exact h

theorem enter_of_isCall {top : Frame} {site : FormId} {callable : CallableId}
    (h : top.isCall site callable = true) (rest : List Frame) :
    enter (top :: rest) site callable =
      ⟨top.again :: rest, [.entered callable top.again.repeats true]⟩ := by
  rw [enter, if_pos h]

/-- A call that is not the innermost one made again gets a frame of its own. -/
theorem enter_of_forall_not_isCall {frames : List Frame} {site : FormId} {callable : CallableId}
    (h : ∀ top ∈ frames.head?, top.isCall site callable = false) :
    enter frames site callable = ⟨⟨0, callable, site⟩ :: frames, [.entered callable 0 false]⟩ := by
  cases frames with
  | nil => rfl
  | cons top rest =>
    have hne : ¬top.isCall site callable = true := by simp [h top rfl]
    rw [enter, if_neg hne]

/-- While a call is made it is active. -/
theorem frames_enter_ne_nil (frames : List Frame) (site : FormId) (callable : CallableId) :
    (enter frames site callable).frames ≠ [] := by
  rcases isCall_cases frames site callable with ⟨top, rest, rfl, h⟩ | h
  · rw [enter_of_isCall h]
    exact List.cons_ne_nil _ _
  · rw [enter_of_forall_not_isCall h]
    exact List.cons_ne_nil _ _

/-- Makes a call, if it has a callable and a call site. -/
def push (frames : List Frame) (site : FormId) (callable : CallableId) :
    Except PushError Transition :=
  if !callable.isValid then .error .nilCallable
  else if !site.isValid then .error .nilSite
  else .ok (enter frames site callable)

/-- The callable is looked at first, then the call site. -/
theorem push_cases (frames : List Frame) (site : FormId) (callable : CallableId) :
    callable.isValid = false ∧ push frames site callable = .error .nilCallable ∨
      callable.isValid = true ∧ site.isValid = false ∧
        push frames site callable = .error .nilSite ∨
      callable.isValid = true ∧ site.isValid = true ∧
        push frames site callable = .ok (enter frames site callable) := by
  unfold push
  cases hc : callable.isValid with
  | false => exact Or.inl ⟨rfl, rfl⟩
  | true =>
    cases hs : site.isValid with
    | false => exact Or.inr (Or.inl ⟨rfl, rfl, rfl⟩)
    | true => exact Or.inr (Or.inr ⟨rfl, rfl, rfl⟩)

/-- Leaves the innermost frame with all its repeats. -/
def pop : List Frame → Transition
  | [] => ⟨[], [.left none]⟩
  | top :: rest => ⟨rest, [.left (some top.callable)]⟩

/-- Leaves innermost frames, one after the other, as long as more than `depth` remain. -/
def unwind : List Frame → Nat → Transition
  | [], _ => stay []
  | top :: rest, depth =>
    if depth < (top :: rest).length then (pop (top :: rest)).andThen fun _ => unwind rest depth
    else stay (top :: rest)

theorem unwind_of_lt {frames : List Frame} {depth : Nat} (h : depth < frames.length) :
    unwind frames depth = (pop frames).andThen (unwind · depth) := by
  cases frames with
  | nil => exact absurd h (Nat.not_lt_zero depth)
  | cons top rest =>
    rw [unwind, if_pos h]
    rfl

theorem unwind_of_le {frames : List Frame} {depth : Nat} (h : frames.length ≤ depth) :
    unwind frames depth = stay frames := by
  cases frames with
  | nil => rfl
  | cons top rest => rw [unwind, if_neg (Nat.not_lt.mpr h)]

/-- All frames beyond the first `depth` are left, each with an event of its own. -/
theorem unwind_eq (frames : List Frame) (depth : Nat) :
    unwind frames depth =
      ⟨frames.drop (frames.length - depth),
        (frames.take (frames.length - depth)).map fun f => .left (some f.callable)⟩ := by
  induction frames with
  | nil => simp [unwind, stay]
  | cons top rest ih =>
    by_cases h : depth < (top :: rest).length
    · have hsurplus : (top :: rest).length - depth = rest.length - depth + 1 := by
        rw [List.length_cons] at h ⊢
        omega
      rw [unwind_of_lt h, hsurplus]
      simp [andThen, pop, ih]
    · rw [unwind_of_le (Nat.le_of_not_lt h), Nat.sub_eq_zero_of_le (Nat.le_of_not_lt h)]
      rfl

theorem length_unwind (frames : List Frame) (depth : Nat) :
    (unwind frames depth).frames.length = min frames.length depth := by
  simp only [unwind_eq, List.length_drop]
  omega

/-- Takes the innermost frame back to `saved` repeats, if it has more. -/
def trimTop (saved : Option UInt32) : List Frame → Transition
  | top :: rest =>
    match saved with
    | some n =>
      if n < top.repeats then ⟨{ top with repeats := n } :: rest, [.left (some top.callable)]⟩
      else stay (top :: rest)
    | none => stay (top :: rest)
  | [] => stay []

theorem trimTop_of_lt {top : Frame} {n : UInt32} (h : n < top.repeats) (rest : List Frame) :
    trimTop (some n) (top :: rest) =
      ⟨{ top with repeats := n } :: rest, [.left (some top.callable)]⟩ := by
  simp only [trimTop, if_pos h]

theorem trimTop_of_le {top : Frame} {n : UInt32} (h : top.repeats ≤ n) (rest : List Frame) :
    trimTop (some n) (top :: rest) = stay (top :: rest) := by
  simp only [trimTop, if_neg (UInt32.not_lt.mpr h)]

/-- Goes back to a mark. Frames that were left since the mark was taken do not come back. -/
def restore (frames : List Frame) (m : Mark) : Transition :=
  let unwound := unwind frames m.depth
  if unwound.frames.length = m.depth then unwound.andThen (trimTop m.topRepeats)
  else unwound

end Transition

end CallTrace
