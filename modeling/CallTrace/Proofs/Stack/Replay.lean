import CallTrace.Proofs.Stack.Operation
import Mathlib.Data.List.ModifyLast

/-!
# What the events tell of the frames

An observer that keeps the events can tell the frames from them, but for the call sites, which no
event mentions. The frames and the kept events are two states that every move changes apart from
each other; `Tells` is the relation that they never leave.

* `tells_move` — the events of a move tell how it changes the frames
* `replay_moves` — the events of all moves tell the frames they lead to, and each of them could
  happen after those before it
-/

namespace CallTrace

/-- What events tell of a frame. -/
structure Entry where
  callable : CallableId
  repeats : UInt32
deriving DecidableEq

/-- What events tell of this frame. -/
def Frame.entry (f : Frame) : Entry := ⟨f.callable, f.repeats⟩

/-- The entries of some frames, the oldest first. -/
def entriesOf (frames : List Frame) : List Entry :=
  (frames.map Frame.entry).reverse

theorem entriesOf_cons (f : Frame) (rest : List Frame) :
    entriesOf (f :: rest) = entriesOf rest ++ [f.entry] := by
  rw [entriesOf, List.map_cons, List.reverse_cons]
  rfl

/-! ## Replaying events -/

namespace CallEvent

/-- The entries after an event, told from those before it. -/
def replay (entries : List Entry) : CallEvent → List Entry
  | .entered callable _ false => entries ++ [⟨callable, 0⟩]
  | .entered _ repeats true => entries.modifyLast fun last => { last with repeats }
  | .left _ => entries.dropLast

/-- Whether an event could happen where there are these entries. -/
def Fits (entries : List Entry) : CallEvent → Prop
  | .entered callable repeats collapsed =>
    (collapsed = true ↔ 0 < repeats) ∧
      (collapsed = true → ∃ last ∈ entries.getLast?, last.callable = callable ∧
        repeats.toNat = min (last.repeats.toNat + 1) 4294967295)
  | .left (some callable) => ∃ last ∈ entries.getLast?, last.callable = callable
  | .left none => entries = []

/-- The entries after some events, in order. -/
def replayAll (entries : List Entry) (events : List CallEvent) : List Entry :=
  events.foldl replay entries

end CallEvent

/-- Some events lead from the first entries to the second, and each of them could happen. -/
inductive Tells : List Entry → List CallEvent → List Entry → Prop
  | nil (entries : List Entry) : Tells entries [] entries
  | cons {before after : List Entry} {e : CallEvent} {rest : List CallEvent}
      (hfits : e.Fits before) (hrest : Tells (e.replay before) rest after) :
      Tells before (e :: rest) after

namespace Tells

variable {before between after : List Entry} {first second : List CallEvent} {e : CallEvent}

theorem single (hfits : e.Fits before) : Tells before [e] (e.replay before) :=
  .cons hfits (.nil _)

theorem append (hfirst : Tells before first between) (hsecond : Tells between second after) :
    Tells before (first ++ second) after := by
  induction hfirst with
  | nil => exact hsecond
  | cons hfits _ ih => exact .cons hfits (ih hsecond)

theorem replayAll_eq (h : Tells before first after) :
    CallEvent.replayAll before first = after := by
  induction h with
  | nil => rfl
  | cons _ _ ih => exact ih

theorem fits (h : Tells before (first ++ e :: second) after) :
    e.Fits (CallEvent.replayAll before first) := by
  induction first generalizing before with
  | nil =>
    cases h with
    | cons hfits _ => exact hfits
  | cons e' first ih =>
    cases h with
    | cons _ hrest => exact ih hrest

end Tells

/-! ## The events of a move -/

theorem tells_enter (frames : List Frame) (site : FormId) (callable : CallableId) :
    Tells (entriesOf frames) (Transition.enter frames site callable).events
      (entriesOf (Transition.enter frames site callable).frames) := by
  rcases Transition.isCall_cases frames site callable with ⟨top, rest, rfl, hcall⟩ | hnot
  · rw [Transition.enter_of_isCall hcall]
    have hcount := Frame.toNat_nextRepeats top.repeats
    have hpos : 0 < top.again.repeats := by
      rw [UInt32.lt_iff_toNat_lt, Frame.again, hcount]
      show 0 < _
      omega
    have hfits : (CallEvent.entered callable top.again.repeats true).Fits
        (entriesOf (top :: rest)) := by
      refine ⟨iff_of_true rfl hpos, fun _ => ⟨top.entry, ?_, ?_, hcount⟩⟩
      · rw [entriesOf_cons, List.getLast?_concat]
        rfl
      · exact Frame.callable_of_isCall hcall
    have hreplay : (CallEvent.entered callable top.again.repeats true).replay
        (entriesOf (top :: rest)) = entriesOf (top.again :: rest) := by
      rw [CallEvent.replay, entriesOf_cons, List.modifyLast_concat, entriesOf_cons]
      rfl
    exact hreplay ▸ Tells.single hfits
  · rw [Transition.enter_of_forall_not_isCall hnot, entriesOf_cons]
    refine Tells.single (e := .entered callable 0 false) ⟨?_, ?_⟩
    · exact iff_of_false Bool.noConfusion (UInt32.lt_irrefl 0)
    · exact fun h => Bool.noConfusion h

/-- Frames that are left one after the other are told of one after the other. -/
theorem tells_left (newer older : List Frame) :
    Tells (entriesOf (newer ++ older)) (newer.map fun f => .left (some f.callable))
      (entriesOf older) := by
  induction newer with
  | nil => exact .nil _
  | cons top rest ih =>
    rw [List.cons_append, entriesOf_cons, List.map_cons]
    refine .cons ⟨top.entry, ?_, rfl⟩ ?_
    · rw [List.getLast?_concat]
      rfl
    · rw [CallEvent.replay, List.dropLast_concat]
      exact ih

theorem tells_pop (frames : List Frame) :
    Tells (entriesOf frames) (Transition.pop frames).events
      (entriesOf (Transition.pop frames).frames) := by
  cases frames with
  | nil => exact Tells.single (e := .left none) rfl
  | cons top rest => exact tells_left [top] rest

theorem tells_unwind (frames : List Frame) (depth : Nat) :
    Tells (entriesOf frames) (Transition.unwind frames depth).events
      (entriesOf (Transition.unwind frames depth).frames) := by
  have h := tells_left (frames.take (frames.length - depth)) (frames.drop (frames.length - depth))
  rw [List.take_append_drop] at h
  rw [Transition.unwind_eq]
  exact h

/-- **The events of a move tell how it changes the frames.** -/
theorem tells_move (frames : List Frame) (m : StackMove) :
    Tells (entriesOf frames) (m.transition frames).events
      (entriesOf (m.transition frames).frames) := by
  cases m with
  | push site callable =>
    rw [StackMove.transition]
    rcases Transition.push_cases frames site callable with ⟨-, hp⟩ | ⟨-, -, hp⟩ | ⟨-, -, hp⟩
    · rw [hp]
      exact .nil _
    · rw [hp]
      exact .nil _
    · rw [hp]
      exact tells_enter frames site callable
  | pop => exact tells_pop frames
  | unwind depth => exact tells_unwind frames depth

/-! ## Stacks whose events are kept -/

/-- A stack all of whose events have been kept, and tell its frames. -/
structure CallStack.Recorded (s : CallStack) : Prop where
  recording : ∃ kept, s.observer = .recording kept
  tells : Tells [] s.observer.events (entriesOf s.frames)

theorem Observer.events_record_recording (kept : Array CallEvent) (events : List CallEvent) :
    ((Observer.recording kept).record events).events = kept.toList ++ events := by
  simp [record, Observer.events]

namespace CallStack

theorem recorded_new : Recorded { observer := .newRecording } :=
  ⟨⟨#[], rfl⟩, .nil []⟩

theorem move_preserves_recorded (s : CallStack) (m : StackMove) (h : s.Recorded) :
    (s.move m).value.2.Recorded := by
  obtain ⟨⟨kept, hkept⟩, htells⟩ := h
  rw [hkept] at htells
  rw [value_move, value_commit, hkept]
  refine ⟨⟨_, rfl⟩, ?_⟩
  show Tells [] ((Observer.recording kept).record (m.transition s.frames).events).events _
  rw [Observer.events_record_recording]
  exact htells.append (tells_move s.frames m)

theorem move_of_push_eq_error {s : CallStack} {site : FormId} {callable : CallableId}
    {cause : PushError} (h : s.push site callable = .error cause) :
    (s.move (.push site callable)).value = (.refused cause, s) := by
  rw [move, h]
  rfl

/-- **The kept events replay to the frames.** After any moves from the empty stack, replaying the
events gives what is called in each frame and how often, the oldest first. Each event could happen
after those before it: it repeats the innermost call if and only if it counts repeats, then with
one more than before as far as that can be counted, it leaves the innermost call, and it leaves
none only if there is none. A call that is refused leaves no event. -/
theorem replay_moves (ms : List StackMove) :
    let s := (runAll (fun s m => (move s m).value) { observer := .newRecording } ms).2
    CallEvent.replayAll [] s.observer.events = s.traceback.frames.map Frame.entry ∧
      (∀ before e later, s.observer.events = before ++ e :: later →
        e.Fits (CallEvent.replayAll [] before)) ∧
      (∀ site callable cause, s.push site callable = .error cause →
        (s.move (.push site callable)).value.2.observer.events = s.observer.events) := by
  intro s
  have hs : s.Recorded := runAll_preserves move_preserves_recorded ms recorded_new
  refine ⟨?_, ?_, ?_⟩
  · rw [hs.tells.replayAll_eq, entriesOf, ← List.map_reverse]
    rfl
  · intro before e later hevents
    have htells := hs.tells
    rw [hevents] at htells
    exact htells.fits
  · intro site callable cause hp
    rw [move_of_push_eq_error hp]

/-- A loop that is unwound together with the call below it, one pop too many and a new call. -/
theorem replay_moves_loop_unwound :
    let ms : List StackMove :=
      [.push ⟨1⟩ ⟨4⟩, .push ⟨2⟩ ⟨5⟩, .push ⟨2⟩ ⟨5⟩, .push .nil ⟨5⟩, .push ⟨2⟩ ⟨5⟩, .unwind 0, .pop,
        .push ⟨2⟩ ⟨5⟩]
    let s := (runAll (fun s m => (move s m).value) { observer := .newRecording } ms).2
    let before : List CallEvent :=
      [.entered ⟨4⟩ 0 false, .entered ⟨5⟩ 0 false, .entered ⟨5⟩ 1 true]
    let later : List CallEvent :=
      [.left (some ⟨5⟩), .left (some ⟨4⟩), .left none, .entered ⟨5⟩ 0 false]
    s.observer.events = before ++ .entered ⟨5⟩ 2 true :: later ∧
      (CallEvent.entered ⟨5⟩ 2 true).Fits [⟨⟨4⟩, 0⟩, ⟨⟨5⟩, 1⟩] ∧
      CallEvent.replayAll [] s.observer.events = [⟨⟨5⟩, 0⟩] ∧
      s.push .nil ⟨5⟩ = .error .nilSite ∧
      (s.move (.push .nil ⟨5⟩)).value.2.observer.events = s.observer.events := by
  intro ms s before later
  obtain ⟨hreplay, hfits, hrefused⟩ := replay_moves ms
  have hevents : s.observer.events = before ++ .entered ⟨5⟩ 2 true :: later := by decide
  exact ⟨hevents, hfits _ _ _ hevents, hreplay, rfl, hrefused .nil ⟨5⟩ .nilSite rfl⟩

end CallStack

end CallTrace
