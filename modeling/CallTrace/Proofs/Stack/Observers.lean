import CallTrace.Proofs.Stack.Operation
import Mathlib.Data.List.Induction

/-!
# What observers tell

A logging observer writes a line for each event at once, with the names it knows by then, and a
recording one keeps the event as it is. Both are told of the same events, because an operation is
decided by the frames alone. So the log of the one can be told from the events of the other and
from the names that were given up to each of them.

* `perform_told` — both are told of the same events in every operation
* `run_told` — so they are in every run, and the log names callables as they were called by then
* `observers_tell_same` — the log line by line
-/

namespace CallTrace

/-! ## Telling of several events -/

namespace Observer

/-- The record in which a logging observer reports an event. -/
def report (names : Bindings CallableId String) (e : CallEvent) : LogRecord :=
  .message .stack (e.line (labelIn names)) []

theorem notifyAll_logging (names : Bindings CallableId String) (events : List CallEvent) :
    (Observer.logging names).notifyAll events =
      ⟨.logging names, events.map (report names)⟩ := by
  induction events with
  | nil => rfl
  | cons e rest ih =>
    rw [notifyAll]
    simp only [notify]
    exact Logged.ext (by rw [Logged.value_bind, ih]) (by rw [Logged.log_bind, ih]; rfl)

theorem notifyAll_recording (kept : Array CallEvent) (events : List CallEvent) :
    (Observer.recording kept).notifyAll events = ⟨.recording (kept ++ events.toArray), []⟩ := by
  induction events generalizing kept with
  | nil => simp [notifyAll]; rfl
  | cons e rest ih =>
    rw [notifyAll]
    simp only [notify, pure_bind, ih]
    simp

end Observer

namespace CallStack

theorem commit_logging (frames : List Frame) (names : Bindings CallableId String)
    (t : Transition) :
    commit ⟨frames, .logging names⟩ t =
      ⟨⟨t.frames, .logging names⟩, t.events.map (Observer.report names)⟩ := by
  unfold commit
  rw [Observer.notifyAll_logging]
  exact Logged.ext rfl (List.append_nil _)

theorem commit_recording (frames : List Frame) (kept : Array CallEvent) (t : Transition) :
    commit ⟨frames, .recording kept⟩ t =
      ⟨⟨t.frames, .recording (kept ++ t.events.toArray)⟩, []⟩ := by
  unfold commit
  rw [Observer.notifyAll_recording]
  rfl

/-- A move is the transition that the frames ask for, also in what is logged. -/
theorem move_eq_map_commit (s : CallStack) (m : StackMove) :
    s.move m = (fun after => (m.answer s.frames, after)) <$> s.commit (m.transition s.frames) := by
  refine Logged.ext (value_move s m) ?_
  rw [Logged.log_map]
  cases m with
  | push site callable =>
    cases h : Transition.push s.frames site callable with
    | error cause =>
      simp only [move, push, StackMove.transition, h, Except.map]
      rfl
    | ok t => simp [move, push, StackMove.transition, h, Except.map]
  | pop => simp [move, pop, StackMove.transition]
  | unwind depth => simp [move, unwind, StackMove.transition]

end CallStack

/-! ## Stacks in use -/

/-- A call stack with the marks that were taken on it, in order. -/
structure MarkedStack where
  stack : CallStack
  marks : List Mark := []

/-- What is done with a call stack while it is watched. -/
inductive WatchedOp
  | move (m : StackMove)
  | mark
  /-- Goes back to the mark that was taken as the `i`-th, counting from 0. -/
  | restore (i : Nat)
  | learnName (callable : CallableId) (name : String)

namespace MarkedStack

/-- Performs an operation. -/
def perform (w : MarkedStack) : WatchedOp → Logged MarkedStack
  | .move m => do
    let (_, stack) ← w.stack.move m
    pure { w with stack }
  | .mark => pure { w with marks := w.marks ++ [w.stack.mark] }
  | .restore i =>
    match w.marks[i]? with
    | none => pure w
    | some m => do pure { w with stack := ← w.stack.restore m }
  | .learnName callable name => pure { w with stack := w.stack.learnName callable name }

/-- Performs some operations, in order. -/
def run (w : MarkedStack) (ops : List WatchedOp) : Logged MarkedStack :=
  ops.foldlM perform w

theorem perform_move (w : MarkedStack) (m : StackMove) :
    w.perform (.move m) =
      (fun stack => { w with stack }) <$> w.stack.commit (m.transition w.stack.frames) := by
  refine Logged.ext ?_ ?_
  · simp [perform, CallStack.move_eq_map_commit]
  · simp [perform, CallStack.move_eq_map_commit]

theorem perform_restore {w : MarkedStack} {i : Nat} {m : Mark} (h : w.marks[i]? = some m) :
    w.perform (.restore i) =
      (fun stack => { w with stack }) <$> w.stack.commit (Transition.restore w.stack.frames m) := by
  simp only [perform, h]
  rfl

theorem perform_restore_of_not_taken {w : MarkedStack} {i : Nat} (h : w.marks[i]? = none) :
    w.perform (.restore i) = pure w := by
  simp only [perform, h]

theorem run_concat (w : MarkedStack) (ops : List WatchedOp) (op : WatchedOp) :
    w.run (ops ++ [op]) = w.run ops >>= fun w => w.perform op := by
  unfold run
  rw [List.foldlM_append]
  simp

end MarkedStack

/-! ## Names -/

namespace WatchedOp

/-- The names that are known after an operation. -/
def namesAfter (names : Bindings CallableId String) : WatchedOp → Bindings CallableId String
  | .learnName callable name => names.insert callable name
  | _ => names

/-- The name that an operation gives to a callable. -/
def nameFor? (callable : CallableId) : WatchedOp → Option String
  | .learnName named name => if named = callable then some name else none
  | _ => none

end WatchedOp

/-- What a callable is called after some operations: by the last name that one of them gave to it,
or else the last one it had been given before, or else its number. -/
def labelAfter (names : Bindings CallableId String) (ops : List WatchedOp)
    (callable : CallableId) : String :=
  ((ops.reverse.findSome? (·.nameFor? callable)).or (names.get? callable)).getD callable.render

/-- A name that is given is used from then on. -/
theorem labelAfter_concat {names names' : Bindings CallableId String} {ops : List WatchedOp}
    (h : labelAfter names ops = Observer.labelIn names') (op : WatchedOp) :
    labelAfter names (ops ++ [op]) = Observer.labelIn (op.namesAfter names') := by
  funext callable
  have hbefore : labelAfter names ops callable = Observer.labelIn names' callable := by rw [h]
  unfold labelAfter at hbefore ⊢
  rw [List.reverse_append, List.reverse_singleton, List.singleton_append, List.findSome?_cons]
  cases op with
  | learnName named name =>
    by_cases hname : named = callable
    · simp [WatchedOp.nameFor?, WatchedOp.namesAfter, Observer.labelIn, Bindings.get?_insert, hname]
    · simpa [WatchedOp.nameFor?, WatchedOp.namesAfter, Observer.labelIn, Bindings.get?_insert,
        hname] using hbefore
  | _ => exact hbefore

/-! ## Told of the same events -/

/-- **Whoever watches is told of the same events.** -/
theorem MarkedStack.perform_told (frames : List Frame) (names : Bindings CallableId String)
    (kept : Array CallEvent) (marks : List Mark) (op : WatchedOp) :
    ∃ (frames' : List Frame) (marks' : List Mark) (events : List CallEvent),
      perform ⟨⟨frames, .logging names⟩, marks⟩ op =
        ⟨⟨⟨frames', .logging (op.namesAfter names)⟩, marks'⟩,
          events.map (Observer.report names)⟩ ∧
      perform ⟨⟨frames, .recording kept⟩, marks⟩ op =
        ⟨⟨⟨frames', .recording (kept ++ events.toArray)⟩, marks'⟩, []⟩ := by
  -- an operation without events leaves the kept ones as they are
  have hkept : (⟨frames, .recording kept⟩ : CallStack) =
      ⟨frames, .recording (kept ++ ([] : List CallEvent).toArray)⟩ := by simp
  cases op with
  | move m =>
    refine ⟨(m.transition frames).frames, marks, (m.transition frames).events, ?_, ?_⟩
    · rw [perform_move, CallStack.commit_logging, Logged.map_mk]
      rfl
    · rw [perform_move, CallStack.commit_recording, Logged.map_mk]
  | mark =>
    refine ⟨frames, marks ++ [.ofFrames frames], [], rfl, ?_⟩
    rw [← hkept]
    rfl
  | restore i =>
    cases hmark : marks[i]? with
    | none =>
      refine ⟨frames, marks, [], ?_, ?_⟩
      · rw [perform_restore_of_not_taken hmark]
        rfl
      · rw [perform_restore_of_not_taken hmark, ← hkept]
        rfl
    | some m =>
      refine ⟨(Transition.restore frames m).frames, marks, (Transition.restore frames m).events,
        ?_, ?_⟩
      · rw [perform_restore hmark, CallStack.commit_logging, Logged.map_mk]
        rfl
      · rw [perform_restore hmark, CallStack.commit_recording, Logged.map_mk]
  | learnName callable name =>
    refine ⟨frames, marks, [], rfl, ?_⟩
    rw [← hkept]
    rfl

namespace MarkedStack

/-- The events that were kept by the end of some operations. -/
def eventsAfter (w : MarkedStack) (ops : List WatchedOp) : List CallEvent :=
  (w.run ops).value.stack.observer.events

/-- The record for an event with callables called as they are after some operations. -/
def recordAfter (names : Bindings CallableId String) (ops : List WatchedOp) (e : CallEvent) :
    LogRecord :=
  .message .stack (e.line (labelAfter names ops)) []

/-- **In every run both are told of the same events**, and each is logged with callables called as
they were before the operation it came up in. -/
theorem run_told (frames : List Frame) (names : Bindings CallableId String)
    (kept : Array CallEvent) (marks : List Mark) (ops : List WatchedOp) :
    ∃ (frames' : List Frame) (names' : Bindings CallableId String) (marks' : List Mark)
      (told : List CallEvent) (log : List LogRecord),
      run ⟨⟨frames, .logging names⟩, marks⟩ ops = ⟨⟨⟨frames', .logging names'⟩, marks'⟩, log⟩ ∧
      run ⟨⟨frames, .recording kept⟩, marks⟩ ops =
        ⟨⟨⟨frames', .recording (kept ++ told.toArray)⟩, marks'⟩, []⟩ ∧
      labelAfter names ops = Observer.labelIn names' ∧ log.length = told.length ∧
      ∀ i e, told[i]? = some e → ∃ before op later, ops = before ++ op :: later ∧
        (eventsAfter ⟨⟨frames, .recording kept⟩, marks⟩ before).length ≤ kept.size + i ∧
        kept.size + i < (eventsAfter ⟨⟨frames, .recording kept⟩, marks⟩ (before ++ [op])).length ∧
        log[i]? = some (recordAfter names before e) := by
  induction ops using List.reverseRecOn with
  | nil =>
    exact ⟨frames, names, marks, [], [], rfl, Logged.ext (by simp [run]) rfl, rfl, rfl, by simp⟩
  | append_singleton ops op ih =>
    obtain ⟨frames', names', marks', told, log, hlogging, hrecording, hlabel, hlength, hplace⟩ := ih
    obtain ⟨frames'', marks'', events, hlogging', hrecording'⟩ :=
      perform_told frames' names' (kept ++ told.toArray) marks' op
    have hboth : run ⟨⟨frames, .recording kept⟩, marks⟩ (ops ++ [op]) =
        ⟨⟨⟨frames'', .recording (kept ++ (told ++ events).toArray)⟩, marks''⟩, []⟩ := by
      rw [run_concat, hrecording, Logged.mk_bind, hrecording']
      simp
    refine ⟨frames'', op.namesAfter names', marks'', told ++ events,
      log ++ events.map (Observer.report names'), ?_, hboth, labelAfter_concat hlabel op, ?_, ?_⟩
    · rw [run_concat, hlogging, Logged.mk_bind, hlogging']
    · simp [hlength]
    · intro i e he
      by_cases hi : i < told.length
      · -- the event was there before the last operation
        rw [List.getElem?_append_left hi] at he
        obtain ⟨before, op', later, rfl, hfrom, hto, hrecord⟩ := hplace i e he
        refine ⟨before, op', later ++ [op], by simp, hfrom, hto, ?_⟩
        rw [List.getElem?_append_left (by omega)]
        exact hrecord
      · refine ⟨ops, op, [], rfl, ?_, ?_, ?_⟩
        · simp only [eventsAfter, hrecording, Observer.events]
          simp
          omega
        · have hlt := (List.getElem?_eq_some_iff.mp he).1
          simp only [eventsAfter, hboth, Observer.events]
          simp at hlt ⊢
          omega
        · rw [List.getElem?_append_right (by omega)] at he ⊢
          rw [List.getElem?_map, hlength, he, recordAfter, hlabel]
          rfl

/-- Where no names were given, callables are called by their numbers. -/
theorem labelAfter_of_forall_eq_none {names : Bindings CallableId String} {ops : List WatchedOp}
    (hnames : ∀ callable, names.get? callable = none)
    (hops : ∀ op ∈ ops, ∀ callable, op.nameFor? callable = none) :
    labelAfter names ops = CallableId.render := by
  funext callable
  have hnone : ops.reverse.findSome? (·.nameFor? callable) = none := by
    rw [List.findSome?_eq_none_iff]
    exact fun op hop => hops op (List.mem_reverse.mp hop) callable
  rw [labelAfter, hnone, hnames]
  rfl

/-- **The log tells what the kept events tell.** Two stacks of the same frames are used in the same
way, one with a logging and one with a recording observer. Then there are as many records in the log
as there are new events, and each is the line of its event, with every callable called by the last
name that it had been given when the event was recorded, or else by its number. So without names
the log has just the lines of the new events. -/
theorem observers_tell_same (frames : List Frame) (names : Bindings CallableId String)
    (kept : Array CallEvent) (marks : List Mark) (ops : List WatchedOp) :
    let logging : MarkedStack := ⟨⟨frames, .logging names⟩, marks⟩
    let recording : MarkedStack := ⟨⟨frames, .recording kept⟩, marks⟩
    let log := (logging.run ops).log
    ∃ told, recording.eventsAfter ops = kept.toList ++ told ∧ log.length = told.length ∧
      (∀ i e, told[i]? = some e → ∃ before op later, ops = before ++ op :: later ∧
        (recording.eventsAfter before).length ≤ kept.size + i ∧
        kept.size + i < (recording.eventsAfter (before ++ [op])).length ∧
        log[i]? = some (.message .stack (e.line (labelAfter names before)) [])) ∧
      ((∀ callable, names.get? callable = none) →
        (∀ op ∈ ops, ∀ callable, op.nameFor? callable = none) →
        log = ((recording.run ops).value.stack.observer.lines.drop kept.size).map
          fun line => .message .stack line []) := by
  intro logging recording log
  obtain ⟨frames', names', marks', told, log', hlogging, hrecording, -, hlength, hplace⟩ :=
    run_told frames names kept marks ops
  have hlog : log = log' := congrArg Logged.log hlogging
  have hevents : recording.eventsAfter ops = kept.toList ++ told := by
    show (run ⟨⟨frames, .recording kept⟩, marks⟩ ops).value.stack.observer.events = _
    rw [hrecording]
    simp [Observer.events]
  rw [hlog]
  refine ⟨told, hevents, hlength, hplace, ?_⟩
  intro hnames hops
  have hlines : (recording.run ops).value.stack.observer.lines.drop kept.size =
      told.map CallEvent.render := by
    show ((recording.eventsAfter ops).map CallEvent.render).drop kept.size = _
    simp [hevents]
  rw [hlines]
  apply List.ext_getElem?
  intro i
  cases he : told[i]? with
  | none =>
    rw [List.getElem?_eq_none_iff] at he
    rw [List.getElem?_eq_none (by omega), List.getElem?_eq_none (by simpa using he)]
  | some e =>
    obtain ⟨before, op, later, rfl, -, -, hrecord⟩ := hplace i e he
    have hlabel : labelAfter names before = CallableId.render :=
      labelAfter_of_forall_eq_none hnames fun op' hop' => hops op' (List.mem_append_left _ hop')
    rw [hrecord, recordAfter, hlabel]
    simp [he, CallEvent.render]

/-- A call is repeated and makes another, and the stack goes back to where it was, after its name
has changed. -/
theorem observers_tell_same_renamed :
    let names : Bindings CallableId String := (∅ : Bindings CallableId String).insert ⟨4⟩ "f"
    let ops : List WatchedOp :=
      [.mark, .move (.push ⟨1⟩ ⟨4⟩), .move (.push .nil ⟨5⟩), .move (.push ⟨2⟩ ⟨5⟩),
        .learnName ⟨4⟩ "g", .restore 0]
    let logging : MarkedStack := ⟨⟨[⟨0, ⟨4⟩, ⟨1⟩⟩], .logging names⟩, []⟩
    let recording : MarkedStack := ⟨⟨[⟨0, ⟨4⟩, ⟨1⟩⟩], .recording #[.left none]⟩, []⟩
    let told : List CallEvent :=
      [.entered ⟨4⟩ 1 true, .entered ⟨5⟩ 0 false, .left (some ⟨5⟩), .left (some ⟨4⟩)]
    recording.eventsAfter ops = .left none :: told ∧
      (logging.run ops).log.length = 4 ∧
      (∃ before op later, ops = before ++ op :: later ∧
        (logging.run ops).log[3]? =
          some (.message .stack ((CallEvent.left (some ⟨4⟩)).line (labelAfter names before)) [])) ∧
      (logging.run ops).log[3]? = some (.message .stack "[Stack] <-- g" []) := by
  intro names ops logging recording told
  obtain ⟨told', hevents, hlength, hlines, -⟩ :=
    observers_tell_same [⟨0, ⟨4⟩, ⟨1⟩⟩] names #[.left none] [] ops
  have hkept : recording.eventsAfter ops = .left none :: told := by decide
  obtain rfl : told' = told := List.append_cancel_left (hevents.symm.trans hkept)
  obtain ⟨before, op, later, hops, -, -, hline⟩ := hlines 3 _ rfl
  exact ⟨hkept, hlength, ⟨before, op, later, hops, hline⟩, by decide⟩

end MarkedStack

end CallTrace
