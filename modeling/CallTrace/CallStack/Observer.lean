import CallTrace.Bindings
import CallTrace.CallStack.Event
import CallTrace.Log

/-!
# Observers of a call stack

An observer is told of every event. It can log them, keep them or ignore them; it never answers.
-/

namespace CallTrace

/-- What becomes of the events of a call stack. -/
inductive Observer
  /-- Nothing. -/
  | silent
  /-- Each is logged, with callables called by the names that are known. -/
  | logging (names : Bindings CallableId String)
  /-- Each is kept, in order. -/
  | recording (events : Array CallEvent)

namespace Observer

/-- A logging observer that knows no names yet. -/
def newLogging : Observer := .logging ∅

/-- A recording observer that holds no events yet. -/
def newRecording : Observer := .recording #[]

instance : Inhabited Observer := ⟨silent⟩

/-! ## Names -/

/-- The name of a callable in the log: the last one given to it, or else its number. -/
def labelIn (names : Bindings CallableId String) (callable : CallableId) : String :=
  (names.get? callable).getD callable.render

/-- The name a logging observer has for a callable. -/
def label? : Observer → CallableId → Option String
  | .logging names, callable => some (labelIn names callable)
  | _, _ => none

/-- Gives a callable a name, which only a logging observer remembers. -/
def learnName : Observer → CallableId → String → Observer
  | .logging names, callable, name => .logging (names.insert callable name)
  | o, _, _ => o

/-! ## Events -/

/-- The line in which an observer would report an event. -/
def line : Observer → CallEvent → String
  | .logging names, e => e.line (labelIn names)
  | _, e => e.render

/-- Tells an observer of an event. -/
def notify : Observer → CallEvent → Logged Observer
  | .silent, _ => pure .silent
  | .logging names, e => ⟨.logging names, [.message .stack (e.line (labelIn names)) []]⟩
  | .recording events, e => pure (.recording (events.push e))

/-- Tells an observer of some events, in order. -/
def notifyAll : Observer → List CallEvent → Logged Observer
  | o, [] => pure o
  | o, e :: rest => do
    let o ← o.notify e
    o.notifyAll rest

theorem notifyAll_append (o : Observer) (earlier later : List CallEvent) :
    o.notifyAll (earlier ++ later) = (o.notifyAll earlier >>= fun o => o.notifyAll later) := by
  induction earlier generalizing o with
  | nil => exact (pure_bind o fun o => o.notifyAll later).symm
  | cons e rest ih => simp only [List.cons_append, notifyAll, bind_assoc, ih]

/-- The events an observer has kept. -/
def events : Observer → List CallEvent
  | .recording events => events.toList
  | _ => []

/-- The lines of the events an observer has kept. -/
def lines (o : Observer) : List String :=
  o.events.map CallEvent.render

/-- Forgets the events kept so far. -/
def clear : Observer → Observer
  | .recording _ => newRecording
  | o => o

end Observer

end CallTrace
