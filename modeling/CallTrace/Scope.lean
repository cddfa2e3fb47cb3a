import CallTrace.Bindings
import CallTrace.Value

/-!
# Scopes

A scope is a level of bindings inside other levels. A level that has others inside it is not
changed any more, so an inner scope can hold its surroundings by value.
-/

namespace CallTrace

/-- One level of bindings. -/
abbrev Level := Bindings Symbol Value

/-- A level of bindings and the levels around it. -/
structure Scope where
  own : Level := ∅
  /-- The levels around it, from the inside out. -/
  outer : List Level := []

namespace Scope

/-- A scope that is inside no other. -/
def new : Scope := {}

/-- A scope inside another. -/
def child (s : Scope) : Scope := ⟨∅, s.own :: s.outer⟩

/-- Binds a name at the scope's own level, whatever it was bound to there before. -/
def define (s : Scope) (name : Symbol) (value : Value) : Scope :=
  { s with own := s.own.insert name value }

/-- The value of a name at the nearest level that binds it. -/
def lookup? (s : Scope) (name : Symbol) : Option Value :=
  (s.own :: s.outer).findSome? (·.get? name)

/-- A scope that binds nothing yet sees what the one around it sees. -/
@[simp] theorem lookup?_child (s : Scope) (name : Symbol) :
    s.child.lookup? name = s.lookup? name := rfl

theorem lookup?_define (s : Scope) (name name' : Symbol) (value : Value) :
    (s.define name value).lookup? name' = if name = name' then some value else s.lookup? name' := by
  simp only [define, lookup?, List.findSome?_cons, Bindings.get?_insert]
  by_cases h : name = name' <;> simp [h]

end Scope

end CallTrace
