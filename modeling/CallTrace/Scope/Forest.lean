import CallTrace.Scope

/-!
# Forests of scopes

Scopes that come into being one after the other, each on its own or inside an earlier one. As soon
as there is a scope inside it, a scope is closed to further definitions.
-/

namespace CallTrace

/-- A scope in a forest. -/
structure ScopeNode where
  scope : Scope
  /-- Whether there is a scope inside it. -/
  hasChild : Bool := false

/-- Scopes in the order of their creation. -/
structure ScopeForest where
  nodes : Array ScopeNode := #[]

/-- Why a name could not be defined. -/
inductive DefineError
  /-- There is no such scope. -/
  | missing
  /-- The scope has others inside it. -/
  | closed
deriving DecidableEq

namespace ScopeForest

/-- The number of scopes, which is also the place of the next one. -/
def size (f : ScopeForest) : Nat := f.nodes.size

/-- The scope at a place. -/
def scope? (f : ScopeForest) (i : Nat) : Option Scope :=
  f.nodes[i]?.map ScopeNode.scope

/-- Adds a scope that is inside no other. -/
def plant (f : ScopeForest) : ScopeForest :=
  ⟨f.nodes.push ⟨.new, false⟩⟩

/-- Adds a scope inside the one at `i`, if there is one. -/
def child? (f : ScopeForest) (i : Nat) : Option ScopeForest :=
  f.nodes[i]?.map fun node =>
    ⟨(f.nodes.setIfInBounds i { node with hasChild := true }).push ⟨node.scope.child, false⟩⟩

/-- Binds a name in the scope at `i`. -/
def define (f : ScopeForest) (i : Nat) (name : Symbol) (value : Value) :
    Except DefineError ScopeForest :=
  match f.nodes[i]? with
  | none => .error .missing
  | some node =>
    if node.hasChild then .error .closed
    else .ok ⟨f.nodes.setIfInBounds i { node with scope := node.scope.define name value }⟩

/-- The value of a name as seen from the scope at `i`. -/
def lookup? (f : ScopeForest) (i : Nat) (name : Symbol) : Option Value :=
  (f.scope? i).bind (·.lookup? name)

end ScopeForest

end CallTrace
