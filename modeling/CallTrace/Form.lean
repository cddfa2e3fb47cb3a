import CallTrace.Span
import CallTrace.Symbol
import CallTrace.Text.Escape

/-!
# Forms

The parsed code that calls come from. Forms live in a store and refer to each other by number; a
list form may hold any number, also one that the store does not know.
-/

namespace CallTrace

/-- The place of a form in a store. -/
structure FormId where
  raw : UInt32
deriving DecidableEq

namespace FormId

/-- The place of no form. -/
def nil : FormId := ⟨4294967295⟩

instance : Inhabited FormId := ⟨nil⟩

/-- Whether this is the place of some form. -/
def isValid (id : FormId) : Bool := id ≠ nil

@[simp] theorem isValid_eq_true_iff {id : FormId} : id.isValid = true ↔ id ≠ nil :=
  decide_eq_true_iff

@[simp] theorem isValid_eq_false_iff {id : FormId} : id.isValid = false ↔ id = nil := by
  rw [Bool.eq_false_iff, Ne, isValid_eq_true_iff, Decidable.not_not]

/-- The number of forms before this place. -/
def index (id : FormId) : Nat := id.raw.toNat

/-- The developer-facing text, `ExprId(3)`. -/
def describe (id : FormId) : String :=
  if id = nil then "ExprId::INVALID" else "ExprId(" ++ toString id.raw.toNat ++ ")"

end FormId

/-- What a form is. -/
inductive FormKind
  | nil
  | bool (b : Bool)
  | int (n : Int64)
  | str (s : String)
  | symbol (name : Symbol)
  | list (items : List FormId)
deriving DecidableEq

namespace FormKind

/-- The developer-facing text, such as `List([ExprId(0)])`. -/
def describe : FormKind → String
  | .nil => "Nil"
  | .bool b => "Bool(" ++ (if b then "true" else "false") ++ ")"
  | .int n => "Int(" ++ toString n.toInt ++ ")"
  | .str s => "Str(" ++ Text.quoted .description s ++ ")"
  | .symbol name => "Symbol(" ++ name.describe ++ ")"
  | .list items => "List([" ++ ", ".intercalate (items.map FormId.describe) ++ "])"

end FormKind

/-- A piece of code and where it stands. -/
structure Form where
  kind : FormKind
  span : Span
deriving DecidableEq

namespace Form

/-- The developer-facing text, such as `Expr { kind: Nil, span: 3..6 }`. -/
def describe (f : Form) : String :=
  "Expr \x7b kind: " ++ f.kind.describe ++ ", span: " ++ f.span.render ++ " \x7d"

end Form

/-- All forms of a program, each at its own place. -/
structure FormStore where
  forms : Array Form := #[]

namespace FormStore

/-- The number of forms in the store. -/
def size (s : FormStore) : Nat := s.forms.size

/-- Whether the store holds no form. -/
def isEmpty (s : FormStore) : Bool := s.size = 0

/-- Puts a form into the store, and gives its place. When there is no place left the evaluation is
given up. -/
def add (s : FormStore) (kind : FormKind) (span : Span) : Except Breakdown (FormId × FormStore) :=
  if s.size < FormId.nil.index then .ok (⟨UInt32.ofNat s.size⟩, ⟨s.forms.push ⟨kind, span⟩⟩)
  else .error (.abandoned "expression arena exceeded capacity")

theorem add_of_lt {s : FormStore} (h : s.size < FormId.nil.index) (kind : FormKind) (span : Span) :
    s.add kind span = .ok (⟨UInt32.ofNat s.size⟩, ⟨s.forms.push ⟨kind, span⟩⟩) :=
  if_pos h

theorem eq_of_add_eq_ok {s s' : FormStore} {kind : FormKind} {span : Span} {id : FormId}
    (h : s.add kind span = .ok (id, s')) :
    s.size < FormId.nil.index ∧ id = ⟨UInt32.ofNat s.size⟩ ∧ s' = ⟨s.forms.push ⟨kind, span⟩⟩ := by
  by_cases hlt : s.size < FormId.nil.index
  · rw [add_of_lt hlt] at h
    cases h
    exact ⟨hlt, rfl, rfl⟩
  · rw [add, if_neg hlt] at h
    cases h

/-- The form at a place. -/
def get? (s : FormStore) (id : FormId) : Option Form :=
  if id.isValid then s.forms[id.index]? else none

theorem get?_eq_some_iff {s : FormStore} {id : FormId} {form : Form} :
    s.get? id = some form ↔ id.isValid = true ∧ s.forms[id.index]? = some form := by
  by_cases h : id.isValid = true
  · rw [get?, if_pos h]
    exact (and_iff_right h).symm
  · rw [get?, if_neg h]
    exact iff_of_false nofun fun hv => h hv.1

theorem index_lt_of_get?_eq_some {s : FormStore} {id : FormId} {form : Form}
    (h : s.get? id = some form) : id.index < s.size := by
  obtain ⟨hlt, -⟩ := Array.getElem?_eq_some_iff.mp (get?_eq_some_iff.mp h).2
  exact hlt

/-- Where the form at a place stands in its source text. -/
def span? (s : FormStore) (id : FormId) : Option Span :=
  (s.get? id).map Form.span

/-- Wraps a form in `times` lists, each of which holds the one before it `width` times. -/
def wrap (s : FormStore) (id : FormId) (width : Nat) : Nat → Except Breakdown (FormId × FormStore)
  | 0 => .ok (id, s)
  | times + 1 => do
    let (id, s) ← s.add (.list (List.replicate width id)) .none
    s.wrap id width times

end FormStore

end CallTrace
