import CallTrace.Bindings
import CallTrace.Breakdown

/-!
# Symbols

A symbol is the number of a text in a table. The table only grows, and it holds no text twice, so
that symbols of one table can be compared in place of their texts.
-/

namespace CallTrace

/-- An interned name. -/
structure Symbol where
  raw : UInt32
deriving DecidableEq

namespace Symbol

/-- The symbol of the empty text. -/
def empty : Symbol := ⟨0⟩

instance : Inhabited Symbol := ⟨empty⟩

instance : Ord Symbol := ⟨fun a b => compare a.raw b.raw⟩

/-- The place of the symbol's text in the table. -/
def index (s : Symbol) : Nat := s.raw.toNat

/-- The developer-facing text of a symbol, `Name(15)`. -/
def describe (s : Symbol) : String :=
  "Name(" ++ toString s.raw.toNat ++ ")"

end Symbol

/-- Why a text has no symbol. -/
inductive SymbolError
  /-- The table already holds `count` texts and has no number left. -/
  | tableFull (count : Nat)
deriving DecidableEq

namespace SymbolError

/-- The text shown to a user. -/
def message : SymbolError → String
  | .tableFull count =>
    "interner exceeded capacity: " ++ toString count ++ " strings, max is 4294967295"

/-- The developer-facing text, `Overflow { count: 3 }`. -/
def describe : SymbolError → String
  | .tableFull count => "Overflow \x7b count: " ++ toString count ++ " \x7d"

end SymbolError

/-- The texts that have symbols. They are kept both ways, and a text without a symbol or a symbol
with the wrong text cannot be told: the two ways are inverse to each other. -/
structure SymbolTable where
  /-- The texts, each at its symbol's index. -/
  texts : Array String := #[]
  /-- The symbols, by their texts. -/
  symbols : Bindings String Symbol := ∅
  inverse : ∀ s symbol, symbols.get? s = some symbol ↔ texts[symbol.index]? = some s
  /-- There is a number for each text. -/
  size_le : texts.size ≤ UInt32.size

namespace SymbolTable

/-- The number of texts in the table. -/
def size (t : SymbolTable) : Nat := t.texts.size

/-- Whether the table holds nothing besides the empty text. -/
def isEmpty (t : SymbolTable) : Bool := t.size ≤ 1

/-- The symbol of a text that is already in the table. -/
def find? (t : SymbolTable) (s : String) : Option Symbol :=
  t.symbols.get? s

theorem find?_eq_some_iff {t : SymbolTable} {s : String} {symbol : Symbol} :
    t.find? s = some symbol ↔ t.texts[symbol.index]? = some s :=
  t.inverse s symbol

/-! ## Adding texts -/

/-- The symbol that the next new text is given. -/
def next (t : SymbolTable) : Symbol := ⟨UInt32.ofNat t.size⟩

theorem index_next {t : SymbolTable} (h : t.size < UInt32.size) : t.next.index = t.size :=
  UInt32.toNat_ofNat_of_lt' h

/-- Only the next symbol has the next index. -/
theorem index_eq_size_iff {t : SymbolTable} (h : t.size < UInt32.size) {symbol : Symbol} :
    symbol.index = t.size ↔ t.next = symbol := by
  constructor
  · intro hindex
    exact congrArg Symbol.mk (UInt32.toNat_inj.mp ((index_next h).trans hindex.symm))
  · rintro rfl
    exact index_next h

/-- A new text enters the table under the next symbol, and the two ways stay inverse. -/
theorem inverse_enter {t : SymbolTable} {s : String} (hnew : t.find? s = none)
    (hroom : t.size < UInt32.size) (s' : String) (symbol : Symbol) :
    (t.symbols.insert s t.next).get? s' = some symbol ↔
      (t.texts.push s)[symbol.index]? = some s' := by
  have hnext : symbol.index = t.texts.size ↔ t.next = symbol := index_eq_size_iff hroom
  have hold := t.inverse s' symbol
  rw [Bindings.get?_insert, Array.getElem?_push]
  by_cases hs : s = s' <;> by_cases hindex : symbol.index = t.texts.size
  · simp [hs, hindex, hnext.mp hindex]
  · -- the text is new, so no symbol had it
    have hnone : t.texts[symbol.index]? ≠ some s' := by
      rw [Ne, ← hold, ← hs, show t.symbols.get? s = none from hnew]
      exact nofun
    simp [hs, hindex, hnone, mt hnext.mpr hindex]
  · -- the next index had no text yet, so no text had the next symbol
    have hnone : t.symbols.get? s' ≠ some symbol := by
      rw [Ne, hold, hindex]
      simp
    simp [hs, hindex, hnone]
  · simp [hs, hindex, hold]

/-- Gives a new text the next symbol. -/
def enter (t : SymbolTable) (s : String) (hnew : t.find? s = none) (hroom : t.size < UInt32.size) :
    SymbolTable where
  texts := t.texts.push s
  symbols := t.symbols.insert s t.next
  inverse := inverse_enter hnew hroom
  size_le := by
    rw [Array.size_push]
    exact hroom

/-- The symbol of a text, which enters the table if it is new. -/
def add (t : SymbolTable) (s : String) : Except SymbolError (Symbol × SymbolTable) :=
  match hfind : t.find? s with
  | some symbol => .ok (symbol, t)
  | none =>
    if hroom : t.size < UInt32.size then .ok (t.next, t.enter s hfind hroom)
    else .error (.tableFull t.size)

/-- A text is found, or it enters, or there is no number left for it. -/
theorem add_cases (t : SymbolTable) (s : String) :
    (∃ symbol, t.find? s = some symbol ∧ t.add s = .ok (symbol, t)) ∨
      (∃ hnew hroom, t.add s = .ok (t.next, t.enter s hnew hroom)) ∨
      t.find? s = none ∧ UInt32.size ≤ t.size ∧ t.add s = .error (.tableFull t.size) := by
  unfold add
  split
  next symbol hfind => exact Or.inl ⟨symbol, hfind, rfl⟩
  next hfind =>
    by_cases hroom : t.size < UInt32.size
    · exact Or.inr (Or.inl ⟨hfind, hroom, dif_pos hroom⟩)
    · exact Or.inr (Or.inr ⟨hfind, Nat.le_of_not_lt hroom, dif_neg hroom⟩)

/-- The symbol of a text, which enters the table if it is new. When there is no number left for it
the evaluation is given up. -/
def intern (t : SymbolTable) (s : String) : Except Breakdown (Symbol × SymbolTable) :=
  (t.add s).mapError fun e => .abandoned e.message

theorem intern_of_add_eq_ok {t : SymbolTable} {s : String} {given : Symbol × SymbolTable}
    (h : t.add s = .ok given) : t.intern s = .ok given := by
  rw [intern, h]
  rfl

/-- As long as the table is not full every text is given a symbol. -/
theorem exists_intern_eq_ok {t : SymbolTable} (h : t.size < UInt32.size) (s : String) :
    ∃ symbol t', t.intern s = .ok (symbol, t') := by
  rcases t.add_cases s with ⟨symbol, -, hadd⟩ | ⟨_, _, hadd⟩ | ⟨-, hfull, -⟩
  · exact ⟨symbol, t, intern_of_add_eq_ok hadd⟩
  · exact ⟨_, _, intern_of_add_eq_ok hadd⟩
  · exact absurd h (Nat.not_lt.mpr hfull)

/-- What is interned was found, or it entered. -/
theorem eq_of_intern_eq_ok {t t' : SymbolTable} {s : String} {symbol : Symbol}
    (h : t.intern s = .ok (symbol, t')) :
    t.find? s = some symbol ∧ t' = t ∨
      ∃ hnew hroom, symbol = t.next ∧ t' = t.enter s hnew hroom := by
  rcases t.add_cases s with ⟨found, hfind, hadd⟩ | ⟨hnew, hroom, hadd⟩ | ⟨-, -, hadd⟩
  · rw [intern_of_add_eq_ok hadd] at h
    cases h
    exact Or.inl ⟨hfind, rfl⟩
  · rw [intern_of_add_eq_ok hadd] at h
    cases h
    exact Or.inr ⟨hnew, hroom, rfl, rfl⟩
  · rw [intern, hadd] at h
    cases h

/-! ## Tables to begin with -/

/-- The words with a meaning of their own to the evaluator. Every table numbers them from 1 on. -/
def specialForms : List String :=
  ["def", "defn", "defmacro", "fn", "let", "if", "do", "quote", "quasiquote", "unquote", "ns",
   "nil", "true", "false"]

/-- A table that holds the empty text only. -/
def onlyEmpty : SymbolTable :=
  enter { inverse := by simp, size_le := by decide } "" rfl (by decide)

/-- A table that holds the empty text and the special forms. -/
def new : SymbolTable :=
  Breakdown.resultOf (specialForms.foldlM (fun t s => (·.2) <$> t.intern s) onlyEmpty)
    (by decide +kernel)

theorem size_new : new.size = 15 := by
  decide +kernel

/-! ## Texts of symbols -/

/-- The text of a symbol, empty for a symbol of another table. -/
def text (t : SymbolTable) (symbol : Symbol) : String :=
  t.texts[symbol.index]?.getD ""

end SymbolTable

end CallTrace
