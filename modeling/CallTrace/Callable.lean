import CallTrace.Breakdown

/-!
# Identities of callables

A callable is known by a number that is handed out once and never again, so two functions of one
name are still two callables. The largest number is kept back to stand for "no callable".
-/

namespace CallTrace

/-- The identity of something that can be called. -/
structure CallableId where
  raw : UInt32
deriving DecidableEq

namespace CallableId

/-- The identity of no callable. -/
def nil : CallableId := ⟨4294967295⟩

instance : Inhabited CallableId := ⟨nil⟩

instance : Ord CallableId := ⟨fun a b => compare a.raw b.raw⟩

/-- Whether this is the identity of a callable. -/
def isValid (id : CallableId) : Bool := id ≠ nil

@[simp] theorem isValid_eq_true_iff {id : CallableId} : id.isValid = true ↔ id ≠ nil :=
  decide_eq_true_iff

@[simp] theorem isValid_eq_false_iff {id : CallableId} : id.isValid = false ↔ id = nil := by
  rw [Bool.eq_false_iff, Ne, isValid_eq_true_iff, Decidable.not_not]

/-- The text that stands for a callable without a name, `fn#3`. -/
def render (id : CallableId) : String :=
  "fn#" ++ toString id.raw.toNat

/-- The developer-facing text, `FnId(3)`. -/
def describe (id : CallableId) : String :=
  if id = nil then "FnId::INVALID" else "FnId(" ++ toString id.raw.toNat ++ ")"

end CallableId

/-- A supply of fresh identities: all those from `next` on, the last one excepted. -/
structure CallableSupply where
  next : UInt32 := 0

namespace CallableSupply

/-- The next fresh identity, if there is one left. -/
def fresh? (s : CallableSupply) : Option (CallableId × CallableSupply) :=
  if s.next < CallableId.nil.raw then some (⟨s.next⟩, ⟨s.next + 1⟩) else none

theorem fresh?_of_lt {s : CallableSupply} (h : s.next < CallableId.nil.raw) :
    s.fresh? = some (⟨s.next⟩, ⟨s.next + 1⟩) :=
  if_pos h

theorem fresh?_of_not_lt {s : CallableSupply} (h : ¬s.next < CallableId.nil.raw) :
    s.fresh? = none :=
  if_neg h

/-- The next fresh identity. When there is none left the evaluation is given up. -/
def fresh (s : CallableSupply) : Except Breakdown (CallableId × CallableSupply) :=
  match s.fresh? with
  | some given => .ok given
  | none => .error (.abandoned "callable id space exhausted")

theorem fresh_of_lt {s : CallableSupply} (h : s.next < CallableId.nil.raw) :
    s.fresh = .ok (⟨s.next⟩, ⟨s.next + 1⟩) := by
  rw [fresh, fresh?_of_lt h]

theorem eq_of_fresh_eq_ok {s s' : CallableSupply} {id : CallableId} (h : s.fresh = .ok (id, s')) :
    s.next < CallableId.nil.raw ∧ id = ⟨s.next⟩ ∧ s' = ⟨s.next + 1⟩ := by
  by_cases hlt : s.next < CallableId.nil.raw
  · rw [fresh_of_lt hlt] at h
    cases h
    exact ⟨hlt, rfl, rfl⟩
  · rw [fresh, fresh?_of_not_lt hlt] at h
    cases h

theorem toNat_next_add_one {s : CallableSupply} (h : s.next < CallableId.nil.raw) :
    (s.next + 1).toNat = s.next.toNat + 1 := by
  have hlt : s.next.toNat < 4294967295 := UInt32.lt_iff_toNat_lt.mp h
  rw [UInt32.toNat_add, UInt32.toNat_one]
  omega

/-- Up to `n` fresh identities, in the order in which they are handed out. -/
def take (s : CallableSupply) : Nat → List CallableId × CallableSupply
  | 0 => ([], s)
  | n + 1 =>
    match s.fresh? with
    | none => ([], s)
    | some (id, s) => let (ids, s) := s.take n; (id :: ids, s)

end CallableSupply

end CallTrace
