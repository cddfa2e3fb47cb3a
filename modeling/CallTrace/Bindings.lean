/-!
# Tables in which the last write wins

A table is the list of its writes, newest first; a key is bound to the value of its newest write.
-/

namespace CallTrace

/-- A finite table from keys to values. -/
structure Bindings (κ ν : Type) where
  /-- The writes, newest first. -/
  writes : List (κ × ν) := []

namespace Bindings

variable {κ ν : Type}

/-- The table that binds nothing. -/
def empty : Bindings κ ν := ⟨[]⟩

instance : EmptyCollection (Bindings κ ν) := ⟨empty⟩

/-- Binds `key` to `value`, whatever it was bound to before. -/
def insert (b : Bindings κ ν) (key : κ) (value : ν) : Bindings κ ν :=
  ⟨(key, value) :: b.writes⟩

variable [DecidableEq κ]

/-- The value a key is bound to. -/
def get? (b : Bindings κ ν) (key : κ) : Option ν :=
  (b.writes.find? (·.1 = key)).map (·.2)

@[simp] theorem get?_empty (key : κ) : (∅ : Bindings κ ν).get? key = none := rfl

theorem get?_insert (b : Bindings κ ν) (key key' : κ) (value : ν) :
    (b.insert key value).get? key' = if key = key' then some value else b.get? key' := by
  by_cases h : key = key' <;> simp [insert, get?, h]

/-- The writes that were not written over since. -/
def current : List (κ × ν) → List (κ × ν)
  | [] => []
  | write :: older => write :: (current older).filter (·.1 ≠ write.1)

theorem mem_current_iff {writes : List (κ × ν)} {key : κ} {value : ν} :
    (key, value) ∈ current writes ↔ (writes.find? (·.1 = key)).map (·.2) = some value := by
  induction writes with
  | nil => simp [current]
  | cons write older ih =>
    obtain ⟨key', value'⟩ := write
    by_cases h : key' = key
    · subst h
      simp only [current, List.mem_cons, List.mem_filter, List.find?_cons]
      simp [@eq_comm _ value]
    · simp [current, h, ih, Ne.symm h]

theorem pairwise_current (writes : List (κ × ν)) :
    (current writes).Pairwise fun a b => a.1 ≠ b.1 := by
  induction writes with
  | nil => exact .nil
  | cons write older ih =>
    refine .cons (fun entry hentry => Ne.symm ?_) (ih.filter _)
    exact of_decide_eq_true (List.mem_filter.mp hentry).2

/-- All keys with their values, in no order that means anything. -/
def entries (b : Bindings κ ν) : List (κ × ν) := current b.writes

theorem mem_entries_iff {b : Bindings κ ν} {key : κ} {value : ν} :
    (key, value) ∈ b.entries ↔ b.get? key = some value :=
  mem_current_iff

/-- The keys that are bound. -/
def keys (b : Bindings κ ν) : List κ := b.entries.map (·.1)

/-- No key is listed twice. -/
theorem nodup_keys (b : Bindings κ ν) : b.keys.Nodup :=
  List.pairwise_map.mpr (pairwise_current b.writes)

theorem mem_keys_iff {b : Bindings κ ν} {key : κ} : key ∈ b.keys ↔ (b.get? key).isSome := by
  simp [keys, mem_entries_iff, Option.isSome_iff_exists]

/-- The values they are bound to. -/
def values (b : Bindings κ ν) : List ν := b.entries.map (·.2)

/-- The number of keys that are bound. -/
def size (b : Bindings κ ν) : Nat := b.entries.length

end Bindings

end CallTrace
