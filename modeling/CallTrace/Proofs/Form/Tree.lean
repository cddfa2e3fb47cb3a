import CallTrace.Form.Source
import CallTrace.Proofs.MapM
import Mathlib.Data.List.Nodup
import Mathlib.Data.List.Perm.Subperm
import Mathlib.Logic.Relation

/-!
# Places that a form reaches

A list form leads to the places of its items, and from there on to others. Where no path comes
back to a place it has been at, there is a tree: a path visits every place of the store at most
once, so it is followed to its end before the depth that the store allows is used up.

* `exists_treeWithin` — a tree is found if there is depth left for the places not yet visited
* `exists_tree?` — so there is a tree wherever no cycle is reached
* `settled_of_needsOnly` — how to tell that a form has nothing missing below it
-/

namespace CallTrace

/-! ## Reaching places -/

namespace FormStore

variable {s : FormStore} {symbols : SymbolTable} {id next : FormId}

/-- There is a list at the first place, and the second is the place of one of its items. -/
def HasItem (s : FormStore) (id item : FormId) : Prop :=
  ∃ form items, s.get? id = some form ∧ form.kind = .list items ∧ item ∈ items

/-- The second place is the first, or that of an item of the first, of an item of that, and so
on. -/
def Reaches (s : FormStore) : FormId → FormId → Prop :=
  Relation.ReflTransGen s.HasItem

/-- No place can be reached that leads back to itself. -/
def Acyclic (s : FormStore) (id : FormId) : Prop :=
  ∀ place, s.Reaches id place → ¬Relation.TransGen s.HasItem place place

theorem Acyclic.of_hasItem (h : s.Acyclic id) (hitem : s.HasItem id next) : s.Acyclic next :=
  fun place hplace => h place (.head hitem hplace)

end FormStore

/-! ## The depth of a tree -/

theorem FormId.index_injective : Function.Injective FormId.index := by
  rintro ⟨a⟩ ⟨b⟩ h
  exact congrArg FormId.mk (UInt32.toNat_inj.mp h)

namespace FormStore

variable {s : FormStore} {symbols : SymbolTable} {id next : FormId}

/-- A path that meets no place twice is no longer than the store. -/
theorem length_le_size {path : List FormId} (hnodup : path.Nodup)
    (hstored : ∀ place ∈ path, place.index < s.size) : path.length ≤ s.size := by
  have hsub : path.map FormId.index ⊆ List.range s.size := by
    intro i hi
    obtain ⟨place, hplace, rfl⟩ := List.mem_map.mp hi
    exact List.mem_range.mpr (hstored place hplace)
  have hle := ((hnodup.map FormId.index_injective).subperm hsub).length_le
  rwa [List.length_map, List.length_range] at hle

theorem treeWithin_of_list {form : Form} {items : List FormId} (hget : s.get? id = some form)
    (hkind : form.kind = .list items) (depth : Nat) :
    s.treeWithin symbols (depth + 1) id =
      (items.mapM (s.treeWithin symbols depth)).map .list := by
  simp only [treeWithin, hget, hkind]

theorem exists_treeWithin (symbols : SymbolTable) :
    ∀ (depth : Nat) {path : List FormId} {id : FormId}, path.Nodup →
      (∀ place ∈ path, place.index < s.size ∧ Relation.TransGen s.HasItem place id) →
      s.Acyclic id → s.size < depth + path.length →
      ∃ t, s.treeWithin symbols depth id = some t := by
  intro depth
  induction depth with
  | zero =>
    intro path id hnodup hpath _ hsize
    -- without depth the path would have to be longer than the store
    have hle : path.length ≤ s.size := length_le_size hnodup fun place h => (hpath place h).1
    omega
  | succ depth ih =>
    intro path id hnodup hpath hacyclic hsize
    cases hget : s.get? id with
    | none => exact ⟨.unknown, by simp only [treeWithin, hget]⟩
    | some form =>
      cases hkind : form.kind with
      | nil => exact ⟨.nil, by simp only [treeWithin, hget, hkind]⟩
      | bool b => exact ⟨.bool b, by simp only [treeWithin, hget, hkind]⟩
      | int n => exact ⟨.int n, by simp only [treeWithin, hget, hkind]⟩
      | str text => exact ⟨.str text, by simp only [treeWithin, hget, hkind]⟩
      | symbol name =>
        exact ⟨.symbol (symbols.text name), by simp only [treeWithin, hget, hkind]⟩
      | list items =>
        -- the path goes on through this place, where it has not been before
        have hnew : id ∉ path := fun hmem => hacyclic id .refl (hpath id hmem).2
        have hitems : ∀ item ∈ items, ∃ t, s.treeWithin symbols depth item = some t := by
          intro item hmem
          have hitem : s.HasItem id item := ⟨form, items, hget, hkind, hmem⟩
          refine ih (List.nodup_cons.mpr ⟨hnew, hnodup⟩) ?_ (hacyclic.of_hasItem hitem)
            (by rw [List.length_cons]; omega)
          intro place hplace
          rcases List.mem_cons.mp hplace with rfl | hplace
          · exact ⟨index_lt_of_get?_eq_some hget, .single hitem⟩
          · obtain ⟨hlt, hleads⟩ := hpath place hplace
            exact ⟨hlt, hleads.tail hitem⟩
        obtain ⟨ts, hts⟩ := exists_mapM_eq_some_iff.mpr hitems
        exact ⟨.list ts, by rw [treeWithin_of_list hget hkind, hts]; rfl⟩

/-- **There is a tree wherever no cycle is reached.** -/
theorem exists_tree? (h : s.Acyclic id) (symbols : SymbolTable) :
    ∃ t, s.tree? symbols id = some t :=
  exists_treeWithin symbols (s.size + 1) List.nodup_nil (by simp) h (by simp)

/-! ## Trees that are settled -/

/-- Everything that can be reached is there: no cycle, only forms, and only symbols that have a
text. -/
structure Settled (s : FormStore) (symbols : SymbolTable) (id : FormId) : Prop where
  acyclic : s.Acyclic id
  stored : ∀ place, s.Reaches id place → ∃ form, s.get? place = some form
  named : ∀ place form name, s.Reaches id place → s.get? place = some form →
    form.kind = .symbol name → name.index < symbols.size

theorem Settled.of_hasItem (h : s.Settled symbols id) (hitem : s.HasItem id next) :
    s.Settled symbols next where
  acyclic := h.acyclic.of_hasItem hitem
  stored place hplace := h.stored place (.head hitem hplace)
  named place form name hplace := h.named place form name (.head hitem hplace)

/-- Whether there is a form at a place that needs no more than what is at the given places, and of
those only earlier ones. -/
def needsOnly (s : FormStore) (symbols : SymbolTable) (places : List FormId) (id : FormId) : Bool :=
  match (s.get? id).map Form.kind with
  | none => false
  | some (.symbol name) => name.index < symbols.size
  | some (.list items) => items.all fun item => item ∈ places && item.index < id.index
  | some _ => true

section

variable {places : List FormId} (h : ∀ place ∈ places, s.needsOnly symbols places place = true)
include h

theorem mem_of_hasItem (hid : id ∈ places) (hitem : s.HasItem id next) :
    next ∈ places ∧ next.index < id.index := by
  obtain ⟨form, items, hget, hkind, hmem⟩ := hitem
  have hneeds := h id hid
  simp only [needsOnly, hget, Option.map_some, hkind, List.all_eq_true, Bool.and_eq_true,
    decide_eq_true_iff] at hneeds
  exact hneeds next hmem

theorem mem_of_reaches (hid : id ∈ places) (hreaches : s.Reaches id next) : next ∈ places := by
  induction hreaches with
  | refl => exact hid
  | tail _ hitem ih => exact (mem_of_hasItem h ih hitem).1

theorem index_lt_of_transGen (hid : id ∈ places)
    (hleads : Relation.TransGen s.HasItem id next) : next ∈ places ∧ next.index < id.index := by
  induction hleads with
  | single hitem => exact mem_of_hasItem h hid hitem
  | tail _ hitem ih =>
    obtain ⟨hmem, hlt⟩ := mem_of_hasItem h ih.1 hitem
    exact ⟨hmem, Nat.lt_trans hlt ih.2⟩

/-- Places that need only each other, later ones only earlier ones, are settled. -/
theorem settled_of_needsOnly (hid : id ∈ places) : s.Settled symbols id where
  acyclic place hplace hcycle :=
    Nat.lt_irrefl _ (index_lt_of_transGen h (mem_of_reaches h hid hplace) hcycle).2
  stored place hplace := by
    have hneeds := h place (mem_of_reaches h hid hplace)
    cases hget : s.get? place with
    | none => simp [needsOnly, hget] at hneeds
    | some form => exact ⟨form, rfl⟩
  named place form name hplace hget hkind := by
    have hneeds := h place (mem_of_reaches h hid hplace)
    simpa [needsOnly, hget, hkind] using hneeds

end

end FormStore

end CallTrace
