import CallTrace.Native.Registry
import Mathlib.Data.List.Dedup
import Mathlib.Data.List.Induction
import Mathlib.Data.List.Sort

/-!
# What a registry holds

A registry keeps its functions in no order of their own. It lists the names, and it lists the
functions, and sorts each list for itself. As no name is there twice this leaves just one way to
list either, so the two agree with each other and do not depend on the order in which the functions
came in. What a registry holds depends on the last function of each name only.

* `sortBy_eq_of_perm` — the order of the items before sorting does not matter
* `map_name_functions` — the names of the functions listed are the names listed
* `alike_of_get?_eq` — what is found by name determines both listings
* `ofList_lists_last` — what the registry of a list holds
-/

namespace CallTrace

/-! ## Sorting by a text -/

namespace Text

variable {α β : Type} {text : α → String} {xs ys : List α}

/-- The order of two items by their texts. -/
def LeBy (text : α → String) (a b : α) : Prop :=
  ByteLe (text a) (text b)

instance (text : α → String) : DecidableRel (LeBy text) :=
  fun a b => inferInstanceAs (Decidable (ByteLe (text a) (text b)))

instance (text : α → String) : Std.Total (LeBy text) :=
  ⟨fun a b => by
    by_cases h : ByteLt (text b) (text a)
    · exact Or.inr h.asymm
    · exact Or.inl h⟩

instance (text : α → String) : IsTrans α (LeBy text) :=
  ⟨fun _ _ _ hab hbc => List.not_lt.mpr (List.le_trans (List.not_lt.mp hab) (List.not_lt.mp hbc))⟩

theorem sortBy_eq_insertionSort (text : α → String) (items : List α) :
    sortBy text items = items.insertionSort (LeBy text) := by
  have hinsert : ∀ (a : α) (xs : List α), insertBy text a xs = xs.orderedInsert (LeBy text) a := by
    intro a xs
    induction xs with
    | nil => rfl
    | cons b rest ih =>
      rw [insertBy, List.orderedInsert_cons, ih]
      rfl
  unfold sortBy List.insertionSort
  congr
  funext a xs
  exact hinsert a xs

theorem perm_sortBy (text : α → String) (items : List α) : (sortBy text items).Perm items := by
  rw [sortBy_eq_insertionSort]
  exact List.perm_insertionSort _ items

/-- Items with different texts are strictly sorted. -/
theorem pairwise_sortBy (h : (xs.map text).Nodup) :
    (sortBy text xs).Pairwise fun a b => ByteLt (text a) (text b) := by
  have hle : (sortBy text xs).Pairwise (LeBy text) := by
    rw [sortBy_eq_insertionSort]
    exact List.pairwise_insertionSort _ xs
  have hne : (sortBy text xs).Pairwise fun a b => text a ≠ text b :=
    List.pairwise_map.mp (((perm_sortBy text xs).map text).nodup_iff.mpr h)
  exact hle.imp₂ (fun a b hab hne => byteLt_of_not_byteLt hne.symm hab) hne

/-- **The order of the items before sorting does not matter**, as long as their texts differ. -/
theorem sortBy_eq_of_perm (h : (xs.map text).Nodup) (hperm : xs.Perm ys) :
    sortBy text xs = sortBy text ys := by
  have hsorted : (sortBy text xs).Perm (sortBy text ys) :=
    (perm_sortBy text xs).trans (hperm.trans (perm_sortBy text ys).symm)
  refine hsorted.eq_of_pairwise (fun a b _ _ hab hba => absurd hba hab.asymm) (pairwise_sortBy h)
    (pairwise_sortBy ?_)
  exact (hperm.map text).nodup_iff.mp h

theorem map_sortBy (text : α → String) (items : List α) :
    (sortBy text items).map text = sortBy id (items.map text) := by
  rw [sortBy_eq_insertionSort, sortBy_eq_insertionSort]
  exact List.map_insertionSort _ _ text items fun _ _ _ _ => Iff.rfl

end Text

namespace Registry

/-- The last function of a name in a list. -/
def LastNamed (fs : List Native) (name : String) (f : Native) : Prop :=
  f.name = name ∧ ∃ before later, fs = before ++ f :: later ∧ ∀ g ∈ later, g.name ≠ name

variable {r s : Registry} {f g : Native} {name : String}

/-! ## The two listings -/

/-- Every function is kept under its own name. -/
theorem map_name_values (r : Registry) : r.table.values.map Native.name = r.table.keys := by
  rw [Bindings.values, Bindings.keys, List.map_map]
  refine List.map_congr_left fun entry hentry => ?_
  exact r.named entry.1 entry.2 (Bindings.mem_entries_iff.mp hentry)

/-- **The names of the functions listed are the names listed.** -/
theorem map_name_functions (r : Registry) : r.functions.map Native.name = r.names := by
  rw [functions, names, Text.map_sortBy, map_name_values]

theorem mem_names_iff : name ∈ r.names ↔ ∃ f, r.get? name = some f := by
  rw [names, (Text.perm_sortBy _ _).mem_iff, Bindings.mem_keys_iff, Option.isSome_iff_exists]
  rfl

theorem mem_values_iff : f ∈ r.table.values ↔ r.get? f.name = some f := by
  rw [Bindings.values, List.mem_map]
  constructor
  · rintro ⟨entry, hentry, rfl⟩
    have hget := Bindings.mem_entries_iff.mp hentry
    rw [r.named _ _ hget]
    exact hget
  · exact fun h => ⟨(f.name, f), Bindings.mem_entries_iff.mpr h, rfl⟩

theorem mem_functions_iff : f ∈ r.functions ↔ r.get? f.name = some f :=
  (Text.perm_sortBy _ _).mem_iff.trans mem_values_iff

theorem nodup_map_id_keys (r : Registry) : (r.table.keys.map id).Nodup := by
  rw [List.map_id]
  exact r.table.nodup_keys

theorem nodup_map_name_values (r : Registry) : (r.table.values.map Native.name).Nodup := by
  rw [map_name_values]
  exact r.table.nodup_keys

theorem pairwise_names (r : Registry) : r.names.Pairwise Text.ByteLt :=
  Text.pairwise_sortBy r.nodup_map_id_keys

theorem nodup_names (r : Registry) : r.names.Nodup :=
  r.pairwise_names.imp Text.ByteLt.ne

theorem length_names (r : Registry) : r.names.length = r.size := by
  rw [names, (Text.perm_sortBy _ _).length_eq, Bindings.keys, List.length_map]
  rfl

theorem length_functions (r : Registry) : r.functions.length = r.size := by
  rw [← length_names, ← map_name_functions, List.length_map]

theorem getElem?_functions {i : Nat} (hi : r.names[i]? = some name) :
    r.functions[i]? = r.get? name := by
  rw [← map_name_functions, List.getElem?_map, Option.map_eq_some_iff] at hi
  obtain ⟨f, hf, rfl⟩ := hi
  rw [hf, mem_functions_iff.mp (List.mem_of_getElem? hf)]

/-! ## What is found by name determines the listings -/

/-- Two registries cannot be told apart. -/
structure Alike (r s : Registry) : Prop where
  get? : ∀ name, r.get? name = s.get? name
  names : r.names = s.names
  functions : r.functions = s.functions
  size : r.size = s.size

/-- **What is found by name determines all the rest.** -/
theorem alike_of_get?_eq (h : ∀ name, r.get? name = s.get? name) : r.Alike s := by
  have hkeys : r.table.keys.Perm s.table.keys := by
    refine (List.perm_ext_iff_of_nodup r.table.nodup_keys s.table.nodup_keys).mpr fun name => ?_
    have hname : r.table.get? name = s.table.get? name := h name
    rw [Bindings.mem_keys_iff, Bindings.mem_keys_iff, hname]
  have hvalues : r.table.values.Perm s.table.values := by
    refine (List.perm_ext_iff_of_nodup r.nodup_map_name_values.of_map
      s.nodup_map_name_values.of_map).mpr fun f => ?_
    rw [mem_values_iff, mem_values_iff, h]
  have hnames : r.names = s.names := Text.sortBy_eq_of_perm r.nodup_map_id_keys hkeys
  exact ⟨h, hnames, Text.sortBy_eq_of_perm r.nodup_map_name_values hvalues,
    by rw [← length_names, ← length_names, hnames]⟩

/-! ## A list of functions -/

theorem get?_insert (r : Registry) (f : Native) (name : String) :
    (r.insert f).get? name = if f.name = name then some f else r.get? name :=
  Bindings.get?_insert r.table f.name name f

theorem ofList_concat (fs : List Native) (f : Native) :
    ofList (fs ++ [f]) = (ofList fs).insert f := by
  simp [ofList]

theorem get?_ofList (fs : List Native) (name : String) :
    (ofList fs).get? name = fs.reverse.find? (·.name = name) := by
  induction fs using List.reverseRecOn with
  | nil => rfl
  | append_singleton fs f ih =>
    rw [ofList_concat, get?_insert, ih, List.reverse_concat, List.find?_cons]
    by_cases hname : f.name = name
    · simp [hname]
    · simp [hname]

theorem get?_ofList_eq_none_iff {fs : List Native} {name : String} :
    (ofList fs).get? name = none ↔ ∀ f ∈ fs, f.name ≠ name := by
  simp [get?_ofList]

theorem get?_ofList_eq_some_iff {fs : List Native} {name : String} :
    (ofList fs).get? name = some f ↔ LastNamed fs name f := by
  rw [get?_ofList, List.find?_eq_some_iff_append, LastNamed]
  refine and_congr (by simp) ?_
  constructor
  · rintro ⟨later, before, hfs, hlater⟩
    refine ⟨before.reverse, later.reverse, ?_, by simpa using hlater⟩
    rw [← fs.reverse_reverse, hfs]
    simp
  · rintro ⟨before, later, rfl, hlater⟩
    exact ⟨later.reverse, before.reverse, by simp, by simpa using hlater⟩

theorem lastNamed_iff_of_nodup {fs : List Native} (h : (fs.map Native.name).Nodup) {name : String} :
    LastNamed fs name f ↔ f ∈ fs ∧ f.name = name := by
  constructor
  · rintro ⟨hname, before, later, rfl, -⟩
    exact ⟨by simp, hname⟩
  · rintro ⟨hf, rfl⟩
    obtain ⟨before, later, rfl⟩ := List.append_of_mem hf
    refine ⟨rfl, before, later, rfl, fun g hg heq => ?_⟩
    rw [List.map_append, List.map_cons, List.nodup_append] at h
    exact (List.nodup_cons.mp h.2.1).1 (heq ▸ List.mem_map_of_mem hg)

/-- Functions that have different names are the last of their names in any order. -/
theorem lastNamed_iff_of_perm {fs gs : List Native} (hperm : fs.Perm gs)
    (h : (fs.map Native.name).Nodup) {name : String} :
    LastNamed fs name f ↔ LastNamed gs name f := by
  have h' : (gs.map Native.name).Nodup := (hperm.map Native.name).nodup_iff.mp h
  rw [lastNamed_iff_of_nodup h, lastNamed_iff_of_nodup h', hperm.mem_iff]

/-! ## What the registry of a list holds -/

/-- **Only the last function of each name counts.** -/
theorem alike_ofList_of_lastNamed_iff {fs gs : List Native}
    (h : ∀ name f, LastNamed fs name f ↔ LastNamed gs name f) : (ofList fs).Alike (ofList gs) := by
  refine alike_of_get?_eq fun name => Option.ext fun f => ?_
  rw [get?_ofList_eq_some_iff, get?_ofList_eq_some_iff, h]

theorem mem_names_ofList {fs : List Native} {name : String} :
    name ∈ (ofList fs).names ↔ name ∈ fs.map Native.name := by
  rw [mem_names_iff, ← not_iff_not, not_exists, ← Option.eq_none_iff_forall_ne_some,
    get?_ofList_eq_none_iff]
  simp

/-- The names are those of the list, each of them once. -/
theorem size_ofList (fs : List Native) :
    (ofList fs).size = (fs.map Native.name).dedup.length := by
  have hperm : (ofList fs).names.Perm (fs.map Native.name).dedup := by
    refine (List.perm_ext_iff_of_nodup (ofList fs).nodup_names (List.nodup_dedup _)).mpr ?_
    intro name
    rw [List.mem_dedup, mem_names_ofList]
  rw [← length_names, hperm.length_eq]

/-- **What the registry of a list holds.** By a name it gives the last function of that name in the
list, and nothing if there is none. Its names are those in the list, in ascending byte order; its
functions, listed apart from the names, stand in the order of their names, each in the place of its
own; and it counts each name once. A list with the same last function of every name has a registry
that cannot be told apart from this one, and so has a list of the same functions in another order if
no two of them have the same name. -/
theorem ofList_lists_last (fs : List Native) :
    (∀ name f, (ofList fs).get? name = some f ↔ LastNamed fs name f) ∧
      (∀ name, (ofList fs).get? name = none ↔ ∀ f ∈ fs, f.name ≠ name) ∧
      (ofList fs).names.Pairwise Text.ByteLt ∧
      (∀ name, name ∈ (ofList fs).names ↔ name ∈ fs.map Native.name) ∧
      (ofList fs).functions.map Native.name = (ofList fs).names ∧
      (∀ (i : Nat) name, (ofList fs).names[i]? = some name →
        (ofList fs).functions[i]? = (ofList fs).get? name) ∧
      (ofList fs).size = (fs.map Native.name).dedup.length ∧
      (∀ gs, (∀ name f, LastNamed fs name f ↔ LastNamed gs name f) →
        (ofList fs).Alike (ofList gs)) ∧
      (∀ gs, fs.Perm gs → (fs.map Native.name).Nodup → (ofList fs).Alike (ofList gs)) := by
  refine ⟨fun _ _ => get?_ofList_eq_some_iff, fun _ => get?_ofList_eq_none_iff,
    pairwise_names _, fun _ => mem_names_ofList, map_name_functions _,
    fun _ _ => getElem?_functions, size_ofList fs,
    fun _ hlast => alike_ofList_of_lastNamed_iff hlast, fun gs hperm hnodup => ?_⟩
  exact alike_ofList_of_lastNamed_iff fun _ _ => lastNamed_iff_of_perm hperm hnodup

/-- Of two functions called `z` the second counts. The function without a name stands before it, and
the one whose name is not ASCII after it. Without the first `z` the functions can be listed in any
order. -/
theorem ofList_lists_last_repeated :
    let const (name : String) (n : Int64) : Native := ⟨name, fun _ _ _ => .ok (.int n)⟩
    let fs := [const "z" 1, const "é" 2, const "" 3, const "z" 4]
    let gs := [const "é" 2, const "" 3, const "z" 4]
    (ofList fs).names = ["", "z", "é"] ∧ LastNamed fs "z" (const "z" 4) ∧
      (∀ f ∈ fs, f.name ≠ "y") ∧ (ofList fs).size = (fs.map Native.name).dedup.length ∧
      (∀ name f, LastNamed fs name f ↔ LastNamed gs name f) ∧ (ofList fs).Alike (ofList gs) ∧
      gs.Perm gs.reverse ∧ (gs.map Native.name).Nodup ∧
      (ofList gs).Alike (ofList gs.reverse) := by
  intro const fs gs
  obtain ⟨hsome, hnone, -, -, -, -, hsize, hlast, -⟩ := ofList_lists_last fs
  obtain ⟨-, -, -, -, -, -, -, -, hperm⟩ := ofList_lists_last gs
  have hsame : ∀ name f, LastNamed fs name f ↔ LastNamed gs name f := by
    intro name f
    rw [← get?_ofList_eq_some_iff, ← get?_ofList_eq_some_iff, get?_ofList, get?_ofList]
    by_cases hz : "z" = name
    · simp [fs, gs, const, hz]
    · simp [fs, gs, const, hz]
  have hreverse : gs.Perm gs.reverse := gs.reverse_perm.symm
  have hnodup : (gs.map Native.name).Nodup := by decide
  exact ⟨by decide, (hsome "z" _).mp rfl, (hnone "y").mp rfl, hsize, hsame, hlast gs hsame,
    hreverse, hnodup, hperm _ hreverse hnodup⟩

end Registry

end CallTrace
