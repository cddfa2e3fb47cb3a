import CallTrace.Proofs.Form.Growth
import CallTrace.Proofs.Run
import Mathlib.Data.List.Induction

/-!
# Where source texts end

To write down a list its items are written down, and theirs, and so on. A place of the store may be
met in many ways, and a list may hold the places of forms that are added later, or its own. So the
forms themselves are no measure for how long this goes on. What counts are the paths from item to
item: the depth that is needed is the length of the longest, and there is a longest one exactly
where no path comes back to where it has been.

* `exists_treeWithin_iff` — a depth suffices if and only if no path is longer
* `treeWithin_of_le` — more depth gives the same tree
* `acyclic_of_acc`, `acc_of_treeWithin` — no cycle is reached exactly where everything ends
* `acyclic_built` — it ends in a store in which lists were made of what was there before
* `rendering_ends_iff_acyclic` — all this for every store and every place in it
-/

namespace CallTrace

namespace FormStore

variable {s : FormStore} {symbols : SymbolTable} {id next : FormId} {depth : Nat}

/-! ## Paths and depth -/

/-- From each place to the one behind it: the first holds a list, and the second is the place of
one of its items. -/
def IsPath (s : FormStore) (path : List FormId) : Prop :=
  path.IsChain s.HasItem

theorem isPath_singleton (s : FormStore) (id : FormId) : s.IsPath [id] :=
  .singleton id

theorem isPath_cons_iff {path : List FormId} :
    s.IsPath (id :: next :: path) ↔ s.HasItem id next ∧ s.IsPath (next :: path) :=
  List.isChain_cons_cons

/-- What is found at a place is a list, or it is written down at once. -/
theorem treeWithin_cases (s : FormStore) (symbols : SymbolTable) (id : FormId) :
    (∃ form items, s.get? id = some form ∧ form.kind = .list items) ∨
      (∀ next, ¬s.HasItem id next) ∧
        ∃ t, ∀ depth, s.treeWithin symbols (depth + 1) id = some t := by
  cases hget : s.get? id with
  | none =>
    refine Or.inr ⟨?_, .unknown, fun depth => by simp only [treeWithin, hget]⟩
    rintro next ⟨form, items, hform, -, -⟩
    rw [hget] at hform
    contradiction
  | some form =>
    have hleaf (hkind : ∀ items, form.kind ≠ .list items) : ∀ next, ¬s.HasItem id next := by
      rintro next ⟨form', items, hform', hkind', -⟩
      obtain rfl := Option.some.inj (hget.symm.trans hform')
      exact hkind items hkind'
    cases hkind : form.kind with
    | list items => exact Or.inl ⟨form, items, rfl, hkind⟩
    | _ =>
      refine Or.inr ⟨hleaf (by simp [hkind]), ?_⟩
      simp only [treeWithin, hget, hkind]
      exact ⟨_, fun _ => rfl⟩

theorem exists_treeWithin_succ_iff :
    (∃ t, s.treeWithin symbols (depth + 1) id = some t) ↔
      ∀ next, s.HasItem id next → ∃ t, s.treeWithin symbols depth next = some t := by
  rcases s.treeWithin_cases symbols id with ⟨form, items, hget, hkind⟩ | ⟨hleaf, t, ht⟩
  · rw [treeWithin_of_list hget hkind]
    constructor
    · rintro ⟨t, ht⟩ next ⟨form', items', hget', hkind', hmem⟩
      obtain ⟨ts, hts, -⟩ := Option.map_eq_some_iff.mp ht
      obtain rfl := Option.some.inj (hget.symm.trans hget')
      obtain rfl := FormKind.list.inj (hkind.symm.trans hkind')
      exact exists_mapM_eq_some_iff.mp ⟨ts, hts⟩ next hmem
    · intro h
      obtain ⟨ts, hts⟩ := exists_mapM_eq_some_iff.mpr fun item hmem =>
        h item ⟨form, items, hget, hkind, hmem⟩
      exact ⟨.list ts, by rw [hts]; rfl⟩
  · exact iff_of_true ⟨t, ht depth⟩ fun next hitem => absurd hitem (hleaf next)

/-- **A depth suffices if and only if no path is longer.** -/
theorem exists_treeWithin_iff :
    (∃ t, s.treeWithin symbols depth id = some t) ↔
      ∀ path, s.IsPath (id :: path) → (id :: path).length ≤ depth := by
  induction depth generalizing id with
  | zero =>
    refine iff_of_false (fun ⟨t, ht⟩ => nomatch ht) fun h => ?_
    exact absurd (h [] (s.isPath_singleton id)) (by simp)
  | succ depth ih =>
    rw [exists_treeWithin_succ_iff]
    constructor
    · intro h path hpath
      cases path with
      | nil => simp
      | cons next path =>
        obtain ⟨hitem, hrest⟩ := isPath_cons_iff.mp hpath
        exact Nat.succ_le_succ (ih.mp (h next hitem) path hrest)
    · intro h next hitem
      exact ih.mpr fun path hpath =>
        Nat.le_of_succ_le_succ (h (next :: path) (isPath_cons_iff.mpr ⟨hitem, hpath⟩))

/-- **More depth gives the same tree.** -/
theorem treeWithin_of_le {depth' : Nat} {t : SourceTree} (hle : depth ≤ depth')
    (h : s.treeWithin symbols depth id = some t) : s.treeWithin symbols depth' id = some t := by
  induction depth generalizing depth' id t with
  | zero => cases h
  | succ depth ih =>
    obtain ⟨depth', rfl⟩ := Nat.exists_eq_add_of_le' (Nat.lt_of_lt_of_le depth.succ_pos hle)
    rcases s.treeWithin_cases symbols id with ⟨form, items, hget, hkind⟩ | ⟨-, u, hu⟩
    · rw [treeWithin_of_list hget hkind] at h ⊢
      obtain ⟨ts, hts, rfl⟩ := Option.map_eq_some_iff.mp h
      have hts' : items.mapM (s.treeWithin symbols depth') = some ts :=
        mapM_eq_some_of_forall hts fun item _ u hu => ih (Nat.le_of_succ_le_succ hle) hu
      rw [hts']
      rfl
    · rw [hu] at h ⊢
      exact h

/-! ## Cycles -/

theorem acc_of_treeWithin {t : SourceTree} (h : s.treeWithin symbols depth id = some t) :
    Acc (Function.swap s.HasItem) id := by
  induction depth generalizing id t with
  | zero => cases h
  | succ depth ih =>
    refine ⟨id, fun next hitem => ?_⟩
    obtain ⟨u, hu⟩ := exists_treeWithin_succ_iff.mp ⟨t, h⟩ next hitem
    exact ih hu

theorem not_acyclic_iff : ¬s.Acyclic id ↔ ∃ next, s.HasItem id next ∧ ¬s.Acyclic next := by
  constructor
  · intro h
    obtain ⟨place, hreaches, hcycle⟩ : ∃ place, s.Reaches id place ∧
        Relation.TransGen s.HasItem place place := by
      simpa only [Acyclic, not_forall, not_not, exists_prop] using h
    rcases Relation.ReflTransGen.cases_head hreaches with rfl | ⟨next, hitem, hrest⟩
    · -- the place is on the cycle, and so is the item that the cycle goes through
      obtain ⟨next, hitem, hback⟩ := Relation.TransGen.head'_iff.mp hcycle
      exact ⟨next, hitem, fun hnext => hnext id hback hcycle⟩
    · exact ⟨next, hitem, fun hnext => hnext place hrest hcycle⟩
  · rintro ⟨next, hitem, hnext⟩ h
    exact hnext (h.of_hasItem hitem)

theorem acyclic_of_acc (h : Acc (Function.swap s.HasItem) id) : s.Acyclic id := by
  induction h with
  | intro id _ ih =>
    by_contra hcycle
    obtain ⟨next, hitem, hnext⟩ := not_acyclic_iff.mp hcycle
    exact hnext (ih next hitem)

theorem acc_of_acyclic (h : s.Acyclic id) : Acc (Function.swap s.HasItem) id := by
  obtain ⟨t, ht⟩ := exists_tree? h .new
  exact acc_of_treeWithin ht

/-- **A place has a text exactly if no cycle is reached from it.** -/
theorem exists_render_iff : (∃ text, s.render symbols id = some text) ↔ s.Acyclic id := by
  constructor
  · rintro ⟨text, htext⟩
    obtain ⟨t, ht, -⟩ := Option.map_eq_some_iff.mp htext
    exact acyclic_of_acc (acc_of_treeWithin ht)
  · intro h
    obtain ⟨t, ht⟩ := exists_tree? h symbols
    exact ⟨t.render, Option.map_eq_some_iff.mpr ⟨t, ht, rfl⟩⟩

theorem render_eq_none_iff : s.render symbols id = none ↔ ¬s.Acyclic id := by
  rw [Option.eq_none_iff_forall_ne_some, ← not_exists, not_iff_not]
  exact exists_render_iff

/-- **From where a cycle is reached there are paths of every length.** -/
theorem exists_isPath_of_not_acyclic (n : Nat) (h : ¬s.Acyclic id) :
    ∃ path, path.length = n ∧ s.IsPath (id :: path) := by
  induction n generalizing id with
  | zero => exact ⟨[], rfl, s.isPath_singleton id⟩
  | succ n ih =>
    obtain ⟨next, hitem, hnext⟩ := not_acyclic_iff.mp h
    obtain ⟨path, hlength, hpath⟩ := ih hnext
    exact ⟨next :: path, congrArg Nat.succ hlength, isPath_cons_iff.mpr ⟨hitem, hpath⟩⟩

/-! ## Lists made of what was there before -/

/-- Adds forms one after the other to an empty store. Gives their places and the store. -/
def built (forms : List Form) : Except Breakdown (List FormId × FormStore) :=
  tryAll (fun s form => s.add form.kind form.span) {} forms

/-- The last of some forms was added to what the others had built. -/
theorem built_concat_eq_ok {forms : List Form} {form : Form} {ids : List FormId}
    (h : built (forms ++ [form]) = .ok (ids, s)) :
    ∃ ids' s', built forms = .ok (ids', s') ∧ s'.size < FormId.nil.index ∧
      ids = ids' ++ [⟨UInt32.ofNat s'.size⟩] ∧ s = ⟨s'.forms.push form⟩ := by
  obtain ⟨ids', s', _, hbefore, hlast, rfl⟩ := tryAll_append_eq_ok_iff.mp h
  obtain ⟨id, _, _, hadd, ⟨⟩, rfl⟩ := tryAll_cons_eq_ok_iff.mp hlast
  obtain ⟨hlt, rfl, rfl⟩ := eq_of_add_eq_ok hadd
  exact ⟨ids', s', hbefore, hlt, rfl, rfl⟩

/-- Every list among some forms holds only places that were given before it was added. -/
def ListsGiven (forms : List Form) : Prop :=
  ∀ before form later items, forms = before ++ form :: later → form.kind = .list items →
    ∀ ids s, built before = .ok (ids, s) → ∀ item ∈ items, item ∈ ids

/-- The places that were given lie within the store. -/
theorem index_lt_of_mem_built {forms : List Form} {ids : List FormId}
    (h : built forms = .ok (ids, s)) (hid : id ∈ ids) : id.index < s.size := by
  induction forms using List.reverseRecOn generalizing ids s with
  | nil =>
    cases h
    cases hid
  | append_singleton forms form ih =>
    obtain ⟨ids', s', hbefore, hlt, rfl, rfl⟩ := built_concat_eq_ok h
    have hgrown : size ⟨s'.forms.push form⟩ = s'.size + 1 := Array.size_push ..
    rw [hgrown]
    rcases List.mem_append.mp hid with hid | hid
    · exact Nat.lt_succ_of_lt (ih hbefore hid)
    · obtain rfl := List.mem_singleton.mp hid
      have hindex : (UInt32.ofNat s'.size).toNat = s'.size :=
        UInt32.toNat_ofNat_of_lt' (Nat.lt_trans hlt (by decide))
      show (UInt32.ofNat s'.size).toNat < _
      omega

theorem ListsGiven.of_append {forms later : List Form} (h : ListsGiven (forms ++ later)) :
    ListsGiven forms := by
  rintro before form rest items rfl hkind
  exact h before form (rest ++ later) items (by simp) hkind

/-- A form that is added is found at the end of the store, and the others where they were. -/
theorem get?_push_cases {form found : Form}
    (h : (⟨s.forms.push form⟩ : FormStore).get? id = some found) :
    s.get? id = some found ∨ id.index = s.size ∧ found = form := by
  rw [get?_eq_some_iff, Array.getElem?_push] at h
  obtain ⟨hvalid, hfound⟩ := h
  split at hfound
  · next heq => exact Or.inr ⟨heq, (Option.some.inj hfound).symm⟩
  · exact Or.inl (get?_eq_some_iff.mpr ⟨hvalid, hfound⟩)

/-- Items come before the lists that hold them. -/
theorem index_lt_of_hasItem_built {forms : List Form} {ids : List FormId} (h : ListsGiven forms)
    (hbuilt : built forms = .ok (ids, s)) (hitem : s.HasItem id next) : next.index < id.index := by
  induction forms using List.reverseRecOn generalizing ids s with
  | nil =>
    cases hbuilt
    obtain ⟨form, items, hget, -, -⟩ := hitem
    exact absurd (index_lt_of_get?_eq_some hget) (Nat.not_lt_zero _)
  | append_singleton forms form ih =>
    obtain ⟨ids', s', hbefore, -, rfl, rfl⟩ := built_concat_eq_ok hbuilt
    obtain ⟨found, items, hget, hkind, hmem⟩ := hitem
    rcases get?_push_cases hget with hold | ⟨hid, rfl⟩
    · exact ih h.of_append hbefore ⟨found, items, hold, hkind, hmem⟩
    · have hgiven := h forms found [] items rfl hkind ids' s' hbefore next hmem
      rw [hid]
      exact index_lt_of_mem_built hbefore hgiven

/-- **Everything ends in a store in which lists were made of what was there before.** -/
theorem acyclic_built {forms : List Form} {ids : List FormId} (h : ListsGiven forms)
    (hbuilt : built forms = .ok (ids, s)) (id : FormId) : s.Acyclic id := by
  have hlt : ∀ {a b}, Relation.TransGen s.HasItem a b → b.index < a.index := by
    intro a b hleads
    induction hleads with
    | single hitem => exact index_lt_of_hasItem_built h hbuilt hitem
    | tail _ hitem ih => exact Nat.lt_trans (index_lt_of_hasItem_built h hbuilt hitem) ih
  intro place _ hcycle
  exact Nat.lt_irrefl _ (hlt hcycle)

/-- **Source texts end exactly where no cycle is reached.** Take any store that forms were added to,
whatever places their lists hold, and any place. Following the items from there ends if and only if
it reaches no cycle, and a depth suffices if and only if no path is longer. If it ends, then no path
is longer than the number of forms and one, and there is a text, which is the same from that depth
on. If it does not, then no depth suffices, because there are paths of every length, and there is no
text. And it ends at every place if lists only hold places that were given before. -/
theorem rendering_ends_iff_acyclic {forms : List Form} {ids : List FormId} {s : FormStore}
    (hbuilt : built forms = .ok (ids, s)) (symbols : SymbolTable) (id : FormId) :
    (Acc (Function.swap s.HasItem) id ↔ s.Acyclic id) ∧
    (∀ depth, (∃ t, s.treeWithin symbols depth id = some t) ↔
      ∀ path, s.IsPath (id :: path) → (id :: path).length ≤ depth) ∧
    (s.Acyclic id →
      (∀ path, s.IsPath (id :: path) → (id :: path).length ≤ s.size + 1) ∧
      ∃ text, s.render symbols id = some text ∧
        ∀ depth, s.size + 1 ≤ depth →
          (s.treeWithin symbols depth id).map SourceTree.render = some text) ∧
    (¬s.Acyclic id →
      (∀ n, ∃ path, path.length = n ∧ s.IsPath (id :: path)) ∧
      (∀ depth, s.treeWithin symbols depth id = none) ∧ s.render symbols id = none) ∧
    (ListsGiven forms → Acc (Function.swap s.HasItem) id) := by
  refine ⟨⟨acyclic_of_acc, acc_of_acyclic⟩, fun depth => exists_treeWithin_iff, fun h => ?_,
    fun h => ?_, fun h => acc_of_acyclic (acyclic_built h hbuilt id)⟩
  · obtain ⟨t, ht⟩ := exists_tree? h symbols
    refine ⟨exists_treeWithin_iff.mp ⟨t, ht⟩, t.render, by rw [render, ht]; rfl,
      fun depth hle => ?_⟩
    rw [treeWithin_of_le hle ht]
    rfl
  · refine ⟨fun n => exists_isPath_of_not_acyclic n h, fun depth => ?_, render_eq_none_iff.mpr h⟩
    rw [Option.eq_none_iff_forall_ne_some]
    intro t ht
    exact h (acyclic_of_acc (acc_of_treeWithin ht))

/-- A list that holds a place of a later form, one that holds itself, and one that holds both of
them and a place that does not exist. -/
theorem rendering_ends_iff_acyclic_knot :
    ∃ ids s, built [⟨.list [⟨3⟩, ⟨3⟩], .none⟩, ⟨.list [⟨1⟩], .none⟩,
        ⟨.list [⟨0⟩, .nil, ⟨1⟩], .none⟩, ⟨.int 5, .none⟩] = .ok (ids, s) ∧
      s.Acyclic ⟨0⟩ ∧ ¬s.Acyclic ⟨2⟩ ∧ s.render .new ⟨0⟩ = some "(5 5)" ∧
      (∀ depth, 5 ≤ depth →
        (s.treeWithin .new depth ⟨0⟩).map SourceTree.render = some "(5 5)") ∧
      (∀ depth, s.treeWithin .new depth ⟨2⟩ = none) ∧ s.render .new ⟨2⟩ = none ∧
      ∃ path, path.length = 100 ∧ s.IsPath (⟨2⟩ :: path) := by
  obtain ⟨ids, s, hbuilt, hlist, hself, hitem, hsize⟩ : ∃ ids s,
      built [⟨.list [⟨3⟩, ⟨3⟩], .none⟩, ⟨.list [⟨1⟩], .none⟩,
        ⟨.list [⟨0⟩, .nil, ⟨1⟩], .none⟩, ⟨.int 5, .none⟩] = .ok (ids, s) ∧
      s.treeWithin .new 5 ⟨0⟩ = some (.list [.int 5, .int 5]) ∧ s.HasItem ⟨1⟩ ⟨1⟩ ∧
      s.HasItem ⟨2⟩ ⟨1⟩ ∧ s.size = 4 :=
    ⟨_, _, rfl, rfl, ⟨_, _, rfl, rfl, List.mem_singleton_self _⟩, ⟨_, _, rfl, rfl, by decide⟩, rfl⟩
  have hends : s.Acyclic ⟨0⟩ := acyclic_of_acc (acc_of_treeWithin hlist)
  have hnot : ¬s.Acyclic ⟨2⟩ := fun h => h ⟨1⟩ (.single hitem) (.single hself)
  obtain ⟨-, -, htext, -, -⟩ := rendering_ends_iff_acyclic hbuilt .new ⟨0⟩
  obtain ⟨-, -, -, hloop, -⟩ := rendering_ends_iff_acyclic hbuilt .new ⟨2⟩
  obtain ⟨text, hrender, hdepths⟩ := (htext hends).2
  obtain ⟨hpaths, hnone, hnever⟩ := hloop hnot
  obtain rfl : text = "(5 5)" := by
    have hfive := hdepths 5 (by omega)
    rw [hlist] at hfive
    rw [← Option.some.inj hfive]
    decide +kernel
  exact ⟨ids, s, hbuilt, hends, hnot, hrender, fun depth hle => hdepths depth (by omega), hnone,
    hnever, hpaths 100⟩

end FormStore

end CallTrace
