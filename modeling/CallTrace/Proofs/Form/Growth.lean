import CallTrace.Proofs.Form.Tree

/-!
# Tables that grow

Symbol tables and form stores are only ever added to, at their ends. What is there keeps its
number, so what was said of it once stays true.

* `SymbolTable.Grows.text_eq`, `FormStore.Grows.get?_eq_some` — a symbol keeps its text and a place
  its form
* `treeWithin_of_grows` — a settled tree is found again, in more forms and with more depth
* `render_of_grows` — so a settled form keeps its source text
-/

namespace CallTrace

theorem getElem?_of_toList_prefix_toList {α : Type} {xs ys : Array α}
    (h : xs.toList <+: ys.toList) {i : Nat} (hi : i < xs.size) : ys[i]? = xs[i]? := by
  obtain ⟨rest, hrest⟩ := h
  rw [← Array.getElem?_toList, ← Array.getElem?_toList, ← hrest, List.getElem?_append_left]
  rwa [Array.length_toList]

/-! ## Symbol tables -/

namespace SymbolTable

variable {t t' : SymbolTable}

/-- The second table has the texts of the first, and maybe more behind them. -/
def Grows (t t' : SymbolTable) : Prop :=
  t.texts.toList <+: t'.texts.toList

theorem Grows.size_le (h : t.Grows t') : t.size ≤ t'.size := by
  have hle := h.length_le
  rwa [Array.length_toList, Array.length_toList] at hle

theorem Grows.text_eq (h : t.Grows t') {symbol : Symbol} (hsymbol : symbol.index < t.size) :
    t'.text symbol = t.text symbol := by
  rw [text, text, getElem?_of_toList_prefix_toList h hsymbol]

theorem grows_of_intern_eq_ok {s : String} {symbol : Symbol} (h : t.intern s = .ok (symbol, t')) :
    t.Grows t' := by
  rcases eq_of_intern_eq_ok h with ⟨-, rfl⟩ | ⟨hnew, hroom, -, rfl⟩
  · exact List.prefix_refl _
  · rw [Grows, enter, Array.toList_push]
    exact List.prefix_append _ _

end SymbolTable

/-! ## Form stores -/

namespace FormStore

variable {s s' : FormStore} {symbols symbols' : SymbolTable}

/-- The second store has the forms of the first, and maybe more behind them. -/
def Grows (s s' : FormStore) : Prop :=
  s.forms.toList <+: s'.forms.toList

theorem Grows.size_le (h : s.Grows s') : s.size ≤ s'.size := by
  have hle := h.length_le
  rwa [Array.length_toList, Array.length_toList] at hle

theorem Grows.get?_eq_some (h : s.Grows s') {id : FormId} {form : Form}
    (hget : s.get? id = some form) : s'.get? id = some form := by
  have hlt := index_lt_of_get?_eq_some hget
  rw [get?_eq_some_iff] at hget ⊢
  obtain ⟨hvalid, hform⟩ := hget
  rw [getElem?_of_toList_prefix_toList h hlt]
  exact ⟨hvalid, hform⟩

theorem grows_of_add_eq_ok {kind : FormKind} {span : Span} {id : FormId}
    (h : s.add kind span = .ok (id, s')) : s.Grows s' := by
  obtain ⟨-, -, rfl⟩ := eq_of_add_eq_ok h
  rw [Grows, Array.toList_push]
  exact List.prefix_append _ _

/-! ## Settled trees -/

theorem treeWithin_of_grows (hs : s.Grows s') (hsymbols : symbols.Grows symbols') :
    ∀ {depth depth' : Nat} {id : FormId} {t : SourceTree}, depth ≤ depth' →
      s.Settled symbols id → s.treeWithin symbols depth id = some t →
      s'.treeWithin symbols' depth' id = some t := by
  intro depth
  induction depth with
  | zero =>
    intro depth' id t _ _ h
    cases h
  | succ depth ih =>
    intro depth' id t hle hsettled h
    -- a settled place has its form in both stores, so both look at the same kind
    obtain ⟨depth', rfl⟩ := Nat.exists_eq_add_of_le' (Nat.lt_of_lt_of_le depth.succ_pos hle)
    obtain ⟨form, hget⟩ := hsettled.stored id .refl
    have hget' : s'.get? id = some form := hs.get?_eq_some hget
    cases hkind : form.kind with
    | list items =>
      rw [treeWithin_of_list hget hkind] at h
      rw [treeWithin_of_list hget' hkind]
      obtain ⟨ts, hts, rfl⟩ := Option.map_eq_some_iff.mp h
      have hts' : items.mapM (s'.treeWithin symbols' depth') = some ts := by
        refine mapM_eq_some_of_forall hts fun item hmem t ht => ?_
        have hitem : s.HasItem id item := ⟨form, items, hget, hkind, hmem⟩
        exact ih (Nat.le_of_succ_le_succ hle) (hsettled.of_hasItem hitem) ht
      rw [hts']
      rfl
    | symbol name =>
      have htext := hsymbols.text_eq (hsettled.named id form name .refl hget hkind)
      simp only [treeWithin, hget, hkind] at h
      simp only [treeWithin, hget', hkind, htext, h]
    | _ =>
      simp only [treeWithin, hget, hkind] at h
      simp only [treeWithin, hget', hkind, h]

/-- **A settled form keeps its source text.** -/
theorem render_of_grows (hs : s.Grows s') (hsymbols : symbols.Grows symbols') {id : FormId}
    (h : s.Settled symbols id) : s'.render symbols' id = s.render symbols id := by
  obtain ⟨t, ht⟩ := exists_tree? h.acyclic symbols
  have ht' : s'.tree? symbols' id = some t :=
    treeWithin_of_grows hs hsymbols (Nat.succ_le_succ hs.size_le) h ht
  rw [render, render, ht, ht']

end FormStore

end CallTrace
