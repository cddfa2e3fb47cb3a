import CallTrace.Proofs.Form.Tree
import CallTrace.Proofs.Text.Escape
import CallTrace.Proofs.Text.Word

/-!
# Source texts are unambiguous

Two forms have the same source text only if they are the same tree, as long as no symbol looks
like something else. The argument follows the text from left to right: the first character tells a
list and a string literal from a word, a word ends before the first separator, a literal ends at
its quotation mark, and a list ends at the parenthesis that is met where an item could begin. So
each statement leaves open what follows the part it is about.

* `HasTree` — what the tree at a place is, said without following the store to a depth
* `toList_render_list` — the text of a list from the texts of its items
* `readWord_of_word?` — a word is read back as the tree it was written for
* `recoverable` — the text of a tree shows where it ends, and which tree it is
* `render_unambiguous` — equal source texts come from equal trees
-/

namespace CallTrace

/-! ## The tree at a place -/

namespace FormStore

/-- The tree at a place: the form there, with the texts of symbols and the trees of items in place
of their numbers. -/
inductive HasTree (s : FormStore) (symbols : SymbolTable) : FormId → SourceTree → Prop
  | unknown {id} (h : (s.get? id).map Form.kind = none) : HasTree s symbols id .unknown
  | nil {id} (h : (s.get? id).map Form.kind = some .nil) : HasTree s symbols id .nil
  | bool {id b} (h : (s.get? id).map Form.kind = some (.bool b)) :
      HasTree s symbols id (.bool b)
  | int {id n} (h : (s.get? id).map Form.kind = some (.int n)) : HasTree s symbols id (.int n)
  | str {id text} (h : (s.get? id).map Form.kind = some (.str text)) :
      HasTree s symbols id (.str text)
  | symbol {id name} (h : (s.get? id).map Form.kind = some (.symbol name)) :
      HasTree s symbols id (.symbol (symbols.text name))
  | list {id items ts} (h : (s.get? id).map Form.kind = some (.list items))
      (hitems : List.Forall₂ (HasTree s symbols) items ts) : HasTree s symbols id (.list ts)

end FormStore

namespace SourceTree

/-- To show something for all trees, it may be assumed for every item of a list. -/
@[elab_as_elim]
theorem itemsInduction {motive : SourceTree → Prop} (unknown : motive .unknown)
    (nil : motive .nil) (bool : ∀ b, motive (.bool b)) (int : ∀ n, motive (.int n))
    (str : ∀ s, motive (.str s)) (symbol : ∀ text, motive (.symbol text))
    (list : ∀ items, (∀ item ∈ items, motive item) → motive (.list items)) :
    ∀ t, motive t
  | .unknown => unknown
  | .nil => nil
  | .bool b => bool b
  | .int n => int n
  | .str s => str s
  | .symbol text => symbol text
  | .list items => list items fun item _ =>
      itemsInduction unknown nil bool int str symbol list item

end SourceTree

theorem eq_of_forall₂ {α β : Type} {r : α → β → Prop} {l : List α} {bs cs : List β}
    (hbs : List.Forall₂ r l bs) (hcs : List.Forall₂ r l cs)
    (hr : ∀ b ∈ bs, ∀ a c, r a b → r a c → b = c) : bs = cs := by
  induction hbs generalizing cs with
  | nil =>
    cases hcs
    rfl
  | @cons a b l bs hb _ ih =>
    obtain _ | ⟨hc, hcs⟩ := hcs
    rw [hr b (List.mem_cons_self ..) a _ hb hc,
      ih hcs fun b' hb' => hr b' (List.mem_cons_of_mem _ hb')]

namespace FormStore

variable {s s' : FormStore} {symbols symbols' : SymbolTable} {id id' : FormId} {t u : SourceTree}

theorem hasTree_of_treeWithin {depth : Nat} (h : s.treeWithin symbols depth id = some t) :
    s.HasTree symbols id t := by
  induction depth generalizing id t with
  | zero => cases h
  | succ depth ih =>
    cases hget : s.get? id with
    | none =>
      simp only [treeWithin, hget] at h
      cases h
      exact .unknown (by rw [hget]; rfl)
    | some form =>
      have hform : (s.get? id).map Form.kind = some form.kind := by rw [hget]; rfl
      cases hkind : form.kind with
      | list items =>
        rw [treeWithin_of_list hget hkind] at h
        obtain ⟨ts, hts, rfl⟩ := Option.map_eq_some_iff.mp h
        exact .list (hkind ▸ hform) ((mapM_eq_some_iff.mp hts).imp fun _ _ => ih)
      | _ =>
        simp only [treeWithin, hget, hkind] at h
        cases h
        constructor
        exact hkind ▸ hform

/-- There is one tree at most at a place. -/
theorem HasTree.eq (h : s.HasTree symbols id t) (hu : s.HasTree symbols id u) : t = u := by
  induction t using SourceTree.itemsInduction generalizing id u with
  | list ts ih =>
    obtain _ | _ | _ | _ | _ | _ | ⟨hlist, hitems⟩ := h
    cases hu with
    | list hlist' hitems' =>
      cases hlist.symm.trans hlist'
      exact congrArg SourceTree.list (eq_of_forall₂ hitems hitems' fun t ht _ _ => ih t ht)
    | _ hkind => cases hlist.symm.trans hkind
  | _ =>
    -- the tree says what kind of form is there, and the form has no more to it
    cases h with | _ hkind =>
    cases hu with | _ hkind' => cases hkind.symm.trans hkind' <;> rfl

/-- Where no cycle is reached, there is exactly one tree, and its text is shown. -/
theorem exists_hasTree_iff (h : s.Acyclic id) (symbols : SymbolTable) :
    ∃ t, (∀ u, s.HasTree symbols id u ↔ u = t) ∧ s.render symbols id = some t.render := by
  obtain ⟨t, ht⟩ := exists_tree? h symbols
  have htree : s.HasTree symbols id t := hasTree_of_treeWithin ht
  refine ⟨t, fun u => ⟨fun hu => hu.eq htree, fun hu => hu ▸ htree⟩, ?_⟩
  rw [render, ht]
  rfl

end FormStore

/-! ## The texts of trees -/

namespace SourceTree

open Text

/-- The text of an item that has a neighbour before it. -/
def spaced (t : SourceTree) : List Char := ' ' :: t.render.toList

/-- The texts of the items of a list. -/
def joined : List SourceTree → List Char
  | [] => []
  | item :: more => item.render.toList ++ more.flatMap spaced

theorem toList_writeItemsTo :
    ∀ {items : List SourceTree},
      (∀ t ∈ items, ∀ out, (t.writeTo out).toList = out.toList ++ t.render.toList) →
      ∀ out, (writeItemsTo items out).toList = out.toList ++ joined items
  | [], _, out => (List.append_nil out.toList).symm
  | [item], h, out => by
    rw [writeItemsTo, h item (List.mem_singleton_self item), joined, List.flatMap_nil,
      List.append_nil]
  | item :: next :: rest, h, out => by
    have hrest : ∀ t ∈ next :: rest, _ := fun t ht => h t (List.mem_cons_of_mem _ ht)
    rw [writeItemsTo, toList_writeItemsTo hrest, String.toList_push, h item List.mem_cons_self]
    simp [joined, spaced]

theorem toList_writeTo (t : SourceTree) (out : String) :
    (t.writeTo out).toList = out.toList ++ t.render.toList := by
  induction t using itemsInduction generalizing out with
  | list items ih => simp [render, writeTo, toList_writeItemsTo ih]
  | _ => simp [render, writeTo]

theorem toList_render_list (items : List SourceTree) :
    (SourceTree.list items).render.toList = '(' :: (joined items ++ [')']) := by
  simp [render, writeTo, toList_writeItemsTo fun t _ => toList_writeTo t]

theorem render_str (s : String) : (SourceTree.str s).render = quoted .literal s :=
  String.empty_append

/-- The text of a symbol that occurs in a tree. -/
inductive HasSymbol (text : String) : SourceTree → Prop
  | symbol : HasSymbol text (.symbol text)
  | item {item items} (hmem : item ∈ items) (h : HasSymbol text item) :
      HasSymbol text (.list items)

/-- Every symbol of the tree is one that is taken for a symbol. -/
def Plain (t : SourceTree) : Prop :=
  ∀ text, t.HasSymbol text → IsSymbolToken text

variable {t t' : SourceTree} {w : String} {rest rest' : List Char}

theorem plain_str (s : String) : (SourceTree.str s).Plain := nofun

theorem plain_symbol_iff {text : String} :
    (SourceTree.symbol text).Plain ↔ IsSymbolToken text := by
  constructor
  · intro h
    exact h text .symbol
  · rintro h _ ⟨⟩
    exact h

theorem plain_list_iff {items : List SourceTree} :
    (SourceTree.list items).Plain ↔ ∀ item ∈ items, item.Plain := by
  constructor
  · intro h item hmem text htext
    exact h text (.item hmem htext)
  · rintro h text (_ | ⟨hmem, htext⟩)
    exact h _ hmem text htext

/-! ### Trees that are written as a word -/

/-- The word that a tree is written as, unless it is a literal or a list. -/
def word? : SourceTree → Option String
  | .unknown => some "<unknown>"
  | .nil => some "nil"
  | .bool b => some (if b then "true" else "false")
  | .int n => some (toString n.toInt)
  | .symbol text => some text
  | .str _ => none
  | .list _ => none

/-- The tree that a word stands for. -/
def readWord (w : String) : SourceTree :=
  if w = "<unknown>" then .unknown
  else if w = "nil" then .nil
  else if w = "true" then .bool true
  else if w = "false" then .bool false
  else
    let n := Int64.ofInt (readDecimal w.toList)
    if w = toString n.toInt then .int n else .symbol w

theorem render_of_word? (h : t.word? = some w) : t.render = w := by
  cases t <;> cases h <;> exact String.empty_append

theorem isWord_of_word? (ht : t.Plain) (h : t.word? = some w) : IsWord w := by
  cases t with
  | bool b => cases b <;> cases h <;> decide
  | int n =>
    cases h
    exact isWord_toString n.toInt
  | symbol text =>
    cases h
    exact (plain_symbol_iff.mp ht).toIsWord
  | _ => cases h <;> decide

theorem readWord_of_not_reserved (h : w ∉ reservedWords) :
    readWord w = (let n := Int64.ofInt (readDecimal w.toList)
      if w = toString n.toInt then .int n else .symbol w) := by
  simp only [reservedWords, List.mem_cons, List.not_mem_nil, or_false, not_or] at h
  obtain ⟨hnil, htrue, hfalse, hunknown⟩ := h
  rw [readWord, if_neg hunknown, if_neg hnil, if_neg htrue, if_neg hfalse]

/-- **A word is read back as the tree that was written.** -/
theorem readWord_of_word? (ht : t.Plain) (h : t.word? = some w) : readWord w = t := by
  cases t with
  | bool b => cases b <;> cases h <;> simp [readWord]
  | int n =>
    cases h
    rw [readWord_of_not_reserved (toString_not_reserved n.toInt), readDecimal_toString,
      Int64.ofInt_toInt]
    exact if_pos rfl
  | symbol text =>
    cases h
    have htoken := plain_symbol_iff.mp ht
    rw [readWord_of_not_reserved htoken.not_reserved]
    exact if_neg (htoken.not_number _)
  | _ => cases h <;> simp [readWord]

/-! ### What a text begins with -/

/-- The character that opens a literal or a list. -/
def opener? : SourceTree → Option Char
  | .str _ => some '"'
  | .list _ => some '('
  | _ => none

theorem word?_of_opener?_eq_none (h : t.opener? = none) : ∃ w, t.word? = some w := by
  cases t with
  | str s => cases h
  | list items => cases h
  | _ => exact ⟨_, rfl⟩

theorem opener?_of_word? (h : t.word? = some w) : t.opener? = none := by
  cases t with
  | str s => cases h
  | list items => cases h
  | _ => rfl

/-- The first character tells literals, lists and words apart. -/
theorem filter_head?_render (ht : t.Plain) (rest : List Char) :
    (t.render.toList ++ rest).head?.filter (· ∈ separators) = t.opener? := by
  cases hopener : t.opener? with
  | none =>
    obtain ⟨w, hword⟩ := word?_of_opener?_eq_none hopener
    have hw := isWord_of_word? ht hword
    rw [render_of_word? hword]
    cases hchars : w.toList with
    | nil => exact absurd (String.toList_inj.mp hchars) hw.ne_empty
    | cons c cs =>
      have hc : c ∉ separators := hw.not_separator c (hchars ▸ List.mem_cons_self)
      simp [hc]
  | some c =>
    cases t with
    | str s =>
      cases hopener
      rw [render_str, toList_quoted]
      rfl
    | list items =>
      cases hopener
      rw [toList_render_list]
      rfl
    | _ => cases hopener

theorem opener?_eq (ht : t.Plain) (ht' : t'.Plain)
    (h : t.render.toList ++ rest = t'.render.toList ++ rest') : t.opener? = t'.opener? := by
  rw [← filter_head?_render ht rest, h, filter_head?_render ht' rest']

/-- No tree is written beginning with the end of a list. -/
theorem render_append_ne_close (ht : t.Plain) (rest rest' : List Char) :
    t.render.toList ++ rest ≠ ')' :: rest' := by
  intro h
  have hopener := filter_head?_render ht rest
  rw [h] at hopener
  cases t <;> cases hopener

/-! ## Reading trees back -/

/-- The text of a tree shows where it ends and which tree it is, in front of anything that could
follow it. -/
def Recoverable (t : SourceTree) : Prop :=
  ∀ t' rest rest', t.Plain → t'.Plain → Closes rest → Closes rest' →
    t.render.toList ++ rest = t'.render.toList ++ rest' → t = t' ∧ rest = rest'

theorem recoverable_of_word? (h : t.word? = some w) : t.Recoverable := by
  intro t' rest rest' ht ht' hrest hrest' heq
  have hopener : t'.opener? = none := (opener?_eq ht ht' heq).symm.trans (opener?_of_word? h)
  obtain ⟨w', h'⟩ := word?_of_opener?_eq_none hopener
  rw [render_of_word? h, render_of_word? h'] at heq
  obtain ⟨rfl, hrests⟩ :=
    (isWord_of_word? ht h).append_inj (isWord_of_word? ht' h') hrest hrest' heq
  exact ⟨(readWord_of_word? ht h).symm.trans (readWord_of_word? ht' h'), hrests⟩

theorem recoverable_str (s : String) : (SourceTree.str s).Recoverable := by
  intro t' rest rest' ht ht' _ _ heq
  have hopener := opener?_eq ht ht' heq
  cases t' with
  | str s' =>
    rw [render_str, render_str] at heq
    obtain ⟨rfl, hrests⟩ := quoted_append_inj heq
    exact ⟨rfl, hrests⟩
  | _ => cases hopener

/-- What follows an item in a list is a space or the parenthesis that closes the list. -/
theorem closes_flatMap_spaced (more : List SourceTree) (rest : List Char) :
    Closes (more.flatMap spaced ++ ')' :: rest) := by
  cases more with
  | nil => exact closes_cons (by decide) rest
  | cons next more => exact closes_cons (by decide) _

theorem flatMap_spaced_append_inj {more more' : List SourceTree}
    (ih : ∀ item ∈ more, item.Recoverable) (hmore : ∀ item ∈ more, item.Plain)
    (hmore' : ∀ item ∈ more', item.Plain)
    (h : more.flatMap spaced ++ ')' :: rest = more'.flatMap spaced ++ ')' :: rest') :
    more = more' ∧ rest = rest' := by
  induction more generalizing more' with
  | nil =>
    cases more' with
    | nil => exact ⟨rfl, (List.cons.inj h).2⟩
    | cons item' more' => cases h
  | cons item more ihmore =>
    cases more' with
    | nil => cases h
    | cons item' more' =>
      simp only [List.flatMap_cons, spaced, List.cons_append, List.append_assoc,
        List.cons.injEq, true_and] at h
      rw [List.forall_mem_cons] at ih hmore hmore'
      obtain ⟨rfl, htail⟩ := ih.1 item' _ _ hmore.1 hmore'.1 (closes_flatMap_spaced more rest)
        (closes_flatMap_spaced more' rest') h
      obtain ⟨rfl, hrests⟩ := ihmore ih.2 hmore.2 hmore'.2 htail
      exact ⟨rfl, hrests⟩

theorem joined_append_inj {items items' : List SourceTree}
    (ih : ∀ item ∈ items, item.Recoverable) (hitems : ∀ item ∈ items, item.Plain)
    (hitems' : ∀ item ∈ items', item.Plain)
    (h : joined items ++ ')' :: rest = joined items' ++ ')' :: rest') :
    items = items' ∧ rest = rest' := by
  cases items with
  | nil =>
    cases items' with
    | nil => exact ⟨rfl, (List.cons.inj h).2⟩
    | cons item' more' =>
      rw [joined, joined, List.append_assoc] at h
      exact (render_append_ne_close (hitems' item' List.mem_cons_self) _ _ h.symm).elim
  | cons item more =>
    cases items' with
    | nil =>
      rw [joined, joined, List.append_assoc] at h
      exact (render_append_ne_close (hitems item List.mem_cons_self) _ _ h).elim
    | cons item' more' =>
      -- with a space in front, the first item is written like all others
      exact flatMap_spaced_append_inj ih hitems hitems' (congrArg (' ' :: ·) h)

theorem recoverable_list {items : List SourceTree} (ih : ∀ item ∈ items, item.Recoverable) :
    (SourceTree.list items).Recoverable := by
  intro t' rest rest' ht ht' _ _ heq
  have hopener := opener?_eq ht ht' heq
  cases t' with
  | list items' =>
    simp only [toList_render_list, List.cons_append, List.append_assoc, List.nil_append,
      List.cons.injEq, true_and] at heq
    obtain ⟨rfl, hrests⟩ := joined_append_inj ih (plain_list_iff.mp ht) (plain_list_iff.mp ht') heq
    exact ⟨rfl, hrests⟩
  | _ => cases hopener

/-- **The text of a tree shows where it ends, and which tree it is.** -/
theorem recoverable (t : SourceTree) : t.Recoverable := by
  induction t using itemsInduction with
  | str s => exact recoverable_str s
  | list items ih => exact recoverable_list ih
  | _ => exact recoverable_of_word? rfl

theorem render_inj (ht : t.Plain) (ht' : t'.Plain) (h : t.render = t'.render) : t = t' :=
  (recoverable t t' [] [] ht ht' closes_nil closes_nil (by rw [h])).1

end SourceTree

namespace FormStore

/-- **Source texts are unambiguous.** -/
theorem render_unambiguous {s s' : FormStore} (symbols symbols' : SymbolTable) {id id' : FormId}
    (h : s.Acyclic id) (h' : s'.Acyclic id') :
    ∃ t t' : SourceTree,
      (∀ u, s.HasTree symbols id u ↔ u = t) ∧ (∀ u, s'.HasTree symbols' id' u ↔ u = t') ∧
        s.render symbols id = some t.render ∧ s'.render symbols' id' = some t'.render ∧
        (t.Plain → t'.Plain → (s.render symbols id = s'.render symbols' id' ↔ t = t')) := by
  obtain ⟨t, htree, hrender⟩ := exists_hasTree_iff h symbols
  obtain ⟨t', htree', hrender'⟩ := exists_hasTree_iff h' symbols'
  refine ⟨t, t', htree, htree', hrender, hrender', fun ht ht' => ?_⟩
  rw [hrender, hrender', Option.some_inj]
  constructor
  · exact SourceTree.render_inj ht ht'
  · rintro rfl
    rfl

/-- A literal that holds a quotation mark is shown the same whether its form is shared or not, and
never looks like two literals. -/
theorem render_unambiguous_shared :
    let s : FormStore := ⟨#[⟨.symbol ⟨1⟩, ⟨1, 2⟩⟩, ⟨.str "a\" \"b", ⟨3, 11⟩⟩,
      ⟨.list [⟨0⟩, ⟨1⟩, ⟨1⟩], ⟨0, 20⟩⟩]⟩
    let s' : FormStore := ⟨#[⟨.str "a\" \"b", .none⟩, ⟨.symbol ⟨2⟩, .none⟩,
      ⟨.str "a\" \"b", .none⟩, ⟨.list [⟨1⟩, ⟨0⟩, ⟨2⟩], .none⟩, ⟨.str "a", .none⟩,
      ⟨.str "b", .none⟩, ⟨.list [⟨1⟩, ⟨2⟩, ⟨4⟩, ⟨5⟩], .none⟩]⟩
    let symbols := SymbolTable.onlyEmpty.enter "f" rfl (by decide)
    let symbols' := (SymbolTable.onlyEmpty.enter "g" rfl (by decide)).enter "f" rfl (by decide)
    s.Acyclic ⟨2⟩ ∧ s'.Acyclic ⟨3⟩ ∧ s'.Acyclic ⟨6⟩ ∧
      s.render symbols ⟨2⟩ = s'.render symbols' ⟨3⟩ ∧
      s.render symbols ⟨2⟩ ≠ s'.render symbols' ⟨6⟩ := by
  intro s s' symbols symbols'
  have hs : s.Acyclic ⟨2⟩ := by
    have hneeds : ∀ place ∈ [⟨0⟩, ⟨1⟩, ⟨2⟩],
      s.needsOnly symbols [⟨0⟩, ⟨1⟩, ⟨2⟩] place = true := by decide
    exact (settled_of_needsOnly hneeds (by decide)).acyclic
  have hneeds' : ∀ place ∈ [⟨0⟩, ⟨1⟩, ⟨2⟩, ⟨3⟩, ⟨4⟩, ⟨5⟩, ⟨6⟩],
      s'.needsOnly symbols' [⟨0⟩, ⟨1⟩, ⟨2⟩, ⟨3⟩, ⟨4⟩, ⟨5⟩, ⟨6⟩] place = true := by decide
  have hs3 : s'.Acyclic ⟨3⟩ := (settled_of_needsOnly hneeds' (by decide)).acyclic
  have hs6 : s'.Acyclic ⟨6⟩ := (settled_of_needsOnly hneeds' (by decide)).acyclic
  have hf : (SourceTree.symbol "f").Plain := SourceTree.plain_symbol_iff.mpr
    ⟨by decide, by decide, fun n => Text.ne_toString_of_any (by decide) n.toInt⟩
  let call (texts : List String) : SourceTree := .list (.symbol "f" :: texts.map .str)
  have hcall (texts : List String) : (call texts).Plain := by
    refine SourceTree.plain_list_iff.mpr (List.forall_mem_cons.mpr ⟨hf, fun item hitem => ?_⟩)
    obtain ⟨text, -, rfl⟩ := List.mem_map.mp hitem
    exact SourceTree.plain_str text
  have htree2 : s.tree? symbols ⟨2⟩ = some (call ["a\" \"b", "a\" \"b"]) := rfl
  have htree3 : s'.tree? symbols' ⟨3⟩ = some (call ["a\" \"b", "a\" \"b"]) := rfl
  have htree6 : s'.tree? symbols' ⟨6⟩ = some (call ["a\" \"b", "a", "b"]) := rfl
  refine ⟨hs, hs3, hs6, ?_, ?_⟩
  · obtain ⟨t, t', ht, ht', -, -, hiff⟩ := render_unambiguous symbols symbols' hs hs3
    obtain rfl := (ht _).mp (hasTree_of_treeWithin htree2)
    obtain rfl := (ht' _).mp (hasTree_of_treeWithin htree3)
    exact (hiff (hcall _) (hcall _)).mpr rfl
  · obtain ⟨t, t', ht, ht', -, -, hiff⟩ := render_unambiguous symbols symbols' hs hs6
    obtain rfl := (ht _).mp (hasTree_of_treeWithin htree2)
    obtain rfl := (ht' _).mp (hasTree_of_treeWithin htree6)
    rw [Ne, hiff (hcall _) (hcall _)]
    intro heq
    cases congrArg List.length (SourceTree.list.inj heq)

end FormStore

end CallTrace
