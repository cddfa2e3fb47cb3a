import CallTrace.Proofs.Form.Growth
import CallTrace.Proofs.Run
import Mathlib.Data.Finset.Card

/-!
# Symbols and texts, one for one

A table is asked in both directions: for the symbol of a text and for the text of a symbol. These
are inverse to each other, and a text that enters keeps it that way. From this it follows what
becomes of the symbols that are given in any sequence of requests.

* `mem_texts_iff`, `nodup_texts` — exactly the texts of a table have symbols, and none is there
  twice
* `text_of_intern_eq_ok` — what is interned can be read off its symbol
* `mem_of_tryAll_perform` — a table holds what it held at first and what was asked for since
* `interning_bijective` — what follows for the symbols that any sequence of requests is given
-/

namespace CallTrace

namespace SymbolTable

variable {t t' : SymbolTable} {s s' : String} {symbol : Symbol}

/-! ## Both directions -/

/-- Every place of the table is the index of a symbol. -/
theorem exists_index_eq {i : Nat} (h : i < t.size) : ∃ symbol : Symbol, symbol.index = i :=
  ⟨⟨UInt32.ofNat i⟩, UInt32.toNat_ofNat_of_lt' (Nat.lt_of_lt_of_le h t.size_le)⟩

theorem find?_of_getElem? {i : Nat} (h : t.texts[i]? = some s) :
    ∃ symbol, symbol.index = i ∧ t.find? s = some symbol := by
  obtain ⟨hlt, -⟩ := Array.getElem?_eq_some_iff.mp h
  obtain ⟨symbol, rfl⟩ := exists_index_eq hlt
  exact ⟨symbol, rfl, find?_eq_some_iff.mpr h⟩

theorem mem_texts_iff : s ∈ t.texts ↔ ∃ symbol, t.find? s = some symbol := by
  rw [Array.mem_iff_getElem?]
  constructor
  · rintro ⟨i, hi⟩
    obtain ⟨symbol, -, hfind⟩ := find?_of_getElem? hi
    exact ⟨symbol, hfind⟩
  · exact fun ⟨symbol, hfind⟩ => ⟨symbol.index, find?_eq_some_iff.mp hfind⟩

theorem find?_eq_none_iff : t.find? s = none ↔ s ∉ t.texts := by
  rw [mem_texts_iff, Option.eq_none_iff_forall_ne_some, not_exists]

/-- No text is in a table twice, because it has only one symbol. -/
theorem nodup_texts (t : SymbolTable) : t.texts.toList.Nodup := by
  rw [List.nodup_iff_getElem?_ne_getElem?]
  intro i j hlt hj heq
  have hget : t.texts[j]? = some t.texts.toList[j] := by
    rw [← Array.getElem?_toList]
    exact List.getElem?_eq_getElem hj
  rw [Array.getElem?_toList, Array.getElem?_toList] at heq
  obtain ⟨a, ha, hfind⟩ := find?_of_getElem? (heq.trans hget)
  obtain ⟨b, hb, hfind'⟩ := find?_of_getElem? hget
  have hsame : a = b := Option.some.inj (hfind.symm.trans hfind')
  exact absurd hlt (by rw [← ha, ← hb, hsame]; exact Nat.lt_irrefl _)

theorem text_of_find?_eq_some (h : t.find? s = some symbol) : t.text symbol = s := by
  simp [text, find?_eq_some_iff.mp h]

theorem index_lt_of_find?_eq_some (h : t.find? s = some symbol) : symbol.index < t.size := by
  obtain ⟨hlt, -⟩ := Array.getElem?_eq_some_iff.mp (find?_eq_some_iff.mp h)
  exact hlt

theorem find?_text (h : symbol.index < t.size) : t.find? (t.text symbol) = some symbol := by
  have hget : t.texts[symbol.index]? = some t.texts[symbol.index] := Array.getElem?_eq_getElem h
  rw [find?_eq_some_iff, text, hget]
  rfl

theorem text_of_size_le (h : t.size ≤ symbol.index) : t.text symbol = "" := by
  have hnone : t.texts[symbol.index]? = none := Array.getElem?_eq_none h
  simp [text, hnone]

/-! ## Interning -/

theorem add_of_find?_eq_some (h : t.find? s = some symbol) : t.add s = .ok (symbol, t) := by
  rcases t.add_cases s with ⟨found, hfind, hadd⟩ | ⟨hnew, -, -⟩ | ⟨hnone, -, -⟩
  · rw [hadd, Option.some.inj (h.symm.trans hfind)]
  · rw [h] at hnew
    contradiction
  · rw [h] at hnone
    contradiction

theorem intern_of_find?_eq_some (h : t.find? s = some symbol) : t.intern s = .ok (symbol, t) :=
  intern_of_add_eq_ok (add_of_find?_eq_some h)

/-- A new text is given the next symbol. -/
theorem add_of_not_mem (hs : s ∉ t.texts) (hroom : t.size < UInt32.size) :
    t.add s = .ok (t.next, t.enter s (find?_eq_none_iff.mpr hs) hroom) := by
  rcases t.add_cases s with ⟨_, hfind, -⟩ | ⟨_, _, hadd⟩ | ⟨-, hfull, -⟩
  · exact absurd (mem_texts_iff.mpr ⟨_, hfind⟩) hs
  · exact hadd
  · exact absurd hroom (Nat.not_lt.mpr hfull)

/-- As long as the table is not full every text has a symbol or is given one. -/
theorem exists_add_eq_ok (h : s ∈ t.texts ∨ t.size < UInt32.size) :
    ∃ symbol t', t.add s = .ok (symbol, t') := by
  by_cases hs : s ∈ t.texts
  · obtain ⟨symbol, hfind⟩ := mem_texts_iff.mp hs
    exact ⟨symbol, t, add_of_find?_eq_some hfind⟩
  · exact ⟨_, _, add_of_not_mem hs (h.resolve_left hs)⟩

/-- The symbol that is given is the symbol of the text from then on. -/
theorem find?_of_intern_eq_ok (h : t.intern s = .ok (symbol, t')) : t'.find? s = some symbol := by
  rcases eq_of_intern_eq_ok h with ⟨hfind, rfl⟩ | ⟨hnew, hroom, rfl, rfl⟩
  · exact hfind
  · exact (Bindings.get?_insert ..).trans (if_pos rfl)

/-- What is interned can be read off its symbol. -/
theorem text_of_intern_eq_ok (h : t.intern s = .ok (symbol, t')) : t'.text symbol = s :=
  text_of_find?_eq_some (find?_of_intern_eq_ok h)

theorem index_lt_of_intern_eq_ok (h : t.intern s = .ok (symbol, t')) : symbol.index < t'.size :=
  index_lt_of_find?_eq_some (find?_of_intern_eq_ok h)

theorem mem_of_intern_eq_ok (h : t.intern s = .ok (symbol, t')) :
    s' ∈ t'.texts ↔ s' ∈ t.texts ∨ s' = s := by
  rcases eq_of_intern_eq_ok h with ⟨hfind, rfl⟩ | ⟨hnew, hroom, -, rfl⟩
  · constructor
    · exact Or.inl
    · rintro (hmem | rfl)
      · exact hmem
      · exact mem_texts_iff.mpr ⟨symbol, hfind⟩
  · exact Array.mem_push

/-- A symbol that a text has is its symbol in every table that grew from then on. -/
theorem Grows.find?_eq_some (hgrows : t.Grows t') (h : t.find? s = some symbol) :
    t'.find? s = some symbol := by
  have hlt := index_lt_of_find?_eq_some h
  rw [← text_of_find?_eq_some h, ← hgrows.text_eq hlt]
  exact find?_text (Nat.lt_of_lt_of_le hlt hgrows.size_le)

end SymbolTable

/-! ## Sequences of requests -/

/-- A request for the symbol of a text. -/
inductive SymbolRequest
  | intern (text : String)
  /-- This one is told when the table is full. -/
  | add (text : String)

/-- The text whose symbol is asked for. -/
def SymbolRequest.text : SymbolRequest → String
  | .intern text => text
  | .add text => text

namespace SymbolTable

variable {t t' : SymbolTable} {s : String}

/-- Answers a request. -/
def perform (t : SymbolTable) :
    SymbolRequest → Except Breakdown (Except SymbolError Symbol × SymbolTable)
  | .intern text => do
    let (symbol, after) ← t.intern text
    .ok (.ok symbol, after)
  | .add text =>
    match t.add text with
    | .ok (symbol, after) => .ok (.ok symbol, after)
    | .error e => .ok (.error e, t)

theorem perform_of_add_eq_ok {r : SymbolRequest} {symbol : Symbol}
    (h : t.add r.text = .ok (symbol, t')) : t.perform r = .ok (.ok symbol, t') := by
  cases r with
  | intern text =>
    rw [perform, show t.intern text = _ from intern_of_add_eq_ok h]
    rfl
  | add text => rw [perform, show t.add text = _ from h]

/-- A request is answered with a symbol or leaves the table as it is. -/
theorem eq_of_perform_eq_ok {r : SymbolRequest} {answer : Except SymbolError Symbol}
    (h : t.perform r = .ok (answer, t')) :
    (∃ symbol, answer = .ok symbol ∧ t.intern r.text = .ok (symbol, t')) ∨ t' = t := by
  cases hadd : t.add r.text with
  | ok given =>
    rw [perform_of_add_eq_ok hadd] at h
    cases h
    exact Or.inl ⟨given.1, rfl, intern_of_add_eq_ok hadd⟩
  | error e =>
    cases r with
    | intern text =>
      rw [perform, intern, show t.add text = _ from hadd] at h
      cases h
    | add text =>
      rw [perform, show t.add text = _ from hadd] at h
      cases h
      exact Or.inr rfl

theorem grows_of_tryAll_perform {requests : List SymbolRequest}
    {answers : List (Except SymbolError Symbol)}
    (h : tryAll perform t requests = .ok (answers, t')) : t.Grows t' := by
  refine tryAll_preserves (p := t.Grows) (fun hstep hgrows => ?_) h (List.prefix_refl _)
  rcases eq_of_perform_eq_ok hstep with ⟨_, -, hintern⟩ | rfl
  · exact hgrows.trans (grows_of_intern_eq_ok hintern)
  · exact hgrows

theorem size_eq_card (t : SymbolTable) : t.size = t.texts.toList.toFinset.card := by
  rw [List.toFinset_card_of_nodup t.nodup_texts, Array.length_toList]
  rfl

/-- **As long as there are numbers enough, all requests are answered.** What is in the table in the
end is what was there before and what was asked for, and the answers are the symbols of the texts in
the end. -/
theorem exists_tryAll_perform (requests : List SymbolRequest) :
    ∀ {t : SymbolTable},
      (t.texts.toList ++ requests.map SymbolRequest.text).toFinset.card ≤ UInt32.size →
      ∃ (symbols : List Symbol) (t' : SymbolTable),
        tryAll perform t requests = .ok (symbols.map .ok, t') ∧
        (∀ s, s ∈ t'.texts ↔ s ∈ t.texts ∨ s ∈ requests.map SymbolRequest.text) ∧
        requests.map (fun r => t'.intern r.text) =
          symbols.map (fun symbol => .ok (symbol, t')) := by
  induction requests with
  | nil =>
    intro t _
    exact ⟨[], t, rfl, by simp, rfl⟩
  | cons r rest ih =>
    intro t hcard
    -- there is a number for this text, or it is in the table
    have hroom : r.text ∈ t.texts ∨ t.size < UInt32.size := by
      by_contra hnot
      push Not at hnot
      obtain ⟨hnew, hfull⟩ := hnot
      have hless : t.texts.toList.toFinset ⊂
          (t.texts.toList ++ (r :: rest).map SymbolRequest.text).toFinset := by
        refine Finset.ssubset_iff_of_subset ?_ |>.mpr ⟨r.text, by simp, by simpa using hnew⟩
        intro s hs
        simp only [List.mem_toFinset, List.mem_append] at hs ⊢
        exact Or.inl hs
      have hlt := Finset.card_lt_card hless
      rw [← size_eq_card] at hlt
      omega
    obtain ⟨symbol, next, hadd⟩ := exists_add_eq_ok hroom
    have hintern := intern_of_add_eq_ok hadd
    have hsame : (next.texts.toList ++ rest.map SymbolRequest.text).toFinset =
        (t.texts.toList ++ (r :: rest).map SymbolRequest.text).toFinset := by
      ext s
      simp only [List.mem_toFinset, List.mem_append, Array.mem_toList_iff, List.map_cons,
        List.mem_cons, mem_of_intern_eq_ok hintern, or_assoc]
    obtain ⟨symbols, t', hrest, hmem, hanswers⟩ := ih (hsame ▸ hcard)
    have hfind := (grows_of_tryAll_perform hrest).find?_eq_some (find?_of_intern_eq_ok hintern)
    refine ⟨symbol :: symbols, t', ?_, ?_, ?_⟩
    · exact tryAll_cons_eq_ok_iff.mpr
        ⟨.ok symbol, next, symbols.map .ok, perform_of_add_eq_ok hadd, hrest, rfl⟩
    · intro s
      rw [hmem, mem_of_intern_eq_ok hintern, List.map_cons, List.mem_cons, or_assoc]
    · rw [List.map_cons, List.map_cons, hanswers, intern_of_find?_eq_some hfind]

theorem texts_new : new.texts.toList = "" :: specialForms := by
  decide +kernel

/-- **Interning is a growing bijection between texts and symbols.** Take any requests for no more
than so many different texts, counting the empty one and the special forms, that there is a number
left. They are all answered, and the size of the table is then the number of these texts. A text
that was asked for is given the symbol it got every time before, which is the symbol of no other,
and the table stays as it is. A new text is given the next symbol and is one more in the table. A
symbol that is given has its text from then on, the text of a symbol of the table is given this
symbol, and any other symbol has the empty text. -/
theorem interning_bijective (requests : List SymbolRequest)
    (hroom : ("" :: specialForms ++ requests.map SymbolRequest.text).toFinset.card < UInt32.size) :
    let held := "" :: specialForms ++ requests.map SymbolRequest.text
    ∃ (symbols : List Symbol) (t : SymbolTable),
      tryAll perform new requests = .ok (symbols.map .ok, t) ∧
      requests.map (fun r => t.intern r.text) = symbols.map (fun symbol => .ok (symbol, t)) ∧
      (∀ s ∈ held, ∃ symbol, t.intern s = .ok (symbol, t)) ∧
      (∀ s ∈ held, ∀ s' ∈ held, t.intern s = t.intern s' ↔ s = s') ∧
      (∀ s ∉ held, ∃ symbol t', t.intern s = .ok (symbol, t') ∧
        symbol.index = t.size ∧ t'.size = t.size + 1) ∧
      (∀ s, ∃ symbol t', t.intern s = .ok (symbol, t') ∧ t.add s = .ok (symbol, t') ∧
        ∀ more answers later, tryAll perform t' more = .ok (answers, later) →
          later.text symbol = s) ∧
      (∀ symbol, symbol.index < t.size → t.intern (t.text symbol) = .ok (symbol, t)) ∧
      (∀ symbol, t.size ≤ symbol.index → t.text symbol = "") ∧
      t.size = held.toFinset.card := by
  intro held
  obtain ⟨symbols, t, hrun, hmem, hanswers⟩ := exists_tryAll_perform (t := new) requests
    (by rw [texts_new]; exact Nat.le_of_lt hroom)
  have hheld : ∀ {s}, s ∈ held ↔ s ∈ t.texts := by
    intro s
    rw [hmem, ← Array.mem_toList_iff, texts_new]
    exact List.mem_append
  have hsize : t.size = held.toFinset.card := by
    have hsame : t.texts.toList.toFinset = held.toFinset := by
      ext s
      simp only [List.mem_toFinset, Array.mem_toList_iff, hheld]
    rw [size_eq_card, hsame]
  have hfound : ∀ {s}, s ∈ held → ∃ symbol, t.find? s = some symbol :=
    fun hs => mem_texts_iff.mp (hheld.mp hs)
  refine ⟨symbols, t, hrun, hanswers, ?_, ?_, ?_, ?_,
    fun symbol h => intern_of_find?_eq_some (find?_text h), fun symbol => text_of_size_le, hsize⟩
  · intro s hs
    obtain ⟨symbol, hfind⟩ := hfound hs
    exact ⟨symbol, intern_of_find?_eq_some hfind⟩
  · intro s hs s' hs'
    refine ⟨fun heq => ?_, fun heq => heq ▸ rfl⟩
    obtain ⟨symbol, hfind⟩ := hfound hs
    obtain ⟨symbol', hfind'⟩ := hfound hs'
    rw [intern_of_find?_eq_some hfind, intern_of_find?_eq_some hfind'] at heq
    cases heq
    rw [← text_of_find?_eq_some hfind, ← text_of_find?_eq_some hfind']
  · intro s hs
    have hadd := add_of_not_mem (fun h => hs (hheld.mpr h)) (hsize ▸ hroom)
    exact ⟨_, _, intern_of_add_eq_ok hadd, index_next (hsize ▸ hroom), Array.size_push _⟩
  · intro s
    obtain ⟨symbol, t', hadd⟩ := exists_add_eq_ok (Or.inr (hsize ▸ hroom))
    have hintern := intern_of_add_eq_ok hadd
    refine ⟨symbol, t', hintern, hadd, fun more answers later hlater => ?_⟩
    rw [(grows_of_tryAll_perform hlater).text_eq (index_lt_of_intern_eq_ok hintern),
      text_of_intern_eq_ok hintern]

/-- Two texts are asked for twice, one of them a special form, and the empty one once. -/
theorem interning_bijective_repeated :
    let requests : List SymbolRequest :=
      [.intern "fact", .add "nil", .add "n", .intern "fact", .intern "", .add "nil"]
    ("" :: specialForms ++ requests.map SymbolRequest.text).toFinset.card = 17 ∧
      ∃ (symbols : List Symbol) (t : SymbolTable),
        tryAll perform new requests = .ok (symbols.map .ok, t) ∧ t.size = 17 ∧
        requests.map (fun r => t.intern r.text) = symbols.map (fun symbol => .ok (symbol, t)) ∧
        t.intern "fact" ≠ t.intern "n" ∧ t.intern (t.text ⟨12⟩) = .ok (⟨12⟩, t) ∧
        t.text ⟨17⟩ = "" ∧
        ∃ symbol t', t.intern "m" = .ok (symbol, t') ∧ symbol.index = 17 ∧
          ∀ more answers later, tryAll perform t' more = .ok (answers, later) →
            later.text symbol = "m" := by
  intro requests
  have hcard : ("" :: specialForms ++ requests.map SymbolRequest.text).toFinset.card = 17 := by
    decide +kernel
  obtain ⟨symbols, t, hrun, hanswers, -, hinj, hnew, hgives, hback, hforeign, hsize⟩ :=
    interning_bijective requests (by rw [hcard]; decide)
  rw [hcard] at hsize
  obtain ⟨symbol, t', hintern, hindex, -⟩ := hnew "m" (by decide)
  obtain ⟨symbol', t'', hintern', -, hreads⟩ := hgives "m"
  cases hintern.symm.trans hintern'
  refine ⟨hcard, symbols, t, hrun, hsize, hanswers, ?_, hback ⟨12⟩ (by rw [hsize]; decide),
    hforeign ⟨17⟩ (by rw [hsize]; decide), symbol, t', hintern, hindex.trans hsize, hreads⟩
  rw [Ne, hinj "fact" (by decide) "n" (by decide)]
  decide

end SymbolTable

end CallTrace
