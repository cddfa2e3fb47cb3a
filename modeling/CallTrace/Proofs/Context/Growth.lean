import CallTrace.Proofs.Context.Reachable
import CallTrace.Proofs.Symbol.Interning

/-!
# Contexts that grow

Nothing that a context knows is ever forgotten or changed: not a text, not a form, not a function.
So the numbers in a traceback mean the same for as long as the context lasts, and its text can be
taken at any time.

* `Performed.grows`, `grows_of_after_eq_ok` — operations only add to what is known
* `Reachable.named` — every known function has a name in the table
* `render_traceback_after` — the text of a traceback stays what it is
-/

namespace CallTrace

/-! ## Texts of tracebacks -/

theorem Frame.render_congr {f : Frame} {legend legend' : Legend}
    (hcallable : legend.callable f.callable = legend'.callable f.callable)
    (hsite : legend.site f.site = legend'.site f.site) : f.render legend = f.render legend' := by
  unfold render
  rw [hcallable, hsite]

theorem Traceback.renderFrom_congr {legend legend' : Legend} {frames : List Frame}
    (h : ∀ f ∈ frames, f.render legend = f.render legend') (start : Nat) :
    renderFrom legend start frames = renderFrom legend' start frames := by
  induction frames generalizing start with
  | nil => rfl
  | cons f rest ih =>
    have hrest := ih (fun g hg => h g (List.mem_cons_of_mem _ hg)) (start + 1)
    rw [renderFrom, renderFrom, h f (List.mem_cons_self ..), hrest]

/-- The text of a traceback takes no more from a legend than the texts of its frames. -/
theorem Traceback.render_congr {legend legend' : Legend} {t : Traceback}
    (h : ∀ f ∈ t.frames, f.render legend = f.render legend') :
    t.render legend = t.render legend' := by
  rw [render, render, renderFrom_congr h]

namespace Context

/-! ## Nothing is forgotten -/

/-- The second context knows all that the first knows, by the same numbers. -/
structure Grows (c d : Context) : Prop where
  symbols : c.symbols.Grows d.symbols
  forms : c.forms.Grows d.forms
  functions : ∀ {id entry}, c.functions.get? id = some entry → d.functions.get? id = some entry

theorem Grows.refl (c : Context) : c.Grows c :=
  ⟨List.prefix_refl _, List.prefix_refl _, id⟩

theorem Grows.trans {a b c : Context} (hab : a.Grows b) (hbc : b.Grows c) : a.Grows c :=
  ⟨hab.symbols.trans hbc.symbols, hab.forms.trans hbc.forms,
    fun hentry => hbc.functions (hab.functions hentry)⟩

theorem grows_of_declare_eq_ok {c d : Context} (h : c.Coherent) {name : String} {id : CallableId}
    (hd : c.declare name = .ok (id, d)) : c.Grows d := by
  obtain ⟨-, -, symbol, symbols, hintern, rfl⟩ := register_eq_ok_iff.mp hd
  -- the identity is new, so the entry takes no other's place
  exact ⟨SymbolTable.grows_of_intern_eq_ok hintern, List.prefix_refl _,
    fun hid => h.get?_insert_next hid _⟩

theorem Performed.grows {c d : Context} {op : ContextOp} {answer : ContextAnswer}
    (hd : Performed c op answer d) (h : c.Coherent) : c.Grows d := by
  cases hd with
  | declare hdeclare => exact grows_of_declare_eq_ok h hdeclare
  | intern hintern => exact ⟨SymbolTable.grows_of_intern_eq_ok hintern, List.prefix_refl _, id⟩
  | addForm hadd => exact ⟨List.prefix_refl _, FormStore.grows_of_add_eq_ok hadd, id⟩
  | _ => exact ⟨List.prefix_refl _, List.prefix_refl _, id⟩

/-- **Operations only add to what a context knows.** -/
theorem grows_of_after_eq_ok {c d : Context} (h : c.Coherent) {ops : List ContextOp}
    (hd : c.after ops = .ok d) : c.Grows d := by
  have hrun : d.Coherent ∧ c.Grows d := by
    refine after_preserves (p := fun d => d.Coherent ∧ c.Grows d) ?_ hd ⟨h, .refl c⟩
    rintro c' op answer d' hstep ⟨hc', hgrows⟩
    exact ⟨hstep.coherent hc', hgrows.trans (hstep.grows hc')⟩
  exact hrun.2

/-! ## Names of functions -/

/-- Every known function has a name in the table. -/
def Named (c : Context) : Prop :=
  ∀ id entry, c.functions.get? id = some entry → entry.name.index < c.symbols.size

theorem Named.of_grows {c d : Context} (h : c.Named) (hsymbols : c.symbols.Grows d.symbols)
    (hfunctions : d.functions = c.functions) : d.Named := by
  intro id entry hentry
  rw [hfunctions] at hentry
  exact Nat.lt_of_lt_of_le (h id entry hentry) hsymbols.size_le

theorem register_preserves_named {c d : Context} (h : c.Named) {name : String} {callee : Callee}
    {id : CallableId} (hd : c.register name callee = .ok (id, d)) : d.Named := by
  obtain ⟨-, -, symbol, symbols, hintern, rfl⟩ := register_eq_ok_iff.mp hd
  intro id entry hentry
  rw [Bindings.get?_insert] at hentry
  split at hentry
  · obtain rfl := Option.some.inj hentry
    exact SymbolTable.index_lt_of_intern_eq_ok hintern
  · exact Nat.lt_of_lt_of_le (h id entry hentry)
      (SymbolTable.grows_of_intern_eq_ok hintern).size_le

theorem named_new (config : Config) : (new config).Named := by
  refine foldlM_preserves (p := fun _ c => c.Named) ?_ (build_eq_ok config) ?_
  · intro f rest c d hd h
    obtain ⟨_, _, hregister, rfl⟩ := addBuiltin_eq_ok_iff.mp hd
    have hnamed := register_preserves_named h hregister
    exact hnamed
  · intro id entry hentry
    cases hentry

theorem Performed.named {c d : Context} {op : ContextOp} {answer : ContextAnswer}
    (hd : Performed c op answer d) (h : c.Named) : d.Named := by
  cases hd with
  | declare hdeclare => exact register_preserves_named h hdeclare
  | intern hintern => exact h.of_grows (SymbolTable.grows_of_intern_eq_ok hintern) rfl
  | _ => exact h

theorem Reachable.named {c : Context} (h : c.Reachable) : c.Named :=
  h.induction named_new Performed.named

/-! ## What the numbers in a traceback mean -/

theorem Grows.nameOf_eq {c d : Context} (h : c.Grows d) (hc : c.Named) {callable : CallableId}
    (hknown : c.nameOf? callable ≠ none) : d.nameOf callable = c.nameOf callable := by
  cases hentry : c.functions.get? callable with
  | none =>
    rw [nameOf?, hentry] at hknown
    contradiction
  | some entry =>
    have htext := h.symbols.text_eq (hc callable entry hentry)
    rw [nameOf, nameOf, nameOf?, nameOf?, h.functions hentry, hentry]
    show d.symbols.text entry.name = c.symbols.text entry.name
    exact htext

theorem Grows.sourceOf_eq {c d : Context} (h : c.Grows d) {site : FormId}
    (hsite : c.forms.Settled c.symbols site) : d.sourceOf site = c.sourceOf site :=
  FormStore.render_of_grows h.forms h.symbols hsite

/-- **A traceback keeps its meaning.** If its callables are known, and nothing is missing below its
call sites, then it has a text, which is the same after any operations. -/
theorem render_traceback_after (c : Context) (hc : c.Reachable) (t : Traceback)
    (hknown : ∀ f ∈ t.frames, c.nameOf? f.callable ≠ none)
    (hsettled : ∀ f ∈ t.frames, c.forms.Settled c.symbols f.site) :
    ∃ text, t.render c.legend = some text ∧
      ∀ ops d, c.after ops = .ok d → t.render d.legend = some text := by
  obtain ⟨text, htext⟩ : ∃ text, t.render c.legend = some text :=
    Traceback.exists_render_iff.mpr fun f hf => exists_sourceOf_iff.mpr (hsettled f hf).acyclic
  refine ⟨text, htext, fun ops d hd => ?_⟩
  have hgrows : c.Grows d := grows_of_after_eq_ok hc.coherent hd
  rw [← htext]
  refine Traceback.render_congr fun f hf => Frame.render_congr ?_ ?_
  · exact hgrows.nameOf_eq hc.named (hknown f hf)
  · exact hgrows.sourceOf_eq (hsettled f hf)

/-- A call site that holds another one twice. Later its function's name is declared anew, and there
is a list that holds itself. -/
theorem render_traceback_after_shared_form :
    let later : List ContextOp :=
      [.declare "fact", .intern "m", .addForm (.list [⟨4⟩, ⟨9⟩]) ⟨0, 1⟩,
        .stack (.move (.push ⟨4⟩ ⟨2⟩)), .call .new ⟨3⟩ ⟨0⟩ []]
    let t : Traceback := ⟨[⟨0, ⟨1⟩, ⟨3⟩⟩, ⟨2, ⟨0⟩, ⟨2⟩⟩]⟩
    ∃ c d : Context, c.Reachable ∧ (∀ f ∈ t.frames, c.nameOf? f.callable ≠ none) ∧
      (∀ f ∈ t.frames, c.forms.Settled c.symbols f.site) ∧
      c.after later = .ok d ∧ d.nameOf? ⟨2⟩ = some "fact" ∧
      t.render d.legend = some ("traceback (most recent call last):\n" ++
        "  0: <Frame: fn: fact, count: 0, caller: (fact (fact n) (fact n))>\n" ++
        "  1: <Frame: fn: hash, count: 2, caller: (fact n)>\n") := by
  intro later t
  let c := Breakdown.resultOf ((new {}).after
    [.declare "fact", .intern "n", .addForm (.symbol ⟨16⟩) ⟨1, 5⟩,
      .addForm (.symbol ⟨17⟩) ⟨6, 7⟩, .addForm (.list [⟨0⟩, ⟨1⟩]) ⟨0, 8⟩,
      .addForm (.list [⟨0⟩, ⟨2⟩, ⟨2⟩]) ⟨0, 24⟩]) (by decide +kernel)
  let d := Breakdown.resultOf (c.after later) (by decide +kernel)
  have hc : c.Reachable := ⟨{}, _, Breakdown.eq_ok_resultOf _ _⟩
  have hd : c.after later = .ok d := Breakdown.eq_ok_resultOf _ _
  have hknown : ∀ f ∈ t.frames, c.nameOf? f.callable ≠ none := by decide +kernel
  have hneeds : ∀ place ∈ [⟨0⟩, ⟨1⟩, ⟨2⟩, ⟨3⟩],
      c.forms.needsOnly c.symbols [⟨0⟩, ⟨1⟩, ⟨2⟩, ⟨3⟩] place = true := by decide +kernel
  have hsites : ∀ f ∈ t.frames, f.site ∈ [(⟨0⟩ : FormId), ⟨1⟩, ⟨2⟩, ⟨3⟩] := by decide
  have hsettled : ∀ f ∈ t.frames, c.forms.Settled c.symbols f.site :=
    fun f hf => FormStore.settled_of_needsOnly hneeds (hsites f hf)
  obtain ⟨text, htext, hlater⟩ := render_traceback_after c hc t hknown hsettled
  refine ⟨c, d, hc, hknown, hsettled, hd, by decide +kernel, ?_⟩
  rw [hlater later d hd, ← htext]
  decide +kernel

end Context

end CallTrace
