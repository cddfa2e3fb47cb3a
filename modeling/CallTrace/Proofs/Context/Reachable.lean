import CallTrace.Proofs.Context.NativeCall

/-!
# Contexts that can be reached

The operations of a context as data, and the contexts they lead to from a new one. In all of them
the tables of functions agree: identities that are still to be handed out are not known, and the
known native functions are the builtins.

* `performed_of_outcome_eq_ok` — what operations do to a context, as far as they come to an end
* `Performed.coherent` — no operation makes the tables disagree
* `Reachable.coherent` — so they agree in every context that can be reached
-/

namespace CallTrace

/-! ## Operations as data -/

/-- An operation of a context. The call stack is open to everyone: any other stack may take its
place. -/
inductive ContextOp
  | declare (name : String)
  | intern (text : String)
  | addForm (kind : FormKind) (span : Span)
  | stack (op : StackOp)
  | replaceStack (stack : CallStack)
  | call (scope : Scope) (site : FormId) (callable : CallableId) (args : List Value)
  /-- Gives a failure the calls that are active. -/
  | attach (e : Failure)
  | traceback

/-- What an operation of a context answers. -/
inductive ContextAnswer
  | done
  | callable (id : CallableId)
  | symbol (symbol : Symbol)
  | form (id : FormId)
  | stack (answer : StackAnswer)
  | result (r : Except Failure Value)
  | failure (e : Failure)
  | traceback (t : Traceback)

namespace Context

/-- Performs an operation. -/
def perform (c : Context) : ContextOp → Attempt (ContextAnswer × Context)
  | .declare name => do
    let (id, after) ← Attempt.ofExcept (c.declare name)
    pure (.callable id, after)
  | .intern text => do
    let (symbol, after) ← Attempt.ofExcept (c.intern text)
    pure (.symbol symbol, after)
  | .addForm kind span => do
    let (id, after) ← Attempt.ofExcept (c.addForm kind span)
    pure (.form id, after)
  | .stack op => do
    let (answer, stack) ← ExceptT.lift (c.stack.perform op)
    pure (.stack answer, { c with stack })
  | .replaceStack stack => pure (.done, { c with stack })
  | .call scope site callable args => do
    let (result, after) ← c.call scope site callable args
    pure (.result result, after)
  | .attach e => do pure (.failure (← c.withActiveCalls e), c)
  | .traceback => pure (.traceback c.stack.traceback, c)

/-- The answer to an operation and the context it leads to, if it comes to an end. -/
def outcome (c : Context) (op : ContextOp) : Except Breakdown (ContextAnswer × Context) :=
  (c.perform op).run.value

/-- The answers to some operations and the context they lead to, if all of them come to an end. -/
def run (c : Context) (ops : List ContextOp) : Except Breakdown (List ContextAnswer × Context) :=
  tryAll outcome c ops

/-- The context after some operations. -/
def after (c : Context) (ops : List ContextOp) : Except Breakdown Context :=
  (c.run ops).map Prod.snd

theorem after_eq_ok_iff {c d : Context} {ops : List ContextOp} :
    c.after ops = .ok d ↔ ∃ answers, c.run ops = .ok (answers, d) := by
  simp [after, map_eq_ok_iff]

/-- What an operation that comes to an end answers, and what it does to the context. -/
inductive Performed (c : Context) : ContextOp → ContextAnswer → Context → Prop
  | declare {name : String} {id : CallableId} {d : Context} (h : c.declare name = .ok (id, d)) :
      Performed c (.declare name) (.callable id) d
  | intern {text : String} {symbol : Symbol} {symbols : SymbolTable}
      (h : c.symbols.intern text = .ok (symbol, symbols)) :
      Performed c (.intern text) (.symbol symbol) { c with symbols }
  | addForm {kind : FormKind} {span : Span} {id : FormId} {forms : FormStore}
      (h : c.forms.add kind span = .ok (id, forms)) :
      Performed c (.addForm kind span) (.form id) { c with forms }
  | stack (op : StackOp) :
      Performed c (.stack op) (.stack (c.stack.perform op).value.1)
        { c with stack := (c.stack.perform op).value.2 }
  | replaceStack (stack : CallStack) : Performed c (.replaceStack stack) .done { c with stack }
  | call {scope : Scope} {site : FormId} {callable : CallableId} {args : List Value}
      {result : Except Failure Value}
      (h : (c.call scope site callable args).run.value =
        .ok (result, c.observing (c.eventsOfCall site callable))) :
      Performed c (.call scope site callable args) (.result result)
        (c.observing (c.eventsOfCall site callable))
  | attach {e e' : Failure} (h : (c.withActiveCalls e).run.value = .ok e') :
      Performed c (.attach e) (.failure e') c
  | traceback : Performed c .traceback (.traceback c.stack.traceback) c

theorem performed_of_outcome_eq_ok {c d : Context} {op : ContextOp} {answer : ContextAnswer}
    (h : c.outcome op = .ok (answer, d)) : Performed c op answer d := by
  unfold outcome at h
  cases op with
  | declare name =>
    simp only [perform, Attempt.value_run_bind, Attempt.value_run_ofExcept, bind_eq_ok_iff,
      Prod.exists] at h
    obtain ⟨id, after, hdeclare, ⟨⟩⟩ := h
    exact .declare hdeclare
  | intern text =>
    simp only [perform, Context.intern, Attempt.value_run_bind, Attempt.value_run_ofExcept,
      bind_eq_ok_iff, Prod.exists] at h
    obtain ⟨_, _, ⟨symbol, symbols, hintern, ⟨⟩⟩, ⟨⟩⟩ := h
    exact .intern hintern
  | addForm kind span =>
    simp only [perform, Context.addForm, Attempt.value_run_bind, Attempt.value_run_ofExcept,
      bind_eq_ok_iff, Prod.exists] at h
    obtain ⟨_, _, ⟨id, forms, hadd, ⟨⟩⟩, ⟨⟩⟩ := h
    exact .addForm hadd
  | stack op =>
    cases h
    exact .stack op
  | replaceStack stack =>
    cases h
    exact .replaceStack stack
  | call scope site callable args =>
    simp only [perform, Attempt.value_run_bind, bind_eq_ok_iff, Prod.exists] at h
    obtain ⟨result, after, hcall, ⟨⟩⟩ := h
    obtain rfl := eq_observing_of_call_eq_ok hcall
    exact .call hcall
  | attach e =>
    simp only [perform, Attempt.value_run_bind, bind_eq_ok_iff] at h
    obtain ⟨e', hactive, ⟨⟩⟩ := h
    exact .attach hactive
  | traceback =>
    cases h
    exact .traceback

/-- What is preserved by every operation that comes to an end holds after all of them. -/
theorem after_preserves {p : Context → Prop}
    (hstep : ∀ {c op answer d}, Performed c op answer d → p c → p d) {c d : Context}
    {ops : List ContextOp} (h : c.after ops = .ok d) (hc : p c) : p d := by
  obtain ⟨answers, hrun⟩ := after_eq_ok_iff.mp h
  exact tryAll_preserves (fun h => hstep (performed_of_outcome_eq_ok h)) hrun hc

/-- Whether some operations lead from a new context to this one. -/
def Reachable (c : Context) : Prop :=
  ∃ config ops, (new config).after ops = .ok c

/-- What holds of every new context and is preserved by every operation holds of every context
that can be reached. -/
theorem Reachable.induction {p : Context → Prop} (hnew : ∀ config, p (new config))
    (hstep : ∀ {c op answer d}, Performed c op answer d → p c → p d) {c : Context}
    (h : c.Reachable) : p c := by
  obtain ⟨config, ops, hafter⟩ := h
  exact after_preserves hstep hafter (hnew config)

/-! ## The tables of functions -/

/-- The supply of identities, the known functions and the builtins agree. -/
structure Coherent (c : Context) : Prop where
  /-- A known identity was handed out. -/
  issued : ∀ {id entry}, c.functions.get? id = some entry → id.raw < c.supply.next
  /-- A builtin is known as the native function of its name. -/
  builtin_native : ∀ {name id}, c.builtin? name = some id →
    ∃ f symbol, Registry.builtin.get? name = some f ∧
      c.functions.get? id = some ⟨symbol, .native f⟩
  /-- A known native function is the builtin of its name. -/
  native_builtin : ∀ {id symbol f}, c.functions.get? id = some ⟨symbol, .native f⟩ →
    c.builtin? f.name = some id

namespace Coherent

variable {c : Context}

/-- An identity is new when it is handed out. -/
theorem get?_next_eq_none (h : c.Coherent) : c.functions.get? ⟨c.supply.next⟩ = none := by
  rw [Option.eq_none_iff_forall_ne_some]
  intro entry hentry
  exact UInt32.lt_irrefl _ (h.issued hentry)

/-- So what was known stays known. -/
theorem get?_insert_next (h : c.Coherent) {id : CallableId} {known : FunctionEntry}
    (hid : c.functions.get? id = some known) (entry : FunctionEntry) :
    (c.functions.insert ⟨c.supply.next⟩ entry).get? id = some known := by
  have hne : ¬(⟨c.supply.next⟩ : CallableId) = id := by
    intro heq
    rw [← heq, h.get?_next_eq_none] at hid
    contradiction
  rw [Bindings.get?_insert, if_neg hne, hid]

/-- All that is known after an identity was handed out has an identity that was handed out. -/
theorem issued_insert_next (h : c.Coherent) (hnext : c.supply.next < CallableId.nil.raw)
    {id : CallableId} {entry known : FunctionEntry}
    (hid : (c.functions.insert ⟨c.supply.next⟩ entry).get? id = some known) :
    id.raw < c.supply.next + 1 := by
  rw [UInt32.lt_iff_toNat_lt, CallableSupply.toNat_next_add_one hnext]
  rw [Bindings.get?_insert] at hid
  split at hid
  · next heq => rw [← heq]; exact Nat.lt_succ_self _
  · have hlt := UInt32.lt_iff_toNat_lt.mp (h.issued hid)
    exact Nat.lt_succ_of_lt hlt

end Coherent

theorem declare_preserves_coherent {c d : Context} (h : c.Coherent) {name : String}
    {id : CallableId} (hd : c.declare name = .ok (id, d)) : d.Coherent := by
  obtain ⟨hnext, -, symbol, symbols, -, rfl⟩ := register_eq_ok_iff.mp hd
  refine ⟨h.issued_insert_next hnext, ?_, ?_⟩
  · intro n id hid
    obtain ⟨f, symbol, hf, hknown⟩ := h.builtin_native hid
    exact ⟨f, symbol, hf, h.get?_insert_next hknown _⟩
  · intro id symbol f hid
    rw [Bindings.get?_insert] at hid
    split at hid
    · -- the new function is not native
      simp at hid
    · exact h.native_builtin hid

theorem addBuiltin_preserves_coherent {c d : Context} (h : c.Coherent) {f : Native}
    (hf : Registry.builtin.get? f.name = some f) (hnew : c.builtin? f.name = none)
    (hd : c.addBuiltin f = .ok d) : d.Coherent := by
  obtain ⟨_, _, hregister, rfl⟩ := addBuiltin_eq_ok_iff.mp hd
  obtain ⟨hnext, rfl, symbol, symbols, -, rfl⟩ := register_eq_ok_iff.mp hregister
  refine ⟨h.issued_insert_next hnext, ?_, ?_⟩
  · intro name id hid
    simp only [builtin?, Bindings.get?_insert] at hid
    split at hid
    · next heq =>
      obtain rfl := Option.some.inj hid
      exact ⟨f, _, heq ▸ hf, by rw [Bindings.get?_insert, if_pos rfl]⟩
    · obtain ⟨g, symbol, hg, hknown⟩ := h.builtin_native hid
      exact ⟨g, symbol, hg, h.get?_insert_next hknown _⟩
  · intro id symbol g hid
    simp only [builtin?, Bindings.get?_insert] at hid ⊢
    split at hid
    · next heq =>
      simp only [Option.some.injEq, FunctionEntry.mk.injEq, Callee.native.injEq] at hid
      rw [if_pos (congrArg Native.name hid.2), heq]
    · -- a builtin of this name would have been there before
      have hg := h.native_builtin hid
      have hne : ¬f.name = g.name := by
        intro heq
        rw [← heq, hnew] at hg
        contradiction
      rw [if_neg hne]
      exact hg

theorem builtin?_addBuiltin {c d : Context} {f : Native} (hd : c.addBuiltin f = .ok d)
    {name : String} (hne : f.name ≠ name) : d.builtin? name = c.builtin? name := by
  obtain ⟨_, _, hregister, rfl⟩ := addBuiltin_eq_ok_iff.mp hd
  obtain ⟨-, -, symbol, symbols, -, rfl⟩ := register_eq_ok_iff.mp hregister
  exact (Bindings.get?_insert ..).trans (if_neg hne)

theorem coherent_blank (config : Config) : (blank config).Coherent :=
  ⟨fun h => (nomatch h), fun h => (nomatch h), fun h => (nomatch h)⟩

/-- Builtins of different names can be added one after the other. -/
theorem coherent_new (config : Config) : (new config).Coherent := by
  have hstart : ∀ f ∈ Registry.builtin.functions, Registry.builtin.get? f.name = some f ∧
      (blank config).builtin? f.name = none :=
    fun f hf => ⟨Registry.get?_builtin_of_mem hf, rfl⟩
  refine (foldlM_preserves (p := fun fs c => c.Coherent ∧ (fs.map Native.name).Nodup ∧
    ∀ f ∈ fs, Registry.builtin.get? f.name = some f ∧ c.builtin? f.name = none) ?_
    (build_eq_ok config) ⟨coherent_blank config, Registry.nodup_names_builtin, hstart⟩).1
  rintro f rest c d hd ⟨h, hnodup, hfs⟩
  obtain ⟨hf, hnew⟩ := hfs f (List.mem_cons_self ..)
  obtain ⟨hname, hnames⟩ := List.nodup_cons.mp hnodup
  refine ⟨addBuiltin_preserves_coherent h hf hnew hd, hnames, fun g hg => ?_⟩
  obtain ⟨hget, hnone⟩ := hfs g (List.mem_cons_of_mem _ hg)
  have hne : f.name ≠ g.name := fun heq => hname (heq ▸ List.mem_map_of_mem hg)
  exact ⟨hget, (builtin?_addBuiltin hd hne).trans hnone⟩

theorem Performed.coherent {c d : Context} {op : ContextOp} {answer : ContextAnswer}
    (hd : Performed c op answer d) (h : c.Coherent) : d.Coherent := by
  cases hd with
  | declare hdeclare => exact declare_preserves_coherent h hdeclare
  | _ => exact ⟨h.issued, h.builtin_native, h.native_builtin⟩

theorem Reachable.coherent {c : Context} (h : c.Reachable) : c.Coherent :=
  h.induction coherent_new Performed.coherent

end Context

end CallTrace
