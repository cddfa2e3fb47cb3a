import CallTrace.Proofs.Context.Reachable

/-!
# Diagnostics change nothing

What is logged and who watches the stack has no bearing on what happens. Contexts that are alike
but for their configurations and their observers give the same answers and stay alike. So every
run can be repeated under other diagnostics and goes the same way.

* `call_congr`, `outcome_congr` — alike contexts give the same answer and stay alike
* `diagnostics_change_nothing` — so do contexts of any configurations, and stacks with any observers
-/

namespace CallTrace

/-- Whoever watches, an operation gives the same answer and leaves the same frames. -/
theorem CallStack.perform_congr {s t : CallStack} (h : s.frames = t.frames) (op : StackOp) :
    (s.perform op).value.1 = (t.perform op).value.1 ∧
      (s.perform op).value.2.frames = (t.perform op).value.2.frames := by
  rw [value_perform, value_perform, h]
  exact ⟨rfl, rfl⟩

namespace Context

/-- Two contexts have everything in common but their configurations and their observers. -/
structure Alike (c d : Context) : Prop where
  frames : c.stack.frames = d.stack.frames
  symbols : c.symbols = d.symbols
  forms : c.forms = d.forms
  supply : c.supply = d.supply
  functions : c.functions = d.functions
  builtins : c.builtins = d.builtins

/-! ## New contexts -/

theorem register_congr {c d : Context} (h : Alike c d) (name : String) (callee : Callee) :
    SameResult Alike (c.register name callee) (d.register name callee) := by
  unfold register
  rw [h.supply, h.symbols]
  cases d.supply.fresh with
  | error e => exact .error e
  | ok given =>
    cases hintern : d.symbols.intern name with
    | error e =>
      simp only [bind, Except.bind]
      exact .error e
    | ok entered =>
      refine .ok given.1 ⟨h.frames, rfl, h.forms, rfl, ?_, h.builtins⟩
      show c.functions.insert _ _ = d.functions.insert _ _
      rw [h.functions]

theorem addBuiltin_congr {c d c' d' : Context} (h : Alike c d) {f : Native}
    (hc : c.addBuiltin f = .ok c') (hd : d.addBuiltin f = .ok d') : Alike c' d' := by
  obtain ⟨id, next, hcr, rfl⟩ := addBuiltin_eq_ok_iff.mp hc
  obtain ⟨id', next', hdr, rfl⟩ := addBuiltin_eq_ok_iff.mp hd
  have hsame := register_congr h f.name (.native f)
  rw [hcr, hdr] at hsame
  cases hsame with
  | ok _ hnext =>
    refine ⟨hnext.frames, hnext.symbols, hnext.forms, hnext.supply, hnext.functions, ?_⟩
    show next.builtins.insert f.name id = next'.builtins.insert f.name id
    rw [hnext.builtins]

theorem foldlM_addBuiltin_congr (fs : List Native) :
    ∀ {c d c' d' : Context}, Alike c d → fs.foldlM addBuiltin c = .ok c' →
      fs.foldlM addBuiltin d = .ok d' → Alike c' d' := by
  induction fs with
  | nil =>
    rintro c d c' d' h ⟨⟩ ⟨⟩
    exact h
  | cons f rest ih =>
    intro c d c' d' h hc hd
    rw [List.foldlM_cons, bind_eq_ok_iff] at hc hd
    obtain ⟨next, hfirst, hrest⟩ := hc
    obtain ⟨next', hfirst', hrest'⟩ := hd
    exact ih (addBuiltin_congr h hfirst hfirst') hrest hrest'

theorem new_congr (config config' : Config) : Alike (new config) (new config') := by
  have hblank : Alike (blank config) (blank config') := ⟨rfl, rfl, rfl, rfl, rfl, rfl⟩
  exact foldlM_addBuiltin_congr _ hblank (build_eq_ok config) (build_eq_ok config')

/-! ## Failures and native calls -/

/-- A failure that is given the active calls is given some that can be written down. -/
def Attachable (c : Context) (e : Failure) : Prop :=
  e.traceback = none → c.stack.isEmpty = false → c.Writable

theorem writable_congr {c d : Context} (h : Alike c d) : c.Writable ↔ d.Writable := by
  rw [Writable, Writable, h.frames, h.forms]

theorem withActiveCalls_congr {c d : Context} (h : Alike c d) {e : Failure}
    (hfit : c.config.logsTracebacks = d.config.logsTracebacks ∨ c.Attachable e) :
    (c.withActiveCalls e).run.value = (d.withActiveCalls e).run.value := by
  have hempty : c.stack.isEmpty = d.stack.isEmpty := by
    rw [CallStack.isEmpty, CallStack.isEmpty, h.frames]
  have htraceback : c.stack.traceback = d.stack.traceback := by
    rw [CallStack.traceback, CallStack.traceback, h.frames]
  cases he : e.traceback with
  | some t =>
    have hsome : e.traceback.isSome = true := by rw [he]; rfl
    rw [withActiveCalls_of_isSome hsome, withActiveCalls_of_isSome hsome]
  | none =>
    cases hc : c.stack.isEmpty with
    | true => rw [withActiveCalls_of_isEmpty hc, withActiveCalls_of_isEmpty (hempty ▸ hc)]
    | false =>
      have hd : d.stack.isEmpty = false := hempty ▸ hc
      by_cases hwrite : c.Writable
      · rw [value_withActiveCalls_of_ends he hc fun _ => hwrite,
          value_withActiveCalls_of_ends he hd fun _ => (writable_congr h).mp hwrite, htraceback]
      · -- only the configurations can have been the reason, so both of them log, or neither does
        have hsame := hfit.resolve_right fun hattach => hwrite (hattach he hc)
        cases hlogs : c.config.logsTracebacks with
        | false =>
          rw [withActiveCalls_of_silent he hc hlogs, htraceback,
            withActiveCalls_of_silent he hd (hsame ▸ hlogs)]
        | true =>
          rw [run_withActiveCalls_of_endless he hc hlogs hwrite,
            run_withActiveCalls_of_endless he hd (hsame ▸ hlogs)
              (mt (writable_congr h).mpr hwrite)]

theorem withActiveCalls_of_not_attachable {c : Context} {e : Failure}
    (hlogs : c.config.logsTracebacks = true) (hnot : ¬c.Attachable e) :
    (c.withActiveCalls e).run.value = .error .endless := by
  unfold Attachable at hnot
  simp only [Classical.not_imp] at hnot
  obtain ⟨he, hc, hwrite⟩ := hnot
  rw [run_withActiveCalls_of_endless he hc hlogs hwrite]

theorem invoke_congr {c d : Context} (h : Alike c d) (scope : Scope) (site : FormId)
    (callable : CallableId) (args : List Value) :
    c.invoke scope site callable args = d.invoke scope site callable args := by
  unfold invoke nameOf nameOf?
  rw [h.functions, h.symbols]

theorem complete_congr {c d : Context} (h : Alike c d) (site : FormId)
    {result : Except Failure Value}
    (hfit : c.config.logsTracebacks = d.config.logsTracebacks ∨
      ∀ e, result = .error e → c.Attachable e) :
    (c.complete site result).run.value = (d.complete site result).run.value := by
  cases result with
  | ok v => rfl
  | error e =>
    have hactive : (c.withActiveCalls (e.orSpan (c.forms.span? site))).run.value =
        (d.withActiveCalls (e.orSpan (d.forms.span? site))).run.value := by
      rw [h.forms]
      exact withActiveCalls_congr h (hfit.imp_right fun hattach => hattach e rfl)
    rw [value_complete_error, value_complete_error, hactive]

theorem during_congr {c d : Context} (h : Alike c d) (site : FormId) (callable : CallableId) :
    Alike (c.during site callable) (d.during site callable) := by
  refine ⟨?_, h.symbols, h.forms, h.supply, h.functions, h.builtins⟩
  show (Transition.enter c.stack.frames site callable).frames =
    (Transition.enter d.stack.frames site callable).frames
  rw [h.frames]

theorem observing_congr {c d : Context} (h : Alike c d) (events events' : List CallEvent) :
    Alike (c.observing events) (d.observing events') :=
  ⟨h.frames, h.symbols, h.forms, h.supply, h.functions, h.builtins⟩

/-- If an operation gives a failure the active calls, these can be written down. -/
def Loggable (c : Context) : ContextOp → Prop
  | .call scope site callable args => ∀ pushed e, c.stack.push site callable = .ok pushed →
      (c.during site callable).invoke scope site callable args = .error e →
      (c.during site callable).Attachable e
  | .attach e => c.Attachable e
  | _ => True

/-- **A native call gives the same result in alike contexts, and leaves them alike.** -/
theorem call_congr {c d : Context} (h : Alike c d) {scope : Scope} {site : FormId}
    {callable : CallableId} {args : List Value}
    (hfit : c.config.logsTracebacks = d.config.logsTracebacks ∨
      c.Loggable (.call scope site callable args)) :
    SameResult Alike (c.call scope site callable args).run.value
      (d.call scope site callable args).run.value := by
  -- whether the call can be made is decided by the frames alone
  cases hp : Transition.push c.stack.frames site callable with
  | error cause =>
    have hc := CallStack.push_of_transition_eq_error hp
    have hd : d.stack.push site callable = .error cause :=
      CallStack.push_of_transition_eq_error (h.frames ▸ hp)
    rw [value_call_of_push_eq_error hc, value_call_of_push_eq_error hd]
    exact .ok _ h
  | ok t =>
    have hc := CallStack.push_of_transition_eq_ok hp
    have hd : d.stack.push site callable = .ok (d.stack.commit t) :=
      CallStack.push_of_transition_eq_ok (h.frames ▸ hp)
    have hduring := during_congr h site callable
    rw [value_call_of_push_eq_ok hc, value_call_of_push_eq_ok hd, ← invoke_congr hduring,
      complete_congr hduring site (hfit.imp_right fun hlog e => hlog _ e hc)]
    cases ((d.during site callable).complete site
        ((c.during site callable).invoke scope site callable args)).run.value with
    | error e => exact .error e
    | ok result => exact .ok result (observing_congr h _ _)

/-! ## Every operation -/

/-- **Alike contexts give the same answer to every operation, and stay alike.** -/
theorem outcome_congr {c d : Context} (h : Alike c d) {op : ContextOp}
    (hfit : c.config.logsTracebacks = d.config.logsTracebacks ∨ c.Loggable op) :
    SameResult Alike (c.outcome op) (d.outcome op) := by
  unfold outcome
  cases op with
  | declare name =>
    simp only [perform, Attempt.value_run_bind]
    refine (register_congr h name .user).bind fun id _ _ _ hnext => ?_
    exact .ok (ContextAnswer.callable id) hnext
  | intern text =>
    simp only [perform, Attempt.value_run_bind, Attempt.value_run_ofExcept, Context.intern,
      h.symbols]
    cases d.symbols.intern text with
    | error e => exact .error e
    | ok entered =>
      exact .ok _ ⟨h.frames, rfl, h.forms, h.supply, h.functions, h.builtins⟩
  | addForm kind span =>
    simp only [perform, Attempt.value_run_bind, Attempt.value_run_ofExcept, Context.addForm,
      h.forms]
    cases d.forms.add kind span with
    | error e => exact .error e
    | ok added =>
      exact .ok _ ⟨h.frames, h.symbols, rfl, h.supply, h.functions, h.builtins⟩
  | stack op =>
    obtain ⟨hanswer, hframes⟩ := CallStack.perform_congr h.frames op
    simp only [perform, Attempt.value_run_bind, Attempt.value_run_lift]
    show SameResult Alike (.ok (ContextAnswer.stack (c.stack.perform op).value.1, _))
      (.ok (ContextAnswer.stack (d.stack.perform op).value.1, _))
    rw [hanswer]
    exact .ok _ ⟨hframes, h.symbols, h.forms, h.supply, h.functions, h.builtins⟩
  | replaceStack stack =>
    exact .ok _ ⟨rfl, h.symbols, h.forms, h.supply, h.functions, h.builtins⟩
  | call scope site callable args =>
    simp only [perform, Attempt.value_run_bind]
    refine (call_congr h hfit).bind fun result _ _ _ hnext => ?_
    exact .ok (ContextAnswer.result result) hnext
  | attach e =>
    simp only [perform, Attempt.value_run_bind, withActiveCalls_congr h hfit]
    cases (d.withActiveCalls e).run.value with
    | error b => exact .error b
    | ok e' => exact .ok _ h
  | traceback =>
    have htraceback : c.stack.traceback = d.stack.traceback := by
      rw [CallStack.traceback, CallStack.traceback, h.frames]
    simp only [perform, Attempt.value_run_pure, htraceback]
    exact .ok _ h

/-- Where tracebacks are logged, an operation that gives a failure active calls that cannot be
written down does not end. -/
theorem outcome_of_not_loggable {c : Context} (hlogs : c.config.logsTracebacks = true)
    {op : ContextOp} (hnot : ¬c.Loggable op) : c.outcome op = .error .endless := by
  unfold outcome
  cases op with
  | call scope site callable args =>
    simp only [Loggable, Classical.not_forall] at hnot
    obtain ⟨pushed, e, hp, he, hattach⟩ := hnot
    have hactive : ((c.during site callable).withActiveCalls
        (e.orSpan (c.forms.span? site))).run.value = .error .endless :=
      withActiveCalls_of_not_attachable hlogs hattach
    have hcall : (c.call scope site callable args).run.value = .error .endless := by
      rw [value_call_of_push_eq_ok hp, he, value_complete_error]
      exact congrArg (fun x => (Except.map _ x).map _) hactive
    simp only [perform, Attempt.value_run_bind, hcall]
    rfl
  | attach e =>
    simp only [perform, Attempt.value_run_bind]
    rw [withActiveCalls_of_not_attachable hlogs hnot]
    rfl
  | _ => exact absurd trivial hnot

theorem Performed.config_eq {c d : Context} {op : ContextOp} {answer : ContextAnswer}
    (h : Performed c op answer d) : d.config = c.config := by
  cases h with
  | declare hdeclare =>
    obtain ⟨-, -, _, _, -, rfl⟩ := register_eq_ok_iff.mp hdeclare
    rfl
  | _ => rfl

theorem config_eq_of_outcome_eq_ok {c d : Context} {op : ContextOp} {answer : ContextAnswer}
    (h : c.outcome op = .ok (answer, d)) : d.config = c.config :=
  (performed_of_outcome_eq_ok h).config_eq

theorem config_new (config : Config) : (new config).config = config := by
  refine foldlM_preserves (p := fun _ c => c.config = config) ?_ (build_eq_ok config) rfl
  intro f rest c d hd hc
  obtain ⟨_, _, hregister, rfl⟩ := addBuiltin_eq_ok_iff.mp hd
  obtain ⟨-, -, _, _, -, rfl⟩ := register_eq_ok_iff.mp hregister
  exact hc

theorem run_congr (config config' : Config) (ops : List ContextOp)
    (hfit : config.logsTracebacks ≠ config'.logsTracebacks →
      Throughout outcome Loggable (new config) ops) :
    SameResult Alike ((new config).run ops) ((new config').run ops) := by
  let r (c d : Context) : Prop := Alike c d ∧ c.config = config ∧ d.config = config'
  have hnew : r (new config) (new config') :=
    ⟨new_congr config config', config_new config, config_new config'⟩
  -- no step changes what is logged, so the reason why two steps are alike stays the same
  have hstep : ∀ {c d op}, r c d →
      (config.logsTracebacks = config'.logsTracebacks ∨ c.Loggable op) →
      SameResult r (c.outcome op) (d.outcome op) := by
    rintro c d op ⟨h, rfl, rfl⟩ hfit
    refine (outcome_congr h hfit).imp fun hc hd hnext => ⟨hnext, ?_, ?_⟩
    · exact config_eq_of_outcome_eq_ok hc
    · exact config_eq_of_outcome_eq_ok hd
  have hrun : SameResult r ((new config).run ops) ((new config').run ops) := by
    by_cases hlogs : config.logsTracebacks = config'.logsTracebacks
    · exact tryAll_simulation (f := outcome) (g := outcome)
        (fun _ _ _ h _ => hstep h (Or.inl hlogs)) ops hnew
        (throughout_of_forall (fun _ _ => trivial) ops _)
    · exact tryAll_simulation (f := outcome) (g := outcome)
        (fun _ _ _ h hfit => hstep h (Or.inr hfit)) ops hnew (hfit hlogs)
  exact hrun.imp fun _ _ h => h.1

/-- **Diagnostics change nothing, as long as the active calls can be written down.** Whatever two
new contexts are to log, the same operations get the same answers from both, one by one, and leave
contexts that are alike. But if just one of them logs tracebacks, no operation may give a failure
active calls from whose call sites a cycle is reached: where tracebacks are logged such an operation
does not end. And whoever watches two stacks of the same frames, the same operations get the same
answers and leave the same frames. -/
theorem diagnostics_change_nothing :
    (∀ (config config' : Config) (ops : List ContextOp),
      (config.logsTracebacks ≠ config'.logsTracebacks →
        Throughout outcome Loggable (new config) ops) →
      SameResult Alike ((new config).run ops) ((new config').run ops)) ∧
    (∀ (config : Config) (ops : List ContextOp), config.logsTracebacks = true →
      ¬Throughout outcome Loggable (new config) ops →
      (new config).run ops = .error .endless) ∧
    (∀ (frames : List Frame) (o o' : Observer) (ops : List StackOp),
      let first := runAll (fun s op => (CallStack.perform s op).value) ⟨frames, o⟩ ops
      let second := runAll (fun s op => (CallStack.perform s op).value) ⟨frames, o'⟩ ops
      first.1 = second.1 ∧ first.2.frames = second.2.frames) := by
  refine ⟨run_congr, ?_, ?_⟩
  · intro config ops hlogs hnot
    have hnew : (new config).config.logsTracebacks = true := by rw [config_new, hlogs]
    refine tryAll_of_not_throughout (p := fun c => c.config.logsTracebacks = true) ?_
      (fun hs hnot => outcome_of_not_loggable hs hnot) ops hnew hnot
    intro c op answer d hd hc
    rwa [config_eq_of_outcome_eq_ok hd]
  · intro frames o o' ops first second
    exact runAll_simulation (r := fun s t : CallStack => s.frames = t.frames)
      (fun s t op h => CallStack.perform_congr h op) ops rfl

/-- A failing call at a form with a source text, logged in the one context and not in the other. -/
theorem diagnostics_change_nothing_logged_call :
    let ops : List ContextOp := [.addForm .nil ⟨0, 3⟩, .call .new ⟨0⟩ ⟨0⟩ []]
    Throughout outcome Loggable (new {}) ops ∧ ((new {}).run ops).isOk = true ∧
      SameResult Alike ((new {}).run ops) ((new ⟨.tracebacks⟩).run ops) := by
  intro ops
  have hfit : Throughout outcome Loggable (new {}) ops := by
    refine ⟨trivial, fun answer c hc => ⟨?_, fun _ _ _ => trivial⟩⟩
    let after := Breakdown.resultOf ((new {}).outcome (.addForm .nil ⟨0, 3⟩)) (by decide +kernel)
    obtain rfl : c = after.2 :=
      congrArg Prod.snd (Except.ok.inj (hc.symm.trans (Breakdown.eq_ok_resultOf _ _)))
    have htext : after.2.forms.render after.2.symbols ⟨0⟩ = some "nil" := by decide +kernel
    have hempty : after.2.stack.frames = [] := by decide +kernel
    have hwrite : after.2.Writable := by simp [Writable, hempty]
    intro pushed e _ _ _ _
    exact writable_during_iff.mpr ⟨FormStore.exists_render_iff.mp ⟨_, htext⟩, hwrite⟩
  exact ⟨hfit, by decide +kernel,
    diagnostics_change_nothing.1 {} ⟨.tracebacks⟩ ops fun _ => hfit⟩

/-- A failure comes up in a call whose call site is a list that holds itself. It is given the active
calls where tracebacks are not logged. Where they are, this does not end. -/
theorem diagnostics_change_nothing_self_containing :
    let ops : List ContextOp :=
      [.addForm (.list [⟨0⟩]) ⟨0, 3⟩, .stack (.move (.push ⟨0⟩ ⟨0⟩)),
        .attach { fault := .custom "boom" }]
    (∃ pushed c, (new {}).run ops =
      .ok ([.form ⟨0⟩, .stack pushed,
        .failure { fault := .custom "boom", traceback := some ⟨[⟨0, ⟨0⟩, ⟨0⟩⟩]⟩ }], c)) ∧
    ¬∃ answers c, (new ⟨.tracebacks⟩).run ops = .ok (answers, c) := by
  intro ops
  constructor
  · exact ⟨_, _, rfl⟩
  · rintro ⟨answers, c, hrun⟩
    have hnone : ((new ⟨.tracebacks⟩).run ops).isOk = false := by decide +kernel
    rw [hrun] at hnone
    cases hnone

end Context

end CallTrace
