import CallTrace.Proofs.Context.Reachable
import CallTrace.Proofs.Native.Registry

/-!
# What comes of a native call

A call that cannot be made says only why. Of the others, a builtin gives what it gives when it is
run on its own, and anything else is not callable. A failure of either kind tells of the call it
came up in: where in the source it was made, and which calls were active, itself the innermost.
Where failures are logged these calls are written down, and if that does not end, nothing comes of
the call.

* `tellsOfCall_failureOf` — what a failure inside a call carries when it leaves
* `value_call_of_invoke_eq_error`, `value_call_of_endless` — what comes of a call that fails
* `invoke_during_of_builtin`, `invoke_during_of_forall_not_builtin` — which calls fail
* `call_outcome` — the outcome of every call in every context that can be reached
-/

namespace CallTrace

/-! ## Failures inside a call -/

namespace Context

/-- A fault in a call, with all that the context knows of the call. -/
def failureOf (c : Context) (site : FormId) (callable : CallableId) (fault : Fault) : Failure where
  fault := fault
  span := c.forms.span? site
  traceback := some (c.during site callable).stack.traceback

section

variable {c : Context} {scope : Scope} {site : FormId} {callable : CallableId} {args : List Value}
  {pushed : Logged CallStack} (hp : c.stack.push site callable = .ok pushed)
include hp

/-- A call gives the value of its function. -/
theorem value_call_of_invoke_eq_ok {v : Value}
    (h : (c.during site callable).invoke scope site callable args = .ok v) :
    (c.call scope site callable args).run.value =
      .ok (.ok v, c.observing (Transition.visit c.stack.frames site callable)) := by
  rw [value_call_of_push_eq_ok hp, h]
  rfl

/-- A fault that says nothing of where it came up is given all of it. -/
theorem value_call_of_invoke_eq_error {fault : Fault}
    (h : (c.during site callable).invoke scope site callable args = .error { fault })
    (hends : c.config.logsTracebacks = true → c.forms.Acyclic site ∧ c.Writable) :
    (c.call scope site callable args).run.value =
      .ok (.error (c.failureOf site callable fault),
        c.observing (Transition.visit c.stack.frames site callable)) := by
  have hactive := value_withActiveCalls_of_ends (c := c.during site callable)
    (e := { fault, span := c.forms.span? site }) rfl (c.isEmpty_stack_during site callable)
    fun hlogs => writable_during_iff.mpr (hends hlogs)
  rw [value_call_of_push_eq_ok hp, h, value_complete_error]
  exact congrArg (fun x => (Except.map _ x).map _) hactive

/-- Nothing comes of the call if that cannot be written down where it is to be logged. -/
theorem value_call_of_endless {fault : Fault}
    (h : (c.during site callable).invoke scope site callable args = .error { fault })
    (hnot : ¬(c.config.logsTracebacks = true → c.forms.Acyclic site ∧ c.Writable)) :
    (c.call scope site callable args).run.value = .error .endless := by
  obtain ⟨hlogs, hsites⟩ := Classical.not_imp.mp hnot
  have hactive := run_withActiveCalls_of_endless (c := c.during site callable)
    (e := { fault, span := c.forms.span? site }) rfl (c.isEmpty_stack_during site callable) hlogs
    (mt writable_during_iff.mp hsites)
  rw [value_call_of_push_eq_ok hp, h, value_complete_error]
  exact congrArg (fun x => (Except.map _ x.value).map _) hactive

end

end Context

/-- A failure tells of a call that was made in a context. -/
structure Failure.TellsOfCall (e : Failure) (c : Context) (site : FormId)
    (callable : CallableId) : Prop where
  span_eq : e.span = c.forms.span? site
  span_eq_none_iff : e.span = none ↔ c.forms.size ≤ site.index
  /-- A call with a frame of its own comes after those that were active. -/
  traceback_of_separate : (∀ top ∈ c.stack.top?, top.isCall site callable = false) →
    e.traceback = some ⟨c.stack.traceback.frames ++ [⟨0, callable, site⟩]⟩
  /-- A call equal to the innermost one is counted there, as far as it can be. -/
  traceback_of_repeated : ∀ older top, c.stack.traceback.frames = older ++ [top] →
    top.isCall site callable = true →
    ∃ n, n.toNat = min (top.repeats.toNat + 1) 4294967295 ∧
      e.traceback = some ⟨older ++ [{ top with repeats := n }]⟩

theorem FormStore.span?_eq_none_iff (s : FormStore) {id : FormId} (h : id.isValid = true) :
    s.span? id = none ↔ s.size ≤ id.index := by
  rw [span?, Option.map_eq_none_iff, get?, if_pos h, Array.getElem?_eq_none_iff]
  rfl

/-- A builtin does not say where it failed. -/
theorem Registry.eq_of_run_eq_error {name : String} {f : Native}
    (hf : builtin.get? name = some f) {scope : Scope} {site : FormId} {args : List Value}
    {e : Failure} (h : f.run scope site args = .error e) : e = { fault := e.fault } := by
  have hname : f.name = name := builtin.named name f hf
  exact eq_of_run_builtin_eq_error (mem_functions_iff.mpr (hname ▸ hf)) h

namespace Context

theorem tellsOfCall_failureOf (c : Context) {site : FormId} (hs : site.isValid = true)
    (callable : CallableId) (fault : Fault) :
    (c.failureOf site callable fault).TellsOfCall c site callable where
  span_eq := rfl
  span_eq_none_iff := c.forms.span?_eq_none_iff hs
  traceback_of_separate h := by
    show some (⟨(Transition.enter c.stack.frames site callable).frames.reverse⟩ : Traceback) = _
    rw [Transition.enter_of_forall_not_isCall h, List.reverse_cons]
    rfl
  traceback_of_repeated older top hframes hcall := by
    have hstack : c.stack.frames = top :: older.reverse := by
      have hreverse : c.stack.frames.reverse = older ++ [top] := hframes
      rw [List.reverse_eq_iff] at hreverse
      simpa using hreverse
    refine ⟨top.again.repeats, Frame.toNat_nextRepeats top.repeats, ?_⟩
    show some (⟨(Transition.enter c.stack.frames site callable).frames.reverse⟩ : Traceback) = _
    rw [hstack, Transition.enter_of_isCall hcall, List.reverse_cons, List.reverse_reverse]
    rfl

/-! ## Builtins and everything else -/

theorem invoke_of_native {c : Context} {callable : CallableId} {symbol : Symbol} {f : Native}
    (h : c.functions.get? callable = some ⟨symbol, .native f⟩) (scope : Scope) (site : FormId)
    (args : List Value) : c.invoke scope site callable args = f.run scope site args := by
  rw [invoke, h]
  rfl

theorem invoke_of_forall_not_native {c : Context} {callable : CallableId}
    (h : ∀ symbol f, c.functions.get? callable ≠ some ⟨symbol, .native f⟩) (scope : Scope)
    (site : FormId) (args : List Value) :
    c.invoke scope site callable args = .error { fault := .notCallable (c.nameOf callable) } := by
  unfold invoke
  cases hentry : c.functions.get? callable with
  | none => rfl
  | some entry =>
    obtain ⟨symbol, callee⟩ := entry
    cases callee with
    | native f => exact absurd hentry (h symbol f)
    | user => rfl

/-- During a call a builtin gives what it gives on its own. -/
theorem invoke_during_of_builtin {c : Context} (h : c.Coherent) {name : String} (site : FormId)
    {callable : CallableId} (hname : c.builtin? name = some callable) :
    ∃ f, Registry.builtin.get? name = some f ∧ ∀ scope args,
      (c.during site callable).invoke scope site callable args = f.run scope site args := by
  obtain ⟨f, symbol, hf, hknown⟩ := h.builtin_native hname
  exact ⟨f, hf, fun scope args => invoke_of_native (c := c.during site callable) hknown ..⟩

/-- What is no builtin cannot be called. -/
theorem invoke_during_of_forall_not_builtin {c : Context} (h : c.Coherent) (scope : Scope)
    (site : FormId) {callable : CallableId} (hnone : ∀ name, c.builtin? name ≠ some callable)
    (args : List Value) :
    (c.during site callable).invoke scope site callable args =
      .error { fault := .notCallable (c.nameOf callable) } := by
  refine invoke_of_forall_not_native (c := c.during site callable) ?_ scope site args
  intro symbol f hknown
  exact hnone f.name (h.native_builtin hknown)

/-- **The outcome of a native call.** A call without a callable or without a call site cannot be
made, and its failure says only so. Otherwise a builtin gives what it gives on its own, value or
fault, and what is no builtin cannot be called, whether it has a name or not. These failures all
tell of the call. But if they are logged, and from the call site or from that of an active call a
cycle is reached, then nothing comes of such a call. -/
theorem call_outcome (c : Context) (hc : c.Reachable) (scope : Scope) (site : FormId)
    (callable : CallableId) (args : List Value) :
    let result := (c.call scope site callable args).run.value.map Prod.fst
    let ends := c.config.logsTracebacks = true → c.forms.Acyclic site ∧ c.Writable
    (callable.isValid = false → result = .ok (.error ⟨.push .nilCallable, none, none⟩)) ∧
    (callable.isValid = true → site.isValid = false →
      result = .ok (.error ⟨.push .nilSite, none, none⟩)) ∧
    (callable.isValid = true → site.isValid = true →
      (∀ name, c.builtin? name = some callable →
        ∃ f, Registry.builtin.get? name = some f ∧
          (∀ v, f.run scope site args = .ok v → result = .ok (.ok v)) ∧
          (∀ e, f.run scope site args = .error e →
            (ends → ∃ e', result = .ok (.error e') ∧ e'.fault = e.fault ∧
              e'.TellsOfCall c site callable) ∧
            (¬ends → result = .error .endless))) ∧
      ((∀ name, c.builtin? name ≠ some callable) →
        (ends → ∃ e, result = .ok (.error e) ∧ e.TellsOfCall c site callable ∧
          (∀ name, c.nameOf? callable = some name → e.fault = .notCallable name) ∧
          (c.nameOf? callable = none →
            e.fault = .notCallable ("fn#" ++ toString callable.raw.toNat))) ∧
        (¬ends → result = .error .endless))) := by
  intro result ends
  rcases c.stack.push_cases site callable with ⟨hcal, hp⟩ | ⟨hcal, hsite, hp⟩ | ⟨hcal, hsite, hp⟩
  · have hresult : result = .ok (.error ⟨.push .nilCallable, none, none⟩) :=
      congrArg (Except.map Prod.fst) (value_call_of_push_eq_error hp scope args)
    simp [hcal, hresult]
  · have hresult : result = .ok (.error ⟨.push .nilSite, none, none⟩) :=
      congrArg (Except.map Prod.fst) (value_call_of_push_eq_error hp scope args)
    simp [hcal, hsite, hresult]
  · refine ⟨by simp [hcal], by simp [hsite], fun _ _ => ⟨?_, ?_⟩⟩
    · intro name hname
      obtain ⟨f, hf, hinvoke⟩ := invoke_during_of_builtin hc.coherent site hname
      refine ⟨f, hf, ?_, ?_⟩
      · intro v hv
        exact congrArg (Except.map Prod.fst)
          (value_call_of_invoke_eq_ok hp ((hinvoke scope args).trans hv))
      · intro e he
        -- the function left it open where it failed, so the call fills in everything
        have hfault : (c.during site callable).invoke scope site callable args =
            .error { fault := e.fault } := by
          rw [hinvoke, he, ← Registry.eq_of_run_eq_error hf he]
        constructor
        · intro hends
          exact ⟨_, congrArg (Except.map Prod.fst)
            (value_call_of_invoke_eq_error hp hfault hends), rfl,
            c.tellsOfCall_failureOf hsite callable e.fault⟩
        · intro hnot
          exact congrArg (Except.map Prod.fst) (value_call_of_endless hp hfault hnot)
    · intro hnone
      have hfault := invoke_during_of_forall_not_builtin hc.coherent scope site hnone args
      constructor
      · intro hends
        refine ⟨_, congrArg (Except.map Prod.fst)
          (value_call_of_invoke_eq_error hp hfault hends),
          c.tellsOfCall_failureOf hsite callable _, ?_, ?_⟩
        · intro name hname
          show Fault.notCallable (c.nameOf callable) = _
          rw [nameOf, hname]
          rfl
        · intro hname
          show Fault.notCallable (c.nameOf callable) = _
          rw [nameOf, hname]
          rfl
      · intro hnot
        exact congrArg (Except.map Prod.fst) (value_call_of_endless hp hfault hnot)

/-- The innermost call is made again, this time with an argument too few. -/
theorem call_outcome_hash_again :
    ∃ c : Context, c.Reachable ∧ c.builtin? "hash" = some ⟨0⟩ ∧ c.stack.frames = [⟨0, ⟨0⟩, ⟨0⟩⟩] ∧
      ∃ e, (c.call .new ⟨0⟩ ⟨0⟩ []).run.value.map Prod.fst = .ok (.error e) ∧
        e.fault = .arity "hash" 1 0 ∧ e.span = some ⟨3, 6⟩ ∧
        e.traceback = some ⟨[⟨1, ⟨0⟩, ⟨0⟩⟩]⟩ := by
  let c := Breakdown.resultOf ((new {}).after
    [.declare "loop", .addForm .nil ⟨3, 6⟩, .stack (.move (.push ⟨0⟩ ⟨0⟩))]) (by decide +kernel)
  have hc : c.Reachable := ⟨{}, _, Breakdown.eq_ok_resultOf _ _⟩
  have hbuiltin : c.builtin? "hash" = some ⟨0⟩ := by decide +kernel
  have hsilent : c.config.logsTracebacks = false := by decide +kernel
  obtain ⟨-, -, hvalid⟩ := call_outcome c hc .new ⟨0⟩ ⟨0⟩ []
  obtain ⟨f, hf, -, herror⟩ := (hvalid (by decide) (by decide)).1 "hash" hbuiltin
  obtain rfl : Native.hash = f := Option.some.inj hf
  obtain ⟨e, hresult, hfault, htells⟩ := (herror _ rfl).1 (by simp [hsilent])
  obtain ⟨n, hn, htraceback⟩ :=
    htells.traceback_of_repeated [] ⟨0, ⟨0⟩, ⟨0⟩⟩ (by decide +kernel) (by decide)
  obtain rfl : n = 1 := UInt32.toNat_inj.mp hn
  exact ⟨c, hc, hbuiltin, by decide +kernel, e, hresult, hfault,
    htells.span_eq.trans (by decide +kernel), htraceback⟩

/-- A builtin is called at a list that holds itself, with an argument too few. The function fails,
but there is no failure of the call. -/
theorem call_outcome_self_containing :
    ∃ c, (new ⟨.tracebacks⟩).after [.addForm (.list [⟨0⟩]) ⟨0, 3⟩] = .ok c ∧
      c.builtin? "hash" = some ⟨0⟩ ∧
      Native.hash.run .new ⟨0⟩ [] = .error { fault := .arity "hash" 1 0 } ∧
      (c.call .new ⟨0⟩ ⟨0⟩ []).run.value = .error .endless ∧
      ¬∃ e, (c.call .new ⟨0⟩ ⟨0⟩ []).run.value.map Prod.fst = .ok (.error e) := by
  let c := Breakdown.resultOf ((new ⟨.tracebacks⟩).after [.addForm (.list [⟨0⟩]) ⟨0, 3⟩])
    (by decide +kernel)
  have hc : (new ⟨.tracebacks⟩).after [.addForm (.list [⟨0⟩]) ⟨0, 3⟩] = .ok c :=
    Breakdown.eq_ok_resultOf _ _
  have hbuiltin : c.builtin? "hash" = some ⟨0⟩ := by decide +kernel
  have hlogs : c.config.logsTracebacks = true := by decide +kernel
  have hnone : c.forms.render c.symbols ⟨0⟩ = none := by decide +kernel
  have hcyclic : ¬c.forms.Acyclic ⟨0⟩ := FormStore.render_eq_none_iff.mp hnone
  obtain ⟨f, hf, hinvoke⟩ :=
    invoke_during_of_builtin (Reachable.coherent ⟨_, _, hc⟩) ⟨0⟩ hbuiltin
  obtain rfl : Native.hash = f := Option.some.inj hf
  have hcall : (c.call .new ⟨0⟩ ⟨0⟩ []).run.value = .error .endless :=
    value_call_of_endless rfl (hinvoke .new []) fun hends => hcyclic (hends hlogs).1
  refine ⟨c, hc, hbuiltin, rfl, hcall, ?_⟩
  rintro ⟨e, he⟩
  rw [hcall] at he
  cases he

end Context

end CallTrace
