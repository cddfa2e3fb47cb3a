import CallTrace.Proofs.Context.CallLog
import CallTrace.Proofs.Context.Diagnostics
import CallTrace.Proofs.Context.Identity

/-!
# Labels in the log

A logging observer keeps names of its own, next to those that the context finds through its
functions and its symbols. It is told each name once, when the function is made known, and both
copies stay the same from then on: what is known never changes its name, and what is not known has
none in either place. So the log and a traceback call everything by the same name, as long as the
context keeps its stack and its observer, and nobody else gives the observer names.

* `register_preserves_labelled`, `access_preserves_labelled` — the two copies stay the same
* `tellsLines_access` — the lines an operation logs are those of the events it causes
* `labels_agree` — so each of them calls its callable what a traceback calls it
-/

namespace CallTrace

/-! ## Everything that can be done with a context -/

/-- An operation of a context, or of a part of it that is open to everyone. -/
inductive AccessOp
  | perform (op : ContextOp)
  | replaceForms (forms : FormStore)
  | replaceObserver (observer : Observer)
  | learnName (callable : CallableId) (name : String)
  /-- Tells the observer of an event, whether it happened or not. -/
  | notify (e : CallEvent)
  /-- Makes the observer forget the events it has kept. -/
  | clear

namespace AccessOp

/-- Whether an operation leaves it to the context to name callables: it neither gives it another
stack or another observer nor gives names to the observer. -/
def keepsNames : AccessOp → Bool
  | .perform (.replaceStack _) => false
  | .replaceObserver _ => false
  | .learnName _ _ => false
  | _ => true

end AccessOp

namespace Context

/-- The context with another observer of its stack. -/
def watchedBy (c : Context) (observer : Observer) : Context :=
  { c with stack := { c.stack with observer } }

/-- Performs an operation on a context or a part of it. -/
def access (c : Context) : AccessOp → Attempt Context
  | .perform op => do pure (← c.perform op).2
  | .replaceForms forms => pure { c with forms }
  | .replaceObserver observer => pure (c.watchedBy observer)
  | .learnName callable name => pure { c with stack := c.stack.learnName callable name }
  | .notify e => do pure (c.watchedBy (← ExceptT.lift (c.stack.observer.notify e)))
  | .clear => pure (c.watchedBy c.stack.observer.clear)

/-- The context after some operations. -/
def accessed (c : Context) (ops : List AccessOp) : Except Breakdown Context :=
  ops.foldlM (fun c op => (c.access op).run.value) c

/-- The events that an operation causes, as one who records them would have it. -/
def told (c : Context) (op : AccessOp) : Except Breakdown (List CallEvent) :=
  ((c.watchedBy .newRecording).access op).run.value.map fun d => d.stack.observer.events

theorem value_access_perform (c : Context) (op : ContextOp) :
    (c.access (.perform op)).run.value = (c.outcome op).map Prod.snd :=
  Attempt.value_run_bind_pure _ _

theorem log_access_perform (c : Context) (op : ContextOp) :
    (c.access (.perform op)).run.log = (c.perform op).run.log :=
  Attempt.log_run_bind_pure _ _

/-! ## The two copies of the names -/

/-- The observer logs, and it has the names that the context finds. -/
structure Labelled (c : Context) : Prop where
  named : c.Named
  labels : ∃ names, c.stack.observer = .logging names ∧ ∀ id, names.get? id = c.nameOf? id

variable {c d : Context}

theorem nameOf?_of_grows (hnamed : c.Named) (hsymbols : c.symbols.Grows d.symbols)
    {id : CallableId} (hget : d.functions.get? id = c.functions.get? id) :
    d.nameOf? id = c.nameOf? id := by
  rw [nameOf?_eq, nameOf?_eq, known?_of_grows hnamed hsymbols hget]

theorem Labelled.of_grows (h : c.Labelled) (hnamed : d.Named)
    (hsymbols : c.symbols.Grows d.symbols) (hfunctions : d.functions = c.functions)
    (hobserver : d.stack.observer = c.stack.observer) : d.Labelled := by
  obtain ⟨names, hlogging, hlabels⟩ := h.labels
  refine ⟨hnamed, names, hobserver.trans hlogging, fun id => ?_⟩
  rw [hlabels, nameOf?_of_grows h.named hsymbols (by rw [hfunctions])]

theorem Labelled.record (h : c.Labelled) (events : List CallEvent) :
    c.stack.observer.record events = c.stack.observer := by
  obtain ⟨names, hlogging, -⟩ := h.labels
  rw [hlogging]
  rfl

/-- **A name that is made known is learnt as it will be found.** -/
theorem register_preserves_labelled (h : c.Labelled) {name : String} {callee : Callee}
    {id : CallableId} (hd : c.register name callee = .ok (id, d)) : d.Labelled := by
  have hnamed := register_preserves_named h.named hd
  obtain ⟨names, hlogging, hlabels⟩ := h.labels
  obtain ⟨hnext, rfl, symbol, symbols, hintern, rfl⟩ := register_eq_ok_iff.mp hd
  refine ⟨hnamed, names.insert ⟨c.supply.next⟩ (symbols.text symbol), ?_, fun id => ?_⟩
  · show c.stack.observer.learnName _ _ = _
    rw [hlogging]
    rfl
  · rw [Bindings.get?_insert, hlabels]
    by_cases hid : (⟨c.supply.next⟩ : CallableId) = id
    · simp [nameOf?, Bindings.get?_insert, hid]
    · -- no other name is touched, and the table of symbols only grows
      rw [if_neg hid]
      refine (nameOf?_of_grows h.named (SymbolTable.grows_of_intern_eq_ok hintern) ?_).symm
      rw [Bindings.get?_insert, if_neg hid]

theorem labelled_new {config : Config} (hconfig : config.logsCalls = true) :
    (new config).Labelled := by
  refine foldlM_preserves (p := fun _ c => c.Labelled) ?_ (build_eq_ok config)
    ⟨fun _ _ h => (nomatch h), ∅, ?_, fun _ => rfl⟩
  · intro f rest c d hd h
    obtain ⟨_, _, hregister, rfl⟩ := addBuiltin_eq_ok_iff.mp hd
    have hlabelled := register_preserves_labelled h hregister
    exact ⟨hlabelled.named, hlabelled.labels⟩
  · show (CallStack.new config.logsCalls).observer = _
    rw [hconfig]
    rfl

theorem Performed.labelled {op : ContextOp} {answer : ContextAnswer} (hd : Performed c op answer d)
    (hop : (AccessOp.perform op).keepsNames = true) (h : c.Labelled) : d.Labelled := by
  have hnamed := hd.named h.named
  cases hd with
  | declare hdeclare => exact register_preserves_labelled h hdeclare
  | intern hintern => exact h.of_grows hnamed (SymbolTable.grows_of_intern_eq_ok hintern) rfl rfl
  | addForm _ => exact ⟨h.named, h.labels⟩
  | stack op =>
    refine h.of_grows hnamed (List.prefix_refl _) rfl ?_
    show (c.stack.perform op).value.2.observer = _
    rw [CallStack.value_perform, CallStack.value_commit]
    exact h.record _
  | replaceStack stack => contradiction
  | call _ => exact h.of_grows hnamed (List.prefix_refl _) rfl (h.record _)
  | _ => exact h

/-- **The two copies stay the same, whatever is done with the context.** -/
theorem access_preserves_labelled (h : c.Labelled) {op : AccessOp} (hop : op.keepsNames = true)
    (hd : (c.access op).run.value = .ok d) : d.Labelled := by
  cases op with
  | perform op =>
    rw [value_access_perform, map_eq_ok_iff] at hd
    obtain ⟨⟨answer, _⟩, houtcome, rfl⟩ := hd
    exact (performed_of_outcome_eq_ok houtcome).labelled hop h
  | replaceForms forms =>
    cases hd
    exact ⟨h.named, h.labels⟩
  | replaceObserver observer => contradiction
  | learnName callable name => contradiction
  | notify e =>
    cases hd
    refine h.of_grows h.named (List.prefix_refl _) rfl ?_
    show (c.stack.observer.notify e).value = _
    rw [Observer.value_notify]
    exact h.record [e]
  | clear =>
    cases hd
    refine h.of_grows h.named (List.prefix_refl _) rfl ?_
    obtain ⟨names, hlogging, -⟩ := h.labels
    show c.stack.observer.clear = c.stack.observer
    rw [hlogging]
    rfl

end Context

/-! ## The lines of the log -/

/-- The line of a record that reports an event of a stack. -/
def LogRecord.stackLine? : LogRecord → Option String
  | .message .stack line _ => some line
  | _ => none

/-- The lines of a log that report events of a stack, in order. -/
def stackLines (log : List LogRecord) : List String :=
  log.filterMap LogRecord.stackLine?

theorem stackLines_append (first second : List LogRecord) :
    stackLines (first ++ second) = stackLines first ++ stackLines second :=
  List.filterMap_append

theorem stackLines_map_inside (activity : Activity) (log : List LogRecord) :
    stackLines (log.map (LogRecord.inside activity)) = stackLines log := by
  unfold stackLines
  rw [List.filterMap_map]
  refine List.filterMap_congr fun r _ => ?_
  rcases r with _ | ⟨_ | _ | _, _, _⟩ <;> rfl

namespace Observer

theorem reports_nil (o : Observer) : o.reports [] = [] := by
  cases o <;> rfl

theorem reports_append (o : Observer) (first second : List CallEvent) :
    o.reports (first ++ second) = o.reports first ++ o.reports second := by
  cases o <;> simp [reports]

theorem stackLines_reports_logging (names : Bindings CallableId String)
    (events : List CallEvent) :
    stackLines ((Observer.logging names).reports events) =
      events.map (CallEvent.line (labelIn names)) := by
  simp [stackLines, reports, List.filterMap_map, Function.comp_def, report, LogRecord.stackLine?]

theorem events_record_newRecording (events : List CallEvent) :
    (newRecording.record events).events = events := by
  simp [newRecording, record, Observer.events]

end Observer

namespace CallStack

/-- What is logged of an operation is what the observer reports of its events. -/
theorem log_perform (s : CallStack) (op : StackOp) :
    (s.perform op).log = s.observer.reports (op.transition s.frames).events := by
  cases op with
  | move m =>
    rw [perform, move_eq_map_commit, Logged.log_map, log_commit]
    rfl
  | mark => exact s.observer.reports_nil.symm
  | restore m =>
    simp only [perform, restore, Logged.log_bind, Logged.log_pure, List.append_nil, log_commit]
    rfl

end CallStack

namespace Context

variable {c : Context}

/-- What is logged of a failure is no line of the stack. -/
theorem stackLines_withActiveCalls (c : Context) (e : Failure) :
    stackLines (c.withActiveCalls e).run.log = [] := by
  rcases c.withActiveCalls_cases e with ⟨-, h⟩ | ⟨-, ⟨-, h⟩ | ⟨-, ⟨text, -, h⟩ | ⟨-, h⟩⟩⟩ <;>
    rw [h] <;> rfl

theorem stackLines_complete (c : Context) (site : FormId) (result : Except Failure Value) :
    stackLines (c.complete site result).run.log = [] := by
  cases result with
  | ok v => rfl
  | error e =>
    rw [log_complete_error]
    exact stackLines_withActiveCalls c _

/-- Who watches has no bearing on whether an operation comes to an end. -/
theorem exists_outcome_watchedBy_eq_ok {op : ContextOp} {answer : ContextAnswer} {d : Context}
    (h : c.outcome op = .ok (answer, d)) (observer : Observer) :
    ∃ d', (c.watchedBy observer).outcome op = .ok (answer, d') := by
  have halike : Alike c (c.watchedBy observer) := ⟨rfl, rfl, rfl, rfl, rfl, rfl⟩
  have hsame : SameResult Alike (c.outcome op) ((c.watchedBy observer).outcome op) :=
    outcome_congr halike (Or.inl rfl)
  rw [h] at hsame
  generalize (c.watchedBy observer).outcome op = x at hsame
  cases hsame with
  | ok _ _ => exact ⟨_, rfl⟩

/-- The lines in the log of an operation are those of the events it causes, and while it causes
events no name changes. If it does not come to an end, they are still lines of events. -/
structure TellsLines (c : Context) (op : AccessOp) : Prop where
  ended : ∀ d, (c.access op).run.value = .ok d → ∃ events, c.told op = .ok events ∧
    stackLines (c.access op).run.log = stackLines (c.stack.observer.reports events) ∧
    (events = [] ∨ d.legend.callable = c.legend.callable)
  broken : ∀ b, (c.access op).run.value = .error b → ∃ events,
    stackLines (c.access op).run.log = stackLines (c.stack.observer.reports events)

theorem tellsLines_of_silent {op : AccessOp} (hlog : stackLines (c.access op).run.log = [])
    (htold : ∀ d, (c.access op).run.value = .ok d → c.told op = .ok []) : c.TellsLines op := by
  have hnothing : stackLines (c.stack.observer.reports []) = [] := by
    rw [Observer.reports_nil]
    rfl
  exact ⟨fun d hd => ⟨[], htold d hd, hlog.trans hnothing.symm, Or.inl rfl⟩,
    fun b _ => ⟨[], hlog.trans hnothing.symm⟩⟩

theorem tellsLines_stack (c : Context) (op : StackOp) : c.TellsLines (.perform (.stack op)) := by
  constructor
  · rintro d ⟨⟩
    refine ⟨(op.transition c.stack.frames).events, ?_, ?_, Or.inr rfl⟩
    · show Except.ok ((c.watchedBy .newRecording).stack.perform op).value.2.observer.events = _
      rw [CallStack.value_perform, CallStack.value_commit]
      exact congrArg Except.ok (Observer.events_record_newRecording _)
    · rw [← CallStack.log_perform, log_access_perform, perform, Attempt.log_run_bind_pure,
        Attempt.log_run_lift]
  · rintro b ⟨⟩

theorem outcome_call (c : Context) (scope : Scope) (site : FormId) (callable : CallableId)
    (args : List Value) :
    c.outcome (.call scope site callable args) =
      (c.call scope site callable args).run.value.map fun r => (.result r.1, r.2) :=
  Attempt.value_run_bind_pure _ _

theorem log_access_call (c : Context) (scope : Scope) (site : FormId) (callable : CallableId)
    (args : List Value) :
    (c.access (.perform (.call scope site callable args))).run.log =
      (c.call scope site callable args).run.log :=
  (c.log_access_perform _).trans (Attempt.log_run_bind_pure _ _)

/-- What is told of a call depends on the frames alone, so it is the same whoever watches. -/
theorem eventsOfCall_watchedBy (c : Context) (observer : Observer) (site : FormId)
    (callable : CallableId) :
    (c.watchedBy observer).eventsOfCall site callable = c.eventsOfCall site callable := by
  unfold eventsOfCall
  cases hp : Transition.push c.stack.frames site callable with
  | error cause =>
    rw [CallStack.push_of_transition_eq_error hp,
      CallStack.push_of_transition_eq_error (s := (c.watchedBy observer).stack) hp]
  | ok t =>
    rw [CallStack.push_of_transition_eq_ok hp,
      CallStack.push_of_transition_eq_ok (s := (c.watchedBy observer).stack) hp]
    rfl

/-- In a call the stack reports only that it is made and left. -/
theorem stackLines_call_of_eq_ok {site : FormId} {callable : CallableId} {scope : Scope}
    {args : List Value} {result : Except Failure Value} {d : Context}
    (h : (c.call scope site callable args).run.value = .ok (result, d)) :
    stackLines (c.call scope site callable args).run.log =
      stackLines (c.stack.observer.reports (c.eventsOfCall site callable)) := by
  unfold eventsOfCall
  cases hp : c.stack.push site callable with
  | error cause =>
    rw [log_call_of_push_eq_error hp, Observer.reports_nil]
    rfl
  | ok pushed =>
    rw [value_call_of_push_eq_ok hp, map_eq_ok_iff] at h
    obtain ⟨_, hresult, -⟩ := h
    rw [log_call_of_complete_eq_ok hp hresult, Transition.visit, Observer.reports_append,
      stackLines_append]
    show stackLines (List.map _ _) = _
    rw [stackLines_map_inside, stackLines_append, stackLines_append, stackLines_complete,
      List.nil_append]

/-- If it does not come to an end, the stack reports only that it is made. -/
theorem stackLines_call_of_eq_error {site : FormId} {callable : CallableId} {scope : Scope}
    {args : List Value} {b : Breakdown}
    (h : (c.call scope site callable args).run.value = .error b) :
    stackLines (c.call scope site callable args).run.log = stackLines
      (c.stack.observer.reports (Transition.enter c.stack.frames site callable).events) := by
  cases hp : c.stack.push site callable with
  | error cause =>
    rw [value_call_of_push_eq_error hp] at h
    cases h
  | ok pushed =>
    rw [value_call_of_push_eq_ok hp] at h
    cases hresult : ((c.during site callable).complete site
        ((c.during site callable).invoke scope site callable args)).run.value with
    | ok result =>
      rw [hresult] at h
      cases h
    | error b' =>
      rw [log_call_of_complete_eq_error hp hresult]
      show stackLines (List.map _ _) = _
      rw [stackLines_map_inside, stackLines_append, stackLines_complete, List.append_nil]

theorem tellsLines_call (c : Context) (scope : Scope) (site : FormId) (callable : CallableId)
    (args : List Value) : c.TellsLines (.perform (.call scope site callable args)) := by
  constructor
  · intro d hd
    rw [value_access_perform, map_eq_ok_iff] at hd
    obtain ⟨⟨answer, _⟩, houtcome, rfl⟩ := hd
    obtain ⟨d', hrecorded⟩ := exists_outcome_watchedBy_eq_ok houtcome .newRecording
    refine ⟨c.eventsOfCall site callable, ?_, ?_, ?_⟩
    · rw [told, value_access_perform, hrecorded]
      cases performed_of_outcome_eq_ok hrecorded with
      | call _ =>
        rw [eventsOfCall_watchedBy]
        exact congrArg Except.ok (Observer.events_record_newRecording _)
    · cases performed_of_outcome_eq_ok houtcome with
      | call hcall => rw [log_access_call, stackLines_call_of_eq_ok hcall]
    · cases performed_of_outcome_eq_ok houtcome with
      | call _ => exact Or.inr rfl
  · intro b hb
    rw [value_access_perform, outcome_call] at hb
    cases hcall : (c.call scope site callable args).run.value with
    | ok r =>
      rw [hcall] at hb
      cases hb
    | error b' => exact ⟨_, by rw [log_access_call, stackLines_call_of_eq_error hcall]⟩

/-- Operations that neither move the stack nor replace it are told to nobody. -/
theorem tellsLines_of_quiet {op : ContextOp} (hlog : stackLines (c.perform op).run.log = [])
    (hquiet : ∀ {answer d}, Performed (c.watchedBy .newRecording) op answer d →
      d.stack.observer = .newRecording) : c.TellsLines (.perform op) := by
  refine tellsLines_of_silent (by rwa [log_access_perform]) fun d hd => ?_
  rw [value_access_perform, map_eq_ok_iff] at hd
  obtain ⟨⟨answer, _⟩, houtcome, rfl⟩ := hd
  obtain ⟨d', hrecorded⟩ := exists_outcome_watchedBy_eq_ok houtcome .newRecording
  rw [told, value_access_perform, hrecorded]
  show Except.ok d'.stack.observer.events = _
  rw [hquiet (performed_of_outcome_eq_ok hrecorded)]
  rfl

/-- **The lines that an operation logs are those of the events it causes**, and while it causes
events no name changes. -/
theorem tellsLines_access (c : Context) {op : AccessOp} (hop : op.keepsNames = true) :
    c.TellsLines op := by
  cases op with
  | perform op =>
    cases op with
    | declare name =>
      refine tellsLines_of_quiet ?_ ?_
      · rw [perform, Attempt.log_run_bind_pure]
        rfl
      · rintro answer d ⟨hdeclare⟩
        obtain ⟨-, -, symbol, symbols, -, rfl⟩ := register_eq_ok_iff.mp hdeclare
        rfl
    | intern | addForm =>
      refine tellsLines_of_quiet ?_ ?_
      · rw [perform, Attempt.log_run_bind_pure]
        rfl
      · rintro answer d ⟨⟩
        rfl
    | stack op => exact c.tellsLines_stack op
    | replaceStack stack => contradiction
    | call scope site callable args => exact c.tellsLines_call scope site callable args
    | attach e =>
      refine tellsLines_of_quiet ?_ ?_
      · rw [perform, Attempt.log_run_bind_pure]
        exact c.stackLines_withActiveCalls e
      · rintro answer d ⟨⟩
        rfl
    | traceback => exact tellsLines_of_silent rfl fun _ _ => rfl
  | replaceObserver observer => contradiction
  | learnName callable name => contradiction
  | notify e =>
    have hlog : (c.access (.notify e)).run.log = c.stack.observer.reports [e] := by
      rw [access, Attempt.log_run_bind_pure, Attempt.log_run_lift]
      cases c.stack.observer <;> rfl
    constructor
    · rintro d ⟨⟩
      exact ⟨[e], rfl, by rw [hlog], Or.inr rfl⟩
    · rintro b ⟨⟩
  | _ => exact tellsLines_of_silent rfl fun _ _ => rfl

/-- **The log calls everything what a traceback calls it.** Take a context that was set up to log
its calls, and anything that is done with it as long as its stack and its observer stay in place
and nobody else gives names to the observer. Then the observer has for each identity, known or
not, the label that the context has. So the lines that the next operation logs are those of the
events that it causes, one by one, each with its callable called as tracebacks call it at that
moment, in the context before the operation and in the one after it. If the next operation does not
come to an end, this is still how the lines call their callables that it has logged until then. -/
theorem labels_agree (config : Config) (hconfig : config.logsCalls = true) (ops : List AccessOp)
    (hops : ∀ op ∈ ops, op.keepsNames = true) (c : Context)
    (hc : (new config).accessed ops = .ok c) :
    (∀ id, c.stack.observer.label? id = some (c.nameOf id)) ∧
    ∀ op : AccessOp, op.keepsNames = true →
      let next := (c.access op).run
      (∀ d, next.value = .ok d → ∃ events, c.told op = .ok events ∧
        stackLines next.log = events.map (CallEvent.line c.legend.callable) ∧
        stackLines next.log = events.map (CallEvent.line d.legend.callable)) ∧
      (∀ b, next.value = .error b → ∃ events : List CallEvent,
        stackLines next.log = events.map (CallEvent.line c.legend.callable)) := by
  have hlabelled : c.Labelled := by
    refine (foldlM_preserves (p := fun ops c => c.Labelled ∧ ∀ op ∈ ops, op.keepsNames = true) ?_
      hc ⟨labelled_new hconfig, hops⟩).1
    rintro op rest d d' hd ⟨hlabelled, hkeeps⟩
    obtain ⟨hop, hrest⟩ := List.forall_mem_cons.mp hkeeps
    exact ⟨access_preserves_labelled hlabelled hop hd, hrest⟩
  obtain ⟨names, hlogging, hlabels⟩ := hlabelled.labels
  have hlabel : Observer.labelIn names = c.nameOf := by
    funext id
    rw [Observer.labelIn, hlabels, nameOf]
  have hlines : ∀ events, stackLines (c.stack.observer.reports events) =
      events.map (CallEvent.line c.legend.callable) := by
    intro events
    rw [hlogging, Observer.stackLines_reports_logging, hlabel]
    rfl
  refine ⟨fun id => ?_, fun op hop => ⟨fun d hd => ?_, fun b hb => ?_⟩⟩
  · rw [hlogging, ← hlabel]
    rfl
  · obtain ⟨events, htold, hlog, hkept⟩ := (c.tellsLines_access hop).ended d hd
    rw [hlines] at hlog
    refine ⟨events, htold, hlog, ?_⟩
    rcases hkept with rfl | hsame
    · exact hlog
    · rw [hsame]
      exact hlog
  · obtain ⟨events, hlog⟩ := (c.tellsLines_access hop).broken b hb
    exact ⟨events, hlog.trans (hlines events)⟩

/-- A name that is declared twice, the empty name, and a second event that did not happen. Then a
function that is already active is called again. -/
theorem labels_agree_duplicates :
    let ops : List AccessOp :=
      [.perform (.declare "fact"), .perform (.declare ""), .perform (.declare "fact"),
        .perform (.intern "n"), .notify (.left none), .clear, .replaceForms {},
        .perform (.stack (.move (.push ⟨7⟩ ⟨3⟩)))]
    let op : AccessOp := .perform (.call .new ⟨7⟩ ⟨3⟩ [])
    ∃ c d, (new ⟨.calls⟩).accessed ops = .ok c ∧ (∀ op ∈ ops, op.keepsNames = true) ∧
      [⟨0⟩, ⟨1⟩, ⟨2⟩, ⟨3⟩, ⟨9⟩, .nil].map c.stack.observer.label? =
        [some "hash", some "fact", some "", some "fact", some "fn#9", some "fn#4294967295"] ∧
      (c.access op).run.value = .ok d ∧
      c.told op = .ok [.entered ⟨3⟩ 1 true, .left (some ⟨3⟩)] ∧
      stackLines (c.access op).run.log = ["[Stack] --> fact (repeat 1)", "[Stack] <-- fact"] := by
  intro ops op
  let c := Breakdown.resultOf ((new ⟨.calls⟩).accessed ops) (by decide +kernel)
  let d := Breakdown.resultOf (c.access op).run.value (by decide +kernel)
  have hops : ∀ op ∈ ops, op.keepsNames = true := by decide
  have hc : (new ⟨.calls⟩).accessed ops = .ok c := Breakdown.eq_ok_resultOf _ _
  have hd : (c.access op).run.value = .ok d := Breakdown.eq_ok_resultOf _ _
  have htold : (c.told op).toOption = some [.entered ⟨3⟩ 1 true, .left (some ⟨3⟩)] := by
    decide +kernel
  obtain ⟨hlabel, hlines⟩ := labels_agree ⟨.calls⟩ (by decide) ops hops c hc
  obtain ⟨events, hevents, hlog, -⟩ := (hlines op rfl).1 d hd
  rw [hevents] at htold
  obtain rfl := Option.some.inj htold
  refine ⟨c, d, hc, hops, ?_, hd, hevents, ?_⟩
  · rw [List.map_congr_left fun id _ => hlabel id]
    decide +kernel
  · rw [hlog]
    decide +kernel

end Context

end CallTrace
