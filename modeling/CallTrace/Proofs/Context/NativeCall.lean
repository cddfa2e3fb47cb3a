import CallTrace.Proofs.Context.Writable
import CallTrace.Proofs.Stack.Restore

/-!
# Native calls and the stack

A native call is on the stack while the function runs and is taken off it again, in one of two
ways: a frame of its own is left, and a repeat of the frame below is taken back. Either way the
frames are then as they were. Only a failure whose traceback cannot be written down, though it is to
be logged, never comes back.

* `value_call_of_push_eq_ok` — what a call that can be made gives and leaves
* `writable_during_iff` — which active calls there are during a call
* `call_leaves_context` — whatever comes of a call, only the observer can tell that it was made
-/

namespace CallTrace

/-! ## A call made and taken back -/

namespace Transition

variable {frames : List Frame} {site : FormId} {callable : CallableId}

theorem restore_enter_frames (frames : List Frame) (site : FormId) (callable : CallableId) :
    (restore (enter frames site callable).frames (.ofFrames frames)).frames = frames :=
  restore_of_extends (enter_preserves_extends (.refl frames) site callable)

/-- What an observer is told when a call is made and taken back. -/
def visit (frames : List Frame) (site : FormId) (callable : CallableId) : List CallEvent :=
  (enter frames site callable).events ++
    (restore (enter frames site callable).frames (.ofFrames frames)).events

theorem trimTop_self (frames : List Frame) :
    trimTop (frames.head?.map Frame.repeats) frames = stay frames := by
  cases frames with
  | nil => rfl
  | cons top rest => exact trimTop_of_le (UInt32.le_refl top.repeats) rest

/-- A call with a frame of its own. -/
theorem visit_of_forall_not_isCall (h : ∀ top ∈ frames.head?, top.isCall site callable = false) :
    visit frames site callable = [.entered callable 0 false, .left (some callable)] := by
  have hback : restore (⟨0, callable, site⟩ :: frames) (.ofFrames frames) =
      ⟨frames, [.left (some callable)]⟩ := by
    have := restore_append [⟨0, callable, site⟩] frames (frames.head?.map Frame.repeats)
    rw [trimTop_self] at this
    exact this
  rw [visit, enter_of_forall_not_isCall h, hback]
  rfl

theorem restore_again (top : Frame) (rest : List Frame) :
    restore (top.again :: rest) (.ofFrames (top :: rest)) =
      trimTop (some top.repeats) (top.again :: rest) :=
  restore_append [] (top.again :: rest) (some top.repeats)

/-- A call that is counted in the frame below. -/
theorem visit_of_isCall {top : Frame} {rest : List Frame} (h : top.isCall site callable = true)
    (hmax : top.repeats ≠ 4294967295) :
    visit (top :: rest) site callable =
      [.entered callable top.again.repeats true, .left (some callable)] := by
  have hlt : top.repeats < top.again.repeats := by
    rw [UInt32.lt_iff_toNat_lt, Frame.again, Frame.toNat_nextRepeats_of_ne hmax]
    exact Nat.lt_succ_self _
  have hcallable : top.again.callable = callable := Frame.callable_of_isCall h
  rw [visit, enter_of_isCall h, restore_again, trimTop_of_lt hlt, hcallable]
  rfl

/-- A call that can be made and counted is seen to be made and left. -/
theorem exists_visit_eq
    (hmax : ∀ top ∈ frames.head?, top.isCall site callable = true → top.repeats ≠ 4294967295) :
    ∃ repeats collapsed,
      visit frames site callable = [.entered callable repeats collapsed, .left (some callable)] ∧
      (collapsed = true ↔ ∃ top ∈ frames.head?, top.isCall site callable = true) ∧
      (∀ top ∈ frames.head?, top.isCall site callable = true →
        repeats.toNat = top.repeats.toNat + 1) ∧
      (collapsed = false → repeats = 0) := by
  rcases isCall_cases frames site callable with ⟨top, rest, rfl, hcall⟩ | hnot
  · -- it is counted, and what is taken back again is the count
    have hcount := hmax top rfl hcall
    refine ⟨top.again.repeats, true, visit_of_isCall hcall hcount,
      iff_of_true rfl ⟨top, rfl, hcall⟩, ?_, Bool.noConfusion⟩
    rintro f hf -
    obtain rfl : top = f := Option.some.inj hf
    exact Frame.toNat_nextRepeats_of_ne hcount
  · -- it has a frame of its own, which is left again
    have hnone : ¬∃ top ∈ frames.head?, top.isCall site callable = true := by
      rintro ⟨top, htop, hcall⟩
      rw [hnot top htop] at hcall
      contradiction
    refine ⟨0, false, visit_of_forall_not_isCall hnot, iff_of_false Bool.noConfusion hnone, ?_,
      fun _ => rfl⟩
    intro top htop hcall
    exact absurd ⟨top, htop, hcall⟩ hnone

/-- A call that is no longer counted. Nothing is taken back, so nothing more is told. -/
theorem visit_of_saturated {top : Frame} {rest : List Frame} (h : top.isCall site callable = true)
    (hmax : top.repeats = 4294967295) :
    visit (top :: rest) site callable = [.entered callable 4294967295 true] := by
  have hagain : top.again.repeats = top.repeats := if_pos hmax
  rw [visit, enter_of_isCall h, restore_again, trimTop_of_le (hagain ▸ UInt32.le_refl _), hagain,
    hmax]
  rfl

end Transition

namespace Context

/-! ## What a call gives and leaves -/

/-- The context while a call is on its stack. -/
def during (c : Context) (site : FormId) (callable : CallableId) : Context :=
  { c with stack := (c.stack.commit (.enter c.stack.frames site callable)).value }

/-- The context after its observer was told of some events. -/
def observing (c : Context) (events : List CallEvent) : Context :=
  { c with stack := { c.stack with observer := c.stack.observer.record events } }

@[simp] theorem observing_nil (c : Context) : c.observing [] = c := by
  rw [observing, Observer.record_nil]

theorem isEmpty_stack_during (c : Context) (site : FormId) (callable : CallableId) :
    (c.during site callable).stack.isEmpty = false :=
  List.isEmpty_eq_false_iff.mpr (Transition.frames_enter_ne_nil c.stack.frames site callable)

/-- During a call the active calls are those from before and the call itself. -/
theorem writable_during_iff {c : Context} {site : FormId} {callable : CallableId} :
    (c.during site callable).Writable ↔ c.forms.Acyclic site ∧ c.Writable := by
  show (∀ f ∈ (Transition.enter c.stack.frames site callable).frames, c.forms.Acyclic f.site) ↔
    c.forms.Acyclic site ∧ ∀ f ∈ c.stack.frames, c.forms.Acyclic f.site
  rcases Transition.isCall_cases c.stack.frames site callable with ⟨top, rest, hframes, h⟩ | h
  · -- the call is counted in a frame that has the same call site
    have hsite : top.site = site := Frame.site_of_isCall h
    rw [hframes, Transition.enter_of_isCall h]
    simp only [List.forall_mem_cons, ← hsite]
    exact ⟨fun hall => ⟨hall.1, hall⟩, And.right⟩
  · rw [Transition.enter_of_forall_not_isCall h]
    exact List.forall_mem_cons

theorem value_call_of_push_eq_error {c : Context} {site : FormId} {callable : CallableId}
    {cause : PushError} (h : c.stack.push site callable = .error cause) (scope : Scope)
    (args : List Value) :
    (c.call scope site callable args).run.value = .ok (.error { fault := .push cause }, c) := by
  rw [call, h]
  rfl

/-- Making a call and taking it back only tells the observer. -/
theorem restore_during (c : Context) (site : FormId) (callable : CallableId) :
    ((c.during site callable).stack.restore c.stack.mark).value =
      { c.stack with
        observer := c.stack.observer.record (Transition.visit c.stack.frames site callable) } := by
  have hframes := Transition.restore_enter_frames c.stack.frames site callable
  have hduring : (c.during site callable).stack =
      ⟨(Transition.enter c.stack.frames site callable).frames,
        c.stack.observer.record (Transition.enter c.stack.frames site callable).events⟩ :=
    CallStack.value_commit c.stack _
  -- the observer is told twice, which is to be told once of everything
  rw [CallStack.restore, CallStack.value_commit, hduring, Observer.record_record]
  show (⟨(Transition.restore (Transition.enter c.stack.frames site callable).frames
    (.ofFrames c.stack.frames)).frames, _⟩ : CallStack) = _
  rw [hframes]
  rfl

/-- A call that can be made is on the stack when its result is completed, and is then taken off. -/
theorem call_of_push_eq_ok {c : Context} {site : FormId} {callable : CallableId}
    {pushed : Logged CallStack} (h : c.stack.push site callable = .ok pushed) (scope : Scope)
    (args : List Value) :
    c.call scope site callable args = Attempt.within (nativeCall callable) (do
      let _ ← ExceptT.lift pushed
      let result ← (c.during site callable).complete site
        ((c.during site callable).invoke scope site callable args)
      let stack ← ExceptT.lift ((c.during site callable).stack.restore c.stack.mark)
      pure (result, { c with stack })) := by
  obtain rfl := CallStack.eq_commit_of_push_eq_ok h
  rw [call, h]
  rfl

/-- It gives the completed result of the function, if it is ever completed, and leaves what its
observer can tell. -/
theorem value_call_of_push_eq_ok {c : Context} {site : FormId} {callable : CallableId}
    {pushed : Logged CallStack} (h : c.stack.push site callable = .ok pushed) (scope : Scope)
    (args : List Value) :
    (c.call scope site callable args).run.value =
      ((c.during site callable).complete site
        ((c.during site callable).invoke scope site callable args)).run.value.map
          fun result => (result, c.observing (Transition.visit c.stack.frames site callable)) := by
  rw [call_of_push_eq_ok h, Attempt.run_within, Logged.value_within]
  simp only [Attempt.value_run_bind, Attempt.value_run_lift, Attempt.value_run_pure,
    restore_during]
  cases ((c.during site callable).complete site
    ((c.during site callable).invoke scope site callable args)).run.value <;> rfl

theorem value_complete_error (c : Context) (site : FormId) (e : Failure) :
    (c.complete site (.error e)).run.value =
      (c.withActiveCalls (e.orSpan (c.forms.span? site))).run.value.map .error :=
  Attempt.value_run_bind_pure _ _

theorem log_complete_error (c : Context) (site : FormId) (e : Failure) :
    (c.complete site (.error e)).run.log =
      (c.withActiveCalls (e.orSpan (c.forms.span? site))).run.log :=
  Attempt.log_run_bind_pure _ _

theorem exists_complete_eq_ok {c : Context} (hends : c.config.logsTracebacks = true → c.Writable)
    (site : FormId) (result : Except Failure Value) :
    ∃ result', (c.complete site result).run.value = .ok result' := by
  cases result with
  | ok v => exact ⟨.ok v, rfl⟩
  | error e =>
    obtain ⟨e', he'⟩ := exists_withActiveCalls_eq_ok hends (e.orSpan (c.forms.span? site))
    exact ⟨.error e', by rw [value_complete_error, he']; rfl⟩

/-- A call gives a result, unless a traceback is to be logged that cannot be written down. -/
theorem exists_call_eq_ok {c : Context} {site : FormId}
    (hends : c.config.logsTracebacks = true → c.forms.Acyclic site ∧ c.Writable) (scope : Scope)
    (callable : CallableId) (args : List Value) :
    ∃ result d, (c.call scope site callable args).run.value = .ok (result, d) := by
  cases hp : c.stack.push site callable with
  | error cause => exact ⟨_, c, value_call_of_push_eq_error hp scope args⟩
  | ok pushed =>
    have hduring : (c.during site callable).config.logsTracebacks = true →
        (c.during site callable).Writable := fun hlogs => writable_during_iff.mpr (hends hlogs)
    obtain ⟨result, hresult⟩ := exists_complete_eq_ok hduring site
      ((c.during site callable).invoke scope site callable args)
    exact ⟨result, _, by rw [value_call_of_push_eq_ok hp, hresult]; rfl⟩

/-- What an observer is told of a call, if anything. -/
def eventsOfCall (c : Context) (site : FormId) (callable : CallableId) : List CallEvent :=
  match c.stack.push site callable with
  | .error _ => []
  | .ok _ => Transition.visit c.stack.frames site callable

theorem eq_observing_of_call_eq_ok {c d : Context} {scope : Scope} {site : FormId}
    {callable : CallableId} {args : List Value} {result : Except Failure Value}
    (h : (c.call scope site callable args).run.value = .ok (result, d)) :
    d = c.observing (c.eventsOfCall site callable) := by
  unfold eventsOfCall
  cases hp : c.stack.push site callable with
  | error cause =>
    rw [value_call_of_push_eq_error hp] at h
    cases h
    exact c.observing_nil.symm
  | ok pushed =>
    rw [value_call_of_push_eq_ok hp, map_eq_ok_iff] at h
    obtain ⟨_, -, ⟨⟩⟩ := h
    rfl

/-- **Whatever comes of a native call, everything is then as it was, but for what the observer was
told.** It is told nothing of a call that cannot be made, and otherwise that the call was made and
left, and whether it was counted in the frame that was there. Only of a call that can no longer be
counted it is not told that it was left. And something comes of it wherever the calls that are
active then can be written down, or do not have to be. -/
theorem call_leaves_context (c : Context) (scope : Scope) (site : FormId) (callable : CallableId)
    (args : List Value) :
    ∃ events,
      (∀ result d, (c.call scope site callable args).run.value = .ok (result, d) →
        d = c.observing events) ∧
      ((c.config.logsTracebacks = true → c.forms.Acyclic site ∧ c.Writable) →
        ∃ result, (c.call scope site callable args).run.value =
          .ok (result, c.observing events)) ∧
      (∀ cause, c.stack.push site callable = .error cause → events = []) ∧
      (∀ pushed, c.stack.push site callable = .ok pushed →
        (∀ top ∈ c.stack.top?, top.isCall site callable = true → top.repeats ≠ 4294967295) →
        ∃ repeats collapsed,
          events = [.entered callable repeats collapsed, .left (some callable)] ∧
          (collapsed = true ↔ ∃ top ∈ c.stack.top?, top.isCall site callable = true) ∧
          (∀ top ∈ c.stack.top?, top.isCall site callable = true →
            repeats.toNat = top.repeats.toNat + 1) ∧
          (collapsed = false → repeats = 0)) ∧
      (∀ pushed, c.stack.push site callable = .ok pushed →
        ∀ top ∈ c.stack.top?, top.isCall site callable = true → top.repeats = 4294967295 →
          events = [.entered callable 4294967295 true]) := by
  refine ⟨c.eventsOfCall site callable, fun _ _ => eq_observing_of_call_eq_ok, ?_, ?_, ?_, ?_⟩
  · intro hends
    obtain ⟨result, d, hcall⟩ := exists_call_eq_ok hends scope callable args
    exact ⟨result, eq_observing_of_call_eq_ok hcall ▸ hcall⟩
  · intro cause hp
    rw [eventsOfCall, hp]
  · intro pushed hp hmax
    rw [eventsOfCall, hp]
    exact Transition.exists_visit_eq hmax
  · intro pushed hp top htop hcall hmax
    obtain ⟨rest, hframes⟩ := List.head?_eq_some_iff.mp htop
    rw [eventsOfCall, hp, hframes]
    exact Transition.visit_of_saturated hcall hmax

end Context

end CallTrace
