import CallTrace.Proofs.Context.Reachable

/-!
# Failures on their way out

A failure passes through one context after the other, or through one context whose stack gets
shorter and shorter, and each time it may be given the calls that are active. The first ones it is
given are the innermost, so they must stay, and they should be logged just once, however far out
the failure goes. If they are to be logged and cannot be written down, it gets no further.

* `passThrough_of_forall` — a failure that no context has anything to add to stays as it is
* `passThrough_of_first_active` — otherwise all depends on the first context with active calls
* `innermost_traceback_wins` — so the traceback of that one stays, and no other is logged
-/

namespace CallTrace

/-- The part of the program that a record comes from. -/
def LogRecord.target : LogRecord → LogTarget
  | .began activity => activity.target
  | .message target _ _ => target

/-- The number of tracebacks in a log. -/
def tracebackCount (log : List LogRecord) : Nat :=
  log.countP fun r => r.target = .traceback

/-! ## One context -/

namespace Context

variable {c : Context} {e : Failure}

theorem tracebackCount_withActiveCalls (he : e.traceback = none) (hc : c.stack.isEmpty = false)
    (hends : c.config.logsTracebacks = true → c.Writable) :
    tracebackCount (c.withActiveCalls e).run.log = if c.config.logsTracebacks then 1 else 0 := by
  cases hlogs : c.config.logsTracebacks with
  | false =>
    rw [withActiveCalls_of_silent he hc hlogs]
    rfl
  | true =>
    obtain ⟨text, htext⟩ := exists_render_traceback_iff.mpr (hends hlogs)
    rw [run_withActiveCalls_of_render he hc hlogs htext]
    rfl

end Context

/-! ## Any number of contexts -/

namespace Failure

/-- Passes a failure through some contexts, in order, each of which may give it its active calls. -/
def passThrough (e : Failure) (cs : List Context) : Attempt Failure :=
  cs.foldlM (fun e c => c.withActiveCalls e) e

variable {e : Failure} {cs : List Context}

theorem passThrough_cons (e : Failure) (c : Context) (cs : List Context) :
    e.passThrough (c :: cs) = c.withActiveCalls e >>= fun e => e.passThrough cs :=
  List.foldlM_cons

theorem passThrough_append (e : Failure) (first second : List Context) :
    e.passThrough (first ++ second) = e.passThrough first >>= fun e => e.passThrough second :=
  List.foldlM_append

/-- A failure that no context has anything to add to stays as it is, and nothing is logged. -/
theorem passThrough_of_forall (h : ∀ c ∈ cs, c.withActiveCalls e = pure e) :
    e.passThrough cs = pure e := by
  induction cs with
  | nil => rfl
  | cons c rest ih =>
    obtain ⟨hc, hrest⟩ := List.forall_mem_cons.mp h
    rw [passThrough_cons, hc, pure_bind]
    exact ih hrest

/-- **It all depends on the first context with active calls.** Those before it have nothing to add,
and those after it come too late. -/
theorem passThrough_of_first_active {before : List Context} {c : Context}
    (hbefore : ∀ b ∈ before, b.stack.isEmpty = true) (hc : c.stack.isEmpty = false)
    (later : List Context) : e.passThrough (before ++ c :: later) = c.withActiveCalls e := by
  have hbefore' : e.passThrough before = pure e :=
    passThrough_of_forall fun b hb => Context.withActiveCalls_of_isEmpty (hbefore b hb) e
  rw [passThrough_append, hbefore', pure_bind, passThrough_cons]
  refine Attempt.bind_eq_self fun e' he' => passThrough_of_forall fun d _ => ?_
  exact Context.withActiveCalls_of_isSome (Context.isSome_of_withActiveCalls_eq_ok hc he') d

/-- **The innermost traceback wins, and is logged once.** A failure that has a traceback, even an
empty one, is passed through any contexts as it is, and nothing is logged. So is one without a
traceback if there are no active calls at all. Otherwise it gets the calls that are active in the
first context that has any, and is else as it was. They are logged once if that context is to log
tracebacks; the contexts after it, whatever they are to log, neither replace nor log anything. Only
if they are to be logged, and from one of their call sites a cycle is reached, the failure does not
come through, and there is no record of it either. -/
theorem innermost_traceback_wins (e : Failure) (cs : List Context) :
    let passed := (e.passThrough cs).run
    (∀ t, e.traceback = some t → passed.value = .ok e ∧ tracebackCount passed.log = 0) ∧
    (e.traceback = none → (∀ c ∈ cs, c.stack.isEmpty = true) →
      passed.value = .ok e ∧ tracebackCount passed.log = 0) ∧
    (e.traceback = none → ∀ before c later, cs = before ++ c :: later →
      (∀ b ∈ before, b.stack.isEmpty = true) → c.stack.isEmpty = false →
      ((c.config.diagnostics.contains .tracebacks = true → c.Writable) →
        passed.value = .ok { e with traceback := some ⟨c.stack.frames.reverse⟩ } ∧
        tracebackCount passed.log =
          if c.config.diagnostics.contains .tracebacks then 1 else 0) ∧
      (c.config.diagnostics.contains .tracebacks = true → ¬c.Writable →
        passed.value = .error .endless ∧ tracebackCount passed.log = 0)) := by
  intro passed
  refine ⟨fun t ht => ?_, fun he hcs => ?_, fun he before c later hcs hbefore hc => ?_⟩
  · have hpassed : e.passThrough cs = pure e :=
      passThrough_of_forall fun c _ => Context.withActiveCalls_of_isSome (by simp [ht]) c
    simp only [passed, hpassed]
    exact ⟨rfl, rfl⟩
  · have hpassed : e.passThrough cs = pure e :=
      passThrough_of_forall fun c hc => Context.withActiveCalls_of_isEmpty (hcs c hc) e
    simp only [passed, hpassed]
    exact ⟨rfl, rfl⟩
  · subst hcs
    have hpassed : passed = (c.withActiveCalls e).run :=
      congrArg ExceptT.run (passThrough_of_first_active hbefore hc later)
    rw [hpassed]
    constructor
    · intro hends
      exact ⟨Context.value_withActiveCalls_of_ends he hc hends,
        Context.tracebackCount_withActiveCalls he hc hends⟩
    · intro hlogs hwrite
      rw [Context.run_withActiveCalls_of_endless he hc hlogs hwrite]
      exact ⟨rfl, rfl⟩

/-- A failure is passed through a context without active calls, then through one with two of them,
then through one where the inner of these has been left. The last two would both log it. Another
failure already has a traceback, though an empty one. -/
theorem innermost_traceback_wins_outer_calls :
    let e : Failure := { fault := .notCallable "f", span := some ⟨3, 9⟩ }
    let kept : Failure := { e with traceback := some ⟨[]⟩ }
    ∃ idle inner outer : Context, (idle.Reachable ∧ inner.Reachable ∧ outer.Reachable) ∧
      inner.config.logsTracebacks = true ∧ outer.config.logsTracebacks = true ∧
      inner.Writable ∧ outer.stack.isEmpty = false ∧
      (e.passThrough [idle, inner, outer]).run.value =
        .ok { e with traceback := some ⟨[⟨0, ⟨0⟩, ⟨1⟩⟩, ⟨0, ⟨0⟩, ⟨2⟩⟩]⟩ } ∧
      tracebackCount (e.passThrough [idle, inner, outer]).run.log = 1 ∧
      (kept.passThrough [idle, inner, outer]).run.value = .ok kept ∧
      tracebackCount (kept.passThrough [idle, inner, outer]).run.log = 0 := by
  intro e kept
  let idle := Context.new ⟨.none⟩
  let inner := Breakdown.resultOf ((Context.new ⟨.all⟩).after
    [.stack (.move (.push ⟨1⟩ ⟨0⟩)), .stack (.move (.push ⟨2⟩ ⟨0⟩))]) (by decide +kernel)
  let outer := Breakdown.resultOf ((Context.new ⟨.all⟩).after
    [.stack (.move (.push ⟨1⟩ ⟨0⟩)), .stack (.move (.push ⟨2⟩ ⟨0⟩)), .stack (.move .pop)])
    (by decide +kernel)
  have hidle : ∀ b ∈ [idle], b.stack.isEmpty = true := by
    intro b hb
    obtain rfl := List.mem_singleton.mp hb
    decide +kernel
  have htext : (inner.stack.traceback.render inner.legend).isSome = true := by decide +kernel
  have hwrite : inner.Writable :=
    Context.exists_render_traceback_iff.mp (Option.isSome_iff_exists.mp htext)
  have hframes : inner.stack.frames = [⟨0, ⟨0⟩, ⟨2⟩⟩, ⟨0, ⟨0⟩, ⟨1⟩⟩] := by decide +kernel
  have hlogs : inner.config.diagnostics.contains .tracebacks = true := by decide +kernel
  obtain ⟨-, -, hactive⟩ := innermost_traceback_wins e [idle, inner, outer]
  obtain ⟨hvalue, hcount⟩ :=
    (hactive rfl [idle] inner [outer] rfl hidle (by decide +kernel)).1 fun _ => hwrite
  obtain ⟨hkept, -, -⟩ := innermost_traceback_wins kept [idle, inner, outer]
  rw [hframes] at hvalue
  rw [if_pos hlogs] at hcount
  exact ⟨idle, inner, outer,
    ⟨⟨_, [], rfl⟩, ⟨_, _, Breakdown.eq_ok_resultOf _ _⟩, ⟨_, _, Breakdown.eq_ok_resultOf _ _⟩⟩,
    hlogs, by decide +kernel, hwrite, by decide +kernel, hvalue, hcount, hkept ⟨[]⟩ rfl⟩

/-- A failure is passed through a context that logs tracebacks, where a call is active whose call
site is a list that holds itself. It does not come through, and no record of it is written. -/
theorem innermost_traceback_wins_self_containing :
    let e : Failure := { fault := .custom "boom" }
    ∃ c, (Context.new ⟨.tracebacks⟩).after
        [.addForm (.list [⟨0⟩]) ⟨0, 3⟩, .stack (.move (.push ⟨0⟩ ⟨0⟩))] = .ok c ∧
      c.stack.isEmpty = false ∧ c.config.diagnostics.contains .tracebacks = true ∧
      (¬∃ e', (e.passThrough [c]).run.value = .ok e') ∧
      tracebackCount (e.passThrough [c]).run.log ≠ 1 := by
  intro e
  let c := Breakdown.resultOf ((Context.new ⟨.tracebacks⟩).after
    [.addForm (.list [⟨0⟩]) ⟨0, 3⟩, .stack (.move (.push ⟨0⟩ ⟨0⟩))]) (by decide +kernel)
  have hnone : (e.passThrough [c]).run.value.isOk = false := by decide +kernel
  refine ⟨c, Breakdown.eq_ok_resultOf _ _, by decide +kernel, by decide +kernel, ?_,
    by decide +kernel⟩
  rintro ⟨e', he'⟩
  rw [he'] at hnone
  cases hnone

end Failure

end CallTrace
