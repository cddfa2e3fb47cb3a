import CallTrace.Context.Call
import CallTrace.Proofs.Form.Ending

/-!
# Active calls that can be written down

A traceback shows the source text of every call site. A list that is reached from itself has no such
text, so a traceback with such a call site cannot be written down, and to log it is to break down.
Where it is only carried by a failure this does no harm.

* `Traceback.exists_render_iff` — a traceback has a text exactly if all its call sites have one
* `exists_render_traceback_iff` — these are the call sites from which no cycle is reached
* `value_withActiveCalls_of_ends`, `run_withActiveCalls_of_endless` — a failure gets the active
  calls, unless they are to be logged and cannot be
* `withActiveCalls_cases` — all that can come of it
-/

namespace CallTrace

/-! ## Texts of tracebacks -/

theorem Traceback.exists_renderFrom_iff (legend : Legend) (start : Nat) (frames : List Frame) :
    (∃ text, renderFrom legend start frames = some text) ↔
      ∀ f ∈ frames, ∃ caller, legend.site f.site = some caller := by
  induction frames generalizing start with
  | nil => simp [renderFrom]
  | cons f rest ih =>
    rw [List.forall_mem_cons, ← ih (start + 1)]
    simp only [renderFrom, Frame.render, Option.bind_eq_bind, Option.bind_eq_some_iff,
      Option.map_eq_some_iff]
    constructor
    · rintro ⟨text, _, ⟨caller, hcaller, -⟩, lines, hlines, -⟩
      exact ⟨⟨caller, hcaller⟩, lines, hlines⟩
    · rintro ⟨⟨caller, hcaller⟩, lines, hlines⟩
      exact ⟨_, _, ⟨caller, hcaller, rfl⟩, lines, hlines, rfl⟩

/-- **A traceback has a text exactly if all its call sites have one.** -/
theorem Traceback.exists_render_iff {legend : Legend} {t : Traceback} :
    (∃ text, t.render legend = some text) ↔
      ∀ f ∈ t.frames, ∃ caller, legend.site f.site = some caller := by
  rw [← exists_renderFrom_iff legend 0, render]
  split
  · next hempty => simp [List.isEmpty_iff.mp hempty, renderFrom]
  · simp [Option.map_eq_some_iff]

namespace Context

variable {c : Context} {e : Failure}

theorem exists_sourceOf_iff {site : FormId} :
    (∃ text, c.legend.site site = some text) ↔ c.forms.Acyclic site :=
  FormStore.exists_render_iff

/-- From none of the call sites of the active calls a cycle is reached, so these calls can be
written down. -/
def Writable (c : Context) : Prop :=
  ∀ f ∈ c.stack.frames, c.forms.Acyclic f.site

theorem exists_render_traceback_iff :
    (∃ text, c.stack.traceback.render c.legend = some text) ↔ c.Writable := by
  rw [Traceback.exists_render_iff, CallStack.traceback, Writable]
  simp only [List.mem_reverse, exists_sourceOf_iff]

/-! ## Failures that get the active calls -/

theorem withActiveCalls_of_isSome (h : e.traceback.isSome = true) (c : Context) :
    c.withActiveCalls e = pure e := by
  simp [withActiveCalls, h]

theorem withActiveCalls_of_isEmpty (h : c.stack.isEmpty = true) (e : Failure) :
    c.withActiveCalls e = pure e := by
  simp [withActiveCalls, h]

/-- A failure without a traceback is given one where calls are active. -/
theorem withActiveCalls_of_silent (he : e.traceback = none) (hc : c.stack.isEmpty = false)
    (hlogs : c.config.logsTracebacks = false) :
    c.withActiveCalls e = pure { e with traceback := some c.stack.traceback } := by
  simp [withActiveCalls, Failure.withTraceback, he, hc, hlogs]

/-- Where it is to be logged its text is. -/
theorem run_withActiveCalls_of_render (he : e.traceback = none) (hc : c.stack.isEmpty = false)
    (hlogs : c.config.logsTracebacks = true) {text : String}
    (htext : c.stack.traceback.render c.legend = some text) :
    (c.withActiveCalls e).run = ⟨.ok { e with traceback := some c.stack.traceback },
      [.message .traceback (e.message ++ "\n" ++ text) []]⟩ := by
  simp only [withActiveCalls, Failure.withTraceback, he, hc, hlogs, htext]
  rfl

/-- If it has no text, to log it does not end. -/
theorem run_withActiveCalls_of_endless (he : e.traceback = none) (hc : c.stack.isEmpty = false)
    (hlogs : c.config.logsTracebacks = true) (hnot : ¬c.Writable) :
    (c.withActiveCalls e).run = ⟨.error .endless, []⟩ := by
  have hnone : c.stack.traceback.render c.legend = none := by
    rw [Option.eq_none_iff_forall_ne_some]
    exact fun text htext => hnot (exists_render_traceback_iff.mp ⟨text, htext⟩)
  simp only [withActiveCalls, he, hc, hlogs, hnone]
  rfl

/-- **A failure is given the active calls, unless they are to be logged and cannot be.** -/
theorem value_withActiveCalls_of_ends (he : e.traceback = none) (hc : c.stack.isEmpty = false)
    (hends : c.config.logsTracebacks = true → c.Writable) :
    (c.withActiveCalls e).run.value = .ok { e with traceback := some c.stack.traceback } := by
  cases hlogs : c.config.logsTracebacks with
  | false =>
    rw [withActiveCalls_of_silent he hc hlogs]
    rfl
  | true =>
    obtain ⟨text, htext⟩ := exists_render_traceback_iff.mpr (hends hlogs)
    rw [run_withActiveCalls_of_render he hc hlogs htext]

/-- All that can come of it: there is nothing to add, or the active calls are added without a
record, or with one, or there is no end to the record. -/
theorem withActiveCalls_cases (c : Context) (e : Failure) :
    (e.traceback.isSome = true ∨ c.stack.isEmpty = true) ∧ c.withActiveCalls e = pure e ∨
    (e.traceback = none ∧ c.stack.isEmpty = false) ∧
      (c.config.logsTracebacks = false ∧
          c.withActiveCalls e = pure { e with traceback := some c.stack.traceback } ∨
        c.config.logsTracebacks = true ∧
          ((∃ text, c.stack.traceback.render c.legend = some text ∧
              (c.withActiveCalls e).run = ⟨.ok { e with traceback := some c.stack.traceback },
                [.message .traceback (e.message ++ "\n" ++ text) []]⟩) ∨
            ¬c.Writable ∧ (c.withActiveCalls e).run = ⟨.error .endless, []⟩)) := by
  cases he : e.traceback with
  | some t =>
    exact Or.inl ⟨Or.inl rfl, withActiveCalls_of_isSome (by rw [he]; rfl) c⟩
  | none =>
    cases hc : c.stack.isEmpty with
    | true => exact Or.inl ⟨Or.inr rfl, withActiveCalls_of_isEmpty hc e⟩
    | false =>
      refine Or.inr ⟨⟨rfl, rfl⟩, ?_⟩
      cases hlogs : c.config.logsTracebacks with
      | false => exact Or.inl ⟨rfl, withActiveCalls_of_silent he hc hlogs⟩
      | true =>
        refine Or.inr ⟨rfl, ?_⟩
        by_cases hwrite : c.Writable
        · obtain ⟨text, htext⟩ := exists_render_traceback_iff.mpr hwrite
          exact Or.inl ⟨text, htext, run_withActiveCalls_of_render he hc hlogs htext⟩
        · exact Or.inr ⟨hwrite, run_withActiveCalls_of_endless he hc hlogs hwrite⟩

theorem exists_withActiveCalls_eq_ok (hends : c.config.logsTracebacks = true → c.Writable)
    (e : Failure) : ∃ e', (c.withActiveCalls e).run.value = .ok e' := by
  rcases c.withActiveCalls_cases e with ⟨-, h⟩ | ⟨-, ⟨-, h⟩ | ⟨hlogs, ⟨text, -, h⟩ | ⟨hwrite, -⟩⟩⟩
  · exact ⟨_, by rw [h]; rfl⟩
  · exact ⟨_, by rw [h]; rfl⟩
  · exact ⟨_, by rw [h]⟩
  · exact absurd (hends hlogs) hwrite

/-- Where calls are active, a failure that is passed on has a traceback. -/
theorem isSome_of_withActiveCalls_eq_ok {e' : Failure} (hc : c.stack.isEmpty = false)
    (he' : (c.withActiveCalls e).run.value = .ok e') : e'.traceback.isSome = true := by
  rcases c.withActiveCalls_cases e with
    ⟨hnothing, h⟩ | ⟨-, ⟨-, h⟩ | ⟨-, ⟨text, -, h⟩ | ⟨-, h⟩⟩⟩ <;> rw [h] at he' <;> cases he'
  · exact hnothing.resolve_right (by rw [hc]; exact Bool.false_ne_true)
  · rfl
  · rfl

end Context

end CallTrace
