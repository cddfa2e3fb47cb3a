import CallTrace.Proofs.Stack.Replay
import CallTrace.Proofs.Stack.Settle
import CallTrace.Proofs.Text.Word

/-!
# Lines tell events

The line of an event leaves out whether a call was collapsed, and it leaves out the number of
repeats where there are none. Nothing is lost by this, because a stack reports a call as collapsed
exactly if it counts repeats. All else can be read off a line: the arrow tells whether a call was
made or left, the callable is a word of its own, and the number of repeats stands behind it.

* `CallEvent.render_entered_inj`, `CallEvent.render_left_inj` — what a line tells of any event
* `StackOp.consistent` — what an operation reports is consistent, whatever the frames are
* `lines_tell_events` — so the lines of a recording tell its events
-/

namespace CallTrace

/-! ## The parts of a line -/

theorem Text.toList_toString_nat (n : Nat) : (toString n).toList = Nat.toDigits 10 n := by
  rw [Nat.toString_eq_repr, Nat.toList_repr]

/-- A number is read back from its digits. -/
theorem Text.toDigits_injective : Function.Injective (Nat.toDigits 10) := by
  intro m n h
  rw [← Nat.ofDigitChars_ten_toDigits (n := m), h, Nat.ofDigitChars_ten_toDigits]

namespace CallableId

theorem toList_render (id : CallableId) :
    id.render.toList = "fn#".toList ++ Nat.toDigits 10 id.raw.toNat := by
  rw [render, String.toList_append, Text.toList_toString_nat]

theorem render_injective : Function.Injective render := by
  rintro ⟨a⟩ ⟨b⟩ h
  rw [← String.toList_inj, toList_render, toList_render, List.append_right_inj] at h
  exact congrArg mk (UInt32.toNat_inj.mp (Text.toDigits_injective h))

theorem isWord_render (id : CallableId) : Text.IsWord id.render where
  ne_empty := by simp [render]
  not_separator := by
    have hletters : Text.IsWord "fn#" := by decide
    have hdigits : Text.IsWord (toString (id.raw.toNat : Int)) := Text.isWord_toString _
    intro c hc
    rw [toList_render, List.mem_append] at hc
    rcases hc with hc | hc
    · exact hletters.not_separator c hc
    · refine hdigits.not_separator c ?_
      rwa [Text.toList_toString_of_nonneg (Int.natCast_nonneg _), Int.toNat_natCast]

theorem render_ne_nil (id : CallableId) : id.render ≠ "nil" := by
  intro h
  rw [← String.toList_inj, toList_render] at h
  simp at h

end CallableId

namespace CallEvent

/-- What stands behind the callable in the line of a call that was made. -/
def repeatsText (repeats : UInt32) : List Char :=
  if repeats = 0 then [] else " (repeat ".toList ++ (Nat.toDigits 10 repeats.toNat ++ [')'])

theorem repeatsText_injective : Function.Injective repeatsText := by
  intro m n h
  unfold repeatsText at h
  split_ifs at h with hm hn hn
  · rw [hm, hn]
  · simp at h
  · simp at h
  · have hdigits := List.append_cancel_right (List.append_cancel_left h)
    exact UInt32.toNat_inj.mp (Text.toDigits_injective hdigits)

theorem closes_repeatsText (repeats : UInt32) : Text.Closes (repeatsText repeats) := by
  unfold repeatsText
  split
  · exact Text.closes_nil
  · exact Text.closes_cons (by decide) _

theorem toList_render_entered (callable : CallableId) (repeats : UInt32) (collapsed : Bool) :
    (entered callable repeats collapsed).render.toList =
      "[Stack] --> ".toList ++ (callable.render.toList ++ repeatsText repeats) := by
  unfold render line repeatsText
  by_cases h : repeats = 0
  · simp only [if_pos h, String.toList_append, List.append_nil]
  · simp only [if_neg h, String.toList_append, Text.toList_toString_nat, List.append_assoc]
    rfl

/-- How the line of a call that was left calls what was left. -/
def goneText : Option CallableId → String
  | some callable => callable.render
  | none => "nil"

theorem goneText_injective : Function.Injective goneText := by
  rintro (_ | callable) (_ | callable') h
  · rfl
  · exact absurd h.symm callable'.render_ne_nil
  · exact absurd h callable.render_ne_nil
  · exact congrArg some (CallableId.render_injective h)

theorem render_left (gone : Option CallableId) :
    (left gone).render = "[Stack] <-- " ++ goneText gone := by
  cases gone <;> rfl

/-! ## Lines of any events -/

variable {callable callable' : CallableId} {repeats repeats' : UInt32}
  {collapsed collapsed' : Bool} {gone gone' : Option CallableId} {e e' : CallEvent}

/-- A call that was made and one that was left never have the same line. -/
theorem render_entered_ne_render_left :
    (entered callable repeats collapsed).render ≠ (left gone).render := by
  intro h
  rw [← String.toList_inj, toList_render_entered, render_left, String.toList_append] at h
  -- the arrows point in different directions
  have harrow := congrArg (fun text => text[8]?) h
  simp at harrow

/-- The line of a call that was made tells the callable and the number of repeats. -/
theorem render_entered_inj :
    (entered callable repeats collapsed).render = (entered callable' repeats' collapsed').render ↔
      callable = callable' ∧ repeats = repeats' := by
  rw [← String.toList_inj, toList_render_entered, toList_render_entered, List.append_right_inj]
  constructor
  · intro h
    obtain ⟨hcallable, hrepeats⟩ := callable.isWord_render.append_inj callable'.isWord_render
      (closes_repeatsText repeats) (closes_repeatsText repeats') h
    exact ⟨CallableId.render_injective hcallable, repeatsText_injective hrepeats⟩
  · rintro ⟨rfl, rfl⟩
    rfl

/-- The line of a call that was left tells the callable, and whether there was one. -/
theorem render_left_inj : (left gone).render = (left gone').render ↔ gone = gone' := by
  rw [render_left, render_left, String.append_right_inj]
  exact goneText_injective.eq_iff

/-! ## Lines of consistent events -/

/-- A call is said to be collapsed exactly if it counts repeats. -/
def Consistent : CallEvent → Prop
  | .entered _ repeats collapsed => collapsed = true ↔ 0 < repeats
  | .left _ => True

/-- **The line of a consistent event tells the event.** -/
theorem render_inj_of_consistent (h : e.Consistent) (h' : e'.Consistent) :
    e.render = e'.render ↔ e = e' := by
  refine ⟨fun heq => ?_, congrArg render⟩
  cases e with
  | entered callable repeats collapsed =>
    cases e' with
    | entered callable' repeats' collapsed' =>
      obtain ⟨rfl, rfl⟩ := render_entered_inj.mp heq
      have hflags : collapsed = collapsed' := Bool.eq_iff_iff.mpr (h.trans h'.symm)
      rw [hflags]
    | left gone' => exact absurd heq render_entered_ne_render_left
  | left gone =>
    cases e' with
    | entered callable' repeats' collapsed' => exact absurd heq.symm render_entered_ne_render_left
    | left gone' => rw [render_left_inj.mp heq]

theorem map_render_inj_of_consistent {events events' : List CallEvent}
    (h : ∀ e ∈ events, e.Consistent) (h' : ∀ e ∈ events', e.Consistent) :
    events.map render = events'.map render ↔ events = events' := by
  refine ⟨fun heq => ?_, congrArg (List.map render)⟩
  induction events generalizing events' with
  | nil => exact (List.map_eq_nil_iff.mp heq.symm).symm
  | cons e events ih =>
    cases events' with
    | nil => cases heq
    | cons e' events' =>
      rw [List.map_cons, List.map_cons, List.cons.injEq] at heq
      rw [List.forall_mem_cons] at h h'
      rw [(render_inj_of_consistent h.1 h'.1).mp heq.1, ih h.2 h'.2 heq.2]

theorem Fits.consistent {entries : List Entry} (h : e.Fits entries) : e.Consistent := by
  cases e with
  | entered callable repeats collapsed => exact h.1
  | left gone => trivial

end CallEvent

/-! ## What a stack reports -/

theorem Tells.consistent {before after : List Entry} {events : List CallEvent}
    (h : Tells before events after) : ∀ e ∈ events, e.Consistent := by
  induction h with
  | nil => simp
  | cons hfits _ ih => exact List.forall_mem_cons.mpr ⟨hfits.consistent, ih⟩

theorem Transition.consistent_restore (frames : List Frame) (m : Mark) :
    ∀ e ∈ (restore frames m).events, e.Consistent := by
  have hunwind := (tells_unwind frames m.depth).consistent
  unfold restore
  by_cases hd : (unwind frames m.depth).frames.length = m.depth
  · simp only [if_pos hd]
    intro e he
    rcases List.mem_append.mp he with he | he
    · exact hunwind e he
    · -- trimming reports nothing but that a call was left
      rcases events_trimTop_cases m.topRepeats (unwind frames m.depth).frames with
        ⟨top, -, n, -, -, htrim⟩ | ⟨-, htrim⟩
      · rw [htrim, List.mem_singleton] at he
        exact he ▸ trivial
      · rw [htrim] at he
        contradiction
  · simp only [if_neg hd]
    exact hunwind

/-- **What an operation reports is consistent**, whatever the frames are. -/
theorem StackOp.consistent (frames : List Frame) (op : StackOp) :
    ∀ e ∈ (op.transition frames).events, e.Consistent := by
  cases op with
  | move m => exact (tells_move frames m).consistent
  | mark => exact List.forall_mem_nil _
  | restore m => exact Transition.consistent_restore frames m

/-! ## Recordings -/

/-- What is done with a stack while its events are kept. -/
inductive RecordingOp
  | perform (op : StackOp)
  | learnName (callable : CallableId) (name : String)
  /-- Makes the observer forget the events it has kept. -/
  | clear

namespace CallStack

/-- Does something with a stack. -/
def recordingStep (s : CallStack) : RecordingOp → StackAnswer × CallStack
  | .perform op => (s.perform op).value
  | .learnName callable name => (.done, s.learnName callable name)
  | .clear => (.done, { s with observer := s.observer.clear })

/-- A stack of some frames, after its events were kept during some operations. -/
def recording (frames : List Frame) (ops : List RecordingOp) : CallStack :=
  (runAll recordingStep ⟨frames, .newRecording⟩ ops).2

/-- All events that are kept are consistent. -/
def KeepsConsistent (s : CallStack) : Prop :=
  ∀ e ∈ s.observer.events, e.Consistent

theorem mem_events_record {o : Observer} {events : List CallEvent} {e : CallEvent}
    (h : e ∈ (o.record events).events) : e ∈ o.events ∨ e ∈ events := by
  cases o with
  | recording kept =>
    rw [Observer.events_record_recording] at h
    exact List.mem_append.mp h
  | _ => exact Or.inl h

theorem recordingStep_preserves_keepsConsistent (s : CallStack) (op : RecordingOp)
    (h : s.KeepsConsistent) : (s.recordingStep op).2.KeepsConsistent := by
  intro e he
  cases op with
  | perform op =>
    rw [recordingStep, value_perform, value_commit] at he
    rcases mem_events_record he with he | he
    · exact h e he
    · exact op.consistent s.frames e he
  | learnName callable name =>
    -- names are no events
    obtain ⟨frames, o⟩ := s
    cases o <;> exact h e he
  | clear =>
    obtain ⟨frames, o⟩ := s
    cases o with
    | recording kept => cases he
    | _ => exact h e he

theorem keepsConsistent_recording (frames : List Frame) (ops : List RecordingOp) :
    (recording frames ops).KeepsConsistent :=
  runAll_preserves recordingStep_preserves_keepsConsistent ops (List.forall_mem_nil _)

/-- **Lines tell events.** Take two recordings of any operations on any stacks, where the marks to
go back to may come from anywhere. Every call in them is collapsed exactly if it counts repeats. So
their lines are the same if and only if their events are. No line of a call that was made is that of
a call that was left, or of another callable or number of repeats. And no line is that of leaving an
empty stack but that one. -/
theorem lines_tell_events (frames frames' : List Frame) (ops ops' : List RecordingOp) :
    let recorded := (recording frames ops).observer
    let recorded' := (recording frames' ops').observer
    (∀ callable repeats collapsed, .entered callable repeats collapsed ∈ recorded.events →
      (collapsed = true ↔ 0 < repeats)) ∧
    (recorded.lines = recorded'.lines ↔ recorded.events = recorded'.events) ∧
    (∀ callable repeats collapsed gone,
      (CallEvent.entered callable repeats collapsed).render ≠ (CallEvent.left gone).render) ∧
    (∀ callable callable' repeats repeats' collapsed collapsed',
      (CallEvent.entered callable repeats collapsed).render =
          (CallEvent.entered callable' repeats' collapsed').render ↔
        callable = callable' ∧ repeats = repeats') ∧
    (∀ e : CallEvent, e.render = (CallEvent.left none).render ↔ e = .left none) := by
  intro recorded recorded'
  have hkept := keepsConsistent_recording frames ops
  have hkept' := keepsConsistent_recording frames' ops'
  refine ⟨fun callable repeats collapsed hmem => hkept _ hmem,
    CallEvent.map_render_inj_of_consistent hkept hkept',
    fun _ _ _ _ => CallEvent.render_entered_ne_render_left,
    fun _ _ _ _ _ _ => CallEvent.render_entered_inj, fun e => ?_⟩
  refine ⟨fun h => ?_, fun h => congrArg _ h⟩
  cases e with
  | entered callable repeats collapsed =>
    exact absurd h CallEvent.render_entered_ne_render_left
  | left gone => rw [CallEvent.render_left_inj.mp h]

/-- A loop was counted almost to the end. One run leaves it as a whole and begins it again; the
other goes on with it and is taken back to marks from elsewhere. -/
theorem lines_tell_events_saturated :
    let frames : List Frame := [⟨4294967294, ⟨5⟩, ⟨2⟩⟩]
    let ops : List RecordingOp :=
      [.perform (.move .pop), .clear, .perform (.move (.push ⟨2⟩ ⟨5⟩)),
        .perform (.move (.push ⟨2⟩ ⟨5⟩)), .perform (.restore ⟨1, some 0⟩)]
    let ops' : List RecordingOp :=
      [.perform (.move (.push ⟨2⟩ ⟨5⟩)), .learnName ⟨5⟩ "loop", .perform (.move (.push ⟨2⟩ ⟨5⟩)),
        .perform (.restore ⟨1, some 7⟩), .perform (.restore ⟨0, none⟩), .perform (.move .pop)]
    let recorded := (recording frames ops).observer
    let recorded' := (recording frames ops').observer
    recorded.events =
        [.entered ⟨5⟩ 0 false, .entered ⟨5⟩ 1 true, .left (some ⟨5⟩)] ∧
      recorded'.events =
        [.entered ⟨5⟩ 4294967295 true, .entered ⟨5⟩ 4294967295 true, .left (some ⟨5⟩),
          .left (some ⟨5⟩), .left none] ∧
      recorded'.lines ≠ recorded.lines ∧
      recorded'.lines = ["[Stack] --> fn#5 (repeat 4294967295)",
        "[Stack] --> fn#5 (repeat 4294967295)", "[Stack] <-- fn#5", "[Stack] <-- fn#5",
        "[Stack] <-- nil"] := by
  intro frames ops ops' recorded recorded'
  obtain ⟨-, hlines, -, -, -⟩ := lines_tell_events frames frames ops' ops
  have hevents : recorded'.events ≠ recorded.events := by decide
  exact ⟨by decide, by decide, fun h => hevents (hlines.mp h), by decide +kernel⟩

end CallStack

end CallTrace
