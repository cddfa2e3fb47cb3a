import CallTrace.Proofs.Stack.Operation

/-!
# Going back to a mark

A mark holds two numbers and no frames. That is enough, because of what the operations in between
can do as long as they never leave fewer frames than the mark counted: the frames below the
innermost one stay as they are, and the innermost one is at most repeated more often. This is the
relation `Extends`, which every operation preserves.

* `restore_of_extends` — going back brings exactly the marked frames
* `frames_restore_mark` — so it does after any operations that stay above the mark
-/

namespace CallTrace

/-! ## What going back does -/

namespace Transition

theorem unwind_append (newer older : List Frame) :
    unwind (newer ++ older) older.length =
      ⟨older, newer.map fun f => .left (some f.callable)⟩ := by
  simp only [unwind_eq, List.length_append, Nat.add_sub_cancel, List.drop_left, List.take_left]

/-- Going back to a mark leaves the frames above it, one after the other, and trims the innermost
of the others. -/
theorem restore_append (newer older : List Frame) (saved : Option UInt32) :
    restore (newer ++ older) ⟨older.length, saved⟩ =
      ⟨(trimTop saved older).frames,
        newer.map (fun f => .left (some f.callable)) ++ (trimTop saved older).events⟩ := by
  unfold restore
  simp only [unwind_append, if_pos, andThen]

end Transition

/-! ## Frames that extend others -/

/-- The second frames are the first, but that the innermost call may be repeated more often. -/
inductive Deepened : List Frame → List Frame → Prop
  | nil : Deepened [] []
  | cons (top : Frame) (rest : List Frame) {n : UInt32} (h : top.repeats ≤ n) :
      Deepened (top :: rest) ({ top with repeats := n } :: rest)

namespace Deepened

variable {base older : List Frame}

theorem refl : ∀ base : List Frame, Deepened base base
  | [] => .nil
  | top :: rest => .cons top rest (UInt32.le_refl top.repeats)

theorem length_eq (h : Deepened base older) : older.length = base.length := by
  cases h <;> rfl

end Deepened

/-- Below some newer frames there are those of `base`, but that its innermost call may be repeated
more often. -/
def Extends (base frames : List Frame) : Prop :=
  ∃ newer older, frames = newer ++ older ∧ Deepened base older

/-- A mark that could have been taken above `base`: it counts no fewer frames, and if it counts as
many, then no fewer repeats of the innermost call. -/
def MarksAbove (base : List Frame) (m : Mark) : Prop :=
  base.length ≤ m.depth ∧
    (m.depth = base.length → ∀ top ∈ base.head?, ∀ n ∈ m.topRepeats, top.repeats ≤ n)

section

variable {base frames : List Frame}

theorem Extends.refl (base : List Frame) : Extends base base :=
  ⟨[], base, rfl, .refl base⟩

theorem Extends.length_le (h : Extends base frames) : base.length ≤ frames.length := by
  obtain ⟨newer, older, rfl, hd⟩ := h
  rw [List.length_append, hd.length_eq]
  omega

theorem marksAbove_ofFrames (h : Extends base frames) : MarksAbove base (Mark.ofFrames frames) := by
  refine ⟨h.length_le, ?_⟩
  intro hdepth top htop n hn
  obtain ⟨newer, older, rfl, hd⟩ := h
  have hnil : newer = [] := by
    have hlen : (newer ++ older).length = base.length := hdepth
    rw [List.length_append, hd.length_eq] at hlen
    exact List.length_eq_zero_iff.mp (by omega)
  subst hnil
  cases hd with
  | nil => cases htop
  | cons top rest hk =>
    cases htop
    cases hn
    exact hk

/-! ## Every operation preserves it -/

/-- The innermost call may be counted anew, though not below what `base` counts of it. -/
theorem setTop_preserves_extends {top : Frame} {rest : List Frame} (h : Extends base (top :: rest))
    {n : UInt32} (hn : (top :: rest).length = base.length → ∀ f ∈ base.head?, f.repeats ≤ n) :
    Extends base ({ top with repeats := n } :: rest) := by
  obtain ⟨newer, older, hframes, hd⟩ := h
  cases newer with
  | cons g newer =>
    obtain ⟨rfl, rfl⟩ := List.cons.inj hframes
    exact ⟨{ top with repeats := n } :: newer, older, rfl, hd⟩
  | nil =>
    -- nothing is newer than `base`, so the frame to count anew is its innermost
    have hlen : (top :: rest).length = base.length := by rw [hframes]; exact hd.length_eq
    cases hd with
    | nil => cases hframes
    | cons f rest' hk =>
      obtain ⟨rfl, rfl⟩ := List.cons.inj hframes
      exact ⟨[], _, rfl, .cons f rest (hn hlen f rfl)⟩

theorem enter_preserves_extends (h : Extends base frames) (site : FormId) (callable : CallableId) :
    Extends base (Transition.enter frames site callable).frames := by
  rcases Transition.isCall_cases frames site callable with ⟨top, rest, rfl, hcall⟩ | hnot
  · rw [Transition.enter_of_isCall hcall]
    refine setTop_preserves_extends h fun hlen f hf => ?_
    have hle : f.repeats ≤ top.repeats := (marksAbove_ofFrames h).2 hlen f hf top.repeats rfl
    exact UInt32.le_trans hle (Frame.le_nextRepeats top.repeats)
  · rw [Transition.enter_of_forall_not_isCall hnot]
    obtain ⟨newer, older, rfl, hd⟩ := h
    exact ⟨⟨0, callable, site⟩ :: newer, older, rfl, hd⟩

theorem drop_preserves_extends (h : Extends base frames) {k : Nat}
    (hlen : base.length ≤ (frames.drop k).length) : Extends base (frames.drop k) := by
  obtain ⟨newer, older, rfl, hd⟩ := h
  have hold : older.length = base.length := hd.length_eq
  rw [List.length_drop, List.length_append] at hlen
  refine ⟨newer.drop k, older, ?_, hd⟩
  rw [List.drop_append]
  by_cases hk : k ≤ newer.length
  · rw [Nat.sub_eq_zero_of_le hk, List.drop_zero]
  · -- more is dropped than there are newer frames, so there was nothing below them
    have hnil : older = [] := List.length_eq_zero_iff.mp (by omega)
    rw [hnil, List.drop_nil]

theorem trimTop_preserves_extends (h : Extends base frames) {saved : Option UInt32}
    (hsaved : frames.length = base.length → ∀ top ∈ base.head?, ∀ n ∈ saved, top.repeats ≤ n) :
    Extends base (Transition.trimTop saved frames).frames := by
  cases frames with
  | nil => exact h
  | cons f rest =>
    cases saved with
    | none => exact h
    | some n =>
      by_cases hle : f.repeats ≤ n
      · rw [Transition.trimTop_of_le hle]
        exact h
      · rw [Transition.trimTop_of_lt (UInt32.not_le.mp hle)]
        exact setTop_preserves_extends h fun hlen top htop => hsaved hlen top htop n rfl

theorem restore_preserves_extends (h : Extends base frames) {m : Mark} (hm : MarksAbove base m) :
    Extends base (Transition.restore frames m).frames := by
  have hlen : (Transition.unwind frames m.depth).frames.length = min frames.length m.depth :=
    Transition.length_unwind frames m.depth
  have hunwound : Extends base (Transition.unwind frames m.depth).frames := by
    have hle : base.length ≤ (Transition.unwind frames m.depth).frames.length := by
      have := h.length_le
      have := hm.1
      omega
    rw [Transition.unwind_eq] at hle ⊢
    exact drop_preserves_extends h hle
  unfold Transition.restore
  by_cases hd : (Transition.unwind frames m.depth).frames.length = m.depth
  · simp only [if_pos hd]
    exact trimTop_preserves_extends hunwound fun he => hm.2 (hd ▸ he)
  · simp only [if_neg hd]
    exact hunwound

/-- A move that leaves at least as many frames as there are in `base` leaves them there. -/
theorem move_preserves_extends (h : Extends base frames) (m : StackMove)
    (hlen : base.length ≤ (m.transition frames).frames.length) :
    Extends base (m.transition frames).frames := by
  cases m with
  | push site callable =>
    unfold StackMove.transition
    rcases Transition.push_cases frames site callable with ⟨-, hp⟩ | ⟨-, -, hp⟩ | ⟨-, -, hp⟩
    · simp only [hp]
      exact h
    · simp only [hp]
      exact h
    · simp only [hp]
      exact enter_preserves_extends h site callable
  | pop =>
    cases frames with
    | nil => exact h
    | cons top rest => exact drop_preserves_extends (k := 1) h hlen
  | unwind depth =>
    rw [StackMove.transition, Transition.unwind_eq] at hlen ⊢
    exact drop_preserves_extends h hlen

/-- **Going back to the mark of frames that are still below brings exactly those frames.** -/
theorem restore_of_extends (h : Extends base frames) :
    (Transition.restore frames (Mark.ofFrames base)).frames = base := by
  obtain ⟨newer, older, rfl, hd⟩ := h
  have hmark : Mark.ofFrames base = ⟨older.length, base.head?.map Frame.repeats⟩ := by
    rw [hd.length_eq]
    rfl
  rw [hmark, Transition.restore_append]
  cases hd with
  | nil => rfl
  | @cons top rest n hn =>
    show (Transition.trimTop (some top.repeats) ({ top with repeats := n } :: rest)).frames = _
    by_cases hlt : top.repeats < n
    · rw [Transition.trimTop_of_lt hlt]
    · have he : n = top.repeats := UInt32.le_antisymm (UInt32.not_lt.mp hlt) hn
      rw [he, Transition.trimTop_of_le (UInt32.le_refl top.repeats)]
      rfl

end

/-! ## Runs that stay above a mark -/

namespace StackOp

/-- An operation that goes back, if it does, to one of the marks `taken`. -/
def UsesOnly (taken : List Mark) : StackOp → Prop
  | .restore m => m ∈ taken
  | _ => True

/-- The marks there are after an operation on `frames`, with those that were `taken` before. -/
def marksAfter (frames : List Frame) (taken : List Mark) : StackOp → List Mark
  | .mark => .ofFrames frames :: taken
  | _ => taken

instance (taken : List Mark) : (op : StackOp) → Decidable (op.UsesOnly taken)
  | .restore m => inferInstanceAs (Decidable (m ∈ taken))
  | .move _ => isTrue trivial
  | .mark => isTrue trivial

/-- An operation that uses only marks above `base` and leaves enough frames preserves `Extends`. -/
theorem preserves_extends {base frames : List Frame} {taken : List Mark}
    (h : Extends base frames) (htaken : ∀ m ∈ taken, MarksAbove base m) (op : StackOp)
    (hop : op.UsesOnly taken) (hlen : base.length ≤ (op.transition frames).frames.length) :
    Extends base (op.transition frames).frames := by
  cases op with
  | move m => exact move_preserves_extends h m hlen
  | mark => exact h
  | restore m => exact restore_preserves_extends h (htaken m hop)

theorem marksAbove_marksAfter {base frames : List Frame} {taken : List Mark}
    (h : Extends base frames) (htaken : ∀ m ∈ taken, MarksAbove base m) (op : StackOp) :
    ∀ m ∈ op.marksAfter frames taken, MarksAbove base m := by
  cases op with
  | move => exact htaken
  | restore => exact htaken
  | mark =>
    intro m hm
    rcases List.mem_cons.mp hm with rfl | hm
    · exact marksAbove_ofFrames h
    · exact htaken m hm

end StackOp

/-- Operations on a stack that stay above a mark of depth `depth`: no single one of them leaves
fewer frames, and none goes back to a mark that is neither `taken` nor taken on the way. -/
def StaysAbove (depth : Nat) : List Mark → CallStack → List StackOp → Prop
  | _, _, [] => True
  | taken, s, op :: rest =>
    op.UsesOnly taken ∧ depth ≤ (s.perform op).value.2.depth ∧
      StaysAbove depth (op.marksAfter s.frames taken) (s.perform op).value.2 rest

instance StaysAbove.decidable (depth : Nat) :
    (taken : List Mark) → (s : CallStack) → (ops : List StackOp) →
      Decidable (StaysAbove depth taken s ops)
  | _, _, [] => isTrue trivial
  | taken, s, op :: rest =>
    have := decidable depth (op.marksAfter s.frames taken) (s.perform op).value.2 rest
    inferInstanceAs (Decidable (_ ∧ _ ∧ _))

/-- Operations that stay above `base` leave frames that extend it. -/
theorem StaysAbove.extends_after {base : List Frame} :
    ∀ (ops : List StackOp) {taken : List Mark} {s : CallStack},
      Extends base s.frames → (∀ m ∈ taken, MarksAbove base m) →
      StaysAbove base.length taken s ops → Extends base (s.after ops).frames := by
  intro ops
  induction ops with
  | nil => intro taken s h _ _; exact h
  | cons op rest ih =>
    intro taken s h htaken hstays
    obtain ⟨hop, hdepth, hrest⟩ := hstays
    rw [CallStack.depth, CallStack.frames_perform] at hdepth
    rw [CallStack.after_cons]
    refine ih ?_ (op.marksAbove_marksAfter h htaken) hrest
    rw [CallStack.frames_perform]
    exact op.preserves_extends h htaken hop hdepth

/-- **Going back to a mark brings exactly the frames it was taken of**, down to every repeat count,
after any operations that never left fewer frames. The marks to go back to in between may be the
mark itself and all those taken since. -/
theorem frames_restore_mark (s : CallStack) (ops : List StackOp)
    (h : StaysAbove s.depth [s.mark] s ops) :
    ((s.after ops).restore s.mark).value.frames = s.frames := by
  have htaken : ∀ m ∈ [s.mark], MarksAbove s.frames m := by
    intro m hm
    obtain rfl := List.mem_singleton.mp hm
    exact marksAbove_ofFrames (.refl s.frames)
  have hafter : Extends s.frames (s.after ops).frames :=
    StaysAbove.extends_after ops (.refl s.frames) htaken h
  exact restore_of_extends hafter

/-- A frame one repeat short of the limit, with calls that go beyond it, a refused one, and marks
of which one is gone back to. -/
theorem frames_restore_mark_saturated :
    let s : CallStack := { frames := [⟨4294967294, ⟨7⟩, ⟨3⟩⟩, ⟨0, ⟨1⟩, ⟨2⟩⟩] }
    let ops : List StackOp :=
      [.move (.push ⟨3⟩ ⟨7⟩), .mark, .move (.push ⟨3⟩ ⟨7⟩), .move (.push ⟨9⟩ ⟨8⟩), .mark,
        .move (.push ⟨9⟩ ⟨8⟩), .move (.push .nil ⟨8⟩), .restore ⟨3, some 0⟩,
        .restore ⟨2, some 4294967295⟩, .move (.push ⟨4⟩ ⟨5⟩), .move .pop, .move (.unwind 6)]
    StaysAbove s.depth [s.mark] s ops ∧ (s.after ops).frames ≠ s.frames ∧
      ((s.after ops).restore s.mark).value.frames = s.frames := by
  intro s ops
  have h : StaysAbove s.depth [s.mark] s ops := by decide
  exact ⟨h, by decide, frames_restore_mark s ops h⟩

end CallTrace
