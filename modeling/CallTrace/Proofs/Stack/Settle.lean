import CallTrace.Proofs.Stack.Restore
import Mathlib.Data.List.ModifyLast

/-!
# Going back to any mark

A mark is plain data. It may be of another stack, or of frames that are long gone, and nothing
checks it. All the same it can do little: it says how many frames may stay and how often the
innermost of them may be repeated, and whatever is above that is cut off. What has been cut once
need not be cut again, and what one mark cuts off would also be cut off by any that allows less.

* `restore_of_lt`, `restore_of_le` — what going back to any mark does
* `restore_restore` — to do it again does nothing
* `frames_restore_restore` — to go back in two steps is to go back in one
* `restore_only_cuts` — the same of a stack, and what its observer is told
-/

namespace CallTrace

namespace Frame

/-- The frame with no more repeats than were saved, if any number was. -/
def atMost (saved : Option UInt32) (f : Frame) : Frame :=
  match saved with
  | some n => { f with repeats := min f.repeats n }
  | none => f

/-- A frame has more repeats than were saved and is brought down to them, or it stays as it is. -/
theorem atMost_cases (saved : Option UInt32) (f : Frame) :
    (∃ n ∈ saved, n < f.repeats ∧ f.atMost saved = { f with repeats := n }) ∨
      (∀ n ∈ saved, f.repeats ≤ n) ∧ f.atMost saved = f := by
  cases saved with
  | none => exact Or.inr ⟨by simp, rfl⟩
  | some n =>
    by_cases hlt : n < f.repeats
    · refine Or.inl ⟨n, rfl, hlt, ?_⟩
      simp [atMost, Std.min_eq_if, UInt32.not_le.mpr hlt]
    · have hle : f.repeats ≤ n := UInt32.not_lt.mp hlt
      refine Or.inr ⟨by simpa using hle, ?_⟩
      simp [atMost, Std.min_eq_if, hle]

theorem repeats_atMost_le {saved : Option UInt32} {n : UInt32} (hn : n ∈ saved) (f : Frame) :
    (f.atMost saved).repeats ≤ n := by
  rcases f.atMost_cases saved with ⟨k, hk, -, hcut⟩ | ⟨hle, hsame⟩
  · obtain rfl : n = k := Option.mem_unique hn hk
    rw [hcut]
    exact UInt32.le_refl n
  · rw [hsame]
    exact hle n hn

/-- More repeats may be allowed first than are allowed in the end. -/
theorem atMost_atMost {first last : Option UInt32} (h : ∀ n ∈ first, ∃ k ∈ last, k ≤ n)
    (f : Frame) : (f.atMost first).atMost last = f.atMost last := by
  rcases f.atMost_cases first with ⟨n, hn, hlt, hcut⟩ | ⟨-, hsame⟩
  · obtain ⟨k, rfl, hkn⟩ := h n hn
    have hkf : k < f.repeats := UInt32.lt_of_le_of_lt hkn hlt
    rw [hcut]
    rcases UInt32.lt_or_eq_of_le hkn with hk | rfl
    · simp [atMost, Std.min_eq_if, UInt32.not_le.mpr hk, UInt32.not_le.mpr hkf]
    · simp [atMost, Std.min_eq_if, UInt32.not_le.mpr hkf]
  · rw [hsame]

end Frame

namespace Transition

variable {frames : List Frame} {m : Mark}

/-! ## What is cut off -/

/-- The innermost frame loses repeats and is told to have been left, or it stays as it is. -/
theorem trimTop_cases (saved : Option UInt32) (top : Frame) (rest : List Frame) :
    (∃ n ∈ saved, n < top.repeats ∧
        trimTop saved (top :: rest) = ⟨top.atMost saved :: rest, [.left (some top.callable)]⟩) ∨
      (∀ n ∈ saved, top.repeats ≤ n) ∧
        trimTop saved (top :: rest) = stay (top.atMost saved :: rest) := by
  rcases top.atMost_cases saved with ⟨n, rfl, hlt, hcut⟩ | ⟨hle, hsame⟩
  · exact Or.inl ⟨n, rfl, hlt, by rw [trimTop_of_lt hlt, hcut]⟩
  · refine Or.inr ⟨hle, ?_⟩
    rw [hsame]
    cases saved with
    | none => rfl
    | some n => exact trimTop_of_le (hle n rfl) rest

theorem frames_trimTop (saved : Option UInt32) (frames : List Frame) :
    (trimTop saved frames).frames = frames.modifyHead (Frame.atMost saved) := by
  cases frames with
  | nil => rfl
  | cons top rest =>
    rcases trimTop_cases saved top rest with ⟨n, -, -, h⟩ | ⟨-, h⟩
    · rw [h]
      rfl
    · rw [h]
      rfl

/-- There is no more to trim where the innermost frame was trimmed. -/
theorem trimTop_modifyHead (saved : Option UInt32) (frames : List Frame) :
    trimTop saved (frames.modifyHead (Frame.atMost saved)) =
      stay (frames.modifyHead (Frame.atMost saved)) := by
  cases frames with
  | nil => rfl
  | cons top rest =>
    cases saved with
    | none => rfl
    | some n => exact trimTop_of_le (top.repeats_atMost_le rfl) rest

/-- A mark of more frames than there are does nothing. -/
theorem restore_of_lt (h : frames.length < m.depth) : restore frames m = stay frames := by
  simp [restore, unwind_of_le (Nat.le_of_lt h), stay, Nat.ne_of_lt h]

/-- Any other cuts off the frames beyond those it counts, and trims the innermost of these. -/
theorem restore_of_le (h : m.depth ≤ frames.length) :
    restore frames m =
      let kept := frames.drop (frames.length - m.depth)
      ⟨kept.modifyHead (Frame.atMost m.topRepeats),
        (frames.take (frames.length - m.depth)).map (fun f => .left (some f.callable)) ++
          (trimTop m.topRepeats kept).events⟩ := by
  have hlength : (frames.drop (frames.length - m.depth)).length = m.depth := by
    rw [List.length_drop]
    omega
  have happend := restore_append (frames.take (frames.length - m.depth))
    (frames.drop (frames.length - m.depth)) m.topRepeats
  rw [List.take_append_drop, hlength, frames_trimTop] at happend
  exact happend

theorem restore_of_length_eq (h : frames.length = m.depth) :
    restore frames m = trimTop m.topRepeats frames := by
  have happend := restore_append [] frames m.topRepeats
  rw [h] at happend
  exact happend

theorem length_frames_restore (h : m.depth ≤ frames.length) :
    (restore frames m).frames.length = m.depth := by
  rw [restore_of_le h, List.length_modifyHead, List.length_drop]
  omega

/-! ## Going back again -/

/-- **To go back to a mark a second time does nothing.** -/
theorem restore_restore (frames : List Frame) (m : Mark) :
    restore (restore frames m).frames m = stay (restore frames m).frames := by
  rcases Nat.lt_or_ge frames.length m.depth with hlt | hle
  · simp only [restore_of_lt hlt, stay]
  · rw [restore_of_length_eq (length_frames_restore hle), restore_of_le hle]
    exact trimTop_modifyHead _ _

/-- **To go back in two steps is to go back in one**, if the second mark allows no more than the
first. -/
theorem frames_restore_restore {m₁ m₂ : Mark} (frames : List Frame) (hdepth : m₁.depth ≤ m₂.depth)
    (hrepeats : m₁.depth = m₂.depth → ∀ n₂ ∈ m₂.topRepeats, ∃ n₁ ∈ m₁.topRepeats, n₁ ≤ n₂) :
    (restore (restore frames m₂).frames m₁).frames = (restore frames m₁).frames := by
  rcases Nat.lt_or_ge frames.length m₂.depth with hlt | hle
  · simp only [restore_of_lt hlt, stay]
  · have hlength := length_frames_restore hle
    rw [restore_of_le (hlength ▸ hdepth), hlength, restore_of_le (Nat.le_trans hdepth hle),
      restore_of_le hle]
    rcases Nat.lt_or_eq_of_le hdepth with hless | heq
    · -- the frame that the first mark trims is cut off by the second
      have hpos : 0 < m₂.depth - m₁.depth := by omega
      have hcut : frames.length - m₂.depth + (m₂.depth - m₁.depth) = frames.length - m₁.depth := by
        omega
      simp only [List.drop_modifyHead_of_pos hpos, List.drop_drop, hcut]
    · have hatMost : Frame.atMost m₁.topRepeats ∘ Frame.atMost m₂.topRepeats =
          Frame.atMost m₁.topRepeats := funext (Frame.atMost_atMost (hrepeats heq))
      simp only [heq, Nat.sub_self, List.drop_zero, List.modifyHead_modifyHead, hatMost]

/-! ## What is told -/

/-- Trimming tells once that the innermost frame was left, if that took away repeats. -/
theorem events_trimTop_cases (saved : Option UInt32) (frames : List Frame) :
    (∃ top ∈ frames.head?, ∃ n ∈ saved, n < top.repeats ∧
        (trimTop saved frames).events = [.left (some top.callable)]) ∨
      (∀ top ∈ frames.head?, ∀ n ∈ saved, top.repeats ≤ n) ∧
        (trimTop saved frames).events = [] := by
  cases frames with
  | nil => exact Or.inr ⟨by simp, rfl⟩
  | cons top rest =>
    rcases trimTop_cases saved top rest with ⟨n, hn, hlt, h⟩ | ⟨hle, h⟩
    · exact Or.inl ⟨top, rfl, n, hn, hlt, by rw [h]⟩
    · exact Or.inr ⟨by simpa using hle, by rw [h]; rfl⟩

theorem left_none_not_mem_events_restore (frames : List Frame) (m : Mark) :
    .left none ∉ (restore frames m).events := by
  rcases Nat.lt_or_ge frames.length m.depth with hlt | hle
  · simp [restore_of_lt hlt, stay]
  · rw [restore_of_le hle]
    rcases events_trimTop_cases m.topRepeats (frames.drop (frames.length - m.depth)) with
      ⟨top, -, n, -, -, h⟩ | ⟨-, h⟩
    · simp [h, -List.map_take]
    · simp [h, -List.map_take]

end Transition

/-! ## Stacks and their observers -/

namespace CallStack

theorem commit_stay_eq_pure (s : CallStack) : s.commit (.stay s.frames) = pure s := rfl

theorem traceback_restore_of_le {s : CallStack} {m : Mark} (h : m.depth ≤ s.depth) :
    (s.restore m).value.traceback.frames =
      (s.traceback.frames.take m.depth).modifyLast (Frame.atMost m.topRepeats) := by
  show (Transition.restore s.frames m).frames.reverse =
    (s.frames.reverse.take m.depth).modifyLast (Frame.atMost m.topRepeats)
  rw [Transition.restore_of_le h, List.take_reverse]
  show ((s.frames.drop (s.frames.length - m.depth)).modifyHead _).reverse = _
  cases s.frames.drop (s.frames.length - m.depth) with
  | nil => rfl
  | cons top rest => simp [List.modifyLast_concat]

/-- **Going back to a mark only cuts, and settles at once**, wherever the mark comes from. A mark of
more frames than there are does nothing, and nobody is told. Any other leaves just as many of the
oldest frames as it counts, all as they were but that the innermost of them is not repeated more
often than was saved. The observer is told that each of the other frames was left, the innermost
first, and once more if that took away repeats, and never that there was nothing to leave. To go
back again does nothing. To go back first to a mark that allows as much or more makes no difference
to the frames. -/
theorem restore_only_cuts (s : CallStack) (m : Mark) :
    let before := s.traceback.frames
    let after := (s.restore m).value
    (s.depth < m.depth → s.restore m = pure s) ∧
    (m.depth ≤ s.depth →
      after.traceback.frames = (before.take m.depth).modifyLast (Frame.atMost m.topRepeats) ∧
      ∃ told trimmed, after.observer = s.observer.record told ∧ .left none ∉ told ∧
        told = (before.drop m.depth).reverse.map (fun f => .left (some f.callable)) ++ trimmed ∧
        ((∃ top ∈ (before.take m.depth).getLast?, ∃ n ∈ m.topRepeats, n < top.repeats ∧
            trimmed = [.left (some top.callable)]) ∨
          (∀ top ∈ (before.take m.depth).getLast?, ∀ n ∈ m.topRepeats, top.repeats ≤ n) ∧
            trimmed = [])) ∧
    after.restore m = pure after ∧
    (∀ m' : Mark, m.depth ≤ m'.depth →
      (m.depth = m'.depth → ∀ n' ∈ m'.topRepeats, ∃ n ∈ m.topRepeats, n ≤ n') →
      ((s.restore m').value.restore m).value.frames = after.frames) := by
  intro before after
  refine ⟨fun hlt => ?_, fun hle => ⟨traceback_restore_of_le hle, ?_⟩, ?_,
    fun m' hdepth hrepeats => Transition.frames_restore_restore s.frames hdepth hrepeats⟩
  · rw [restore, Transition.restore_of_lt hlt, commit_stay_eq_pure]
  · have hobserver : after.observer =
        s.observer.record (Transition.restore s.frames m).events := by
      show (s.commit (Transition.restore s.frames m)).value.observer = _
      rw [value_commit]
    have hcut : (before.drop m.depth).reverse = s.frames.take (s.frames.length - m.depth) := by
      show (s.frames.reverse.drop m.depth).reverse = _
      rw [List.drop_reverse, List.reverse_reverse]
    have hkept : (before.take m.depth).getLast? =
        (s.frames.drop (s.frames.length - m.depth)).head? := by
      show (s.frames.reverse.take m.depth).getLast? = _
      rw [List.take_reverse, List.getLast?_reverse]
    refine ⟨_, (Transition.trimTop m.topRepeats (s.frames.drop (s.frames.length - m.depth))).events,
      hobserver, Transition.left_none_not_mem_events_restore s.frames m, ?_, ?_⟩
    · rw [hcut, Transition.restore_of_le hle]
    · rw [hkept]
      exact Transition.events_trimTop_cases m.topRepeats _
  · show after.commit (Transition.restore (Transition.restore s.frames m).frames m) = _
    rw [Transition.restore_restore]
    exact commit_stay_eq_pure after

/-- A mark of another stack, where it takes away repeats of a call that it knows nothing of, and one
of more frames than there are. -/
theorem restore_only_cuts_foreign_mark :
    let s : CallStack := ⟨[⟨0, ⟨9⟩, ⟨5⟩⟩, ⟨5, ⟨8⟩, ⟨4⟩⟩, ⟨2, ⟨7⟩, ⟨3⟩⟩], .newRecording⟩
    let m : Mark := (⟨[⟨3, ⟨1⟩, ⟨1⟩⟩, ⟨0, ⟨2⟩, ⟨1⟩⟩], .silent⟩ : CallStack).mark
    let after := (s.restore m).value
    m.depth ≤ s.depth ∧
      after.traceback.frames = [⟨2, ⟨7⟩, ⟨3⟩⟩, ⟨3, ⟨8⟩, ⟨4⟩⟩] ∧
      after.observer.events = [.left (some ⟨9⟩), .left (some ⟨8⟩)] ∧
      after.restore m = pure after ∧
      ((s.restore ⟨2, some 4⟩).value.restore m).value.frames = after.frames ∧
      s.depth < 4 ∧ s.restore ⟨4, some 0⟩ = pure s := by
  intro s m after
  obtain ⟨-, hcuts, hagain, htwice⟩ := restore_only_cuts s m
  obtain ⟨hframes, -⟩ := hcuts (by decide)
  refine ⟨by decide, hframes.trans (by decide), by decide, hagain,
    htwice ⟨2, some 4⟩ (by decide) ?_, by decide, (restore_only_cuts s ⟨4, some 0⟩).1 (by decide)⟩
  rintro - n hn
  obtain rfl : (4 : UInt32) = n := Option.some.inj hn
  exact ⟨3, rfl, by decide⟩

end CallStack

end CallTrace
