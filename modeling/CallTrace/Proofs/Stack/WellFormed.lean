import CallTrace.Proofs.Stack.Operation
import Mathlib.Data.List.Chain

/-!
# Frames that are well formed

Every frame has a callable and a call site, and no two neighbours stand for the same call. Going
back to a mark is what could break this: a mark is plain data, and the frame it trims need not be
the one it was taken of. It can do no harm, because a frame that is counted anew is still a frame
of the same call.

* `StackOp.revised` — all that an operation can do to the frames
* `revised_preserves_wellFormed` — none of it makes well-formed frames ill-formed
* `wellFormed_of_mem_pool` — so the frames of any stacks are well formed, whatever is done with them
-/

namespace CallTrace

/-- Frames that have all they need, and of which no two neighbours should have been one. -/
structure WellFormed (frames : List Frame) : Prop where
  valid : ∀ f ∈ frames, f.callable.isValid = true ∧ f.site.isValid = true
  separate : frames.IsChain fun newer older => newer.isCall older.site older.callable = false

/-! ## What an operation can do -/

/-- What an operation can make of some frames. -/
inductive Revised (frames : List Frame) : List Frame → Prop
  /-- The innermost frames are left. -/
  | cut (k : Nat) : Revised frames (frames.drop k)
  /-- The innermost frames are left, and the innermost of the others is counted anew. -/
  | recounted {k : Nat} {top : Frame} {rest : List Frame} (h : frames.drop k = top :: rest)
      (n : UInt32) : Revised frames ({ top with repeats := n } :: rest)
  /-- A call is made that differs from the innermost one. -/
  | entered {site : FormId} {callable : CallableId} (hc : callable.isValid = true)
      (hs : site.isValid = true) (h : ∀ top ∈ frames.head?, top.isCall site callable = false) :
      Revised frames (⟨0, callable, site⟩ :: frames)

namespace Transition

theorem push_revised {frames : List Frame} {site : FormId} {callable : CallableId}
    {t : Transition} (h : push frames site callable = .ok t) : Revised frames t.frames := by
  rcases push_cases frames site callable with ⟨-, hp⟩ | ⟨-, -, hp⟩ | ⟨hc, hs, hp⟩
  · rw [hp] at h; contradiction
  · rw [hp] at h; contradiction
  · obtain rfl : enter frames site callable = t := Except.ok.inj (hp.symm.trans h)
    rcases isCall_cases frames site callable with ⟨top, rest, rfl, hcall⟩ | hnot
    · rw [enter_of_isCall hcall]
      exact .recounted (k := 0) rfl _
    · rw [enter_of_forall_not_isCall hnot]
      exact .entered hc hs hnot

theorem trimTop_revised (frames : List Frame) (saved : Option UInt32) (k : Nat) :
    Revised frames (trimTop saved (frames.drop k)).frames := by
  have hcut : Revised frames (frames.drop k) := .cut k
  cases hdrop : frames.drop k with
  | nil =>
    rw [hdrop] at hcut
    exact hcut
  | cons top rest =>
    rw [hdrop] at hcut
    cases saved with
    | none => exact hcut
    | some n =>
      by_cases hle : top.repeats ≤ n
      · rw [trimTop_of_le hle]
        exact hcut
      · rw [trimTop_of_lt (UInt32.not_le.mp hle)]
        exact .recounted hdrop n

theorem restore_revised (frames : List Frame) (m : Mark) :
    Revised frames (restore frames m).frames := by
  unfold restore
  simp only [unwind_eq]
  split
  · exact trimTop_revised frames m.topRepeats _
  · exact .cut _

end Transition

/-- All that an operation can do to the frames. -/
theorem StackOp.revised (frames : List Frame) (op : StackOp) :
    Revised frames (op.transition frames).frames := by
  cases op with
  | mark => exact .cut 0
  | restore m => exact Transition.restore_revised frames m
  | move m =>
    cases m with
    | push site callable =>
      rw [transition, StackMove.transition]
      cases h : Transition.push frames site callable with
      | error cause => exact .cut 0
      | ok t => exact Transition.push_revised h
    | pop =>
      cases frames with
      | nil => exact .cut 0
      | cons top rest => exact .cut 1
    | unwind depth =>
      rw [transition, StackMove.transition, Transition.unwind_eq]
      exact .cut _

/-! ## Every operation keeps frames well formed -/

namespace WellFormed

theorem nil : WellFormed [] :=
  ⟨by simp, .nil⟩

theorem drop {frames : List Frame} (h : WellFormed frames) (k : Nat) :
    WellFormed (frames.drop k) :=
  ⟨fun f hf => h.valid f (List.mem_of_mem_drop hf), h.separate.drop k⟩

/-- A frame may be counted anew, as it still stands for the same call. -/
theorem recount {top : Frame} {rest : List Frame} (h : WellFormed (top :: rest)) (n : UInt32) :
    WellFormed ({ top with repeats := n } :: rest) := by
  obtain ⟨hvalid, hseparate⟩ := h
  obtain ⟨hhead, hrest⟩ := List.isChain_cons.mp hseparate
  refine ⟨?_, List.isChain_cons.mpr ⟨hhead, hrest⟩⟩
  intro f hf
  rcases List.mem_cons.mp hf with rfl | hf
  · exact hvalid top (List.mem_cons_self ..)
  · exact hvalid f (List.mem_cons_of_mem _ hf)

/-- A call that differs from the innermost one may have a frame of its own. -/
theorem enter {frames : List Frame} (h : WellFormed frames) {site : FormId}
    {callable : CallableId} (hc : callable.isValid = true) (hs : site.isValid = true)
    (hne : ∀ top ∈ frames.head?, top.isCall site callable = false) :
    WellFormed (⟨0, callable, site⟩ :: frames) := by
  refine ⟨?_, List.isChain_cons.mpr ⟨?_, h.separate⟩⟩
  · intro f hf
    rcases List.mem_cons.mp hf with rfl | hf
    · exact ⟨hc, hs⟩
    · exact h.valid f hf
  · intro top htop
    exact (Frame.isCall_comm ⟨0, callable, site⟩ top).trans (hne top htop)

end WellFormed

theorem revised_preserves_wellFormed {frames frames' : List Frame} (h : WellFormed frames)
    (hr : Revised frames frames') : WellFormed frames' := by
  cases hr with
  | cut k => exact h.drop k
  | @recounted k top rest hdrop n =>
    have hcut : WellFormed (frames.drop k) := h.drop k
    rw [hdrop] at hcut
    exact hcut.recount n
  | entered hc hs hne => exact h.enter hc hs hne

theorem perform_preserves_wellFormed {s : CallStack} (h : WellFormed s.frames) (op : StackOp) :
    WellFormed (s.perform op).value.2.frames := by
  rw [CallStack.frames_perform]
  exact revised_preserves_wellFormed h (op.revised s.frames)

/-! ## Any number of stacks -/

/-- Something done with a number of stacks, which are known by their places in a list. -/
inductive PoolOp
  /-- A new stack, whoever watches it, gets the next place. -/
  | create (observer : Observer)
  /-- A copy of a stack gets the next place. -/
  | copy (i : Nat)
  | perform (i : Nat) (op : StackOp)

/-- Does something with a number of stacks. Where there is no stack nothing happens. -/
def poolStep (pool : List CallStack) : PoolOp → StackAnswer × List CallStack
  | .create observer => (.done, pool ++ [{ observer }])
  | .copy i => (.done, pool ++ pool[i]?.toList)
  | .perform i op =>
    match pool[i]? with
    | none => (.done, pool)
    | some s => ((s.perform op).value.1, pool.set i (s.perform op).value.2)

theorem poolStep_preserves_wellFormed (pool : List CallStack) (op : PoolOp)
    (h : ∀ s ∈ pool, WellFormed s.frames) : ∀ s ∈ (poolStep pool op).2, WellFormed s.frames := by
  intro s hs
  cases op with
  | create observer =>
    rcases List.mem_append.mp hs with hs | hs
    · exact h s hs
    · obtain rfl := List.mem_singleton.mp hs
      exact .nil
  | copy i =>
    rcases List.mem_append.mp hs with hs | hs
    · exact h s hs
    · exact h s (List.mem_of_getElem? (Option.mem_toList.mp hs))
  | perform i op =>
    cases hi : pool[i]? with
    | none =>
      simp only [poolStep, hi] at hs
      exact h s hs
    | some t =>
      simp only [poolStep, hi] at hs
      rcases List.mem_or_eq_of_mem_set hs with hs | rfl
      · exact h s hs
      · exact perform_preserves_wellFormed (h t (List.mem_of_getElem? hi)) op

/-- **The frames of every stack are well formed**, after anything that was done with any number of
stacks: each frame has a callable and a call site, and no two neighbours stand for the same call.
The marks to go back to may have been taken of any stack at any time. -/
theorem wellFormed_of_mem_pool (ops : List PoolOp) {s : CallStack}
    (h : s ∈ (runAll poolStep [] ops).2) : WellFormed s.frames :=
  runAll_preserves (p := fun pool => ∀ s ∈ pool, WellFormed s.frames)
    poolStep_preserves_wellFormed ops (by simp) s h

/-- A mark of one stack is gone back to on another, where it trims the frame of a call that was
never on the first. The next such call is counted from there. -/
theorem wellFormed_of_mem_pool_foreign_mark :
    let ops : List PoolOp :=
      [.create .silent, .perform 0 (.move (.push ⟨3⟩ ⟨7⟩)), .perform 0 .mark,
        .create .newRecording, .perform 1 (.move (.push ⟨4⟩ ⟨8⟩)),
        .perform 1 (.move (.push ⟨4⟩ ⟨8⟩)), .perform 1 (.move (.push ⟨4⟩ ⟨8⟩)), .copy 1,
        .perform 2 (.move (.push ⟨5⟩ ⟨8⟩)), .perform 2 (.restore ⟨1, some 0⟩),
        .perform 2 (.move (.push .nil ⟨8⟩)), .perform 2 (.move (.push ⟨4⟩ ⟨8⟩))]
    let run := runAll poolStep [] ops
    run.1[2]? = some (.marked ⟨1, some 0⟩) ∧
      ∃ s ∈ run.2, s.frames = [⟨1, ⟨8⟩, ⟨4⟩⟩] ∧ WellFormed s.frames := by
  intro ops run
  obtain ⟨s, hs, hframes⟩ : ∃ s, run.2[2]? = some s ∧ s.frames = [⟨1, ⟨8⟩, ⟨4⟩⟩] := ⟨_, rfl, rfl⟩
  have hmem : s ∈ run.2 := List.mem_of_getElem? hs
  exact ⟨rfl, s, hmem, hframes, wellFormed_of_mem_pool ops hmem⟩

end CallTrace
