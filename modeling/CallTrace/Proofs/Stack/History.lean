import CallTrace.Proofs.Stack.Operation
import Mathlib.Data.List.SplitBy

/-!
# The history behind the frames

A frame stands for a run of equal calls. A history has an entry for each of them: it lists the
active calls one by one, the oldest first, and knows nothing of frames or counters. Moves are
defined on it by its maximal runs.

* `enter_frames`, `transition_frames` — a move on the frames is a move on the history behind them
* `moves_refine_history` — in every sequence of moves from the empty stack, the answers and the
  frames are those that the history gives
-/

namespace CallTrace

/-- What is called, and from where. -/
structure Call where
  site : FormId
  callable : CallableId
deriving DecidableEq

namespace Frame

/-- The call that a frame stands for. -/
def call (f : Frame) : Call := ⟨f.site, f.callable⟩

theorem isCall_iff {f : Frame} {c : Call} : f.isCall c.site c.callable = true ↔ f.call = c := by
  cases f
  cases c
  simp [isCall, call, and_comm]

/-- The frame of a run of equal calls: the call, and how often it was made after the first time, as
far as that can be counted. -/
def ofRun : List Call → Frame
  -- no run is empty
  | [] => ⟨0, .nil, .nil⟩
  | c :: more => ⟨UInt32.ofNat (min more.length 4294967295), c.callable, c.site⟩

theorem ofRun_replicate (n : Nat) (c : Call) :
    ofRun (List.replicate (n + 1) c) =
      ⟨UInt32.ofNat (min n 4294967295), c.callable, c.site⟩ := by
  rw [List.replicate_succ, ofRun, List.length_replicate]

theorem toNat_ofNat_min (n : Nat) :
    (UInt32.ofNat (min n 4294967295)).toNat = min n 4294967295 := by
  rw [UInt32.toNat_ofNat']
  exact Nat.mod_eq_of_lt (by omega)

/-- A run with one more call has the frame with one more repeat. -/
theorem again_ofRun_replicate (n : Nat) (c : Call) :
    (ofRun (List.replicate (n + 1) c)).again = ofRun (List.replicate (n + 2) c) := by
  have hcount : nextRepeats (UInt32.ofNat (min n 4294967295)) =
      UInt32.ofNat (min (n + 1) 4294967295) := by
    rw [← UInt32.toNat_inj, toNat_nextRepeats, toNat_ofNat_min, toNat_ofNat_min]
    omega
  rw [ofRun_replicate, ofRun_replicate]
  show (⟨nextRepeats (UInt32.ofNat (min n 4294967295)), c.callable, c.site⟩ : Frame) = _
  rw [hcount]

end Frame

namespace History

/-! ## Maximal runs -/

/-- The maximal runs of equal calls, the oldest first. -/
def runs (calls : List Call) : List (List Call) :=
  calls.splitBy fun a b => decide (a = b)

theorem flatten_runs (calls : List Call) : (runs calls).flatten = calls :=
  List.flatten_splitBy _ calls

theorem exists_replicate_of_mem_runs {calls run : List Call} (h : run ∈ runs calls) :
    ∃ c n, run = List.replicate (n + 1) c := by
  have hchain : run.IsChain (· = ·) := by simpa using List.isChain_of_mem_splitBy h
  cases run with
  | nil => exact absurd rfl (List.ne_nil_of_mem_splitBy h)
  | cons c more =>
    refine ⟨c, more.length, ?_⟩
    rw [List.replicate_succ, ← List.isChain_cons_eq_iff_eq_replicate.mp hchain]

/-- The runs of the first runs of a history are just these. -/
theorem runs_flatten_take (calls : List Call) (k : Nat) :
    runs ((runs calls).take k).flatten = (runs calls).take k := by
  refine List.splitBy_flatten ?_ ?_ ?_
  · intro h
    exact List.nil_notMem_splitBy _ calls (List.mem_of_mem_take h)
  · intro run hrun
    exact List.isChain_of_mem_splitBy (List.mem_of_mem_take hrun)
  · exact List.IsChain.take (List.isChain_getLast_head_splitBy (fun a b => decide (a = b)) calls) k

/-- The last run is a run of the last call. -/
theorem exists_runs_eq_append {calls : List Call} {c : Call} (h : calls.getLast? = some c) :
    ∃ older n, runs calls = older ++ [List.replicate (n + 1) c] := by
  have hne : runs calls ≠ [] := by
    intro hnil
    rw [← flatten_runs calls, hnil] at h
    cases h
  obtain ⟨older, run, hruns⟩ := List.eq_nil_or_concat (runs calls) |>.resolve_left hne
  rw [List.concat_eq_append] at hruns
  have hmem : run ∈ runs calls := by simp [hruns]
  obtain ⟨d, n, rfl⟩ := exists_replicate_of_mem_runs hmem
  have hlast : calls.getLast? = some d := by
    rw [← flatten_runs calls, hruns, List.replicate_succ']
    simp
  rw [hlast] at h
  cases h
  exact ⟨older, n, hruns⟩

/-- A call equal to the last one makes the last run longer. -/
theorem runs_append_of_eq {calls : List Call} {older : List (List Call)} {c : Call} {n : Nat}
    (h : runs calls = older ++ [List.replicate (n + 1) c]) :
    runs (calls ++ [c]) = older ++ [List.replicate (n + 2) c] := by
  obtain ⟨hcalls, hnil, hchain, hborder⟩ := List.splitBy_eq_iff.mp h
  obtain ⟨holder, -, hlast⟩ := List.isChain_append.mp hborder
  refine List.splitBy_eq_iff.mpr ⟨?_, ?_, ?_, ?_⟩
  · rw [hcalls, List.replicate_succ' (n := n + 1)]
    simp
  · intro hmem
    rcases List.mem_append.mp hmem with hmem | hmem
    · exact hnil (List.mem_append_left _ hmem)
    · cases List.mem_singleton.mp hmem
  · intro run hrun
    rcases List.mem_append.mp hrun with hrun | hrun
    · exact hchain run (List.mem_append_left _ hrun)
    · rw [List.mem_singleton.mp hrun]
      exact List.isChain_replicate_of_rel _ (by simp)
  · -- the border to the run before is where it was, as a longer run begins with the same call
    refine List.isChain_append.mpr ⟨holder, List.isChain_singleton _, ?_⟩
    intro before hbefore run hrun
    obtain rfl : List.replicate (n + 2) c = run := Option.some.inj hrun
    obtain ⟨ha, hb, hne⟩ := hlast before hbefore (List.replicate (n + 1) c) rfl
    exact ⟨ha, by simp, hne⟩

/-- A call that differs from the last one begins a run. -/
theorem runs_append_of_ne {calls : List Call} {c : Call} (h : calls.getLast? ≠ some c) :
    runs (calls ++ [c]) = runs calls ++ [[c]] := by
  refine List.splitBy_append ?_
  intro last hlast next hnext
  obtain rfl : c = next := Option.some.inj hnext
  rw [decide_eq_false_iff_not]
  intro he
  exact h (he ▸ hlast)

/-! ## Moves on a history -/

/-- Makes a move on a history. To leave a frame is to leave a whole run of calls, and to unwind to
a depth is to keep that many runs. -/
def step (calls : List Call) : StackMove → StackAnswer × List Call
  | .push site callable =>
    if callable = .nil then (.refused .nilCallable, calls)
    else if site = .nil then (.refused .nilSite, calls)
    else (.done, calls ++ [⟨site, callable⟩])
  | .pop => (.left ((runs calls).getLast?.map .ofRun), (runs calls).dropLast.flatten)
  | .unwind depth => (.done, ((runs calls).take depth).flatten)

/-- The frames of a history, one for each run, the innermost first. -/
def frames (calls : List Call) : List Frame :=
  ((runs calls).map .ofRun).reverse

theorem length_frames (calls : List Call) : (frames calls).length = (runs calls).length := by
  rw [frames, List.length_reverse, List.length_map]

theorem head?_frames (calls : List Call) :
    (frames calls).head? = (runs calls).getLast?.map .ofRun := by
  rw [frames, List.head?_reverse, List.getLast?_map]

/-- The innermost frame stands for the last call. -/
theorem call_of_mem_head?_frames {calls : List Call} {top : Frame}
    (h : top ∈ (frames calls).head?) : calls.getLast? = some top.call := by
  rw [head?_frames, Option.mem_def, Option.map_eq_some_iff] at h
  obtain ⟨run, hrun, rfl⟩ := h
  have hne : calls ≠ [] := by
    intro hnil
    rw [hnil] at hrun
    cases hrun
  obtain ⟨c, hc⟩ := Option.ne_none_iff_exists'.mp (mt List.getLast?_eq_none_iff.mp hne)
  obtain ⟨older, n, hruns⟩ := exists_runs_eq_append hc
  rw [hruns, List.getLast?_append, List.getLast?_singleton, Option.some_or] at hrun
  cases hrun
  rw [hc, Frame.ofRun_replicate]
  rfl

/-- The frames of the first runs are the oldest frames. -/
theorem frames_flatten_take (calls : List Call) (k : Nat) :
    frames ((runs calls).take k).flatten = (frames calls).drop ((frames calls).length - k) := by
  rw [length_frames, frames, frames, runs_flatten_take, List.map_take, List.drop_reverse,
    List.length_map]
  congr 1
  by_cases hk : k ≤ (runs calls).length
  · rw [Nat.sub_sub_self hk]
  · rw [List.take_of_length_le (by rw [List.length_map]; omega),
      List.take_of_length_le (by rw [List.length_map]; omega)]

/-- **A call made on the frames is a call added to the history behind them.** -/
theorem enter_frames (calls : List Call) (c : Call) :
    (Transition.enter (frames calls) c.site c.callable).frames = frames (calls ++ [c]) := by
  by_cases hlast : calls.getLast? = some c
  · obtain ⟨older, n, hruns⟩ := exists_runs_eq_append hlast
    have hframes : frames calls =
        Frame.ofRun (List.replicate (n + 1) c) :: (older.map Frame.ofRun).reverse := by
      rw [frames, hruns, List.map_append, List.reverse_append]
      rfl
    have hcall : (Frame.ofRun (List.replicate (n + 1) c)).isCall c.site c.callable = true := by
      rw [Frame.isCall_iff, Frame.ofRun_replicate]
      rfl
    rw [hframes, Transition.enter_of_isCall hcall, Frame.again_ofRun_replicate, frames,
      runs_append_of_eq hruns, List.map_append, List.reverse_append]
    rfl
  · have hnot : ∀ top ∈ (frames calls).head?, top.isCall c.site c.callable = false := by
      intro top htop
      rw [Bool.eq_false_iff, Ne, Frame.isCall_iff]
      intro he
      exact hlast (he ▸ call_of_mem_head?_frames htop)
    rw [Transition.enter_of_forall_not_isCall hnot, frames, frames, runs_append_of_ne hlast,
      List.map_append, List.reverse_append]
    rfl

/-- **A move on the frames is the move on the history behind them**, with the same answer. -/
theorem transition_frames (calls : List Call) (m : StackMove) :
    m.answer (frames calls) = (step calls m).1 ∧
      (m.transition (frames calls)).frames = frames (step calls m).2 := by
  cases m with
  | push site callable =>
    unfold StackMove.answer StackMove.transition step
    rcases Transition.push_cases (frames calls) site callable with
      ⟨hc, hp⟩ | ⟨hc, hs, hp⟩ | ⟨hc, hs, hp⟩
    · simp only [hp, if_pos (CallableId.isValid_eq_false_iff.mp hc), true_and]
      rfl
    · simp only [hp, if_neg (CallableId.isValid_eq_true_iff.mp hc),
        if_pos (FormId.isValid_eq_false_iff.mp hs), true_and]
      rfl
    · simp only [hp, if_neg (CallableId.isValid_eq_true_iff.mp hc),
        if_neg (FormId.isValid_eq_true_iff.mp hs), true_and]
      exact enter_frames calls ⟨site, callable⟩
  | pop =>
    refine ⟨by rw [StackMove.answer, step, head?_frames], ?_⟩
    have hdrop : (Transition.pop (frames calls)).frames = (frames calls).drop 1 := by
      cases frames calls <;> rfl
    show (Transition.pop (frames calls)).frames = frames (runs calls).dropLast.flatten
    rw [hdrop, List.dropLast_eq_take, frames_flatten_take, length_frames]
    rcases Nat.eq_zero_or_pos (runs calls).length with hzero | hpos
    · have hnil : frames calls = [] :=
        List.length_eq_zero_iff.mp (by rw [length_frames, hzero])
      rw [hnil, List.drop_nil, List.drop_nil]
    · rw [Nat.sub_sub_self hpos]
  | unwind depth =>
    rw [StackMove.transition, Transition.unwind_eq]
    exact ⟨rfl, (frames_flatten_take calls depth).symm⟩

/-- **The stack is the run-length encoding of the history of its calls.** In every sequence of moves
from the empty stack, whoever watches, each answer is the one the history gives, and in the end
there is one frame for each maximal run, in order. So the depth and the length of a traceback count
the runs, and the next frame to leave is missing only if no call is active. -/
theorem moves_refine_history (o : Observer) (ms : List StackMove) :
    let actual := runAll (fun s m => (s.move m).value) ({ observer := o } : CallStack) ms
    let expected := runAll step [] ms
    actual.1 = expected.1 ∧
      actual.2.traceback.frames = (runs expected.2).map .ofRun ∧
      actual.2.depth = (runs expected.2).length ∧
      actual.2.traceback.length = (runs expected.2).length ∧
      (actual.2.pop.value.1 = none ↔ expected.2 = []) := by
  intro actual expected
  have hsim : actual.1 = expected.1 ∧ actual.2.frames = frames expected.2 := by
    refine runAll_simulation (r := fun (s : CallStack) calls => s.frames = frames calls) ?_ ms rfl
    intro s calls m hframes
    obtain ⟨hanswer, hnext⟩ := transition_frames calls m
    rw [CallStack.value_move, hframes]
    exact ⟨hanswer, hnext⟩
  obtain ⟨hanswers, hframes⟩ := hsim
  have htraceback : actual.2.traceback.frames = (runs expected.2).map .ofRun := by
    show actual.2.frames.reverse = _
    rw [hframes, frames, List.reverse_reverse]
  refine ⟨hanswers, htraceback, ?_, ?_, ?_⟩
  · rw [CallStack.depth, hframes, length_frames]
  · rw [Traceback.length, htraceback, List.length_map]
  · show actual.2.frames.head? = none ↔ expected.2 = []
    rw [hframes, head?_frames, Option.map_eq_none_iff, List.getLast?_eq_none_iff]
    exact List.splitBy_eq_nil

end History

end CallTrace
