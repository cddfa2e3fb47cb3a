import CallTrace.Frame

/-!
# Marks

A mark is a point that a call stack can come back to. It is small: frames below the innermost one
cannot change while they are below it, so their number is enough, and the innermost one can only
be repeated more often.
-/

namespace CallTrace

/-- How many frames there were, and how often the innermost call had been repeated. -/
structure Mark where
  depth : Nat
  topRepeats : Option UInt32
deriving DecidableEq

namespace Mark

/-- The mark of some frames, given with the innermost first. -/
def ofFrames (frames : List Frame) : Mark :=
  ⟨frames.length, frames.head?.map Frame.repeats⟩

/-- The developer-facing text, such as `StackMark { depth: 1, top_repeat_count: Some(0) }`. -/
def describe (m : Mark) : String :=
  let top := match m.topRepeats with
    | some n => "Some(" ++ toString n.toNat ++ ")"
    | none => "None"
  "StackMark \x7b depth: " ++ toString m.depth ++ ", top_repeat_count: " ++ top ++ " \x7d"

end Mark

end CallTrace
