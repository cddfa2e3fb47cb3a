import CallTrace.Callable
import CallTrace.Form

/-!
# Frames

A frame stands for one active call, or for a run of equal calls each made from within the one
before it, as a loop that calls itself makes them.
-/

namespace CallTrace

/-- An active call: what was called, from where, and how often more in direct succession. -/
structure Frame where
  repeats : UInt32
  callable : CallableId
  site : FormId
deriving DecidableEq

/-- What the numbers in a frame stand for. -/
structure Legend where
  /-- The name of a callable. -/
  callable : CallableId → String
  /-- The source text of a call site, unless it has no end. -/
  site : FormId → Option String

namespace Frame

/-- Whether the frame stands for calls of `callable` from `site`. -/
def isCall (f : Frame) (site : FormId) (callable : CallableId) : Bool :=
  f.callable = callable && f.site = site

theorem callable_of_isCall {f : Frame} {site : FormId} {callable : CallableId}
    (h : f.isCall site callable = true) : f.callable = callable := by
  rw [isCall, Bool.and_eq_true, decide_eq_true_iff] at h
  exact h.1

theorem site_of_isCall {f : Frame} {site : FormId} {callable : CallableId}
    (h : f.isCall site callable = true) : f.site = site := by
  rw [isCall, Bool.and_eq_true, decide_eq_true_iff, decide_eq_true_iff] at h
  exact h.2

/-- Two frames stand for the same call, whichever of them is asked. -/
theorem isCall_comm (f g : Frame) :
    f.isCall g.site g.callable = g.isCall f.site f.callable := by
  simp only [isCall, eq_comm]

/-- The number of repeats after one more, which stops at the largest that can be counted. -/
def nextRepeats (n : UInt32) : UInt32 :=
  if n = 4294967295 then n else n + 1

theorem toNat_nextRepeats_of_ne {n : UInt32} (h : n ≠ 4294967295) :
    (nextRepeats n).toNat = n.toNat + 1 := by
  have hlt : n.toNat < 4294967296 := n.toNat_lt
  have hne : n.toNat ≠ 4294967295 := fun he => h (UInt32.toNat_inj.mp he)
  rw [nextRepeats, if_neg h, UInt32.toNat_add, UInt32.toNat_one]
  omega

theorem toNat_nextRepeats (n : UInt32) :
    (nextRepeats n).toNat = min (n.toNat + 1) 4294967295 := by
  have hlt : n.toNat < 4294967296 := n.toNat_lt
  by_cases h : n = 4294967295
  · rw [h]
    rfl
  · have hne : n.toNat ≠ 4294967295 := fun he => h (UInt32.toNat_inj.mp he)
    rw [toNat_nextRepeats_of_ne h]
    omega

theorem le_nextRepeats (n : UInt32) : n ≤ nextRepeats n := by
  have hlt : n.toNat < 4294967296 := n.toNat_lt
  rw [UInt32.le_iff_toNat_le, toNat_nextRepeats]
  omega

/-- The frame after its call was made once more. -/
def again (f : Frame) : Frame :=
  { f with repeats := nextRepeats f.repeats }

/-- The text of a frame in a traceback, unless it has no end. -/
def render (f : Frame) (legend : Legend) : Option String :=
  (legend.site f.site).map fun caller =>
    "<Frame: fn: " ++ legend.callable f.callable ++ ", count: " ++ toString f.repeats.toNat ++
      ", caller: " ++ caller ++ ">"

/-- The developer-facing text. -/
def describe (f : Frame) : String :=
  "Frame \x7b repeat_count: " ++ toString f.repeats.toNat ++ ", callable: " ++
    f.callable.describe ++ ", call_site: " ++ f.site.describe ++ " \x7d"

end Frame

end CallTrace
