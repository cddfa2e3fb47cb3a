/-!
# Sets of characters as ranges of code points

A set of characters is a list of inclusive ranges `(lo, hi)` in ascending order, so that a search
may stop at the first range that starts above the code point sought.
-/

namespace CallTrace.Text

/-- Whether `n` lies in one of the ascending ranges. -/
def inRanges (n : Nat) : List (Nat × Nat) → Bool
  | [] => false
  | (lo, hi) :: rest => if n < lo then false else if n ≤ hi then true else inRanges n rest

end CallTrace.Text
