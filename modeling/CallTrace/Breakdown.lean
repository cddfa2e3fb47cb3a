/-!
# Operations without a result

Most failures of an evaluation are results like any other. An evaluation that runs out of numbers is
given up instead, and one that writes a text without end never comes back. Neither leaves anything
to go on with.
-/

namespace CallTrace

/-- Why an operation gives no result. -/
inductive Breakdown
  /-- The evaluation is given up, with a last message. -/
  | abandoned (message : String)
  /-- A text without end is being written. -/
  | endless
deriving DecidableEq

namespace Breakdown

variable {α : Type}

/-- The result of an operation that is known to have one. -/
def resultOf : (x : Except Breakdown α) → x.isOk = true → α
  | .ok a, _ => a

theorem eq_ok_resultOf : ∀ (x : Except Breakdown α) (h : x.isOk = true), x = .ok (resultOf x h)
  | .ok _, _ => rfl

end Breakdown

section

variable {α β ε : Type} {x : Except ε α} {b : β}

/-- Two steps give a result if both of them do. -/
theorem bind_eq_ok_iff {f : α → Except ε β} :
    x >>= f = .ok b ↔ ∃ a, x = .ok a ∧ f a = .ok b := by
  cases x with
  | error e => exact iff_of_false nofun fun ⟨_, h, _⟩ => nomatch h
  | ok a =>
    constructor
    · exact fun h => ⟨a, rfl, h⟩
    · rintro ⟨_, ⟨⟩, h⟩
      exact h

theorem map_eq_ok_iff {f : α → β} : x.map f = .ok b ↔ ∃ a, x = .ok a ∧ f a = b := by
  cases x with
  | error e => exact iff_of_false nofun fun ⟨_, h, _⟩ => nomatch h
  | ok a =>
    constructor
    · exact fun h => ⟨a, rfl, Except.ok.inj h⟩
    · rintro ⟨_, ⟨⟩, rfl⟩
      rfl

end

end CallTrace
