import CallTrace.Text.Keyword
import Mathlib.Data.List.Induction

/-!
# Parts between separators

A part of a text is a stretch without separators that cannot be made longer: it begins at the start
of the text or behind a separator, and it ends at the end of the text or in front of one. Taking a
text apart gives these, in order.

* `splitOn_append_cons` — a separator divides the parts of a text into those on either side
* `mem_splitOn_iff` — what a text is taken apart into are its parts
-/

namespace CallTrace.Text

variable {sep : Char} {text part : List Char}

theorem splitOn_eq (sep : Char) (text : List Char) : splitOn sep text = List.splitOn sep text := by
  induction text with
  | nil => rfl
  | cons c rest ih =>
    rw [splitOn, List.splitOn_cons_eq_if_modifyHead, ih]
    cases h : List.splitOn sep rest with
    | nil => exact absurd h (List.splitOn_ne_nil _ _)
    | cons part parts => simp

theorem splitOn_append_cons (sep : Char) (before after : List Char) :
    splitOn sep (before ++ sep :: after) = splitOn sep before ++ splitOn sep after := by
  simp only [splitOn_eq, List.splitOn_append_cons_self]

theorem splitOn_of_not_mem (h : sep ∉ text) : splitOn sep text = [text] := by
  rw [splitOn_eq, List.splitOn_eq_singleton h]

/-- The first separator ends the first part. -/
theorem splitOn_append_cons_of_not_mem (h : sep ∉ part) (after : List Char) :
    splitOn sep (part ++ sep :: after) = part :: splitOn sep after := by
  rw [splitOn_append_cons, splitOn_of_not_mem h, List.singleton_append]

/-- A part of a text: it has no separator in it, and there is nothing but a separator next to it. -/
def IsPart (sep : Char) (text part : List Char) : Prop :=
  sep ∉ part ∧ ∃ before after, text = before ++ part ++ after ∧
    (∀ c ∈ before.getLast?, c = sep) ∧ ∀ c ∈ after.head?, c = sep

theorem isPart_self (h : sep ∉ text) : IsPart sep text text :=
  ⟨h, [], [], by simp, by simp, by simp⟩

/-- The parts behind a separator are parts of the whole. -/
theorem IsPart.append_cons (h : IsPart sep text part) (first : List Char) :
    IsPart sep (first ++ sep :: text) part := by
  obtain ⟨hpart, before, after, rfl, hbefore, hafter⟩ := h
  refine ⟨hpart, first ++ sep :: before, after, by simp, ?_, hafter⟩
  cases before with
  | nil => simp
  | cons c before => simpa [List.getLast?_append, List.getLast?_cons_cons] using hbefore

theorem mem_splitOn_of_isPart (h : IsPart sep text part) : part ∈ splitOn sep text := by
  obtain ⟨hpart, before, after, rfl, hbefore, hafter⟩ := h
  -- the separators next to the part divide the text
  have hrest : part ∈ splitOn sep (part ++ after) := by
    cases after with
    | nil => simp [splitOn_of_not_mem hpart]
    | cons c after =>
      obtain rfl : c = sep := hafter c rfl
      simp [splitOn_append_cons_of_not_mem hpart]
  rw [List.append_assoc]
  cases before using List.reverseRecOn with
  | nil => exact hrest
  | append_singleton before c =>
    obtain rfl : c = sep := hbefore c (by simp)
    rw [List.append_assoc, List.singleton_append, splitOn_append_cons]
    exact List.mem_append_right _ hrest

theorem isPart_of_mem_splitOn (h : part ∈ splitOn sep text) : IsPart sep text part := by
  -- by the length of the text, as what is left behind the first separator is shorter
  induction hlength : text.length using Nat.strongRecOn generalizing text with
  | ind n ih =>
    by_cases hsep : sep ∈ text
    · obtain ⟨first, rest, rfl, hfirst⟩ := List.eq_append_cons_of_mem hsep
      rw [splitOn_append_cons_of_not_mem hfirst] at h
      rcases List.mem_cons.mp h with rfl | h
      · exact ⟨hfirst, [], sep :: rest, by simp, by simp, by simp⟩
      · have hlt : rest.length < n := by
          rw [← hlength, List.length_append, List.length_cons]
          omega
        exact (ih rest.length hlt h rfl).append_cons first
    · rw [splitOn_of_not_mem hsep, List.mem_singleton] at h
      subst h
      exact isPart_self hsep

/-- **What a text is taken apart into are its parts.** -/
theorem mem_splitOn_iff : part ∈ splitOn sep text ↔ IsPart sep text part :=
  ⟨isPart_of_mem_splitOn, mem_splitOn_of_isPart⟩

end CallTrace.Text
