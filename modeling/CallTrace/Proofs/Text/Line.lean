import CallTrace.Proofs.Text.Escape
import CallTrace.Proofs.Text.Split
import CallTrace.Proofs.Text.Word

/-!
# Texts of one line, and lines put together

Lines that are each ended by a newline can be told apart again, as long as no line has a newline in
it. Numbers have none, and neither has a quoted text, whatever is quoted: there a newline is written
as a backslash and a letter.

* `newline_not_mem_quoted` — a quoted text stays on its line
* `splitOn_unlines`, `count_unlines` — lines that were put together are found again
-/

namespace CallTrace.Text

/-! ## Texts without newlines -/

theorem newline_not_mem_decimal (n : Nat) : '\n' ∉ Nat.toDigits 10 n := by
  intro h
  have hdigit := isDigit_of_mem_decimal h
  contradiction

theorem newline_not_mem_toString (i : Int) : '\n' ∉ (toString i).toList := by
  intro h
  have hdecimal := isDecimalChar_of_mem_toString h
  contradiction

theorem newline_not_mem_codePointEscape (c : Char) : '\n' ∉ codePointEscape c := by
  have hdigits : '\n' ∉ Nat.toDigits 16 c.toNat := by
    intro h
    obtain ⟨d, hd, hdigit⟩ := exists_digitChar_of_mem_toDigits h
    have hall : ∀ d < 16, '\n' ≠ d.digitChar := by decide
    exact hall d hd hdigit
  simp [codePointEscape, hdigits]

theorem newline_not_mem_escapeChar (style : EscapeStyle) (atStart : Bool) (c : Char) :
    '\n' ∉ escapeChar style atStart c := by
  unfold escapeChar
  cases hshort : shortEscape style c with
  | some letter =>
    -- what stands for a character after a backslash is no newline
    obtain ⟨hspelled, -⟩ := spelledBy_of_shortEscape hshort
    have hletter : '\n' ≠ letter := by
      rintro rfl
      rw [← hspelled] at hshort
      cases hshort
    simp [hletter]
  | none =>
    have hc : '\n' ≠ c := by
      rintro rfl
      cases hshort
    simp only
    split
    · exact newline_not_mem_codePointEscape c
    · simpa using hc

/-- **A quoted text stays on its line**, whatever is quoted. -/
theorem newline_not_mem_quoted (style : EscapeStyle) (s : String) :
    '\n' ∉ (quoted style s).toList := by
  have hescape : '\n' ∉ escape style s.toList := by
    cases s.toList with
    | nil => exact List.not_mem_nil
    | cons c rest =>
      rw [escape, List.mem_append, List.mem_flatMap]
      rintro (h | ⟨d, -, h⟩)
      · exact newline_not_mem_escapeChar style true c h
      · exact newline_not_mem_escapeChar style false d h
  simp [toList_quoted, hescape]

/-! ## Lines put together -/

/-- Lines one after the other, each ended by a newline. -/
def unlines (lines : List (List Char)) : List Char :=
  lines.flatMap (· ++ ['\n'])

theorem unlines_cons (line : List Char) (rest : List (List Char)) :
    unlines (line :: rest) = line ++ '\n' :: unlines rest := by
  simp [unlines]

section

variable {lines : List (List Char)} (h : ∀ line ∈ lines, '\n' ∉ line)
include h

/-- **Lines are found again**, and nothing behind the last. -/
theorem splitOn_unlines : splitOn '\n' (unlines lines) = lines ++ [[]] := by
  induction lines with
  | nil => rfl
  | cons line rest ih =>
    rw [List.forall_mem_cons] at h
    rw [unlines_cons, splitOn_append_cons_of_not_mem h.1, ih h.2, List.cons_append]

theorem count_unlines : (unlines lines).count '\n' = lines.length := by
  induction lines with
  | nil => rfl
  | cons line rest ih =>
    rw [List.forall_mem_cons] at h
    rw [unlines_cons, List.count_append, List.count_eq_zero_of_not_mem h.1, List.count_cons_self,
      ih h.2, List.length_cons, Nat.zero_add]

end

theorem getLast?_unlines {lines : List (List Char)} (h : lines ≠ []) :
    (unlines lines).getLast? = some '\n' := by
  obtain ⟨init, last, rfl⟩ := List.eq_nil_or_concat lines |>.resolve_left h
  simp [unlines]

end CallTrace.Text
