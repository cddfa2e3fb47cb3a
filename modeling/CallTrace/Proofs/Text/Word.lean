import Mathlib.Data.List.Basic

/-!
# Words in source texts

A word ends before the first space, parenthesis or quotation mark. What it stands for is told from
the whole word: a few are reserved, some are numbers, and all others are symbols.

* `IsWord.append_inj` — a word shows where it ends
* `readDecimal_toString` — a number is read back from its decimal text
* `toString_not_reserved` — and its text is not a reserved word
-/

namespace CallTrace.Text

/-- The characters at which a word ends. -/
def separators : List Char := [' ', '(', ')', '"']

/-- What can stand between two separators. -/
structure IsWord (text : String) : Prop where
  ne_empty : text ≠ ""
  not_separator : ∀ c ∈ text.toList, c ∉ separators

theorem isWord_iff {text : String} :
    IsWord text ↔ text ≠ "" ∧ text.toList.all (· ∉ separators) = true := by
  constructor
  · rintro ⟨hne, hchars⟩
    exact ⟨hne, by simpa using hchars⟩
  · rintro ⟨hne, hchars⟩
    exact ⟨hne, by simpa using hchars⟩

instance (text : String) : Decidable (IsWord text) :=
  decidable_of_iff _ isWord_iff.symm

/-- The words that stand for something else than a symbol or a number. -/
def reservedWords : List String := ["nil", "true", "false", "<unknown>"]

/-- A word that is taken for a symbol: neither reserved nor a number. -/
structure IsSymbolToken (text : String) : Prop extends IsWord text where
  not_reserved : text ∉ reservedWords
  not_number : ∀ n : Int64, text ≠ toString n.toInt

/-- Nothing that a word could go on with. -/
def Closes (rest : List Char) : Prop :=
  ∀ c ∈ rest.head?, c ∈ separators

theorem closes_nil : Closes [] := nofun

theorem closes_cons {c : Char} (h : c ∈ separators) (rest : List Char) : Closes (c :: rest) := by
  rintro _ ⟨⟩
  exact h

theorem takeWhile_append_of_closes {word rest : List Char} (hword : ∀ c ∈ word, c ∉ separators)
    (hrest : Closes rest) : (word ++ rest).takeWhile (· ∉ separators) = word := by
  rw [List.takeWhile_append_of_pos fun c hc => decide_eq_true (hword c hc)]
  cases rest with
  | nil => exact List.append_nil word
  | cons c rest =>
    rw [List.takeWhile_cons_of_neg (by simpa using hrest c rfl), List.append_nil]

/-- **A word shows where it ends.** -/
theorem IsWord.append_inj {w w' : String} {rest rest' : List Char} (hw : IsWord w)
    (hw' : IsWord w') (hrest : Closes rest) (hrest' : Closes rest')
    (h : w.toList ++ rest = w'.toList ++ rest') : w = w' ∧ rest = rest' := by
  have hword : w.toList = w'.toList := by
    rw [← takeWhile_append_of_closes hw.not_separator hrest, h,
      takeWhile_append_of_closes hw'.not_separator hrest']
  refine ⟨String.toList_inj.mp hword, ?_⟩
  rw [hword] at h
  exact List.append_cancel_left h

/-! ## Numbers -/

/-- The number that a decimal text stands for. -/
def readDecimal : List Char → Int
  | [] => 0
  | c :: digits =>
    if c = '-' then -(Nat.ofDigitChars 10 digits 0 : Int) else Nat.ofDigitChars 10 (c :: digits) 0

theorem toList_toString_of_nonneg {i : Int} (h : 0 ≤ i) :
    (toString i).toList = Nat.toDigits 10 i.toNat := by
  rw [Int.toString_eq_repr, Int.repr_eq_if, if_pos h, Nat.toList_repr]

theorem toList_toString_of_neg {i : Int} (h : ¬0 ≤ i) :
    (toString i).toList = '-' :: Nat.toDigits 10 (-i).toNat := by
  rw [Int.toString_eq_repr, Int.repr_eq_if, if_neg h, String.toList_append, Nat.toList_repr]
  rfl

theorem isDigit_of_mem_decimal {n : Nat} {c : Char} (h : c ∈ Nat.toDigits 10 n) :
    c.isDigit = true :=
  Nat.isDigit_of_mem_toDigits (by decide) (by decide) h

/-- Whether a character can stand in the decimal text of a number. -/
def isDecimalChar (c : Char) : Bool := c = '-' || c.isDigit

theorem isDecimalChar_of_mem_toString {i : Int} {c : Char} (h : c ∈ (toString i).toList) :
    isDecimalChar c = true := by
  unfold isDecimalChar
  by_cases hi : 0 ≤ i
  · rw [toList_toString_of_nonneg hi] at h
    rw [isDigit_of_mem_decimal h, Bool.or_true]
  · rw [toList_toString_of_neg hi] at h
    rcases List.mem_cons.mp h with rfl | h
    · rfl
    · rw [isDigit_of_mem_decimal h, Bool.or_true]

theorem readDecimal_toString (i : Int) : readDecimal (toString i).toList = i := by
  by_cases hi : 0 ≤ i
  · rw [toList_toString_of_nonneg hi]
    have hvalue := Nat.ofDigitChars_ten_toDigits (n := i.toNat)
    cases hdigits : Nat.toDigits 10 i.toNat with
    | nil => exact absurd hdigits Nat.toDigits_ne_nil
    | cons c digits =>
      have hc : c ≠ '-' := by
        rintro rfl
        have hdigit := isDigit_of_mem_decimal (hdigits ▸ List.mem_cons_self)
        revert hdigit
        decide
      rw [readDecimal, if_neg hc, ← hdigits, hvalue]
      exact Int.toNat_of_nonneg hi
  · rw [toList_toString_of_neg hi, readDecimal, if_pos rfl, Nat.ofDigitChars_ten_toDigits]
    omega

theorem isWord_toString (i : Int) : IsWord (toString i) where
  ne_empty h := by
    have hempty := congrArg String.toList h
    by_cases hi : 0 ≤ i
    · rw [toList_toString_of_nonneg hi] at hempty
      exact Nat.toDigits_ne_nil hempty
    · rw [toList_toString_of_neg hi] at hempty
      cases hempty
  not_separator c hc := by
    intro hsep
    have hall : separators.all (!isDecimalChar ·) = true := by decide
    have hnot := List.all_eq_true.mp hall c hsep
    rw [isDecimalChar_of_mem_toString hc] at hnot
    contradiction

theorem ne_toString_of_any {text : String} (h : text.toList.any (!isDecimalChar ·) = true)
    (i : Int) : text ≠ toString i := by
  rintro rfl
  obtain ⟨c, hc, hnot⟩ := List.any_eq_true.mp h
  rw [isDecimalChar_of_mem_toString hc] at hnot
  contradiction

theorem toString_not_reserved (i : Int) : toString i ∉ reservedWords := by
  intro hmem
  have hall : reservedWords.all (·.toList.any (!isDecimalChar ·)) = true := by decide
  exact ne_toString_of_any (List.all_eq_true.mp hall _ hmem) i rfl

end CallTrace.Text
