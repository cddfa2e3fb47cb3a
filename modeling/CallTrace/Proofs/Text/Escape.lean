import CallTrace.Text.Escape
import Mathlib.Data.List.Basic

/-!
# Reading escaped texts back

A character is written in one of three ways, and the first characters of what is written tell
which: a backslash and a letter, a code point between braces, or the character itself. So there is
a reader that does not have to know the style, nor whether it stands at the start of the text, and
a text between quotation marks ends where this reader meets a quotation mark.

* `readChar_escapeChar` — a written character is read back, whatever follows it
* `quoted_append_inj` — a quoted text and what follows it are determined by the whole
-/

namespace CallTrace.Text

/-! ## Code points in hexadecimal -/

/-- The value of a hexadecimal digit. -/
def hexDigitValue (c : Char) : Nat :=
  if c.isDigit then c.toNat - '0'.toNat else c.toNat - 'a'.toNat + 10

/-- The number that hexadecimal digits stand for. -/
def hexValue (digits : List Char) : Nat :=
  digits.foldl (fun n c => 16 * n + hexDigitValue c) 0

theorem hexDigitValue_digitChar : ∀ d < 16, hexDigitValue d.digitChar = d := by
  decide

theorem digitChar_ne_brace : ∀ d < 16, d.digitChar ≠ '\x7d' := by
  decide

theorem hexValue_toDigits (n : Nat) : hexValue (Nat.toDigits 16 n) = n := by
  induction n using Nat.strongRecOn with
  | ind n ih =>
    rw [Nat.toDigits_eq_if (by decide)]
    by_cases hn : n < 16
    · rw [if_pos hn]
      simp [hexValue, hexDigitValue_digitChar n hn]
    · have hinit : hexValue (Nat.toDigits 16 (n / 16)) = n / 16 := ih (n / 16) (by omega)
      have hlast := hexDigitValue_digitChar (n % 16) (Nat.mod_lt n (by decide))
      rw [if_neg hn, hexValue, List.foldl_append, ← hexValue, hinit, List.foldl_cons,
        List.foldl_nil, hlast]
      exact Nat.div_add_mod n 16

/-- Every digit is the digit of a number below sixteen. -/
theorem exists_digitChar_of_mem_toDigits {n : Nat} {c : Char} (h : c ∈ Nat.toDigits 16 n) :
    ∃ d < 16, c = d.digitChar := by
  induction n using Nat.strongRecOn with
  | ind n ih =>
    rw [Nat.toDigits_eq_if (by decide)] at h
    by_cases hn : n < 16
    · rw [if_pos hn, List.mem_singleton] at h
      exact ⟨n, hn, h⟩
    · rw [if_neg hn, List.mem_append, List.mem_singleton] at h
      rcases h with h | h
      · exact ih (n / 16) (by omega) h
      · exact ⟨n % 16, Nat.mod_lt n (by decide), h⟩

theorem ne_brace_of_mem_toDigits (n : Nat) : ∀ c ∈ Nat.toDigits 16 n, c ≠ '\x7d' := by
  intro c hc
  obtain ⟨d, hd, rfl⟩ := exists_digitChar_of_mem_toDigits hc
  exact digitChar_ne_brace d hd

/-! ## One character -/

/-- The character that a letter stands for after a backslash. -/
def spelledBy (letter : Char) : Char :=
  if letter = '0' then '\x00'
  else if letter = 't' then '\t'
  else if letter = 'n' then '\n'
  else if letter = 'r' then '\r'
  else letter

/-- Reads a code point up to the closing brace. -/
def readCodePoint (text : List Char) : Char × List Char :=
  (Char.ofNat (hexValue (text.takeWhile (· ≠ '\x7d'))), (text.dropWhile (· ≠ '\x7d')).drop 1)

/-- Reads one character of an escaped text; there is none before a quotation mark. -/
def readChar : List Char → Option (Char × List Char)
  | [] => none
  | c :: text =>
    if c = '"' then none
    else if c = '\\' then
      match text with
      | [] => none
      | letter :: text =>
        if letter = 'u' then some (readCodePoint (text.drop 1))
        else some (spelledBy letter, text)
    else some (c, text)

theorem readChar_quote (rest : List Char) : readChar ('"' :: rest) = none := rfl

variable {style : EscapeStyle} {c letter : Char}

/-- A letter after a backslash stands for one character only, and is not the one that introduces a
code point. -/
theorem spelledBy_of_shortEscape (h : shortEscape style c = some letter) :
    spelledBy letter = c ∧ letter ≠ 'u' := by
  unfold shortEscape at h
  split_ifs at h with h0 ht hn hr hb hq ha
  all_goals cases h
  -- the apostrophe is the last one, and the only one that depends on the style
  on_goal 7 => obtain ⟨hc, -⟩ := Bool.and_eq_true_iff.mp ha; replace hc := of_decide_eq_true hc
  all_goals subst c; exact ⟨rfl, by decide⟩

/-- What is written as it is can be mistaken neither for an escape nor for the end. -/
theorem ne_of_shortEscape_eq_none (h : shortEscape style c = none) : c ≠ '\\' ∧ c ≠ '"' := by
  constructor
  · rintro rfl
    cases h
  · rintro rfl
    cases h

theorem readCodePoint_toDigits (c : Char) (rest : List Char) :
    readCodePoint (Nat.toDigits 16 c.toNat ++ '\x7d' :: rest) = (c, rest) := by
  have hdigits : ∀ d ∈ Nat.toDigits 16 c.toNat, decide (d ≠ '\x7d') = true := fun d hd =>
    decide_eq_true (ne_brace_of_mem_toDigits c.toNat d hd)
  rw [readCodePoint, List.takeWhile_append_of_pos hdigits, List.dropWhile_append_of_pos hdigits,
    List.takeWhile_cons_of_neg (by decide), List.dropWhile_cons_of_neg (by decide),
    List.append_nil, hexValue_toDigits, Char.ofNat_toNat]
  rfl

theorem readChar_codePointEscape (c : Char) (rest : List Char) :
    readChar (codePointEscape c ++ rest) = some (c, rest) := by
  have hwritten : codePointEscape c ++ rest =
      '\\' :: 'u' :: '\x7b' :: (Nat.toDigits 16 c.toNat ++ '\x7d' :: rest) := by
    simp [codePointEscape]
  rw [hwritten]
  exact congrArg some (readCodePoint_toDigits c rest)

/-- **A written character is read back**, whatever the style, the position and what follows. -/
theorem readChar_escapeChar (style : EscapeStyle) (atStart : Bool) (c : Char) (rest : List Char) :
    readChar (escapeChar style atStart c ++ rest) = some (c, rest) := by
  cases hshort : shortEscape style c with
  | some letter =>
    obtain ⟨hspelled, hu⟩ := spelledBy_of_shortEscape hshort
    simp [escapeChar, hshort, readChar, hu, hspelled]
  | none =>
    obtain ⟨hbackslash, hquote⟩ := ne_of_shortEscape_eq_none hshort
    simp only [escapeChar, hshort]
    split
    · exact readChar_codePointEscape c rest
    · simp [readChar, hbackslash, hquote]

theorem escapeChar_append_inj {atStart : Bool} {c c' : Char} {rest rest' : List Char}
    (h : escapeChar style atStart c ++ rest = escapeChar style atStart c' ++ rest') :
    c = c' ∧ rest = rest' := by
  have hread := congrArg readChar h
  rw [readChar_escapeChar, readChar_escapeChar] at hread
  cases hread
  exact ⟨rfl, rfl⟩

theorem escapeChar_append_ne_quote (atStart : Bool) (c : Char) (rest rest' : List Char) :
    escapeChar style atStart c ++ rest ≠ '"' :: rest' := by
  intro h
  have hread := congrArg readChar h
  rw [readChar_escapeChar, readChar_quote] at hread
  cases hread

/-! ## Quoted texts -/

/-- What is written for the characters after the first one ends at the quotation mark. -/
theorem flatMap_escapeChar_append_inj {cs cs' rest rest' : List Char}
    (h : cs.flatMap (escapeChar style false) ++ '"' :: rest =
      cs'.flatMap (escapeChar style false) ++ '"' :: rest') : cs = cs' ∧ rest = rest' := by
  induction cs generalizing cs' with
  | nil =>
    cases cs' with
    | nil => exact ⟨rfl, (List.cons.inj h).2⟩
    | cons c' cs' =>
      rw [List.flatMap_cons, List.append_assoc] at h
      exact (escapeChar_append_ne_quote _ _ _ _ h.symm).elim
  | cons c cs ih =>
    rw [List.flatMap_cons, List.append_assoc] at h
    cases cs' with
    | nil => exact (escapeChar_append_ne_quote _ _ _ _ h).elim
    | cons c' cs' =>
      rw [List.flatMap_cons, List.append_assoc] at h
      obtain ⟨rfl, htail⟩ := escapeChar_append_inj h
      obtain ⟨rfl, rfl⟩ := ih htail
      exact ⟨rfl, rfl⟩

theorem escape_append_inj {cs cs' rest rest' : List Char}
    (h : escape style cs ++ '"' :: rest = escape style cs' ++ '"' :: rest') :
    cs = cs' ∧ rest = rest' := by
  cases cs with
  | nil =>
    cases cs' with
    | nil => exact ⟨rfl, (List.cons.inj h).2⟩
    | cons c' cs' =>
      rw [escape, escape, List.append_assoc] at h
      exact (escapeChar_append_ne_quote _ _ _ _ h.symm).elim
  | cons c cs =>
    rw [escape, List.append_assoc] at h
    cases cs' with
    | nil => exact (escapeChar_append_ne_quote _ _ _ _ h).elim
    | cons c' cs' =>
      -- the first character is written by a rule of its own, all others by one rule
      rw [escape, List.append_assoc] at h
      obtain ⟨rfl, htail⟩ := escapeChar_append_inj h
      obtain ⟨rfl, rfl⟩ := flatMap_escapeChar_append_inj htail
      exact ⟨rfl, rfl⟩

theorem toList_quoted (style : EscapeStyle) (s : String) :
    (quoted style s).toList = '"' :: (escape style s.toList ++ ['"']) :=
  String.toList_ofList

/-- **A quoted text shows where it ends**, and which text it is. -/
theorem quoted_append_inj {s s' : String} {rest rest' : List Char}
    (h : (quoted style s).toList ++ rest = (quoted style s').toList ++ rest') :
    s = s' ∧ rest = rest' := by
  simp only [toList_quoted, List.cons_append, List.append_assoc, List.nil_append,
    List.cons.injEq, true_and] at h
  obtain ⟨htext, hrest⟩ := escape_append_inj h
  exact ⟨String.toList_inj.mp htext, hrest⟩

end CallTrace.Text
