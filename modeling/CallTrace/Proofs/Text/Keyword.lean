import CallTrace.Proofs.Text.Split
import Mathlib.Data.List.DropRight

/-!
# Keywords, however they are written

White space around a keyword does not matter, and neither does white space around a whole list of
them: it belongs to the first or to the last part, and is taken off there. Nor does the case of
letters matter. The lower case of a character can be several characters long and can depend on what
stands next to it, but where an ASCII word comes out, each of its letters was an ASCII letter or the
Kelvin sign. So it is enough to know the lower case of these.

* `map_trim_splitOn_padded` — white space around a text changes none of its trimmed parts
* `Lowercasing.lower_eq_iff` — any lower-casing gives an ASCII word where `lowerLetter` gives it
* `Lowercasing.names_iff` — what is named by a list of keywords
-/

namespace CallTrace.Text

/-! ## White space -/

/-- All of the text is white space. -/
def Blank (text : List Char) : Prop :=
  ∀ c ∈ text, isBlank c = true

theorem Blank.reverse {text : List Char} (h : Blank text) : Blank text.reverse :=
  fun c hc => h c (List.mem_reverse.mp hc)

theorem Blank.not_mem {text : List Char} {sep : Char} (h : Blank text)
    (hsep : isBlank sep = false) : sep ∉ text := by
  intro hmem
  rw [h sep hmem] at hsep
  contradiction

theorem trim_of_blank {text : List Char} (h : Blank text) : trim text = [] := by
  unfold trim
  rw [List.dropWhile_eq_nil_iff.mpr h]
  rfl

theorem trim_blank_append {before : List Char} (h : Blank before) (text : List Char) :
    trim (before ++ text) = trim text := by
  unfold trim
  rw [List.dropWhile_append_of_pos h]

theorem trim_append_blank {after : List Char} (h : Blank after) (text : List Char) :
    trim (text ++ after) = trim text := by
  by_cases htext : Blank text
  · rw [trim_blank_append htext, trim_of_blank h, trim_of_blank htext]
  · -- something is left of the text, so only its end is next to the white space
    unfold trim
    rw [List.dropWhile_append, if_neg (by simpa [Blank] using htext), List.reverse_append,
      List.dropWhile_append_of_pos h.reverse]

/-- A text is its trimmed form with white space around it. -/
theorem exists_eq_padded (text : List Char) :
    ∃ before after, Blank before ∧ Blank after ∧ text = before ++ trim text ++ after := by
  refine ⟨text.takeWhile isBlank, (text.dropWhile isBlank).rtakeWhile isBlank,
    fun c => List.mem_takeWhile_imp, fun c => List.mem_rtakeWhile_imp, ?_⟩
  have htrim : trim text = (text.dropWhile isBlank).rdropWhile isBlank := rfl
  rw [htrim, List.append_assoc, List.rdropWhile_append_rtakeWhile,
    List.takeWhile_append_dropWhile]

section

variable {sep : Char} (hsep : isBlank sep = false)
include hsep

theorem map_trim_splitOn_blank_append {before : List Char} (h : Blank before) (text : List Char) :
    (splitOn sep (before ++ text)).map trim = (splitOn sep text).map trim := by
  have hbefore : sep ∉ before := h.not_mem hsep
  by_cases hmem : sep ∈ text
  · obtain ⟨first, rest, rfl, hfirst⟩ := List.eq_append_cons_of_mem hmem
    rw [← List.append_assoc, splitOn_append_cons_of_not_mem (by simp [hbefore, hfirst]),
      splitOn_append_cons_of_not_mem hfirst, List.map_cons, List.map_cons, trim_blank_append h]
  · rw [splitOn_of_not_mem (by simp [hbefore, hmem]), splitOn_of_not_mem hmem, List.map_singleton,
      List.map_singleton, trim_blank_append h]

theorem map_trim_splitOn_append_blank {after : List Char} (h : Blank after) (text : List Char) :
    (splitOn sep (text ++ after)).map trim = (splitOn sep text).map trim := by
  have hafter : sep ∉ after := h.not_mem hsep
  by_cases hmem : sep ∈ text
  · -- the last part, behind the last separator
    obtain ⟨last, rest, hlast, hnot⟩ := List.eq_append_cons_of_mem (List.mem_reverse.mpr hmem)
    obtain rfl : text = rest.reverse ++ sep :: last.reverse := by
      rw [← List.reverse_reverse text, hlast]
      simp
    have hlast' : splitOn sep last.reverse = [last.reverse] :=
      splitOn_of_not_mem (by simp [hnot])
    have hpadded : splitOn sep (last.reverse ++ after) = [last.reverse ++ after] :=
      splitOn_of_not_mem (by simp [hnot, hafter])
    rw [List.append_assoc, List.cons_append, splitOn_append_cons, splitOn_append_cons, hlast',
      hpadded, List.map_append, List.map_append, List.map_singleton, List.map_singleton,
      trim_append_blank h]
  · rw [splitOn_of_not_mem (by simp [hafter, hmem]), splitOn_of_not_mem hmem, List.map_singleton,
      List.map_singleton, trim_append_blank h]

/-- **White space around a text changes none of its trimmed parts.** -/
theorem map_trim_splitOn_padded (text : List Char) :
    (splitOn sep text).map trim = (splitOn sep (trim text)).map trim := by
  obtain ⟨before, after, hbefore, hafter, htext⟩ := exists_eq_padded text
  calc (splitOn sep text).map trim
      = (splitOn sep (before ++ trim text ++ after)).map trim := by rw [← htext]
    _ = (splitOn sep (before ++ trim text)).map trim :=
      map_trim_splitOn_append_blank hsep hafter _
    _ = (splitOn sep (trim text)).map trim := map_trim_splitOn_blank_append hsep hbefore _

end

theorem keywords_eq (s : String) :
    keywords s = ((splitOn ',' s.toList).map trim).map (List.map lowerLetter) := by
  rw [List.map_map]
  rfl

theorem keywords_of_trim_eq {s t : String} (h : trim s.toList = trim t.toList) :
    keywords s = keywords t := by
  have hcomma : isBlank ',' = false := by decide
  rw [keywords_eq, keywords_eq, map_trim_splitOn_padded hcomma, h,
    ← map_trim_splitOn_padded hcomma]

theorem keywords_append_comma (s t : String) :
    keywords (s ++ "," ++ t) = keywords s ++ keywords t := by
  have hchars : (s ++ "," ++ t).toList = s.toList ++ ',' :: t.toList := by simp
  rw [keywords, hchars, splitOn_append_cons, List.map_append]
  rfl

/-! ## Lower case -/

/-- A text that can be the lower case of a character. In ASCII only capitals have another lower
case, and of all other characters only the Kelvin sign has one within ASCII: in the lower case of
the others, which need not be a single character, there is one that is not ASCII. -/
inductive LowersTo : Char → List Char → Prop
  | ascii {c : Char} (h : c.toNat < 128) : LowersTo c [c.toLower]
  | kelvin : LowersTo '\u212a' ['k']
  | other {c d : Char} {lower : List Char} (hc : 128 ≤ c.toNat) (hkelvin : c ≠ '\u212a')
      (hmem : d ∈ lower) (hd : 128 ≤ d.toNat) : LowersTo c lower

/-- A way to lower-case texts: each character is replaced by a lower case of it, which may be
chosen by what stands around the character. -/
structure Lowercasing where
  lower : List Char → List Char
  characterwise : ∀ text, ∃ pieces, List.Forall₂ LowersTo text pieces ∧ lower text = pieces.flatten

theorem lowerLetter_of_ascii {c : Char} (h : c.toNat < 128) : lowerLetter c = c.toLower := by
  have hall : ∀ n < 128, lowerLetter (Char.ofNat n) = (Char.ofNat n).toLower := by decide
  have hc := hall c.toNat h
  rwa [Char.ofNat_toNat] at hc

theorem lowerLetter_of_other {c : Char} (hc : 128 ≤ c.toNat) (hkelvin : c ≠ '\u212a') :
    lowerLetter c = c := by
  have hnot : ¬('A' ≤ c ∧ c ≤ 'Z') := by
    rintro ⟨-, hle⟩
    have hle' : c.toNat ≤ 90 := hle
    omega
  rw [lowerLetter, if_neg hnot, if_neg hkelvin]

/-- Where lower-casing gives an ASCII word, it is enough to know the lower case of letters. -/
theorem flatten_eq_iff {text : List Char} {pieces : List (List Char)}
    (h : List.Forall₂ LowersTo text pieces) {word : List Char}
    (hword : ∀ c ∈ word, c.toNat < 128) :
    pieces.flatten = word ↔ text.map lowerLetter = word := by
  induction h generalizing word with
  | nil => rfl
  | @cons c piece text pieces hc _ ih =>
    -- a single letter is the first of the word, and the others are those of the rest
    have hletter (hpiece : piece = [lowerLetter c]) : (piece :: pieces).flatten = word ↔
        (c :: text).map lowerLetter = word := by
      subst hpiece
      cases word with
      | nil => simp
      | cons d word =>
        have hrest := ih fun e he => hword e (List.mem_cons_of_mem _ he)
        simp [hrest]
    cases hc with
    | ascii hascii => exact hletter (by rw [lowerLetter_of_ascii hascii])
    | kelvin => exact hletter rfl
    | @other _ d _ hc hkelvin hmem hd =>
      refine iff_of_false ?_ ?_
      · rintro rfl
        have := hword d (List.mem_flatten.mpr ⟨piece, List.mem_cons_self, hmem⟩)
        omega
      · rintro rfl
        have := hword (lowerLetter c) (by simp)
        rw [lowerLetter_of_other hc hkelvin] at this
        omega

namespace Lowercasing

/-- **Any lower-casing gives an ASCII word where `lowerLetter` gives it.** -/
theorem lower_eq_iff (l : Lowercasing) {text word : List Char}
    (hword : ∀ c ∈ word, c.toNat < 128) : l.lower text = word ↔ text.map lowerLetter = word := by
  obtain ⟨pieces, hpieces, hlower⟩ := l.characterwise text
  rw [hlower, flatten_eq_iff hpieces hword]

/-- Lower-casing that does not look at what stands around a character. -/
def ofChar (f : Char → List Char) (h : ∀ c, LowersTo c (f c)) : Lowercasing where
  lower := List.flatMap f
  characterwise text := by
    refine ⟨text.map f, ?_, List.flatMap_def⟩
    induction text with
    | nil => exact .nil
    | cons c rest ih => exact .cons (h c) ih

/-- The lower case of letters, and of the one character whose lower case is longer than itself. -/
def lowerChar (c : Char) : List Char :=
  if c = '\u0130' then ['i', '\u0307'] else [lowerLetter c]

theorem lowersTo_lowerChar (c : Char) : LowersTo c (lowerChar c) := by
  unfold lowerChar
  by_cases hdotted : c = '\u0130'
  · rw [if_pos hdotted, hdotted]
    exact .other (d := '\u0307') (by decide) (by decide) (by decide) (by decide)
  · rw [if_neg hdotted]
    by_cases hascii : c.toNat < 128
    · rw [lowerLetter_of_ascii hascii]
      exact .ascii hascii
    · have hc : 128 ≤ c.toNat := Nat.le_of_not_lt hascii
      by_cases hkelvin : c = '\u212a'
      · rw [hkelvin]
        exact .kelvin
      · rw [lowerLetter_of_other hc hkelvin]
        exact .other hc hkelvin (List.mem_singleton_self c) hc

/-- Lower-casing as far as it is known here. -/
def plain : Lowercasing := ofChar lowerChar lowersTo_lowerChar

/-- One of the parts of a text between commas, without the white space around it and in lower case,
is the word. -/
def Names (l : Lowercasing) (s word : String) : Prop :=
  ∃ part, IsPart ',' s.toList part ∧ l.lower (trim part) = word.toList

/-- **What is named are the keywords.** -/
theorem names_iff (l : Lowercasing) (s : String) {word : String}
    (hword : ∀ c ∈ word.toList, c.toNat < 128) :
    l.Names s word ↔ word.toList ∈ keywords s := by
  unfold Names keywords
  simp only [List.mem_map, mem_splitOn_iff, keyword, l.lower_eq_iff hword]

end Lowercasing

end CallTrace.Text
