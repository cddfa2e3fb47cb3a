import CallTrace.Diagnostics
import CallTrace.Proofs.Text.Keyword
import Mathlib.Data.Nat.Bitwise

/-!
# Which diagnostics a setting names

A set of flags is known by the flags it has, and a union has the flags of either side. So the set
that a setting names has a flag exactly if one of its keywords stands for it, whatever the order of
the keywords and however often each is there.

* `contains_iff` — one set contains another if it has all its flags
* `has_parse` — the flags that a setting names
* `parse_append_comma`, `has_parse_intercalate` — settings put together name what each of them names
* `parse_reads_words` — all that matters about a setting are the known words among its parts
-/

namespace CallTrace.Diagnostics

/-! ## Flags of a set -/

/-- Whether a set has the flag with this number. -/
def has (d : Diagnostics) (i : Nat) : Bool :=
  d.bits.toNat.testBit i

theorem ext_has {a b : Diagnostics} (h : ∀ i, a.has i = b.has i) : a = b := by
  have hbits : a.bits = b.bits := UInt32.toNat_inj.mp (Nat.eq_of_testBit_eq h)
  cases a
  cases b
  exact congrArg mk hbits

@[simp] theorem has_none (i : Nat) : none.has i = false :=
  Nat.zero_testBit i

@[simp] theorem has_union (a b : Diagnostics) (i : Nat) :
    (a.union b).has i = (a.has i || b.has i) := by
  simp [has, union]

@[simp] theorem has_calls (i : Nat) : calls.has i = true ↔ i = 0 := by
  simp [has, calls, Nat.testBit_one_eq_true_iff_self_eq_zero]

@[simp] theorem has_tracebacks (i : Nat) : tracebacks.has i = true ↔ i = 1 := by
  have h : tracebacks.has i = (2 ^ 1).testBit i := rfl
  rw [h, Nat.testBit_two_pow, decide_eq_true_iff, eq_comm]

/-- **A set contains another if it has all its flags.** -/
theorem contains_iff {a b : Diagnostics} :
    a.contains b = true ↔ ∀ i, b.has i = true → a.has i = true := by
  have hbits : a.contains b = true ↔ a.bits.toNat &&& b.bits.toNat = b.bits.toNat := by
    rw [contains, decide_eq_true_iff, ← UInt32.toNat_inj, UInt32.toNat_and]
  rw [hbits]
  constructor
  · intro h i hi
    have hboth : (a.bits.toNat &&& b.bits.toNat).testBit i = true := by rw [h]; exact hi
    rw [Nat.testBit_and, Bool.and_eq_true] at hboth
    exact hboth.1
  · intro h
    refine Nat.eq_of_testBit_eq fun i => ?_
    rw [Nat.testBit_and]
    cases hi : b.bits.toNat.testBit i with
    | false => exact Bool.and_false _
    | true => rw [Bool.and_true]; exact h i hi

/-! ## Flags of a setting -/

/-- The words that stand for something. -/
def words : List String := ["stack", "traceback", "all"]

theorem has_ofKeyword {word : List Char} {i : Nat} :
    (ofKeyword word).has i = true ↔
      i = 0 ∧ (word = "stack".toList ∨ word = "all".toList) ∨
        i = 1 ∧ (word = "traceback".toList ∨ word = "all".toList) := by
  unfold ofKeyword
  split_ifs with hstack htraceback hall
  · subst hstack; simp
  · subst htraceback; simp
  · subst hall; simp [all]
  · simp only [hstack, htraceback, hall, has_none, Bool.false_eq_true, or_self, and_false]

theorem has_foldl_union (keywords : List (List Char)) (d : Diagnostics) (i : Nat) :
    (keywords.foldl (fun set word => set.union (ofKeyword word)) d).has i =
      (d.has i || keywords.any fun word => (ofKeyword word).has i) := by
  induction keywords generalizing d with
  | nil => simp
  | cons word rest ih => rw [List.foldl_cons, ih, has_union, List.any_cons, Bool.or_assoc]

/-- **A setting names the flags of its keywords.** -/
theorem has_parse (s : String) (i : Nat) :
    (parse s).has i = (Text.keywords s).any fun word => (ofKeyword word).has i := by
  rw [parse, has_foldl_union, has_none, Bool.false_or]

theorem parse_append_comma (s t : String) : parse (s ++ "," ++ t) = (parse s).union (parse t) := by
  refine ext_has fun i => ?_
  rw [has_union, has_parse, has_parse, has_parse, Text.keywords_append_comma, List.any_append]

theorem has_parse_intercalate (settings : List String) (i : Nat) :
    (parse (",".intercalate settings)).has i = settings.any fun s => (parse s).has i := by
  induction settings with
  | nil =>
    have hnothing : parse "" = none := by decide
    rw [String.intercalate_nil, hnothing, has_none, List.any_nil]
  | cons s rest ih =>
    cases rest with
    | nil => simp
    | cons t rest =>
      rw [String.intercalate_cons_of_ne_nil (List.cons_ne_nil t rest), parse_append_comma,
        has_union, ih]
      rfl

theorem parse_of_trim_eq {s t : String} (h : Text.trim s.toList = Text.trim t.toList) :
    parse s = parse t := by
  rw [parse, parse, Text.keywords_of_trim_eq h]

/-! ## The words of a setting -/

variable (l : Text.Lowercasing)

theorem ascii_of_mem_words : ∀ word ∈ words, ∀ c ∈ word.toList, c.toNat < 128 := by
  have hall : words.all (·.toList.all (·.toNat < 128)) = true := by decide
  simpa only [List.all_eq_true, decide_eq_true_eq] using hall

theorem names_iff_mem_keywords (s : String) {word : String} (h : word ∈ words) :
    l.Names s word ↔ word.toList ∈ Text.keywords s :=
  l.names_iff s (ascii_of_mem_words word h)

theorem has_parse_iff (s : String) (i : Nat) :
    (parse s).has i = true ↔
      i = 0 ∧ (l.Names s "stack" ∨ l.Names s "all") ∨
        i = 1 ∧ (l.Names s "traceback" ∨ l.Names s "all") := by
  rw [names_iff_mem_keywords l s (by decide), names_iff_mem_keywords l s (by decide),
    names_iff_mem_keywords l s (by decide), has_parse, List.any_eq_true]
  simp only [has_ofKeyword]
  constructor
  · rintro ⟨word, hmem, ⟨hi, rfl | rfl⟩ | ⟨hi, rfl | rfl⟩⟩
    · exact Or.inl ⟨hi, Or.inl hmem⟩
    · exact Or.inl ⟨hi, Or.inr hmem⟩
    · exact Or.inr ⟨hi, Or.inl hmem⟩
    · exact Or.inr ⟨hi, Or.inr hmem⟩
  · rintro (⟨hi, hmem | hmem⟩ | ⟨hi, hmem | hmem⟩)
    · exact ⟨_, hmem, Or.inl ⟨hi, Or.inl rfl⟩⟩
    · exact ⟨_, hmem, Or.inl ⟨hi, Or.inr rfl⟩⟩
    · exact ⟨_, hmem, Or.inr ⟨hi, Or.inl rfl⟩⟩
    · exact ⟨_, hmem, Or.inr ⟨hi, Or.inr rfl⟩⟩

/-- One of the words that stand for something is named. -/
def NamesSome (s : String) : Prop :=
  ∃ word ∈ words, l.Names s word

theorem namesSome_iff {s : String} :
    NamesSome l s ↔ ∃ word ∈ words, word.toList ∈ Text.keywords s :=
  exists_congr fun _ => and_congr_right fun hword => names_iff_mem_keywords l s hword

instance (s : String) : Decidable (NamesSome l s) :=
  decidable_of_iff _ (namesSome_iff l).symm

theorem namesSome_of_has {s : String} {i : Nat} (h : (parse s).has i = true) : NamesSome l s := by
  rcases (has_parse_iff l s i).mp h with ⟨-, h | h⟩ | ⟨-, h | h⟩
  all_goals exact ⟨_, by decide, h⟩

/-- What is named by some settings is named by others, if each that names something is among the
others, up to white space. -/
theorem has_parse_intercalate_of_forall {settings others : List String}
    (h : ∀ s ∈ settings, NamesSome l s →
      ∃ t ∈ others, Text.trim t.toList = Text.trim s.toList) {i : Nat}
    (hi : (parse (",".intercalate settings)).has i = true) :
    (parse (",".intercalate others)).has i = true := by
  rw [has_parse_intercalate, List.any_eq_true] at hi ⊢
  obtain ⟨s, hs, hhas⟩ := hi
  obtain ⟨t, ht, htrim⟩ := h s hs (namesSome_of_has l hhas)
  exact ⟨t, ht, parse_of_trim_eq htrim ▸ hhas⟩

/-- **All that matters about a setting are the known words among its parts.** Take the parts between
commas, without the white space around them and in lower case. The events of the call stack are
logged if and only if one of these is `stack` or `all`, the tracebacks if and only if one of them
is `traceback` or `all`, and nothing else is. So two settings with a comma between them name what
either of them names. And it makes no difference in which order settings are put together, how often
each is there, how much white space is around it, and which others are there that name nothing. -/
theorem parse_reads_words :
    (∀ s, ((parse s).contains calls = true ↔ l.Names s "stack" ∨ l.Names s "all") ∧
      ((parse s).contains tracebacks = true ↔ l.Names s "traceback" ∨ l.Names s "all") ∧
      all.contains (parse s) = true) ∧
    (∀ s t, parse (s ++ "," ++ t) = (parse s).union (parse t)) ∧
    (∀ settings others : List String,
      (∀ s ∈ settings, NamesSome l s → ∃ t ∈ others, Text.trim t.toList = Text.trim s.toList) →
      (∀ t ∈ others, NamesSome l t → ∃ s ∈ settings, Text.trim s.toList = Text.trim t.toList) →
      parse (",".intercalate settings) = parse (",".intercalate others)) := by
  refine ⟨fun s => ⟨?_, ?_, ?_⟩, parse_append_comma, ?_⟩
  · rw [contains_iff]
    simp [has_parse_iff l]
  · rw [contains_iff]
    simp [has_parse_iff l]
  · rw [contains_iff]
    intro i hi
    rcases (has_parse_iff l s i).mp hi with ⟨rfl, -⟩ | ⟨rfl, -⟩
    · rfl
    · rfl
  · intro settings others hsettings hothers
    refine ext_has fun i => Bool.eq_iff_iff.mpr ⟨?_, ?_⟩
    · exact has_parse_intercalate_of_forall l hsettings
    · exact has_parse_intercalate_of_forall l hothers

/-- The parts of a setting in another order, with other white space, one of them twice and with
other unknown ones. The `k` of `stack` is a Kelvin sign, and the lower case of one unknown part is
longer than the part. -/
theorem parse_reads_words_scattered :
    let l := Text.Lowercasing.plain
    let settings := ["\tStac\u212a\u3000", "\u0130", "tokens", "TraceBack "]
    let others := ["\u2028TraceBack", "", "Stac\u212a", " Stac\u212a", "sta ck"]
    (∀ s ∈ settings, NamesSome l s → ∃ t ∈ others, Text.trim t.toList = Text.trim s.toList) ∧
      (∀ t ∈ others, NamesSome l t → ∃ s ∈ settings, Text.trim s.toList = Text.trim t.toList) ∧
      ¬NamesSome l "\u0130" ∧
      parse (",".intercalate settings) = parse (",".intercalate others) ∧
      parse (",".intercalate others) = all ∧
      (l.Names (",".intercalate others) "stack" ∨ l.Names (",".intercalate others) "all") := by
  intro l settings others
  have hsettings : ∀ s ∈ settings, NamesSome l s →
      ∃ t ∈ others, Text.trim t.toList = Text.trim s.toList := by decide +kernel
  have hothers : ∀ t ∈ others, NamesSome l t →
      ∃ s ∈ settings, Text.trim s.toList = Text.trim t.toList := by decide +kernel
  have hall : parse (",".intercalate others) = all := by decide +kernel
  obtain ⟨hflags, -, hlists⟩ := parse_reads_words l
  refine ⟨hsettings, hothers, by decide +kernel, hlists settings others hsettings hothers, hall, ?_⟩
  exact (hflags (",".intercalate others)).1.mp (by rw [hall]; decide)

end CallTrace.Diagnostics
