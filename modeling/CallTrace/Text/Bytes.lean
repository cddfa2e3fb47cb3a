/-!
# Texts as UTF-8 bytes

Names are ordered, and texts are hashed, by the bytes of their UTF-8 form.
-/

namespace CallTrace.Text

/-- The UTF-8 bytes of a text. -/
def utf8 (s : String) : List UInt8 :=
  s.toByteArray.data.toList

/-- A text is determined by its bytes. -/
theorem utf8_inj {s t : String} : utf8 s = utf8 t ↔ s = t := by
  refine ⟨fun h => ?_, fun h => h ▸ rfl⟩
  exact String.toByteArray_inj.mp (ByteArray.ext (Array.toList_inj.mp h))

/-- The order of texts by their bytes. -/
def ByteLt (s t : String) : Prop :=
  utf8 s < utf8 t

instance (s t : String) : Decidable (ByteLt s t) :=
  inferInstanceAs (Decidable (utf8 s < utf8 t))

theorem ByteLt.trans {s t u : String} (hst : ByteLt s t) (htu : ByteLt t u) : ByteLt s u :=
  List.lt_trans hst htu

theorem ByteLt.asymm {s t : String} (h : ByteLt s t) : ¬ByteLt t s :=
  List.lt_asymm h

theorem ByteLt.ne {s t : String} (h : ByteLt s t) : s ≠ t := by
  rintro rfl
  exact h.asymm h

/-- Of two different texts one comes first. -/
theorem byteLt_of_not_byteLt {s t : String} (hne : s ≠ t) (h : ¬ByteLt s t) : ByteLt t s := by
  unfold ByteLt at h ⊢
  rw [List.not_lt] at h
  by_cases hts : utf8 t < utf8 s
  · exact hts
  · rw [List.not_lt] at hts
    exact absurd (utf8_inj.mp (List.le_antisymm hts h)) hne

/-- A text does not come after another one. -/
def ByteLe (s t : String) : Prop :=
  ¬ByteLt t s

instance (s t : String) : Decidable (ByteLe s t) :=
  inferInstanceAs (Decidable (¬ByteLt t s))

/-! ## Sorting -/

variable {α : Type}

/-- Puts an item among others that are in the byte order of a text of theirs. -/
def insertBy (text : α → String) (a : α) : List α → List α
  | [] => [a]
  | b :: rest =>
    if ByteLe (text a) (text b) then a :: b :: rest
    else b :: insertBy text a rest

/-- Some items in the byte order of a text of theirs. -/
def sortBy (text : α → String) (items : List α) : List α :=
  items.foldr (insertBy text) []

end CallTrace.Text
