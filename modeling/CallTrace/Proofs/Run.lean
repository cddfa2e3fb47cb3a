import CallTrace.Breakdown

/-!
# Runs

Something that is used step by step: a step gives an answer and the state it leaves. What holds of
every step is carried over to runs here, once and for all. Where a step may also give no result, a
run ends there and gives none either.

* `runAll_preserves`, `tryAll_preserves`, `foldlM_preserves` — what no step breaks, no run breaks
* `runAll_simulation`, `tryAll_simulation` — two machines that answer alike step by step answer
  alike in every run
-/

namespace CallTrace

variable {σ τ ι α ε : Type}

/-! ## Steps that always give a result -/

/-- Takes steps one after the other. Gives their answers, in order, and the state they lead to. -/
def runAll (step : σ → ι → α × σ) : σ → List ι → List α × σ
  | s, [] => ([], s)
  | s, i :: rest =>
    let later := runAll step (step s i).2 rest
    ((step s i).1 :: later.1, later.2)

@[simp] theorem runAll_nil (step : σ → ι → α × σ) (s : σ) : runAll step s [] = ([], s) := rfl

@[simp] theorem runAll_cons (step : σ → ι → α × σ) (s : σ) (i : ι) (rest : List ι) :
    runAll step s (i :: rest) =
      ((step s i).1 :: (runAll step (step s i).2 rest).1, (runAll step (step s i).2 rest).2) := rfl

/-- What every step preserves holds after every run. -/
theorem runAll_preserves {step : σ → ι → α × σ} {p : σ → Prop}
    (hstep : ∀ s i, p s → p (step s i).2) :
    ∀ (is : List ι) {s : σ}, p s → p (runAll step s is).2 := by
  intro is
  induction is with
  | nil => intro s hs; exact hs
  | cons i rest ih =>
    intro s hs
    rw [runAll_cons]
    exact ih (hstep s i hs)

/-- Related states whose steps give the same answers and stay related give the same answers in
every run. -/
theorem runAll_simulation {f : σ → ι → α × σ} {g : τ → ι → α × τ} {r : σ → τ → Prop}
    (hstep : ∀ s t i, r s t → (f s i).1 = (g t i).1 ∧ r (f s i).2 (g t i).2) :
    ∀ (is : List ι) {s : σ} {t : τ}, r s t →
      (runAll f s is).1 = (runAll g t is).1 ∧ r (runAll f s is).2 (runAll g t is).2 := by
  intro is
  induction is with
  | nil => intro s t hst; exact ⟨rfl, hst⟩
  | cons i rest ih =>
    intro s t hst
    obtain ⟨hanswer, hnext⟩ := hstep s t i hst
    obtain ⟨hanswers, hlast⟩ := ih hnext
    rw [runAll_cons, runAll_cons]
    exact ⟨by rw [hanswer, hanswers], hlast⟩

/-! ## Steps that may give none -/

/-- Takes steps one after the other, until one of them gives no result. -/
def tryAll (step : σ → ι → Except ε (α × σ)) : σ → List ι → Except ε (List α × σ)
  | s, [] => .ok ([], s)
  | s, i :: rest => do
    let (answer, s) ← step s i
    let (answers, s) ← tryAll step s rest
    .ok (answer :: answers, s)

variable {step : σ → ι → Except ε (α × σ)}

theorem tryAll_cons_eq_ok_iff {s s' : σ} {i : ι} {rest : List ι} {answers : List α} :
    tryAll step s (i :: rest) = .ok (answers, s') ↔
      ∃ answer next later, step s i = .ok (answer, next) ∧
        tryAll step next rest = .ok (later, s') ∧ answers = answer :: later := by
  simp only [tryAll, bind_eq_ok_iff, Prod.exists, Except.ok.injEq, Prod.mk.injEq]
  constructor
  · rintro ⟨answer, next, hstep, later, _, hrest, rfl, rfl⟩
    exact ⟨answer, next, later, hstep, hrest, rfl⟩
  · rintro ⟨answer, next, later, hstep, hrest, rfl⟩
    exact ⟨answer, next, hstep, later, s', hrest, rfl, rfl⟩

theorem tryAll_append_eq_ok_iff {s s' : σ} {is js : List ι} {answers : List α} :
    tryAll step s (is ++ js) = .ok (answers, s') ↔
      ∃ earlier next later, tryAll step s is = .ok (earlier, next) ∧
        tryAll step next js = .ok (later, s') ∧ answers = earlier ++ later := by
  induction is generalizing s answers with
  | nil =>
    constructor
    · exact fun h => ⟨[], s, answers, rfl, h, rfl⟩
    · rintro ⟨_, _, later, ⟨⟩, hlater, rfl⟩
      exact hlater
  | cons i rest ih =>
    rw [List.cons_append, tryAll_cons_eq_ok_iff]
    constructor
    · rintro ⟨answer, next, _, hstep, hrest, rfl⟩
      obtain ⟨earlier, middle, later, hearlier, hlater, rfl⟩ := ih.mp hrest
      exact ⟨answer :: earlier, middle, later,
        tryAll_cons_eq_ok_iff.mpr ⟨answer, next, earlier, hstep, hearlier, rfl⟩, hlater, rfl⟩
    · rintro ⟨_, middle, later, hearlier, hlater, rfl⟩
      obtain ⟨answer, next, earlier, hstep, hrest, rfl⟩ := tryAll_cons_eq_ok_iff.mp hearlier
      exact ⟨answer, next, earlier ++ later, hstep,
        ih.mpr ⟨earlier, middle, later, hrest, hlater, rfl⟩, rfl⟩

/-- What every step preserves holds after every run. -/
theorem tryAll_preserves {p : σ → Prop}
    (hstep : ∀ {s i answer s'}, step s i = .ok (answer, s') → p s → p s') :
    ∀ {is : List ι} {answers : List α} {s s' : σ}, tryAll step s is = .ok (answers, s') →
      p s → p s' := by
  intro is
  induction is with
  | nil =>
    rintro answers s s' ⟨⟩ hs
    exact hs
  | cons i rest ih =>
    intro answers s s' h hs
    obtain ⟨answer, next, later, hfirst, hrest, rfl⟩ := tryAll_cons_eq_ok_iff.mp h
    exact ih hrest (hstep hfirst hs)

/-- The same where only the states are of interest. What is preserved may speak of the steps that
are still to come. -/
theorem foldlM_preserves {step : σ → ι → Except ε σ} {p : List ι → σ → Prop}
    (hstep : ∀ {i rest s s'}, step s i = .ok s' → p (i :: rest) s → p rest s') :
    ∀ {is : List ι} {s s' : σ}, is.foldlM step s = .ok s' → p is s → p [] s' := by
  intro is
  induction is with
  | nil =>
    rintro s s' ⟨⟩ hs
    exact hs
  | cons i rest ih =>
    intro s s' h hs
    rw [List.foldlM_cons, bind_eq_ok_iff] at h
    obtain ⟨next, hfirst, hrest⟩ := h
    exact ih hrest (hstep hfirst hs)

/-- Two results are the same answer with related states, or the same reason for having none. -/
inductive SameResult (r : σ → τ → Prop) : Except ε (α × σ) → Except ε (α × τ) → Prop
  | ok (answer : α) {s : σ} {t : τ} (h : r s t) : SameResult r (.ok (answer, s)) (.ok (answer, t))
  | error (e : ε) : SameResult r (.error e) (.error e)

/-- Two steps in a row have the same result if both of them do. -/
theorem SameResult.bind {σ' τ' β : Type} {r : σ → τ → Prop} {r' : σ' → τ' → Prop}
    {x : Except ε (α × σ)} {y : Except ε (α × τ)} {f : α × σ → Except ε (β × σ')}
    {g : α × τ → Except ε (β × τ')} (h : SameResult r x y)
    (hnext : ∀ answer {s t}, x = .ok (answer, s) → r s t →
      SameResult r' (f (answer, s)) (g (answer, t))) :
    SameResult r' (x >>= f) (y >>= g) := by
  cases h with
  | ok answer hst => exact hnext answer rfl hst
  | error e => exact .error e

theorem SameResult.imp {r r' : σ → τ → Prop} {x : Except ε (α × σ)} {y : Except ε (α × τ)}
    (h : SameResult r x y)
    (himp : ∀ {answer s t}, x = .ok (answer, s) → y = .ok (answer, t) → r s t → r' s t) :
    SameResult r' x y := by
  cases h with
  | ok answer hst => exact .ok answer (himp rfl rfl hst)
  | error e => exact .error e

/-- Every step of a run is taken in a state in which it is fit to be taken. -/
def Throughout (step : σ → ι → Except ε (α × σ)) (fit : σ → ι → Prop) : σ → List ι → Prop
  | _, [] => True
  | s, i :: rest =>
    fit s i ∧ ∀ answer s', step s i = .ok (answer, s') → Throughout step fit s' rest

theorem throughout_of_forall {fit : σ → ι → Prop} (h : ∀ s i, fit s i) :
    ∀ (is : List ι) (s : σ), Throughout step fit s is
  | [], _ => trivial
  | i :: rest, s => ⟨h s i, fun _ s' _ => throughout_of_forall h rest s'⟩

/-- Related states whose steps have the same results, where they are fit to be taken, have the same
results in every run of such steps. -/
theorem tryAll_simulation {f : σ → ι → Except ε (α × σ)} {g : τ → ι → Except ε (α × τ)}
    {r : σ → τ → Prop} {fit : σ → ι → Prop}
    (hstep : ∀ s t i, r s t → fit s i → SameResult r (f s i) (g t i)) :
    ∀ (is : List ι) {s : σ} {t : τ}, r s t → Throughout f fit s is →
      SameResult r (tryAll f s is) (tryAll g t is) := by
  intro is
  induction is with
  | nil => exact fun hst _ => .ok [] hst
  | cons i rest ih =>
    rintro s t hst ⟨hfit, hlater⟩
    refine (hstep s t i hst hfit).bind fun answer s' t' hfirst hnext => ?_
    exact (ih hnext (hlater answer s' hfirst)).bind fun answers _ _ _ hlast =>
      .ok (answer :: answers) hlast

/-- If a step cannot be taken for one reason wherever it is not fit to be taken, then neither can a
run with such a step. -/
theorem tryAll_of_not_throughout {fit : σ → ι → Prop} {p : σ → Prop} {e : ε}
    (hkeep : ∀ {s i answer s'}, step s i = .ok (answer, s') → p s → p s')
    (hstep : ∀ {s i}, p s → ¬fit s i → step s i = .error e) :
    ∀ (is : List ι) {s : σ}, p s → ¬Throughout step fit s is → tryAll step s is = .error e := by
  intro is
  induction is with
  | nil => exact fun _ h => absurd trivial h
  | cons i rest ih =>
    intro s hs hnot
    by_cases hfit : fit s i
    · -- the step is fit, so there is one after it that is not
      rw [Throughout, not_and] at hnot
      simp only [Classical.not_forall] at hnot
      obtain ⟨answer, s', hfirst, hrest⟩ := hnot hfit
      rw [tryAll, hfirst]
      show (tryAll step s' rest >>= _) = _
      rw [ih (hkeep hfirst hs) hrest]
      rfl
    · rw [tryAll, hstep hs hfit]
      rfl

end CallTrace
