import CallTrace.Proofs.MapM
import CallTrace.Stored
import Mathlib.Data.List.Basic
import Mathlib.Data.List.Nodup
import Mathlib.Data.List.Perm.Basic

/-!
# Stored forms are read back

A value is written as one document and read from many: each record in it may be an object, with its
fields in any order and others among them, or an array. The forms a value has are said here by a
relation that leaves open how records are laid out. What is read is what has one of the forms with
free layouts. What is written is the only form with canonical layouts.

* `word?_eq_some_iff` — the documents that are read as a number
* `record?_eq_some_iff` — the documents that are read as a record with given fields
* `Span.ofDocument?_eq_some_iff`, `Frame.ofDocument?_eq_some_iff`,
  `Traceback.ofDocument?_eq_some_iff` — the documents that are read as a value
* `stored_round_trips` — reading and writing fit together for everything that is stored
-/

namespace CallTrace

namespace Document

/-! ## Forms -/

/-- The document is the integer that the number is, and it is one of 32 bits. -/
def IsNumber (n : UInt32) (d : Document) : Prop :=
  ∃ i : Int, d = .integer i ∧ 0 ≤ i ∧ i ≤ 4294967295 ∧ i = n.toNat

/-- How the fields of a record, which are given in their own order, make up a document. -/
abbrev Layout := List (String × Document) → Document → Prop

namespace Layout

/-- An object of the fields in their own order. -/
def Canonical : Layout := fun fields d => d = .object fields

/-- An array of the fields in their own order, or an object of the fields and of any others, in any
order. -/
inductive Free (fields : List (String × Document)) : Document → Prop
  | array : Free fields (.array (fields.map Prod.snd))
  | object {written others : List (String × Document)} (hwritten : written.Perm (fields ++ others))
      (hothers : ∀ field ∈ others, field.1 ∉ fields.map Prod.fst) : Free fields (.object written)

theorem Canonical.free {fields : List (String × Document)} {d : Document}
    (h : Canonical fields d) : Free fields d := by
  have hnone : fields.Perm (fields ++ []) := by rw [List.append_nil]
  exact h ▸ .object hnone nofun

end Layout

end Document

open Document

variable {d : Document}

/-- The document is the span, with its record laid out as given. -/
def Span.StoredAs (layout : Layout) (s : Span) (d : Document) : Prop :=
  ∃ start stop, IsNumber s.start start ∧ IsNumber s.stop stop ∧
    layout [("start", start), ("end", stop)] d

/-- The document is the frame, with its record laid out as given. -/
def Frame.StoredAs (layout : Layout) (f : Frame) (d : Document) : Prop :=
  ∃ repeats callable site, IsNumber f.repeats repeats ∧ IsNumber f.callable.raw callable ∧
    IsNumber f.site.raw site ∧
    layout [("repeat_count", repeats), ("callable", callable), ("call_site", site)] d

/-- The document is the traceback, with its record and those of its frames each laid out as
given. -/
def Traceback.StoredAs (layout : Layout) (t : Traceback) (d : Document) : Prop :=
  ∃ items, List.Forall₂ (Frame.StoredAs layout) t.frames items ∧
    layout [("frames", .array items)] d

/-- Reading and writing fit together, for values that have the given forms. -/
structure RoundTrips {α : Type} [Stored α] (StoredAs : Layout → α → Document → Prop) : Prop where
  /-- What is written is read back. -/
  read_written (a : α) : ofDocument? (toDocument a) = some a
  /-- What has one of the forms of a value is read as the value, and nothing else is. -/
  read_iff (d : Document) (a : α) : ofDocument? d = some a ↔ StoredAs Layout.Free a d
  /-- What was read is written as the one canonical form of the value, and that is read as the
  value again. -/
  read_again {d : Document} {a : α} (h : ofDocument? d = some a) :
    (∀ e, StoredAs Layout.Canonical a e ↔ e = toDocument a) ∧
      ofDocument? (toDocument a) = some a

theorem RoundTrips.of_iff {α : Type} [Stored α] {StoredAs : Layout → α → Document → Prop}
    (hread : ∀ d (a : α), ofDocument? d = some a ↔ StoredAs Layout.Free a d)
    (hwritten : ∀ d (a : α), StoredAs Layout.Canonical a d ↔ d = toDocument a)
    (hfree : ∀ d (a : α), StoredAs Layout.Canonical a d → StoredAs Layout.Free a d) :
    RoundTrips StoredAs := by
  have hback (a : α) : ofDocument? (toDocument a) = some a :=
    (hread _ a).mpr (hfree _ a ((hwritten _ a).mpr rfl))
  exact ⟨hback, hread, fun _ => ⟨fun e => hwritten e _, hback _⟩⟩

/-! ## Numbers -/

namespace Document

variable {n : UInt32}

theorem isNumber_iff : IsNumber n d ↔ d = .ofWord n := by
  constructor
  · rintro ⟨i, rfl, -, -, rfl⟩
    rfl
  · rintro rfl
    have hlt : n.toNat < 4294967296 := n.toNat_lt
    exact ⟨n.toNat, rfl, by omega, by omega, rfl⟩

/-- **The documents that are read as a number.** -/
theorem word?_eq_some_iff : d.word? = some n ↔ IsNumber n d := by
  constructor
  · intro h
    cases d with
    | integer i =>
      obtain ⟨⟨hmin, hmax⟩, hn⟩ := Option.ite_none_right_eq_some.mp h
      have hsize : UInt32.size = 4294967296 := rfl
      refine ⟨i, rfl, hmin, by omega, ?_⟩
      rw [← Option.some.inj hn, UInt32.toNat_ofNat', Nat.mod_eq_of_lt (by omega)]
      omega
    | _ => cases h
  · rintro ⟨i, rfl, -, -, rfl⟩
    have hlt : n.toNat < UInt32.size := n.toNat_lt
    have hword : (0 : Int) ≤ n.toNat ∧ (n.toNat : Int) < UInt32.size := by omega
    rw [word?, if_pos hword, Int.toNat_natCast, UInt32.ofNat_toNat]

end Document

/-- An identity is a number by another name. -/
theorem RoundTrips.of_raw {α : Type} [Stored α] {mk : UInt32 → α} {raw : α → UInt32}
    (hread : ∀ d, (ofDocument? d : Option α) = d.word?.map mk)
    (hwrite : ∀ a : α, toDocument a = .ofWord (raw a))
    (hmk : ∀ n a, mk n = a ↔ n = raw a) :
    RoundTrips fun _ a => IsNumber (raw a) := by
  refine .of_iff (fun d a => ?_) (fun d a => by rw [isNumber_iff, hwrite]) fun _ _ => id
  rw [hread, Option.map_eq_some_iff]
  simp only [hmk, exists_eq_right, word?_eq_some_iff]

/-! ## Records -/

namespace Document

variable {key : String} {value : Document} {fields written others : List (String × Document)}

theorem field?_eq_some_iff :
    field? written key = some value ↔ written.filter (·.1 = key) = [(key, value)] := by
  have hkey : ∀ field ∈ written.filter (·.1 = key), field.1 = key := by simp
  rw [field?]
  split
  next k v hfilter =>
    obtain rfl : k = key := hkey (k, v) (by simp [hfilter])
    simp [hfilter]
  next hne => exact iff_of_false nofun fun hfilter => hne key value hfilter

/-- A field is found where it can be put first and none of the others has its key. -/
theorem field?_eq_some_iff_exists_perm :
    field? written key = some value ↔
      ∃ others, written.Perm ((key, value) :: others) ∧ ∀ field ∈ others, field.1 ≠ key := by
  rw [field?_eq_some_iff]
  constructor
  · intro h
    refine ⟨written.filter (¬·.1 = key), ?_, by simp⟩
    have hsplit := (List.filter_append_perm (·.1 = key) written).symm
    rw [h] at hsplit
    simpa using hsplit
  · rintro ⟨others, hwritten, hothers⟩
    have hnone : others.filter (·.1 = key) = [] :=
      List.filter_eq_nil_iff.mpr (by simpa using hothers)
    have hfilter := hwritten.filter (·.1 = key)
    rw [List.filter_cons_of_pos (by simp), hnone] at hfilter
    exact hfilter.eq_singleton

theorem field?_cons_of_ne {other : String} (hne : other ≠ key) :
    field? ((other, value) :: written) key = field? written key := by
  rw [field?, field?, List.filter_cons_of_neg (by simpa using hne)]

/-- **All fields are found in an object if and only if it has them, and besides them only some with
other keys.** -/
theorem forall_field?_eq_some_iff (hkeys : (fields.map Prod.fst).Nodup) :
    (∀ field ∈ fields, field? written field.1 = some field.2) ↔
      ∃ others, written.Perm (fields ++ others) ∧
        ∀ field ∈ others, field.1 ∉ fields.map Prod.fst := by
  constructor
  · intro h
    -- the fields are taken out of the object one by one
    induction fields generalizing written with
    | nil => exact ⟨written, .refl _, by simp⟩
    | cons field fields ih =>
      rw [List.map_cons, List.nodup_cons] at hkeys
      rw [List.forall_mem_cons] at h
      obtain ⟨rest, hrest, hne⟩ := field?_eq_some_iff_exists_perm.mp h.1
      have hfound : ∀ field ∈ fields, field? rest field.1 = some field.2 := by
        intro later hlater
        have hkey : field.1 ≠ later.1 := by
          intro heq
          exact hkeys.1 (heq ▸ List.mem_map_of_mem hlater)
        obtain ⟨others, hothers, hne⟩ := field?_eq_some_iff_exists_perm.mp (h.2 later hlater)
        rw [← field?_cons_of_ne hkey, field?_eq_some_iff_exists_perm]
        exact ⟨others, hrest.symm.trans hothers, hne⟩
      obtain ⟨others, hothers, hnew⟩ := ih hkeys.2 hfound
      refine ⟨others, hrest.trans (hothers.cons _), fun other hother => ?_⟩
      have hmem : other ∈ rest := hothers.mem_iff.mpr (List.mem_append_right _ hother)
      simpa using ⟨hne other hmem, by simpa using hnew other hother⟩
  · rintro ⟨others, hwritten, hnew⟩ ⟨key, value⟩ hfield
    obtain ⟨before, after, rfl⟩ := List.append_of_mem hfield
    rw [field?_eq_some_iff_exists_perm]
    refine ⟨before ++ after ++ others, hwritten.trans (by simp), fun other hother heq => ?_⟩
    rw [List.map_append, List.map_cons, List.nodup_middle, List.nodup_cons, ← List.map_append]
      at hkeys
    rcases List.mem_append.mp hother with hother | hother
    · exact hkeys.1 (heq ▸ List.mem_map_of_mem hother)
    · exact hnew other hother (by simp [heq])

/-- **The documents that are read as a record with given fields.** -/
theorem record?_eq_some_iff (hkeys : (fields.map Prod.fst).Nodup) :
    d.record? (fields.map Prod.fst) = some (fields.map Prod.snd) ↔ Layout.Free fields d := by
  cases d with
  | array items =>
    simp only [record?, List.length_map, Option.ite_none_right_eq_some, Option.some.injEq]
    constructor
    · rintro ⟨-, rfl⟩
      exact .array
    · rintro ⟨⟩
      exact ⟨by simp, rfl⟩
  | object written =>
    rw [record?, mapM_eq_some_iff, List.forall₂_map_left_iff, List.forall₂_map_right_iff,
      List.forall₂_same, forall_field?_eq_some_iff hkeys]
    constructor
    · rintro ⟨others, hwritten, hothers⟩
      exact .object hwritten hothers
    · rintro (_ | ⟨hwritten, hothers⟩)
      exact ⟨_, hwritten, hothers⟩
  | _ => exact iff_of_false nofun nofun

end Document

/-! ## Values -/

theorem roundTrips_symbol : RoundTrips fun _ (s : Symbol) => IsNumber s.raw :=
  .of_raw (fun _ => rfl) (fun _ => rfl) fun _ _ => ⟨congrArg Symbol.raw, congrArg Symbol.mk⟩

theorem roundTrips_callableId : RoundTrips fun _ (id : CallableId) => IsNumber id.raw :=
  .of_raw (fun _ => rfl) (fun _ => rfl) fun _ _ => ⟨congrArg CallableId.raw, congrArg CallableId.mk⟩

theorem roundTrips_formId : RoundTrips fun _ (id : FormId) => IsNumber id.raw :=
  .of_raw (fun _ => rfl) (fun _ => rfl) fun _ _ => ⟨congrArg FormId.raw, congrArg FormId.mk⟩

namespace Span

variable {s : Span} {values : List Document}

theorem ofFields?_eq_some_iff :
    ofFields? values = some s ↔
      ∃ start stop, IsNumber s.start start ∧ IsNumber s.stop stop ∧ values = [start, stop] := by
  constructor
  · intro h
    unfold ofFields? at h
    split at h
    next start stop =>
      obtain ⟨n, hn, h⟩ := Option.bind_eq_some_iff.mp h
      obtain ⟨m, hm, h⟩ := Option.bind_eq_some_iff.mp h
      cases h
      exact ⟨start, stop, word?_eq_some_iff.mp hn, word?_eq_some_iff.mp hm, rfl⟩
    next => cases h
  · rintro ⟨start, stop, hstart, hstop, rfl⟩
    rw [ofFields?, word?_eq_some_iff.mpr hstart, word?_eq_some_iff.mpr hstop]
    rfl

theorem ofDocument?_eq_some_iff : ofDocument? d = some s ↔ s.StoredAs Layout.Free d := by
  constructor
  · intro h
    obtain ⟨values, hvalues, h⟩ := Option.bind_eq_some_iff.mp h
    obtain ⟨start, stop, hstart, hstop, rfl⟩ := ofFields?_eq_some_iff.mp h
    exact ⟨start, stop, hstart, hstop, (record?_eq_some_iff (by simp)).mp hvalues⟩
  · rintro ⟨start, stop, hstart, hstop, hd⟩
    exact Option.bind_eq_some_iff.mpr ⟨_, (record?_eq_some_iff (by simp)).mpr hd,
      ofFields?_eq_some_iff.mpr ⟨start, stop, hstart, hstop, rfl⟩⟩

theorem storedAs_canonical_iff : s.StoredAs Layout.Canonical d ↔ d = toDocument s := by
  simp [StoredAs, isNumber_iff, Layout.Canonical, toDocument]

theorem StoredAs.free (h : s.StoredAs Layout.Canonical d) : s.StoredAs Layout.Free d := by
  obtain ⟨start, stop, hstart, hstop, hd⟩ := h
  exact ⟨start, stop, hstart, hstop, hd.free⟩

theorem roundTrips : RoundTrips StoredAs :=
  .of_iff (fun _ _ => ofDocument?_eq_some_iff) (fun _ _ => storedAs_canonical_iff)
    fun _ _ => StoredAs.free

end Span

namespace Frame

variable {f : Frame} {values : List Document}

theorem ofFields?_eq_some_iff :
    ofFields? values = some f ↔
      ∃ repeats callable site, IsNumber f.repeats repeats ∧ IsNumber f.callable.raw callable ∧
        IsNumber f.site.raw site ∧ values = [repeats, callable, site] := by
  constructor
  · intro h
    unfold ofFields? at h
    split at h
    next repeats callable site =>
      obtain ⟨n, hn, h⟩ := Option.bind_eq_some_iff.mp h
      obtain ⟨fn, hfn, h⟩ := Option.bind_eq_some_iff.mp h
      obtain ⟨place, hplace, h⟩ := Option.bind_eq_some_iff.mp h
      cases h
      exact ⟨repeats, callable, site, word?_eq_some_iff.mp hn,
        (roundTrips_callableId.read_iff ..).mp hfn, (roundTrips_formId.read_iff ..).mp hplace, rfl⟩
    next => cases h
  · rintro ⟨repeats, callable, site, hrepeats, hcallable, hsite, rfl⟩
    rw [ofFields?, word?_eq_some_iff.mpr hrepeats,
      (roundTrips_callableId.read_iff ..).mpr hcallable,
      (roundTrips_formId.read_iff ..).mpr hsite]
    rfl

theorem ofDocument?_eq_some_iff : ofDocument? d = some f ↔ f.StoredAs Layout.Free d := by
  constructor
  · intro h
    obtain ⟨values, hvalues, h⟩ := Option.bind_eq_some_iff.mp h
    obtain ⟨repeats, callable, site, hrepeats, hcallable, hsite, rfl⟩ :=
      ofFields?_eq_some_iff.mp h
    exact ⟨repeats, callable, site, hrepeats, hcallable, hsite,
      (record?_eq_some_iff (by simp)).mp hvalues⟩
  · rintro ⟨repeats, callable, site, hrepeats, hcallable, hsite, hd⟩
    exact Option.bind_eq_some_iff.mpr ⟨_, (record?_eq_some_iff (by simp)).mpr hd,
      ofFields?_eq_some_iff.mpr ⟨repeats, callable, site, hrepeats, hcallable, hsite, rfl⟩⟩

theorem storedAs_canonical_iff : f.StoredAs Layout.Canonical d ↔ d = toDocument f := by
  simp [StoredAs, isNumber_iff, Layout.Canonical, toDocument]

theorem StoredAs.free (h : f.StoredAs Layout.Canonical d) : f.StoredAs Layout.Free d := by
  obtain ⟨repeats, callable, site, hrepeats, hcallable, hsite, hd⟩ := h
  exact ⟨repeats, callable, site, hrepeats, hcallable, hsite, hd.free⟩

theorem roundTrips : RoundTrips StoredAs :=
  .of_iff (fun _ _ => ofDocument?_eq_some_iff) (fun _ _ => storedAs_canonical_iff)
    fun _ _ => StoredAs.free

end Frame

namespace Traceback

variable {t : Traceback} {values : List Document}

theorem ofFields?_eq_some_iff :
    ofFields? values = some t ↔
      ∃ items, List.Forall₂ (Frame.StoredAs Layout.Free) t.frames items ∧
        values = [.array items] := by
  constructor
  · intro h
    unfold ofFields? at h
    split at h
    next frames =>
      obtain ⟨items, hitems, h⟩ := Option.bind_eq_some_iff.mp h
      obtain ⟨fs, hfs, h⟩ := Option.bind_eq_some_iff.mp h
      cases h
      cases frames with
      | array =>
        cases hitems
        refine ⟨items, ((mapM_eq_some_iff.mp hfs).imp fun d f hf => ?_).flip, rfl⟩
        exact Frame.ofDocument?_eq_some_iff.mp hf
      | _ => cases hitems
    next => cases h
  · rintro ⟨items, hitems, rfl⟩
    have hframes : items.mapM ofDocument? = some t.frames :=
      mapM_eq_some_iff.mpr (hitems.flip.imp fun d f hf => Frame.ofDocument?_eq_some_iff.mpr hf)
    rw [ofFields?, items?, Option.bind_eq_bind, Option.bind_some, hframes]
    rfl

theorem ofDocument?_eq_some_iff : ofDocument? d = some t ↔ t.StoredAs Layout.Free d := by
  constructor
  · intro h
    obtain ⟨values, hvalues, h⟩ := Option.bind_eq_some_iff.mp h
    obtain ⟨items, hitems, rfl⟩ := ofFields?_eq_some_iff.mp h
    exact ⟨items, hitems, (record?_eq_some_iff (by simp)).mp hvalues⟩
  · rintro ⟨items, hitems, hd⟩
    exact Option.bind_eq_some_iff.mpr ⟨_, (record?_eq_some_iff (by simp)).mpr hd,
      ofFields?_eq_some_iff.mpr ⟨items, hitems, rfl⟩⟩

theorem storedAs_canonical_iff : t.StoredAs Layout.Canonical d ↔ d = toDocument t := by
  have hframe : Frame.StoredAs Layout.Canonical = fun f item => toDocument f = item := by
    funext f item
    exact propext (Frame.storedAs_canonical_iff.trans eq_comm)
  rw [StoredAs, hframe]
  simp only [← List.forall₂_map_left_iff, List.forall₂_eq_eq_eq]
  simp [Layout.Canonical, toDocument]

theorem StoredAs.free (h : t.StoredAs Layout.Canonical d) : t.StoredAs Layout.Free d := by
  obtain ⟨items, hitems, hd⟩ := h
  exact ⟨items, hitems.imp fun _ _ => Frame.StoredAs.free, hd.free⟩

theorem roundTrips : RoundTrips StoredAs :=
  .of_iff (fun _ _ => ofDocument?_eq_some_iff) (fun _ _ => storedAs_canonical_iff)
    fun _ _ => StoredAs.free

end Traceback

/-- **Whatever is stored is read back.** A document is read as a value if and only if it has one of
the value's forms: numbers are integers of 32 bits, and each record, whatever the others are, is an
object of its fields in any order among any others or an array of them in order. Whichever it was,
the value is written in the same canonical form, which is read as the value again. -/
theorem stored_round_trips :
    (RoundTrips fun _ (s : Symbol) => IsNumber s.raw) ∧
      (RoundTrips fun _ (id : CallableId) => IsNumber id.raw) ∧
      (RoundTrips fun _ (id : FormId) => IsNumber id.raw) ∧
      RoundTrips Span.StoredAs ∧ RoundTrips Frame.StoredAs ∧ RoundTrips Traceback.StoredAs :=
  ⟨roundTrips_symbol, roundTrips_callableId, roundTrips_formId, Span.roundTrips, Frame.roundTrips,
    Traceback.roundTrips⟩

-- layouts are mixed, there is a field too many, and all numbers of one frame are at the limit
example :
    ofDocument? (.object
      [("note", .null),
       ("frames", .array
        [.array [.integer 0, .integer 1, .integer 2],
         .object [("call_site", .integer 4294967295), ("repeat_count", .integer 4294967295),
          ("callable", .integer 4294967295)]])]) =
      some (⟨[⟨0, ⟨1⟩, ⟨2⟩⟩, ⟨4294967295, ⟨4294967295⟩, ⟨4294967295⟩⟩]⟩ : Traceback) := by
  rfl

end CallTrace
