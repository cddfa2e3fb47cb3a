import CallTrace.Proofs.Context.Growth
import CallTrace.Proofs.Context.Outcome
import Mathlib.Data.List.ReduceOption

/-!
# Callables and their names

A name goes through the symbol table, an identity comes from a supply of its own, and the two meet
in the table of functions. Taken together this is no more than a list of functions: one is added at
the end when it is made known, and its identity is its place. The builtins come first and the
declared functions follow, whatever their names are.

* `register_lists`, `Performed.lists` — what an operation adds to the list
* `declarations_eq_and_lists` — the identities that are given are the places in the list
* `identities_never_confused` — so each of them stands for its own function for good
-/

namespace CallTrace

/-- Every name of a builtin has a place in the registry that is the number of an identity. -/
theorem Registry.exists_place {name : String} (h : name ∈ builtin.names) :
    ∃ (id : CallableId) (f : Native),
      builtin.functions[id.raw.toNat]? = some f ∧ f.name = name := by
  rw [← map_name_functions] at h
  obtain ⟨f, hf, rfl⟩ := List.mem_map.mp h
  obtain ⟨i, hlt, hi⟩ := List.mem_iff_getElem.mp hf
  have hsize : builtin.functions.length < UInt32.size := by decide
  refine ⟨⟨UInt32.ofNat i⟩, f, ?_, rfl⟩
  show builtin.functions[(UInt32.ofNat i).toNat]? = some f
  rw [UInt32.toNat_ofNat_of_lt' (Nat.lt_trans hlt hsize), List.getElem?_eq_getElem hlt, hi]

/-! ## Declarations in a run -/

/-- A function of the program, as it was declared. -/
structure Declaration where
  name : String
  id : CallableId
deriving DecidableEq

namespace ContextOp

/-- The name that is declared. -/
def declaredName? : ContextOp → Option String
  | .declare name => some name
  | _ => none

/-- The name that is declared, with the identity in the answer. -/
def declaration? (op : ContextOp) (answer : ContextAnswer) : Option Declaration :=
  match op, answer with
  | .declare name, .callable id => some ⟨name, id⟩
  | _, _ => none

end ContextOp

/-- The names that are declared, in order. -/
def declaredNames (ops : List ContextOp) : List String :=
  ops.filterMap ContextOp.declaredName?

/-- Names with the identities from `start` on. -/
def numbered (start : Nat) (names : List String) : List Declaration :=
  (names.zipIdx start).map fun p => ⟨p.1, ⟨UInt32.ofNat p.2⟩⟩

theorem mem_numbered_iff {start : Nat} {names : List String} {d : Declaration} :
    d ∈ numbered start names ↔
      ∃ j, names[j]? = some d.name ∧ d.id = ⟨UInt32.ofNat (start + j)⟩ := by
  unfold numbered
  constructor
  · intro h
    obtain ⟨⟨name, i⟩, hmem, rfl⟩ := List.mem_map.mp h
    obtain ⟨hle, hget⟩ := List.mk_mem_zipIdx_iff_le_and_getElem?_sub.mp hmem
    exact ⟨i - start, hget, by simp [Nat.add_sub_cancel' hle]⟩
  · rintro ⟨j, hget, hid⟩
    refine List.mem_map.mpr ⟨(d.name, start + j), ?_, ?_⟩
    · exact List.mk_mem_zipIdx_iff_le_and_getElem?_sub.mpr ⟨by omega, by simpa using hget⟩
    · rw [← hid]

theorem map_name_numbered (start : Nat) (names : List String) :
    (numbered start names).map Declaration.name = names := by
  rw [numbered, List.map_map]
  exact List.zipIdx_map_fst start names

theorem nodup_map_id_numbered {start : Nat} {names : List String}
    (h : start + names.length ≤ UInt32.size) :
    ((numbered start names).map Declaration.id).Nodup := by
  have hids : (numbered start names).map Declaration.id =
      (List.range' start names.length).map fun i => ⟨UInt32.ofNat i⟩ := by
    rw [numbered, List.map_map, ← List.zipIdx_map_snd start names, List.map_map]
    rfl
  rw [hids]
  refine List.Nodup.map_on ?_ List.nodup_range'
  intro i hi j hj heq
  rw [List.mem_range'_1] at hi hj
  have hraw := congrArg (fun id : CallableId => id.raw.toNat) heq
  simp only at hraw
  rwa [UInt32.toNat_ofNat_of_lt' (by omega), UInt32.toNat_ofNat_of_lt' (by omega)] at hraw

theorem numbered_append (start : Nat) (first second : List String) :
    numbered start (first ++ second) =
      numbered start first ++ numbered (start + first.length) second := by
  rw [numbered, List.zipIdx_append, List.map_append]
  rfl

theorem declaredNames_cons (op : ContextOp) (rest : List ContextOp) :
    declaredNames (op :: rest) = op.declaredName?.toList ++ declaredNames rest := by
  unfold declaredNames
  rw [List.filterMap_cons]
  cases op.declaredName? <;> rfl

/-- The declarations among some operations, with the identities in the answers. -/
def declarations (ops : List ContextOp) (answers : List ContextAnswer) : List Declaration :=
  (ops.zipWith ContextOp.declaration? answers).reduceOption

theorem declarations_cons (op : ContextOp) (rest : List ContextOp) (answer : ContextAnswer)
    (answers : List ContextAnswer) :
    declarations (op :: rest) (answer :: answers) =
      (op.declaration? answer).toList ++ declarations rest answers := by
  unfold declarations
  rw [List.zipWith_cons_cons]
  cases op.declaration? answer <;> rfl

namespace Context

/-! ## The list of functions -/

/-- A function as it was made known. -/
structure Registration where
  name : String
  callee : Callee

/-- What is known of a callable. -/
def known? (c : Context) (id : CallableId) : Option Registration :=
  (c.functions.get? id).map fun entry => ⟨c.symbols.text entry.name, entry.callee⟩

/-- The known functions are those of a list, and each is known by its place there. -/
structure Lists (c : Context) (rs : List Registration) : Prop where
  supply : c.supply.next.toNat = rs.length
  known : ∀ id, c.known? id = rs[id.raw.toNat]?
  named : c.Named

variable {c d : Context} {rs : List Registration}

theorem nameOf?_eq (c : Context) (id : CallableId) :
    c.nameOf? id = (c.known? id).map Registration.name := by
  rw [known?, Option.map_map]
  rfl

theorem known?_of_grows (hnamed : c.Named) (hsymbols : c.symbols.Grows d.symbols) {id : CallableId}
    (hget : d.functions.get? id = c.functions.get? id) : d.known? id = c.known? id := by
  unfold known?
  rw [hget]
  cases hentry : c.functions.get? id with
  | none => rfl
  | some entry => simp [hsymbols.text_eq (hnamed id entry hentry)]

/-- The last identity is never given, so there is a place for it behind the list. -/
theorem Lists.length_le (h : c.Lists rs) : rs.length ≤ CallableId.nil.raw.toNat := by
  rw [← h.supply]
  exact Nat.le_of_lt_succ c.supply.next.toNat_lt

theorem Lists.of_grows (h : c.Lists rs) (hnamed : d.Named)
    (hsymbols : c.symbols.Grows d.symbols) (hsupply : d.supply = c.supply)
    (hfunctions : d.functions = c.functions) : d.Lists rs where
  supply := by rw [hsupply]; exact h.supply
  known id := by rw [known?_of_grows h.named hsymbols (by rw [hfunctions]), h.known]
  named := hnamed

/-- **A function that is made known comes last in the list, and its identity is its place.** -/
theorem register_lists (h : c.Lists rs) {name : String} {callee : Callee} {id : CallableId}
    (hd : c.register name callee = .ok (id, d)) :
    id = ⟨UInt32.ofNat rs.length⟩ ∧ d.Lists (rs ++ [⟨name, callee⟩]) := by
  have hnamed := register_preserves_named h.named hd
  obtain ⟨hnext, rfl, symbol, symbols, hintern, rfl⟩ := register_eq_ok_iff.mp hd
  refine ⟨by rw [← h.supply, UInt32.ofNat_toNat], ?_, ?_, hnamed⟩
  · rw [CallableSupply.toNat_next_add_one hnext, h.supply, List.length_append]
    rfl
  · intro id
    by_cases hid : (⟨c.supply.next⟩ : CallableId) = id
    · subst hid
      simp [known?, Bindings.get?_insert, SymbolTable.text_of_intern_eq_ok hintern, h.supply]
    · -- every other callable is known as it was
      have hplace : id.raw.toNat ≠ rs.length := by
        rw [← h.supply]
        exact fun heq => hid (congrArg CallableId.mk (UInt32.toNat_inj.mp heq.symm))
      have hkept : ∀ entry, (c.functions.insert ⟨c.supply.next⟩ entry).get? id =
          c.functions.get? id := by simp [Bindings.get?_insert, hid]
      rw [known?_of_grows h.named (SymbolTable.grows_of_intern_eq_ok hintern) (hkept _), h.known]
      grind

/-- A builtin in the list of functions. -/
def Registration.ofNative (f : Native) : Registration := ⟨f.name, .native f⟩

theorem blank_lists (config : Config) : (blank config).Lists [] :=
  ⟨rfl, fun _ => rfl, fun _ _ h => (nomatch h)⟩

theorem new_lists (config : Config) :
    (new config).Lists (Registry.builtin.functions.map .ofNative) := by
  -- the builtins that are known and those that are still to be made known are all of them
  have hfold := foldlM_preserves (p := fun fs c => ∃ rs, c.Lists rs ∧
    rs ++ fs.map .ofNative = Registry.builtin.functions.map .ofNative) ?_ (build_eq_ok config)
    ⟨[], blank_lists config, rfl⟩
  · obtain ⟨rs, h, hrs⟩ := hfold
    rwa [← hrs, List.map_nil, List.append_nil]
  · rintro f rest c d hd ⟨rs, h, hrs⟩
    obtain ⟨_, _, hregister, rfl⟩ := addBuiltin_eq_ok_iff.mp hd
    have hlists := (register_lists h hregister).2
    refine ⟨_, ⟨hlists.supply, hlists.known, hlists.named⟩, ?_⟩
    rwa [List.append_assoc]

/-! ## What a run adds to it -/

/-- A declared function in the list of functions. -/
def Registration.ofDeclared (name : String) : Registration := ⟨name, .user⟩

theorem Performed.lists {op : ContextOp} {answer : ContextAnswer} (hd : Performed c op answer d)
    (h : c.Lists rs) :
    (op.declaration? answer).toList = numbered rs.length op.declaredName?.toList ∧
      d.Lists (rs ++ op.declaredName?.toList.map .ofDeclared) := by
  have hnamed := hd.named h.named
  have hnothing : ∀ {d : Context}, d.Lists rs → d.Lists (rs ++ []) := by
    intro d hd
    rwa [List.append_nil]
  cases hd with
  | declare hdeclare =>
    obtain ⟨rfl, hlists⟩ := register_lists h hdeclare
    exact ⟨rfl, hlists⟩
  | intern hintern =>
    exact ⟨rfl, hnothing
      (h.of_grows hnamed (SymbolTable.grows_of_intern_eq_ok hintern) rfl rfl)⟩
  | _ => exact ⟨rfl, hnothing (h.of_grows hnamed (List.prefix_refl _) rfl rfl)⟩

/-- **In a run, the declared functions are added to the list in order, and the identities given are
their places.** -/
theorem declarations_eq_and_lists (ops : List ContextOp) :
    ∀ {c d : Context} {rs : List Registration} {answers : List ContextAnswer}, c.Lists rs →
      c.run ops = .ok (answers, d) →
      declarations ops answers = numbered rs.length (declaredNames ops) ∧
        d.Lists (rs ++ (declaredNames ops).map .ofDeclared) := by
  induction ops with
  | nil =>
    rintro c d rs answers h ⟨⟩
    refine ⟨rfl, ?_⟩
    show c.Lists (rs ++ [])
    rwa [List.append_nil]
  | cons op rest ih =>
    intro c d rs answers h hrun
    obtain ⟨answer, next, later, hstep, hrest, rfl⟩ := tryAll_cons_eq_ok_iff.mp hrun
    obtain ⟨hfirst, hlists⟩ := (performed_of_outcome_eq_ok hstep).lists h
    obtain ⟨hlater, hlast⟩ := ih hlists hrest
    constructor
    · rw [declarations_cons, hfirst, hlater, declaredNames_cons, numbered_append,
        List.length_append, List.length_map]
    · rw [declaredNames_cons, List.map_append, ← List.append_assoc]
      exact hlast

theorem declarations_new_eq_and_lists {config : Config} {ops : List ContextOp}
    {answers : List ContextAnswer} (h : (new config).run ops = .ok (answers, c)) :
    declarations ops answers = numbered Registry.builtin.size (declaredNames ops) ∧
      c.Lists (Registry.builtin.functions.map .ofNative ++
        (declaredNames ops).map .ofDeclared) := by
  have hlength : (Registry.builtin.functions.map Registration.ofNative).length =
      Registry.builtin.size := by rw [List.length_map, Registry.length_functions]
  have hrun := declarations_eq_and_lists ops (new_lists config) h
  rwa [hlength] at hrun

/-! ## Builtins and declared functions -/

section

variable {names : List String}
  (hc : c.Coherent)
  (h : c.Lists (Registry.builtin.functions.map .ofNative ++ names.map .ofDeclared))
include h

/-- What is known is a builtin or was declared. -/
theorem Lists.cases_of_known?_eq_some {id : CallableId} {r : Registration}
    (hr : c.known? id = some r) :
    (∃ f, Registry.builtin.functions[id.raw.toNat]? = some f ∧ r = .ofNative f) ∨
      ∃ d ∈ numbered Registry.builtin.size names, d.id = id ∧ r = .ofDeclared d.name := by
  rw [h.known, List.getElem?_append, List.length_map, Registry.length_functions] at hr
  split at hr
  · rw [List.getElem?_map] at hr
    obtain ⟨f, hf, rfl⟩ := Option.map_eq_some_iff.mp hr
    exact Or.inl ⟨f, hf, rfl⟩
  · next hle =>
    rw [List.getElem?_map] at hr
    obtain ⟨name, hname, rfl⟩ := Option.map_eq_some_iff.mp hr
    have hplace : Registry.builtin.size + (id.raw.toNat - Registry.builtin.size) = id.raw.toNat :=
      Nat.add_sub_cancel' (Nat.le_of_not_lt hle)
    refine Or.inr ⟨⟨name, id⟩, mem_numbered_iff.mpr ⟨_, hname, ?_⟩, rfl, rfl⟩
    show id = ⟨UInt32.ofNat (Registry.builtin.size + (id.raw.toNat - Registry.builtin.size))⟩
    rw [hplace, UInt32.ofNat_toNat]

theorem Lists.known?_native {id : CallableId} {f : Native}
    (hf : Registry.builtin.functions[id.raw.toNat]? = some f) :
    c.known? id = some (.ofNative f) := by
  have hlt : id.raw.toNat < Registry.builtin.functions.length :=
    (List.getElem?_eq_some_iff.mp hf).1
  rw [h.known, List.getElem?_append_left (by simpa using hlt), List.getElem?_map, hf]
  rfl

theorem Lists.size_add_length_le :
    Registry.builtin.size + names.length ≤ CallableId.nil.raw.toNat := by
  have hle := h.length_le
  rwa [List.length_append, List.length_map, List.length_map, Registry.length_functions] at hle

theorem Lists.known?_declared {d : Declaration} (hd : d ∈ numbered Registry.builtin.size names) :
    d.id.isValid = true ∧ c.known? d.id = some (.ofDeclared d.name) := by
  obtain ⟨j, hj, hid⟩ := mem_numbered_iff.mp hd
  have hlt : j < names.length := (List.getElem?_eq_some_iff.mp hj).1
  have hids := h.size_add_length_le
  have hmax : CallableId.nil.raw.toNat < UInt32.size := by decide
  have hplace : d.id.raw.toNat = Registry.builtin.size + j := by
    rw [hid]
    exact UInt32.toNat_ofNat_of_lt' (by omega)
  constructor
  · rw [CallableId.isValid_eq_true_iff]
    intro hnil
    rw [hnil] at hplace
    omega
  · rw [h.known, hplace, List.getElem?_append_right (by simp [Registry.length_functions])]
    simp [Registry.length_functions, hj]

include hc

/-- The builtin of a name is the one at its place in the registry, and of no other name. -/
theorem Lists.builtin?_eq_some_iff {name : String} {id : CallableId} :
    c.builtin? name = some id ↔
      ∃ f, Registry.builtin.functions[id.raw.toNat]? = some f ∧ f.name = name := by
  constructor
  · intro hbuiltin
    obtain ⟨f, symbol, hf, hentry⟩ := hc.builtin_native hbuiltin
    have hknown : c.known? id = some ⟨c.symbols.text symbol, .native f⟩ := by simp [known?, hentry]
    have hname : f.name = name := Registry.builtin.named name f hf
    rcases h.cases_of_known?_eq_some hknown with ⟨g, hg, heq⟩ | ⟨_, -, -, heq⟩
    · obtain rfl : f = g := Callee.native.inj (Registration.mk.inj heq).2
      exact ⟨f, hg, hname⟩
    · -- what was declared is not native
      exact Callee.noConfusion (Registration.mk.inj heq).2
  · rintro ⟨f, hf, rfl⟩
    obtain ⟨⟨symbol, callee⟩, hentry, heq⟩ := Option.map_eq_some_iff.mp (h.known?_native hf)
    obtain rfl : callee = .native f := (Registration.mk.inj heq).2
    exact hc.native_builtin hentry

theorem Lists.builtin?_ne_of_known?_eq_declared {id : CallableId} {name : String}
    (hid : c.known? id = some (.ofDeclared name)) (name' : String) :
    c.builtin? name' ≠ some id := by
  intro hbuiltin
  obtain ⟨f, hf, -⟩ := (h.builtin?_eq_some_iff hc).mp hbuiltin
  rw [h.known?_native hf] at hid
  exact Callee.noConfusion (Registration.mk.inj (Option.some.inj hid)).2

/-- A declared function cannot be called, and the failure tells its name. If it is to be logged,
and cannot be, there is no failure. -/
theorem Lists.call_declared {id : CallableId} {name : String} (hvalid : id.isValid = true)
    (hid : c.known? id = some (.ofDeclared name)) (scope : Scope) {site : FormId}
    (hsite : site.isValid = true) (args : List Value) :
    let called := (c.call scope site id args).run.value
    let ends := c.config.logsTracebacks = true → c.forms.Acyclic site ∧ c.Writable
    (ends → ∃ e after, called = .ok (.error e, after) ∧ e.fault = .notCallable name) ∧
      (¬ends → called = .error .endless) := by
  intro called ends
  have hname : c.nameOf id = name := by
    rw [nameOf, nameOf?_eq, hid]
    rfl
  have hfault := invoke_during_of_forall_not_builtin hc scope site
    (h.builtin?_ne_of_known?_eq_declared hc hid) args
  rw [hname] at hfault
  rcases c.stack.push_cases site id with ⟨hno, -⟩ | ⟨-, hno, -⟩ | ⟨-, -, hp⟩
  · rw [hvalid] at hno
    contradiction
  · rw [hsite] at hno
    contradiction
  · exact ⟨fun hends => ⟨_, _, value_call_of_invoke_eq_error hp hfault hends, rfl⟩,
      fun hnot => value_call_of_endless hp hfault hnot⟩

end

/-- While there is an identity and a symbol left, a function can be declared. -/
theorem exists_declare_eq_ok (hids : c.supply.next < CallableId.nil.raw)
    (htexts : c.symbols.size < UInt32.size) (name : String) :
    ∃ id d, c.declare name = .ok (id, d) := by
  obtain ⟨symbol, symbols, hintern⟩ := SymbolTable.exists_intern_eq_ok htexts name
  exact ⟨_, _, register_eq_ok_iff.mpr ⟨hids, rfl, symbol, symbols, hintern, rfl⟩⟩

/-- **Identities are never confused.** Take any run from a new context and any operations after
it, as long as all of them come to an end. Each declaration in the run was given an identity of its
own, which is valid and no builtin's, also when its name was declared before or is that of a
builtin. After all operations it still has the name it was declared under, and calling it fails
because it is not callable; only if that is to be logged, and a cycle is reached from the call site
or from that of an active call, the call does not end. Each builtin has the identity it had at first
and its name in the registry. No other text is the name of a builtin, and no other identity has a
name. And as long as neither the identities nor the symbols have run out, one more function can be
declared. -/
theorem identities_never_confused (config : Config) (ops later : List ContextOp)
    (answers answers' : List ContextAnswer) (middle c : Context)
    (hops : (new config).run ops = .ok (answers, middle))
    (hlater : middle.run later = .ok (answers', c)) :
    let declared := declarations ops answers
    declared.map Declaration.name = declaredNames ops ∧
    (declared.map Declaration.id).Nodup ∧
    (∀ d ∈ declared, d.id.isValid = true ∧ (∀ name, c.builtin? name ≠ some d.id) ∧
      c.nameOf? d.id = some d.name ∧
      ∀ scope site args, site.isValid = true →
        let called := (c.call scope site d.id args).run.value
        let ends := c.config.logsTracebacks = true → c.forms.Acyclic site ∧ c.Writable
        (ends → ∃ e after, called = .ok (.error e, after) ∧ e.fault = .notCallable d.name) ∧
          (¬ends → called = .error .endless)) ∧
    (∀ name ∈ Registry.builtin.names, ∃ id, (new config).builtin? name = some id ∧
      c.builtin? name = some id ∧ c.nameOf? id = some name) ∧
    (∀ name, name ∉ Registry.builtin.names → c.builtin? name = none) ∧
    (∀ id, (∀ d ∈ declared ++ declarations later answers', d.id ≠ id) →
      (∀ name, c.builtin? name ≠ some id) → c.nameOf? id = none) ∧
    (Registry.builtin.size + (declaredNames (ops ++ later)).length < 4294967295 →
      c.symbols.size < UInt32.size → ∀ name, ∃ id d, c.declare name = .ok (id, d)) := by
  intro declared
  have hrun : (new config).run (ops ++ later) = .ok (answers ++ answers', c) :=
    tryAll_append_eq_ok_iff.mpr ⟨_, _, _, hops, hlater, rfl⟩
  have hc : c.Coherent :=
    Reachable.coherent ⟨config, ops ++ later, after_eq_ok_iff.mpr ⟨_, hrun⟩⟩
  have hsplit : declaredNames (ops ++ later) = declaredNames ops ++ declaredNames later :=
    List.filterMap_append
  obtain ⟨hdeclared, hmiddle⟩ := declarations_new_eq_and_lists hops
  obtain ⟨-, h⟩ := declarations_new_eq_and_lists hrun
  have hall : declared ++ declarations later answers' =
      numbered Registry.builtin.size (declaredNames (ops ++ later)) := by
    rw [hsplit, numbered_append, ← hdeclared, (declarations_eq_and_lists later hmiddle hlater).1,
      List.length_append, List.length_map, List.length_map, Registry.length_functions]
  refine ⟨?_, ?_, ?_, ?_, ?_, ?_, ?_⟩
  · show (declarations ops answers).map Declaration.name = declaredNames ops
    rw [hdeclared, map_name_numbered]
  · show ((declarations ops answers).map Declaration.id).Nodup
    rw [hdeclared]
    exact nodup_map_id_numbered (Nat.le_trans hmiddle.size_add_length_le (by decide))
  · intro d hd
    -- what was declared in the run is among all declarations
    have hd' : d ∈ numbered Registry.builtin.size (declaredNames (ops ++ later)) :=
      hall ▸ List.mem_append_left _ hd
    obtain ⟨hvalid, hknown⟩ := h.known?_declared hd'
    refine ⟨hvalid, h.builtin?_ne_of_known?_eq_declared hc hknown, ?_, ?_⟩
    · rw [nameOf?_eq, hknown]
      rfl
    · exact fun scope site args hsite => h.call_declared hc hvalid hknown scope hsite args
  · intro name hname
    obtain ⟨id, f, hf, rfl⟩ := Registry.exists_place hname
    have hnew : (new config).Lists
        (Registry.builtin.functions.map .ofNative ++ ([] : List String).map .ofDeclared) := by
      rw [List.map_nil, List.append_nil]
      exact new_lists config
    refine ⟨id, (hnew.builtin?_eq_some_iff (coherent_new config)).mpr ⟨f, hf, rfl⟩,
      (h.builtin?_eq_some_iff hc).mpr ⟨f, hf, rfl⟩, ?_⟩
    rw [nameOf?_eq, h.known?_native hf]
    rfl
  · intro name hname
    rw [Option.eq_none_iff_forall_ne_some]
    intro id hid
    obtain ⟨f, hf, rfl⟩ := (h.builtin?_eq_some_iff hc).mp hid
    rw [← Registry.map_name_functions] at hname
    exact hname (List.mem_map_of_mem (List.mem_of_getElem? hf))
  · intro id hdeclarations hbuiltins
    rw [nameOf?_eq, Option.map_eq_none_iff, Option.eq_none_iff_forall_ne_some]
    intro r hr
    rcases h.cases_of_known?_eq_some hr with ⟨f, hf, -⟩ | ⟨d, hd, hid, -⟩
    · exact hbuiltins f.name ((h.builtin?_eq_some_iff hc).mpr ⟨f, hf, rfl⟩)
    · exact hdeclarations d (hall ▸ hd) hid
  · intro hids htexts name
    refine exists_declare_eq_ok ?_ htexts name
    rw [UInt32.lt_iff_toNat_lt, h.supply, List.length_append, List.length_map, List.length_map,
      Registry.length_functions]
    exact hids

/-- A name that is declared twice and the name of a builtin, with another stack and one more
declaration later on. -/
theorem identities_never_confused_shadowed :
    let ops : List ContextOp := [.declare "fact", .declare "hash", .intern "n", .declare "fact"]
    let later : List ContextOp := [.replaceStack (.new true), .declare "", .call .new ⟨0⟩ ⟨2⟩ []]
    ∃ answers answers' middle c, (new {}).run ops = .ok (answers, middle) ∧
      middle.run later = .ok (answers', c) ∧
      declarations ops answers = [⟨"fact", ⟨1⟩⟩, ⟨"hash", ⟨2⟩⟩, ⟨"fact", ⟨3⟩⟩] ∧
      c.nameOf? ⟨2⟩ = some "hash" ∧ c.builtin? "hash" ≠ some ⟨2⟩ ∧
      (∃ e after, (c.call .new ⟨7⟩ ⟨3⟩ []).run.value = .ok (.error e, after) ∧
        e.fault = .notCallable "fact") ∧
      (∃ id, c.builtin? "hash" = some id ∧ c.nameOf? id = some "hash") ∧
      c.builtin? "fact" = none := by
  intro ops later
  let first := Breakdown.resultOf ((new {}).run ops) (by decide +kernel)
  let second := Breakdown.resultOf (first.2.run later) (by decide +kernel)
  have hops : (new {}).run ops = .ok first := Breakdown.eq_ok_resultOf _ _
  have hlater : first.2.run later = .ok second := Breakdown.eq_ok_resultOf _ _
  have hdeclared : declarations ops first.1 =
      [⟨"fact", ⟨1⟩⟩, ⟨"hash", ⟨2⟩⟩, ⟨"fact", ⟨3⟩⟩] := by decide +kernel
  have hsilent : second.2.config.logsTracebacks = false := by decide +kernel
  obtain ⟨-, -, hgiven, hbuiltin, hnone, -⟩ :=
    identities_never_confused {} ops later first.1 second.1 first.2 second.2 hops hlater
  rw [hdeclared] at hgiven
  obtain ⟨-, hne, hname, -⟩ := hgiven ⟨"hash", ⟨2⟩⟩ (by decide)
  obtain ⟨-, -, -, hcall⟩ := hgiven ⟨"fact", ⟨3⟩⟩ (by decide)
  obtain ⟨id, -, hid, hidname⟩ := hbuiltin "hash" (by decide)
  exact ⟨first.1, second.1, first.2, second.2, hops, hlater, hdeclared, hname, hne "hash",
    (hcall .new ⟨7⟩ [] (by decide)).1 (by simp [hsilent]), ⟨id, hid, hidname⟩,
    hnone "fact" (by decide)⟩

/-- A declared function is called at a list that holds itself. The call does not even fail. -/
theorem identities_never_confused_self_containing :
    let ops : List ContextOp := [.declare "f", .addForm (.list [⟨0⟩]) ⟨0, 3⟩]
    ∃ answers c, (new ⟨.tracebacks⟩).run ops = .ok (answers, c) ∧
      declarations ops answers = [⟨"f", ⟨1⟩⟩] ∧ (⟨0⟩ : FormId).isValid = true ∧
      ¬∃ e after, (c.call .new ⟨0⟩ ⟨1⟩ []).run.value = .ok (.error e, after) ∧
        e.fault = .notCallable "f" := by
  intro ops
  let ran := Breakdown.resultOf ((new ⟨.tracebacks⟩).run ops) (by decide +kernel)
  have hops : (new ⟨.tracebacks⟩).run ops = .ok ran := Breakdown.eq_ok_resultOf _ _
  have hnone : (ran.2.call .new ⟨0⟩ ⟨1⟩ []).run.value.isOk = false := by decide +kernel
  refine ⟨ran.1, ran.2, hops, by decide +kernel, rfl, ?_⟩
  rintro ⟨e, after, hcall, -⟩
  rw [hcall] at hnone
  cases hnone

end Context

end CallTrace
