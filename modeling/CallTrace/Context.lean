import CallTrace.CallStack
import CallTrace.Config
import CallTrace.Form.Source
import CallTrace.Native.Registry

/-!
# Evaluation contexts

A context is what one evaluation works with: its call stack, its code, its symbols and the
functions it knows. Everything but the call stack only grows.
-/

namespace CallTrace

/-- What stands behind a callable. -/
inductive Callee
  /-- A function of the evaluator. -/
  | native (function : Native)
  /-- A function of the program being evaluated. -/
  | user

/-- A callable that is known by name. -/
structure FunctionEntry where
  name : Symbol
  callee : Callee

/-- The state of one evaluation. -/
structure Context where
  config : Config
  stack : CallStack
  symbols : SymbolTable := .new
  forms : FormStore := {}
  supply : CallableSupply := {}
  functions : Bindings CallableId FunctionEntry := ∅
  /-- The native functions that were there from the start, by name. -/
  builtins : Bindings String CallableId := ∅

namespace Context

/-! ## Functions -/

/-- Makes a function known under a fresh identity. -/
def register (c : Context) (name : String) (callee : Callee) :
    Except Breakdown (CallableId × Context) := do
  let (id, supply) ← c.supply.fresh
  let (symbol, symbols) ← c.symbols.intern name
  pure (id, { c with
    supply, symbols
    stack := c.stack.learnName id (symbols.text symbol)
    functions := c.functions.insert id ⟨symbol, callee⟩ })

theorem register_eq_ok_iff {c c' : Context} {name : String} {callee : Callee} {id : CallableId} :
    c.register name callee = .ok (id, c') ↔
      c.supply.next < CallableId.nil.raw ∧ id = ⟨c.supply.next⟩ ∧
        ∃ symbol symbols, c.symbols.intern name = .ok (symbol, symbols) ∧
          c' = { c with
            supply := ⟨c.supply.next + 1⟩
            symbols
            stack := c.stack.learnName ⟨c.supply.next⟩ (symbols.text symbol)
            functions := c.functions.insert ⟨c.supply.next⟩ ⟨symbol, callee⟩ } := by
  simp only [register, bind_eq_ok_iff, Prod.exists]
  constructor
  · rintro ⟨_, _, hfresh, symbol, symbols, hintern, ⟨⟩⟩
    obtain ⟨hlt, rfl, rfl⟩ := CallableSupply.eq_of_fresh_eq_ok hfresh
    exact ⟨hlt, rfl, symbol, symbols, hintern, rfl⟩
  · rintro ⟨hlt, rfl, symbol, symbols, hintern, rfl⟩
    exact ⟨_, _, CallableSupply.fresh_of_lt hlt, symbol, symbols, hintern, rfl⟩

/-- Gives a function of the program its identity, a new one each time. -/
def declare (c : Context) (name : String) : Except Breakdown (CallableId × Context) :=
  c.register name .user

/-- Makes a native function known as a builtin. -/
def addBuiltin (c : Context) (f : Native) : Except Breakdown Context := do
  let (id, c) ← c.register f.name (.native f)
  pure { c with builtins := c.builtins.insert f.name id }

theorem addBuiltin_eq_ok_iff {c c' : Context} {f : Native} :
    c.addBuiltin f = .ok c' ↔
      ∃ id after, c.register f.name (.native f) = .ok (id, after) ∧
        c' = { after with builtins := after.builtins.insert f.name id } := by
  simp only [addBuiltin, bind_eq_ok_iff, Prod.exists]
  exact exists_congr fun id => exists_congr fun after => and_congr_right fun _ =>
    ⟨fun h => (Except.ok.inj h).symm, fun h => congrArg _ h.symm⟩

/-- A context that knows no function yet. -/
def blank (config : Config) : Context :=
  { config, stack := .new config.logsCalls }

/-- Makes the builtin functions known to a blank context. -/
def build (config : Config) : Except Breakdown Context :=
  Registry.builtin.functions.foldlM addBuiltin (blank config)

/-- There are numbers enough for the builtin functions. -/
theorem isOk_build (config : Config) : (build config).isOk = true := by
  obtain ⟨symbol, symbols, hintern⟩ :=
    SymbolTable.exists_intern_eq_ok (by rw [SymbolTable.size_new]; decide) Native.hash.name
  have hfresh : (blank config).supply.next < CallableId.nil.raw :=
    show (0 : UInt32) < CallableId.nil.raw by decide
  obtain ⟨c, hc⟩ : ∃ c, (blank config).addBuiltin Native.hash = .ok c :=
    ⟨_, addBuiltin_eq_ok_iff.mpr ⟨_, _, register_eq_ok_iff.mpr
      ⟨hfresh, rfl, symbol, symbols, hintern, rfl⟩, rfl⟩⟩
  rw [build, Registry.functions_builtin, List.foldlM_cons, hc]
  rfl

/-- A context in which nothing has happened yet. It knows the builtin functions. -/
def new (config : Config) : Context :=
  Breakdown.resultOf (build config) (isOk_build config)

theorem build_eq_ok (config : Config) : build config = .ok (new config) :=
  Breakdown.eq_ok_resultOf _ _

/-- The identity of a builtin function. -/
def builtin? (c : Context) (name : String) : Option CallableId :=
  c.builtins.get? name

/-! ## Code -/

/-- The symbol of a text. -/
def intern (c : Context) (s : String) : Except Breakdown (Symbol × Context) := do
  let (symbol, symbols) ← c.symbols.intern s
  pure (symbol, { c with symbols })

/-- Adds a form to the code. -/
def addForm (c : Context) (kind : FormKind) (span : Span) :
    Except Breakdown (FormId × Context) := do
  let (id, forms) ← c.forms.add kind span
  pure (id, { c with forms })

/-! ## Names and source texts -/

/-- The name under which a callable is known. -/
def nameOf? (c : Context) (callable : CallableId) : Option String :=
  (c.functions.get? callable).map fun entry => c.symbols.text entry.name

/-- The name of a callable, or its number if it is not known. -/
def nameOf (c : Context) (callable : CallableId) : String :=
  (c.nameOf? callable).getD callable.render

/-- The source text of a call site, unless it has no end. -/
def sourceOf (c : Context) (site : FormId) : Option String :=
  c.forms.render c.symbols site

/-- What the numbers in frames stand for in this context. -/
def legend (c : Context) : Legend :=
  ⟨c.nameOf, c.sourceOf⟩

end Context

end CallTrace
