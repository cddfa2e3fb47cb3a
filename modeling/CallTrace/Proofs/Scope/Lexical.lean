import CallTrace.Scope.Forest
import Mathlib.Data.List.Forall2

/-!
# What a name means

A name means what it was last bound to in the nearest scope, going from the inside out, in which it
was bound at all. This speaks of everything that was ever done with the scopes, whereas a scope only
holds the levels around it as they were when it came into being. The two agree because a scope is
closed to definitions as soon as there is another inside it: a level that was copied is never out
of date. `Reflects` is what a scope has to do with the past operations, and no operation breaks it.

* `exists_perform_eq` — an operation that is allowed can be performed, and `Records` is preserved
* `exists_run_eq` — so can any number of them
* `lexical_lookup` — what a look-up gives, and what does not change it
-/

namespace CallTrace

/-- Something done with a forest of scopes. -/
inductive ScopeOp
  | plant
  | child (outer : Nat)
  | define (scope : Nat) (name : Symbol) (value : Value)
deriving DecidableEq

namespace ScopeForest

/-- Performs an operation, if that is possible. -/
def perform (f : ScopeForest) : ScopeOp → Option ScopeForest
  | .plant => some f.plant
  | .child i => f.child? i
  | .define i name value => (f.define i name value).toOption

/-- Performs some operations, if each of them is possible. -/
def run (f : ScopeForest) (ops : List ScopeOp) : Option ScopeForest :=
  ops.foldlM perform f

theorem child?_eq_some_iff {f f' : ScopeForest} {i : Nat} :
    f.child? i = some f' ↔ ∃ node, f.nodes[i]? = some node ∧
      ⟨(f.nodes.setIfInBounds i { node with hasChild := true }).push
        ⟨node.scope.child, false⟩⟩ = f' := by
  simp [child?]

theorem define_eq_ok_iff {f f' : ScopeForest} {i : Nat} {name : Symbol} {value : Value} :
    f.define i name value = .ok f' ↔ ∃ node, f.nodes[i]? = some node ∧ node.hasChild = false ∧
      ⟨f.nodes.setIfInBounds i { node with scope := node.scope.define name value }⟩ = f' := by
  unfold define
  cases hi : f.nodes[i]? with
  | none => simp
  | some node =>
    by_cases hclosed : node.hasChild = true
    · simp [hclosed]
    · simp [hclosed]

theorem perform_define_eq_some_iff {f f' : ScopeForest} {i : Nat} {name : Symbol}
    {value : Value} :
    f.perform (.define i name value) = some f' ↔ f.define i name value = .ok f' := by
  cases h : f.define i name value with
  | error cause => simp [perform, h, Except.toOption]
  | ok g => simp [perform, h, Except.toOption]

end ScopeForest

/-! ## What operations have done -/

namespace ScopeOp

/-- Of an operation that makes a scope, where that scope is: inside no other, or inside the one at a
place. -/
def made? : ScopeOp → Option (Option Nat)
  | .plant => some none
  | .child i => some (some i)
  | .define _ _ _ => none

/-- What an operation binds a name to in the scope at a place. -/
def bound? (i : Nat) (name : Symbol) : ScopeOp → Option Value
  | .define j n v => if j = i ∧ n = name then some v else none
  | _ => none

end ScopeOp

/-- Of each scope that some operations make, in order, where it is. -/
def scopesMade (ops : List ScopeOp) : List (Option Nat) :=
  ops.filterMap ScopeOp.made?

/-- What a name was last bound to in the scope at a place. -/
def lastBound? (ops : List ScopeOp) (i : Nat) (name : Symbol) : Option Value :=
  ops.reverse.findSome? (·.bound? i name)

/-- The scopes around the one at a place, which comes first, from the inside out. -/
inductive Enclosing (ops : List ScopeOp) : Nat → List Nat → Prop
  | outermost {i : Nat} (h : (scopesMade ops)[i]? = some none) : Enclosing ops i [i]
  | inside {i p : Nat} {chain : List Nat} (h : (scopesMade ops)[i]? = some (some p))
      (hp : Enclosing ops p chain) : Enclosing ops i (i :: chain)

/-- Whether an operation is allowed after others: a scope must exist to have something done with it,
and must have none inside it to have a name bound. -/
def ScopeOp.Allowed (past : List ScopeOp) : ScopeOp → Prop
  | .plant => True
  | .child i => i < (scopesMade past).length
  | .define i _ _ => i < (scopesMade past).length ∧ .child i ∉ past

/-- Whether each of some operations is allowed after others and those before it. -/
def AllAllowed : List ScopeOp → List ScopeOp → Prop
  | _, [] => True
  | past, op :: rest => op.Allowed past ∧ AllAllowed (past ++ [op]) rest

instance (past : List ScopeOp) : (op : ScopeOp) → Decidable (op.Allowed past)
  | .plant => isTrue trivial
  | .child i => inferInstanceAs (Decidable (i < (scopesMade past).length))
  | .define i _ _ => inferInstanceAs (Decidable (i < (scopesMade past).length ∧ _))

instance AllAllowed.decidable : (past ops : List ScopeOp) → Decidable (AllAllowed past ops)
  | _, [] => isTrue trivial
  | past, op :: rest =>
    have := decidable (past ++ [op]) rest
    inferInstanceAs (Decidable (_ ∧ _))

theorem scopesMade_concat (ops : List ScopeOp) (op : ScopeOp) :
    scopesMade (ops ++ [op]) = scopesMade ops ++ op.made?.toList := by
  cases h : op.made? with
  | none => simp [scopesMade, h]
  | some place => simp [scopesMade, h]

theorem lastBound?_concat (ops : List ScopeOp) (op : ScopeOp) (i : Nat) (name : Symbol) :
    lastBound? (ops ++ [op]) i name = (op.bound? i name).or (lastBound? ops i name) := by
  cases h : op.bound? i name with
  | none => simp [lastBound?, h]
  | some value => simp [lastBound?, h]

theorem Enclosing.concat {ops : List ScopeOp} {i : Nat} {chain : List Nat}
    (h : Enclosing ops i chain) (op : ScopeOp) : Enclosing (ops ++ [op]) i chain := by
  have hmade : ∀ {j : Nat} {place : Option Nat}, (scopesMade ops)[j]? = some place →
      (scopesMade (ops ++ [op]))[j]? = some place := by
    intro j place hj
    rw [scopesMade_concat, List.getElem?_append_left (List.getElem?_eq_some_iff.mp hj).1, hj]
  induction h with
  | outermost h => exact .outermost (hmade h)
  | inside h _ ih => exact .inside (hmade h) ih

/-! ## Scopes and what was done with them -/

/-- A level holds what names were last bound to in the scope at a place. -/
def UpToDate (ops : List ScopeOp) (i : Nat) (level : Level) : Prop :=
  ∀ name, level.get? name = lastBound? ops i name

/-- A level of a scope that is closed, so that it will stay up to date. -/
structure ClosedLevel (ops : List ScopeOp) (i : Nat) (level : Level) : Prop where
  closed : .child i ∈ ops
  upToDate : UpToDate ops i level

/-- A scope is what some operations have made of the one at a place. -/
structure Reflects (ops : List ScopeOp) (i : Nat) (node : ScopeNode) : Prop where
  hasChild : node.hasChild = true ↔ .child i ∈ ops
  own : UpToDate ops i node.scope.own
  outer : ∃ outer, Enclosing ops i (i :: outer) ∧
    List.Forall₂ (ClosedLevel ops) outer node.scope.outer

/-- A forest is what some operations have made of it. -/
structure Records (ops : List ScopeOp) (f : ScopeForest) : Prop where
  size : f.size = (scopesMade ops).length
  child_lt : ∀ {i}, .child i ∈ ops → i < f.size
  bound_lt : ∀ {i name}, lastBound? ops i name ≠ none → i < f.size
  nodes : ∀ {i node}, f.nodes[i]? = some node → Reflects ops i node

variable {ops : List ScopeOp} {op : ScopeOp} {i : Nat}

theorem UpToDate.concat {level : Level} (h : UpToDate ops i level)
    (hop : ∀ name, op.bound? i name = none) : UpToDate (ops ++ [op]) i level := by
  intro name
  rw [lastBound?_concat, hop, Option.none_or, h]

/-- A closed scope has no more names bound. -/
theorem ScopeOp.Allowed.bound?_eq_none (hop : op.Allowed ops) (hi : .child i ∈ ops)
    (name : Symbol) : op.bound? i name = none := by
  cases op with
  | define j n v =>
    have hne : j ≠ i := by
      rintro rfl
      exact hop.2 hi
    simp [bound?, hne]
  | _ => rfl

theorem ClosedLevel.concat {level : Level} (h : ClosedLevel ops i level) (hop : op.Allowed ops) :
    ClosedLevel (ops ++ [op]) i level :=
  ⟨List.mem_append_left _ h.closed, h.upToDate.concat (hop.bound?_eq_none h.closed)⟩

theorem findSome?_get?_eq {chain : List Nat} {levels : List Level}
    (h : List.Forall₂ (ClosedLevel ops) chain levels) (name : Symbol) :
    levels.findSome? (·.get? name) = chain.findSome? (lastBound? ops · name) := by
  induction h with
  | nil => rfl
  | cons hlevel _ ih => simp only [List.findSome?_cons, hlevel.upToDate name, ih]

namespace Reflects

variable {node : ScopeNode}

/-- The levels around a scope are those of closed scopes, so they stay as they are. -/
theorem outer_concat (h : Reflects ops i node) (hop : op.Allowed ops) :
    ∃ outer, Enclosing (ops ++ [op]) i (i :: outer) ∧
      List.Forall₂ (ClosedLevel (ops ++ [op])) outer node.scope.outer := by
  obtain ⟨outer, hchain, hlevels⟩ := h.outer
  exact ⟨outer, hchain.concat op, hlevels.imp fun _ _ hlevel => hlevel.concat hop⟩

/-- Nothing changes for a scope that an operation has nothing to do with. -/
theorem concat (h : Reflects ops i node) (hop : op.Allowed ops) (hchild : op ≠ .child i)
    (hbound : ∀ name, op.bound? i name = none) : Reflects (ops ++ [op]) i node := by
  refine ⟨?_, h.own.concat hbound, h.outer_concat hop⟩
  simp [h.hasChild, hchild.symm]

/-- A name means what it was last bound to in the nearest scope in which it was bound. -/
theorem lookup?_eq (h : Reflects ops i node) :
    ∃ chain, Enclosing ops i chain ∧
      ∀ name, node.scope.lookup? name = chain.findSome? (lastBound? ops · name) := by
  obtain ⟨outer, hchain, hlevels⟩ := h.outer
  refine ⟨i :: outer, hchain, fun name => ?_⟩
  rw [Scope.lookup?, List.findSome?_cons, List.findSome?_cons, h.own name,
    findSome?_get?_eq hlevels]

end Reflects

/-! ## One operation -/

namespace Records

variable {f f' : ScopeForest}

theorem exists_getElem?_eq (h : Records ops f) (hi : i < (scopesMade ops).length) :
    ∃ node, f.nodes[i]? = some node := by
  rw [← h.size] at hi
  exact ⟨_, Array.getElem?_eq_getElem hi⟩

/-- What has to be shown of an operation is what it makes of each scope. -/
theorem concat (h : Records ops f) (hop : op.Allowed ops)
    (hsize : f'.size = f.size + op.made?.toList.length)
    (hnodes : ∀ {i node}, f'.nodes[i]? = some node → Reflects (ops ++ [op]) i node) :
    Records (ops ++ [op]) f' := by
  refine ⟨?_, ?_, ?_, hnodes⟩
  · rw [hsize, h.size, scopesMade_concat, List.length_append]
  · intro i hi
    rcases List.mem_append.mp hi with hi | hi
    · have := h.child_lt hi
      omega
    · obtain rfl := List.mem_singleton.mp hi
      have hlt : i < (scopesMade ops).length := hop
      rw [← h.size] at hlt
      omega
  · intro i name hi
    rw [lastBound?_concat] at hi
    cases op with
    | define j n v =>
      by_cases hji : j = i
      · have hlt : j < (scopesMade ops).length := hop.1
        rw [← h.size] at hlt
        omega
      · have hbound : lastBound? ops i name ≠ none := by simpa [ScopeOp.bound?, hji] using hi
        have := h.bound_lt hbound
        omega
    | _ =>
      have hbound : lastBound? ops i name ≠ none := by simpa [ScopeOp.bound?] using hi
      have := h.bound_lt hbound
      omega

/-- With a scope that was made just now nothing was done yet. -/
theorem reflects_new (h : Records ops f) (hchild : op ≠ .child f.size)
    (hbound : ∀ name, op.bound? f.size name = none) {levels : List Level}
    (houter : ∃ outer, Enclosing (ops ++ [op]) f.size (f.size :: outer) ∧
      List.Forall₂ (ClosedLevel (ops ++ [op])) outer levels) :
    Reflects (ops ++ [op]) f.size ⟨⟨∅, levels⟩, false⟩ := by
  have hopen : .child f.size ∉ ops := fun hmem => Nat.lt_irrefl _ (h.child_lt hmem)
  have hempty : UpToDate ops f.size ∅ := by
    intro name
    rw [Bindings.get?_empty]
    by_contra hne
    exact Nat.lt_irrefl _ (h.bound_lt (Ne.symm hne))
  refine ⟨?_, hempty.concat hbound, houter⟩
  simp [hopen, hchild.symm]

theorem getElem?_scopesMade_concat (h : Records ops f) {place : Option Nat}
    (hop : op.made? = some place) : (scopesMade (ops ++ [op]))[f.size]? = some place := by
  rw [scopesMade_concat, hop, h.size]
  simp

theorem plant (h : Records ops f) : Records (ops ++ [.plant]) f.plant := by
  have hop : ScopeOp.plant.Allowed ops := trivial
  refine h.concat hop ?_ ?_
  · simp [ScopeForest.plant, ScopeForest.size, ScopeOp.made?]
  · intro i node hi
    rw [ScopeForest.plant, Array.getElem?_push] at hi
    split at hi
    · next heq =>
      obtain rfl := Option.some.inj hi
      obtain rfl : i = f.size := heq
      refine h.reflects_new (by simp) (fun _ => rfl) ⟨[], .outermost ?_, .nil⟩
      exact h.getElem?_scopesMade_concat rfl
    · exact (h.nodes hi).concat hop (by simp) fun _ => rfl

theorem child (h : Records ops f) {p : Nat} (hop : (ScopeOp.child p).Allowed ops)
    (hf' : f.child? p = some f') : Records (ops ++ [.child p]) f' := by
  obtain ⟨outside, hp, rfl⟩ := ScopeForest.child?_eq_some_iff.mp hf'
  have hlt : p < f.nodes.size := (Array.getElem?_eq_some_iff.mp hp).1
  refine h.concat hop ?_ ?_
  · simp [ScopeForest.size, ScopeOp.made?]
  · intro i node hi
    rw [Array.getElem?_push, Array.getElem?_setIfInBounds, Array.size_setIfInBounds,
      if_pos hlt] at hi
    split at hi
    · -- the new scope, around which are the one at `p` and those around that
      next heq =>
      obtain rfl := Option.some.inj hi
      obtain rfl : i = f.size := heq
      obtain ⟨outer, hchain, hlevels⟩ := (h.nodes hp).outer_concat hop
      have hlevel : ClosedLevel (ops ++ [.child p]) p outside.scope.own :=
        ⟨by simp, (h.nodes hp).own.concat fun _ => rfl⟩
      refine h.reflects_new ?_ (fun _ => rfl)
        ⟨p :: outer, .inside (h.getElem?_scopesMade_concat rfl) hchain, .cons hlevel hlevels⟩
      intro heq
      exact Nat.ne_of_lt hlt (ScopeOp.child.inj heq)
    · split at hi
      · -- the one at `p`, which is closed now
        next heq =>
        subst heq
        obtain rfl := Option.some.inj hi
        exact ⟨by simp, (h.nodes hp).own.concat fun _ => rfl, (h.nodes hp).outer_concat hop⟩
      · next hne =>
        refine (h.nodes hi).concat hop ?_ fun _ => rfl
        intro heq
        exact hne (ScopeOp.child.inj heq)

theorem define (h : Records ops f) {k : Nat} {name : Symbol} {value : Value}
    (hop : (ScopeOp.define k name value).Allowed ops) (hf' : f.define k name value = .ok f') :
    Records (ops ++ [.define k name value]) f' := by
  obtain ⟨old, hk, -, rfl⟩ := ScopeForest.define_eq_ok_iff.mp hf'
  have hlt : k < f.nodes.size := (Array.getElem?_eq_some_iff.mp hk).1
  refine h.concat hop ?_ ?_
  · simp [ScopeForest.size, ScopeOp.made?]
  · intro i node hi
    rw [Array.getElem?_setIfInBounds, if_pos hlt] at hi
    split at hi
    · next heq =>
      subst heq
      obtain rfl := Option.some.inj hi
      refine ⟨by simp [(h.nodes hk).hasChild], ?_, (h.nodes hk).outer_concat hop⟩
      intro n
      rw [lastBound?_concat, ← (h.nodes hk).own n, Scope.define, Bindings.get?_insert]
      by_cases hn : name = n
      · simp [ScopeOp.bound?, hn]
      · simp [ScopeOp.bound?, hn]
    · next hne => exact (h.nodes hi).concat hop (by simp) fun n => by simp [ScopeOp.bound?, hne]

/-- **An operation that is allowed can be performed**, and makes of the scopes what it should. -/
theorem exists_perform_eq (h : Records ops f) (hop : op.Allowed ops) :
    ∃ f', f.perform op = some f' ∧ Records (ops ++ [op]) f' := by
  cases op with
  | plant => exact ⟨f.plant, rfl, h.plant⟩
  | child p =>
    obtain ⟨outside, hp⟩ := h.exists_getElem?_eq hop
    have hf' := ScopeForest.child?_eq_some_iff.mpr ⟨outside, hp, rfl⟩
    exact ⟨_, hf', h.child hop hf'⟩
  | define k name value =>
    obtain ⟨old, hk⟩ := h.exists_getElem?_eq hop.1
    have hopen : old.hasChild = false := by
      rw [Bool.eq_false_iff]
      exact fun hclosed => hop.2 ((h.nodes hk).hasChild.mp hclosed)
    have hf' : f.define k name value = .ok
        ⟨f.nodes.setIfInBounds k { old with scope := old.scope.define name value }⟩ :=
      ScopeForest.define_eq_ok_iff.mpr ⟨old, hk, hopen, rfl⟩
    exact ⟨_, ScopeForest.perform_define_eq_some_iff.mpr hf', h.define hop hf'⟩

/-! ## Any number of operations -/

/-- **Operations that are allowed can be performed**, one after the other. -/
theorem exists_run_eq {more : List ScopeOp} (h : Records ops f) (hmore : AllAllowed ops more) :
    ∃ f', f.run more = some f' ∧ Records (ops ++ more) f' := by
  induction more generalizing ops f with
  | nil => exact ⟨f, rfl, by rwa [List.append_nil]⟩
  | cons op rest ih =>
    obtain ⟨hop, hrest⟩ := hmore
    obtain ⟨between, hbetween, hrecords⟩ := h.exists_perform_eq hop
    obtain ⟨f', hf', hall⟩ := ih hrecords hrest
    refine ⟨f', ?_, by rwa [List.append_assoc] at hall⟩
    rw [ScopeForest.run, List.foldlM_cons, hbetween]
    exact hf'

theorem empty : Records [] {} :=
  ⟨rfl, by simp, by simp [lastBound?], by simp⟩

end Records

namespace ScopeForest

/-- A closed scope stays as it is. -/
theorem perform_of_closed {f f' : ScopeForest} {node : ScopeNode} (hi : f.nodes[i]? = some node)
    (hclosed : node.hasChild = true) (h : f.perform op = some f') : f'.nodes[i]? = some node := by
  have hlt : i < f.nodes.size := (Array.getElem?_eq_some_iff.mp hi).1
  cases op with
  | plant =>
    obtain rfl := Option.some.inj h
    rw [plant, Array.getElem?_push, if_neg (Nat.ne_of_lt hlt), hi]
  | child p =>
    obtain ⟨outside, hp, rfl⟩ := child?_eq_some_iff.mp h
    rw [Array.getElem?_push, Array.size_setIfInBounds, if_neg (Nat.ne_of_lt hlt),
      Array.getElem?_setIfInBounds]
    split
    · next heq =>
      subst heq
      obtain rfl : outside = node := Option.some.inj (hp.symm.trans hi)
      rw [if_pos hlt, ← hclosed]
    · exact hi
  | define k name value =>
    obtain ⟨old, hk, hopen, rfl⟩ := define_eq_ok_iff.mp
      (perform_define_eq_some_iff.mp h)
    have hne : k ≠ i := by
      rintro rfl
      obtain rfl : old = node := Option.some.inj (hk.symm.trans hi)
      rw [hopen] at hclosed
      contradiction
    rw [Array.getElem?_setIfInBounds, if_neg hne, hi]

theorem run_of_closed {ops : List ScopeOp} {f f' : ScopeForest} {node : ScopeNode}
    (hi : f.nodes[i]? = some node) (hclosed : node.hasChild = true) (h : f.run ops = some f') :
    f'.nodes[i]? = some node := by
  induction ops generalizing f with
  | nil =>
    obtain rfl := Option.some.inj h
    exact hi
  | cons op rest ih =>
    rw [run, List.foldlM_cons, Option.bind_eq_bind, Option.bind_eq_some_iff] at h
    obtain ⟨between, hbetween, hrest⟩ := h
    exact ih (perform_of_closed hi hclosed hbetween) hrest

/-! ## Looking names up -/

theorem lookup?_of_getElem? {f : ScopeForest} {node : ScopeNode} (h : f.nodes[i]? = some node)
    (name : Symbol) : f.lookup? i name = node.scope.lookup? name := by
  simp [lookup?, scope?, h]

/-- A definition is seen in the scope it is made in and changes nothing else. -/
theorem lookup?_define {f f' : ScopeForest} {j : Nat} {name : Symbol} {value : Value}
    (h : f.define j name value = .ok f') (i : Nat) (name' : Symbol) :
    f'.lookup? i name' = if j = i ∧ name = name' then some value else f.lookup? i name' := by
  obtain ⟨old, hj, -, rfl⟩ := define_eq_ok_iff.mp h
  have hlt : j < f.nodes.size := (Array.getElem?_eq_some_iff.mp hj).1
  by_cases hji : j = i
  · subst hji
    rw [lookup?_of_getElem? hj]
    simp [lookup?, scope?, hlt, Scope.lookup?_define]
  · simp [lookup?, scope?, hji]

end ScopeForest

theorem ScopeOp.bound?_eq_some_iff {name : Symbol} {v : Value} :
    op.bound? i name = some v ↔ op = .define i name v := by
  cases op with
  | define j n w => simp [bound?, and_assoc]
  | _ => simp [bound?]

theorem forall_bound?_eq_none_iff {name : Symbol} :
    (∀ op ∈ ops, op.bound? i name = none) ↔ ∀ v, .define i name v ∉ ops := by
  constructor
  · intro h v hmem
    have := h _ hmem
    simp [ScopeOp.bound?] at this
  · intro h op hmem
    rw [Option.eq_none_iff_forall_ne_some]
    intro v hv
    exact h v (ScopeOp.bound?_eq_some_iff.mp hv ▸ hmem)

theorem lastBound?_eq_none_iff {name : Symbol} :
    lastBound? ops i name = none ↔ ∀ v, .define i name v ∉ ops := by
  rw [lastBound?, List.findSome?_eq_none_iff, ← forall_bound?_eq_none_iff]
  simp

theorem lastBound?_eq_some_iff {name : Symbol} {v : Value} :
    lastBound? ops i name = some v ↔ ∃ before later, ops = before ++ .define i name v :: later ∧
      ∀ w, .define i name w ∉ later := by
  rw [lastBound?, List.findSome?_eq_some_iff]
  constructor
  · rintro ⟨later, op, before, hops, hop, hlater⟩
    obtain rfl := ScopeOp.bound?_eq_some_iff.mp hop
    refine ⟨before.reverse, later.reverse, ?_, ?_⟩
    · rw [← ops.reverse_reverse, hops]
      simp
    · exact forall_bound?_eq_none_iff.mp fun op hmem => hlater op (List.mem_reverse.mp hmem)
  · rintro ⟨before, later, rfl, hlater⟩
    refine ⟨later.reverse, _, before.reverse, by simp, ScopeOp.bound?_eq_some_iff.mpr rfl, ?_⟩
    exact fun op hmem => forall_bound?_eq_none_iff.mpr hlater op (List.mem_reverse.mp hmem)

/-- **What a name means.** Any operations that are allowed can be performed. In each scope that they
make, a name then means what it was last bound to in the nearest scope in which it ever was, from
that scope on outwards, and nothing if it was bound in none of them; a binding to the value `nil` is
one like any other. A further definition changes what its name means in its scope, and neither what
other names mean there nor what any name means elsewhere. In a scope that has another inside it all
names mean the same from then on. -/
theorem lexical_lookup (ops : List ScopeOp) (h : AllAllowed [] ops) :
    ∃ f, ScopeForest.run {} ops = some f ∧
      (∀ i < (scopesMade ops).length, ∃ chain, Enclosing ops i chain ∧ ∀ name,
        (∀ v, f.lookup? i name = some v ↔
          ∃ nearer j further, chain = nearer ++ j :: further ∧
            (∃ before later, ops = before ++ .define j name v :: later ∧
              ∀ w, .define j name w ∉ later) ∧
            ∀ k ∈ nearer, ∀ w, .define k name w ∉ ops) ∧
        (f.lookup? i name = none ↔ ∀ j ∈ chain, ∀ w, .define j name w ∉ ops)) ∧
      (∀ j name v f', f.define j name v = .ok f' → ∀ i name', f'.lookup? i name' =
        if j = i ∧ name = name' then some v else f.lookup? i name') ∧
      (∀ i, .child i ∈ ops → ∀ more, AllAllowed ops more → ∃ f', f.run more = some f' ∧
        ∀ name, f'.lookup? i name = f.lookup? i name) := by
  obtain ⟨f, hf, hrecords⟩ := Records.empty.exists_run_eq h
  rw [List.nil_append] at hrecords
  refine ⟨f, hf, fun i hi => ?_, fun j name v f' hf' => ScopeForest.lookup?_define hf',
    fun i hi more hmore => ?_⟩
  · obtain ⟨node, hnode⟩ := hrecords.exists_getElem?_eq hi
    obtain ⟨chain, hchain, hlookup⟩ := (hrecords.nodes hnode).lookup?_eq
    refine ⟨chain, hchain, fun name => ⟨fun v => ?_, ?_⟩⟩
    · rw [ScopeForest.lookup?_of_getElem? hnode, hlookup, List.findSome?_eq_some_iff]
      simp only [lastBound?_eq_some_iff, lastBound?_eq_none_iff]
    · rw [ScopeForest.lookup?_of_getElem? hnode, hlookup, List.findSome?_eq_none_iff]
      simp only [lastBound?_eq_none_iff]
  · obtain ⟨f', hf', -⟩ := hrecords.exists_run_eq hmore
    obtain ⟨node, hnode⟩ := hrecords.exists_getElem?_eq (hrecords.size ▸ hrecords.child_lt hi)
    have hclosed := (hrecords.nodes hnode).hasChild.mpr hi
    refine ⟨f', hf', fun name => ?_⟩
    rw [ScopeForest.lookup?_of_getElem? hnode,
      ScopeForest.lookup?_of_getElem? (ScopeForest.run_of_closed hnode hclosed hf')]

/-- A name is bound twice in the outermost scope, and to `nil` in one of the two scopes inside it,
which has another inside it in turn. From there the name means `nil`, from the other scope it means
what it was bound to last, and this stays so when it is bound there. -/
theorem lexical_lookup_nil_shadows :
    let x : Symbol := ⟨15⟩
    let ops : List ScopeOp :=
      [.plant, .define 0 x (.int 1), .define 0 x (.int 2), .child 0, .define 1 x .nil, .child 0,
        .child 1]
    AllAllowed [] ops ∧ AllAllowed ops [.define 2 x (.bool true)] ∧
      ∃ f, ScopeForest.run {} ops = some f ∧ f.lookup? 3 x = some .nil ∧
        f.lookup? 2 x = some (.int 2) ∧ f.lookup? 3 .empty = none ∧
        (∃ chain, Enclosing ops 3 chain ∧ ∀ j ∈ chain, ∀ w, .define j .empty w ∉ ops) ∧
        ∃ f', f.run [.define 2 x (.bool true)] = some f' ∧ f'.lookup? 1 x = f.lookup? 1 x := by
  intro x ops
  have hops : AllAllowed [] ops := by decide
  have hmore : AllAllowed ops [.define 2 x (.bool true)] := by decide
  obtain ⟨f, hf, hlookup, -, hclosed⟩ := lexical_lookup ops hops
  obtain ⟨chain, hchain, hnames⟩ := hlookup 3 (by decide)
  obtain ⟨f', hf', hsame⟩ := hclosed 1 (by decide) _ hmore
  have hmeant : (ScopeForest.run {} ops).map
      (fun f => (f.lookup? 3 x, f.lookup? 2 x, f.lookup? 3 .empty)) =
        some (some .nil, some (.int 2), none) := by decide +kernel
  rw [hf, Option.map_some, Option.some_inj, Prod.mk.injEq, Prod.mk.injEq] at hmeant
  obtain ⟨hnil, hlast, hnone⟩ := hmeant
  exact ⟨hops, hmore, f, hf, hnil, hlast, hnone, ⟨chain, hchain, (hnames .empty).2.mp hnone⟩,
    f', hf', hsame x⟩

end CallTrace
