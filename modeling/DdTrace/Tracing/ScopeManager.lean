import DdTrace.Lib.Run
import DdTrace.Tracing.TraceContext

/-!
# The active scope of an execution context

* `ScopeManager.activate`, `ScopeManager.close`: what the scope manager does, with the events it
  raises.
* `Call`: the calls by which a program opens and closes scopes.
* `restored_of_nested`: scopes that are closed last in, first out leave the active scope as it was.
* `active_open_iff`: the active scope is never one that was closed, exactly if no active scope is
  closed after its parent.

Sources: `ScopeManagerBase.cs`; `Scope.cs`.
-/

namespace DdTrace.Tracing

open DdTrace.Lib

/-! ## Scopes and their manager -/

/-- A scope: the scopes of a context are numbered as they are activated. -/
abbrev ScopeRef := Nat

/-- Source: `Scope.cs`, `Scope` -/
structure Scope where
  /-- `Parent`. -/
  parent : Option ScopeRef
  /-- `Span`. -/
  span : SpanRef
  /-- `_finishOnClose`. -/
  finishOnClose : Bool
  deriving DecidableEq, Repr

/-- What is done besides setting the active scope: the events, each with the span of its arguments,
and the calls of `Finish`. -/
inductive ScopeEffect
  | traceStarted (span : SpanRef)
  | spanOpened (span : SpanRef)
  | spanActivated (span : SpanRef)
  | spanDeactivated (span : SpanRef)
  | spanClosed (span : SpanRef)
  | traceEnded (span : SpanRef)
  | finish (span : SpanRef)
  deriving DecidableEq, Repr

/-- Source: `ScopeManagerBase.cs`, `ScopeManagerBase`, with the scopes it has created -/
structure ScopeManager where
  /-- The scopes. -/
  scopes : List Scope
  /-- `Active`. -/
  active : Option ScopeRef
  deriving DecidableEq, Repr

namespace ScopeManager

/-- The span of a scope that may be null. -/
def spanOf (m : ScopeManager) (scope : Option ScopeRef) : List SpanRef :=
  (scope.bind fun r => m.scopes[r]?).toList.map Scope.span

/-- Source: `ScopeManagerBase.cs`, `Activate` -/
def activate (m : ScopeManager) (span : SpanRef) (finishOnClose : Bool) :
    ScopeManager × List ScopeEffect :=
  let newParent := m.active
  let scope : Scope := ⟨newParent, span, finishOnClose⟩
  (⟨m.scopes ++ [scope], some m.scopes.length⟩,
    (if newParent = none then [.traceStarted span] else []) ++ [.spanOpened span] ++
      (m.spanOf newParent).map .spanDeactivated ++ [.spanActivated span])

/-- Source: `ScopeManagerBase.cs`, `Close` -/
def close (m : ScopeManager) (r : ScopeRef) (scope : Scope) : ScopeManager × List ScopeEffect :=
  if m.active ≠ some r then (m, [.spanClosed scope.span])
  else
    ({ m with active := scope.parent },
      [.spanDeactivated scope.span] ++ (m.spanOf scope.parent).map .spanActivated ++
        [.spanClosed scope.span] ++
          if scope.parent = none then [.traceEnded scope.span] else [])

end ScopeManager

/-! ## Calls -/

/-- What a program calls: `Activate`, and `Close` and `Dispose` of a scope it was given. -/
inductive ScopeCall
  | activate (span : SpanRef) (finishOnClose : Bool)
  | close (scope : ScopeRef)
  | dispose (scope : ScopeRef)
  deriving DecidableEq, Repr

namespace ScopeCall

/-- The scope that a call closes. -/
def closes : ScopeCall → Option ScopeRef
  | activate _ _ => none
  | close r => some r
  | dispose r => some r

/-- The call, and the scope it is about. `Dispose` is `Close` without the exceptions, of which there
are none.
Source: `Scope.cs`, `Close` and `Dispose`; `ScopeManagerBase.cs`, `Activate` -/
def exec (m : ScopeManager) : ScopeCall → Option (ScopeManager × ScopeRef × List ScopeEffect)
  | activate span finishOnClose =>
      let (m', effects) := m.activate span finishOnClose
      some (m', m.scopes.length, effects)
  | close r | dispose r => do
      let scope ← m.scopes[r]?
      let (m', effects) := m.close r scope
      some (m', r, effects ++ if scope.finishOnClose then [.finish scope.span] else [])

end ScopeCall

/-- An execution context: its manager, and the scopes that `Close` was called on. -/
structure ScopeContext where
  manager : ScopeManager
  closed : List ScopeRef
  deriving DecidableEq, Repr

namespace ScopeContext

/-- A context in which nothing was called. -/
def new : ScopeContext := ⟨⟨[], none⟩, []⟩

/-- One call. -/
def step (c : ScopeContext) (call : ScopeCall) : Option ScopeContext :=
  (call.exec c.manager).map fun r => ⟨r.1, call.closes.toList ++ c.closed⟩

/-- The call is of a scope that there is. -/
def Refers (c : ScopeContext) (call : ScopeCall) : Prop :=
  ∀ r, call.closes = some r → r < c.manager.scopes.length

/-- The active scope is none that was closed. -/
def ActiveOpen (c : ScopeContext) : Prop :=
  ∀ r, c.manager.active = some r → r ∉ c.closed

/-- If the call closes the active scope, the parent of that was not closed before. -/
def ParentOpen (c : ScopeContext) (call : ScopeCall) : Prop :=
  ∀ r scope parent, call.closes = some r → c.manager.active = some r →
    c.manager.scopes[r]? = some scope → scope.parent = some parent → parent ∉ c.closed

variable {c u : ScopeContext}

theorem step_activate (c : ScopeContext) (span : SpanRef) (finishOnClose : Bool) :
    c.step (.activate span finishOnClose) =
      some ⟨(c.manager.activate span finishOnClose).1, c.closed⟩ := rfl

/-- A scope that there is can be closed. -/
theorem step_closes {call : ScopeCall} {r : ScopeRef} {scope : Scope} (hr : call.closes = some r)
    (hscope : c.manager.scopes[r]? = some scope) :
    c.step call = some ⟨(c.manager.close r scope).1, r :: c.closed⟩ := by
  cases call with
  | activate span finishOnClose => cases hr
  | close r' =>
      obtain rfl := Option.some.inj hr
      simp [step, ScopeCall.exec, hscope, ScopeCall.closes]
  | dispose r' =>
      obtain rfl := Option.some.inj hr
      simp [step, ScopeCall.exec, hscope, ScopeCall.closes]

/-- Every call activates a scope or closes one. -/
theorem call_cases (call : ScopeCall) :
    (∃ span finishOnClose, call = .activate span finishOnClose) ∨ ∃ r, call.closes = some r := by
  cases call with
  | activate span finishOnClose => exact Or.inl ⟨span, finishOnClose, rfl⟩
  | close r => exact Or.inr ⟨r, rfl⟩
  | dispose r => exact Or.inr ⟨r, rfl⟩

/-! ## Last in, first out -/

/-- Calls that close each scope they activate, and before the scopes that were activated before it;
the numbers are those of the next scope before and after them. -/
inductive Nested : Nat → List ScopeCall → Nat → Prop
  | nil (n : Nat) : Nested n [] n
  | scope {n k l : Nat} {body rest : List ScopeCall} {closing : ScopeCall} (span : SpanRef)
      (finishOnClose : Bool) : Nested (n + 1) body k → closing.closes = some n → Nested k rest l →
        Nested n (.activate span finishOnClose :: (body ++ closing :: rest)) l

/-- **Scopes that are closed last in, first out** leave the scope active that was active before. -/
theorem restored_of_nested {n k : Nat} {calls : List ScopeCall} (h : Nested n calls k)
    (hn : c.manager.scopes.length = n) :
    ∃ t, runOps step c calls = some t ∧ t.manager.active = c.manager.active ∧
      c.manager.scopes <+: t.manager.scopes ∧ t.manager.scopes.length = k := by
  induction h generalizing c with
  | nil n => exact ⟨c, rfl, rfl, List.prefix_rfl, hn⟩
  | @scope n k l body rest closing span finishOnClose _ hclosing _ ihbody ihrest =>
      have hlength : (c.manager.activate span finishOnClose).1.scopes.length = n + 1 := by
        rw [ScopeManager.activate, List.length_append, hn]
        rfl
      obtain ⟨t, hrun, hactive, hprefix, ht⟩ :=
        ihbody (c := ⟨(c.manager.activate span finishOnClose).1, c.closed⟩) hlength
      -- the scope itself is still there, with the active scope as its parent
      have hscope : t.manager.scopes[n]? = some ⟨c.manager.active, span, finishOnClose⟩ := by
        obtain ⟨more, hmore⟩ := hprefix
        rw [← hmore, ← hn]
        simp [ScopeManager.activate]
      have hclose : t.manager.close n ⟨c.manager.active, span, finishOnClose⟩ =
          (⟨t.manager.scopes, c.manager.active⟩, (t.manager.close n
            ⟨c.manager.active, span, finishOnClose⟩).2) := by
        have hnot : ¬t.manager.active ≠ some n := by
          rw [hactive, ← hn]
          exact not_not.mpr rfl
        rw [ScopeManager.close, if_neg hnot]
      obtain ⟨u, hrun', hactive', hprefix', hu⟩ :=
        ihrest (c := ⟨⟨t.manager.scopes, c.manager.active⟩, n :: t.closed⟩) ht
      refine ⟨u, ?_, hactive', ?_, hu⟩
      · rw [runOps, step_activate, Option.bind_some, runOps_append, hrun, Option.bind_some, runOps,
          step_closes hclosing hscope, hclose, Option.bind_some]
        exact hrun'
      · have hfirst : c.manager.scopes <+: t.manager.scopes :=
          (List.prefix_append c.manager.scopes _).trans hprefix
        exact hfirst.trans hprefix'

/-! ## The active scope -/

/-- The scopes refer to those before them, and what was closed is one of them. -/
structure Linked (c : ScopeContext) : Prop where
  active : ∀ r, c.manager.active = some r → r < c.manager.scopes.length
  parent : ∀ (r : ScopeRef) (scope : Scope) (p : ScopeRef),
    c.manager.scopes[r]? = some scope → scope.parent = some p → p < r
  closed : ∀ r ∈ c.closed, r < c.manager.scopes.length

theorem linked_new : new.Linked where
  active := fun r h => by cases h
  parent := fun r scope p h => by cases h
  closed := fun r h => by cases h

theorem Linked.activate (h : c.Linked) (span : SpanRef) (finishOnClose : Bool) :
    Linked ⟨(c.manager.activate span finishOnClose).1, c.closed⟩ where
  active := by
    intro r hr
    obtain rfl := Option.some.inj hr
    simp [ScopeManager.activate]
  parent := by
    intro r scope p hscope hp
    have hscope : (c.manager.scopes ++ [⟨c.manager.active, span, finishOnClose⟩])[r]? =
        some scope := hscope
    rw [List.getElem?_append] at hscope
    split at hscope
    case isTrue hlt => exact h.parent r scope p hscope hp
    case isFalse hge =>
      rw [List.getElem?_singleton] at hscope
      split at hscope
      case isTrue hr =>
        obtain rfl := Option.some.inj hscope
        exact Nat.lt_of_lt_of_le (h.active p hp) (Nat.le_of_not_lt hge)
      case isFalse => cases hscope
  closed := by
    intro r hr
    rw [ScopeManager.activate, List.length_append]
    exact Nat.lt_add_right _ (h.closed r hr)

theorem Linked.close (h : c.Linked) {r : ScopeRef} {scope : Scope}
    (hscope : c.manager.scopes[r]? = some scope) :
    Linked ⟨(c.manager.close r scope).1, r :: c.closed⟩ := by
  have hr : r < c.manager.scopes.length := (List.getElem?_eq_some_iff.mp hscope).1
  have hscopes : (c.manager.close r scope).1.scopes = c.manager.scopes := by
    rw [ScopeManager.close]
    split <;> rfl
  refine ⟨?_, ?_, ?_⟩
  · intro p hp
    show p < (c.manager.close r scope).1.scopes.length
    rw [hscopes]
    have hp : (c.manager.close r scope).1.active = some p := hp
    rw [ScopeManager.close] at hp
    split at hp
    case isTrue => exact h.active p hp
    case isFalse => exact Nat.lt_trans (h.parent r scope p hscope hp) hr
  · intro q scope' p hq hp
    have hq : (c.manager.close r scope).1.scopes[q]? = some scope' := hq
    rw [hscopes] at hq
    exact h.parent q scope' p hq hp
  · intro q hq
    show q < (c.manager.close r scope).1.scopes.length
    rw [hscopes]
    rcases List.mem_cons.mp hq with rfl | hq
    · exact hr
    · exact h.closed q hq

/-- A call of a scope that there is succeeds and keeps the links. -/
theorem Linked.step (h : c.Linked) {call : ScopeCall} (hcall : c.Refers call) :
    ∃ u, c.step call = some u ∧ u.Linked := by
  rcases call_cases call with ⟨span, finishOnClose, rfl⟩ | ⟨r, hr⟩
  · exact ⟨_, rfl, h.activate span finishOnClose⟩
  · have hscope := List.getElem?_eq_getElem (hcall r hr)
    exact ⟨_, step_closes hr hscope, h.close hscope⟩

/-- One call. -/
theorem activeOpen_step_iff (h : c.Linked) (hopen : c.ActiveOpen) {call : ScopeCall}
    (hcall : c.Refers call) (hu : c.step call = some u) : u.ActiveOpen ↔ c.ParentOpen call := by
  rcases call_cases call with ⟨span, finishOnClose, rfl⟩ | ⟨r, hr⟩
  · obtain rfl := Option.some.inj hu
    refine iff_of_true ?_ ?_
    · intro r hr hclosed
      obtain rfl := Option.some.inj hr
      exact Nat.lt_irrefl _ (h.closed _ hclosed)
    · intro r scope parent hr
      cases hr
  · obtain ⟨scope, hscope⟩ : ∃ scope, c.manager.scopes[r]? = some scope :=
      ⟨_, List.getElem?_eq_getElem (hcall r hr)⟩
    obtain rfl := Option.some.inj ((step_closes hr hscope).symm.trans hu)
    by_cases hactive : c.manager.active = some r
    · have hclose : (c.manager.close r scope).1.active = scope.parent := by
        rw [ScopeManager.close, if_neg (not_not.mpr hactive)]
      constructor
      · intro hopen' r' scope' parent hr' _ hscope' hparent hclosed
        obtain rfl := Option.some.inj (hr.symm.trans hr')
        obtain rfl := Option.some.inj (hscope.symm.trans hscope')
        exact hopen' parent (hclose.trans hparent) (List.mem_cons_of_mem r hclosed)
      · intro hparent p hp
        have hp : scope.parent = some p := hclose.symm.trans hp
        rw [List.mem_cons, not_or]
        exact ⟨Nat.ne_of_lt (h.parent r scope p hscope hp),
          hparent r scope p hr hactive hscope hp⟩
    · have hclose : (c.manager.close r scope).1 = c.manager := by
        rw [ScopeManager.close, if_pos hactive]
      refine iff_of_true ?_ ?_
      · intro q hq
        have hbefore : c.manager.active = some q := by
          rw [← hclose]
          exact hq
        have hne : q ≠ r := fun heq => hactive (heq ▸ hbefore)
        rw [List.mem_cons, not_or]
        exact ⟨hne, hopen q hbefore⟩
      · intro r' scope' parent hr' hactive'
        obtain rfl := Option.some.inj (hr.symm.trans hr')
        exact absurd hactive' hactive

/-- **The active scope is never a closed one** in a run exactly if no active scope is closed after
its parent; and from every state of any run scopes that are closed last in, first out leave the
scope active that was active before. -/
theorem active_open_iff {calls : List ScopeCall} (hrefers : AllOps step Refers new calls) :
    ((∀ pre, pre <+: calls → ∃ t, runOps step new pre = some t ∧ t.ActiveOpen) ↔
      AllOps step ParentOpen new calls) ∧
    ∀ t, runOps step new calls = some t →
      ∀ nested k, Nested t.manager.scopes.length nested k →
        ∃ u, runOps step t nested = some u ∧ u.manager.active = t.manager.active := by
  constructor
  · refine runOps_exact_iff linked_new (fun r h => by cases h)
      (fun t call ht hcall => ht.step hcall) ?_ hrefers
    intro t call u ht hopen hcall hu
    exact activeOpen_step_iff ht hopen hcall hu
  · intro t _ nested k hnested
    obtain ⟨u, hrun, hactive, -⟩ := restored_of_nested hnested rfl
    exact ⟨u, hrun, hactive⟩

/-- Two scopes, closed last in, first out. -/
def twoScopes : List ScopeCall := [.activate 0 true, .activate 1 true, .close 1, .dispose 0]

/-- In none of the states a closed scope is active. -/
theorem active_open_twoScopes : AllOps step ParentOpen new twoScopes ∧
    ∀ pre, pre <+: twoScopes → ∃ t, runOps step new pre = some t ∧ t.ActiveOpen := by
  have hrefers : AllOps step Refers new twoScopes := by
    refine allOps_cons (fun r h => by cases h) fun _ ht => ?_
    obtain rfl := Option.some.inj ht
    refine allOps_cons (fun r h => by cases h) fun _ ht => ?_
    obtain rfl := Option.some.inj ht
    refine allOps_cons (fun r h => ?_) fun _ ht => ?_
    · obtain rfl := Option.some.inj h
      decide
    obtain rfl := Option.some.inj ht
    refine allOps_cons (fun r h => ?_) fun _ _ => allOps_nil step Refers _
    obtain rfl := Option.some.inj h
    decide
  have hparent : AllOps step ParentOpen new twoScopes := by
    refine allOps_cons (fun r scope parent h => by cases h) fun _ ht => ?_
    obtain rfl := Option.some.inj ht
    refine allOps_cons (fun r scope parent h => by cases h) fun _ ht => ?_
    obtain rfl := Option.some.inj ht
    refine allOps_cons (fun r scope parent _ _ _ _ => List.not_mem_nil) fun _ ht => ?_
    obtain rfl := Option.some.inj ht
    refine allOps_cons (fun r scope parent hr _ hscope hparent => ?_) fun _ _ => allOps_nil step _ _
    obtain rfl := Option.some.inj hr
    obtain rfl := Option.some.inj hscope
    cases hparent
  exact ⟨hparent, (active_open_iff hrefers).1.mpr hparent⟩

/-- **A parent that is closed first becomes active again** when its child is closed. -/
theorem closed_active :
    ∃ t, runOps step new [.activate 0 true, .activate 1 true, .close 0, .close 1] = some t ∧
      ¬t.ActiveOpen := by
  refine ⟨_, rfl, fun h => h 0 rfl ?_⟩
  decide

end ScopeContext

end DdTrace.Tracing
