import DdTrace.Tracing.ScopeManager

/-!
# The events of scopes

* `LogSubscriber`: a subscriber that pushes the contexts of a scope when its span is opened, and
  pops as many when a span is closed.
* `ScopeEvents`: a context with what was raised in each call, and the stack of the subscriber.
* `Balanced`: what the events of a run have to be like.
* `balanced_iff`: they are so in every state of a run exactly if only the active scope is closed.

Sources: `ScopeManagerBase.cs`; `Scope.cs`; `Logging/LibLogScopeEventSubscriber.cs`,
`StackOnSpanOpened` to `RemoveLastCorrelationIdentifierContext`.
-/

namespace DdTrace.Tracing

open DdTrace.Lib

/-! ## Kinds of effects -/

namespace ScopeEffect

/-- `SpanOpened`. -/
def isSpanOpened : ScopeEffect → Bool
  | spanOpened _ => true
  | _ => false

/-- `SpanClosed`. -/
def isSpanClosed : ScopeEffect → Bool
  | spanClosed _ => true
  | _ => false

/-- `TraceStarted`. -/
def isTraceStarted : ScopeEffect → Bool
  | traceStarted _ => true
  | _ => false

/-- `TraceEnded`. -/
def isTraceEnded : ScopeEffect → Bool
  | traceEnded _ => true
  | _ => false

end ScopeEffect

open ScopeEffect

/-! ## A subscriber -/

namespace LogSubscriber

/-- `_numPropertiesSetOnSpanEvent`. -/
def numPropertiesSetOnSpanEvent : Nat := 5

/-- What an event does to `_contextDisposalStack`, and what it disposes of. A context is known by
the scope whose opening pushed it; the last one is first.
Source: `LibLogScopeEventSubscriber.cs`, `StackOnSpanOpened` and `StackOnSpanClosed`, with
`SetSerilogCompatibleLogContext` and `RemoveLastCorrelationIdentifierContext` -/
def onEffect (stack : List ScopeRef) (scope : ScopeRef) :
    ScopeEffect → List ScopeRef × List ScopeRef
  | .spanOpened _ => (List.replicate numPropertiesSetOnSpanEvent scope ++ stack, [])
  | .spanClosed _ =>
      (stack.drop numPropertiesSetOnSpanEvent, stack.take numPropertiesSetOnSpanEvent)
  | _ => (stack, [])

/-- The events of one call. -/
def onEffects (stack : List ScopeRef) (scope : ScopeRef) :
    List ScopeEffect → List ScopeRef × List ScopeRef
  | [] => (stack, [])
  | effect :: effects =>
      let first := onEffect stack scope effect
      let later := onEffects first.1 scope effects
      (later.1, first.2 ++ later.2)

variable {stack : List ScopeRef} {scope : ScopeRef}

theorem onEffects_append (effects more : List ScopeEffect) :
    onEffects stack scope (effects ++ more) =
      ((onEffects (onEffects stack scope effects).1 scope more).1,
        (onEffects stack scope effects).2 ++
          (onEffects (onEffects stack scope effects).1 scope more).2) := by
  induction effects generalizing stack with
  | nil => rfl
  | cons effect effects ih =>
      rw [List.cons_append, onEffects, ih, onEffects, List.append_assoc]

/-- The subscriber does not listen to other events. -/
theorem onEffects_of_other {effects : List ScopeEffect}
    (h : ∀ e ∈ effects, e.isSpanOpened = false ∧ e.isSpanClosed = false) :
    onEffects stack scope effects = (stack, []) := by
  induction effects with
  | nil => rfl
  | cons effect effects ih =>
      rw [List.forall_mem_cons] at h
      have hfirst : onEffect stack scope effect = (stack, []) := by
        cases effect with
        | spanOpened span => exact absurd h.1.1 Bool.true_eq_false.mp
        | spanClosed span => exact absurd h.1.2 Bool.true_eq_false.mp
        | traceStarted span => rfl
        | spanActivated span => rfl
        | spanDeactivated span => rfl
        | traceEnded span => rfl
        | finish span => rfl
      rw [onEffects, hfirst, ih h.2]
      rfl

end LogSubscriber

/-! ## The effects of a call -/

section Effects

variable (m : ScopeManager) (span : SpanRef) (finishOnClose : Bool) (r : ScopeRef) (scope : Scope)

/-- What the two methods raise for other scopes is neither opened nor closed, and no trace. -/
theorem countP_map_eq_zero {p : ScopeEffect → Bool} {f : SpanRef → ScopeEffect}
    (h : ∀ span, p (f span) = false) (spans : List SpanRef) : (spans.map f).countP p = 0 := by
  rw [List.countP_map, List.countP_eq_zero]
  intro span _
  rw [Function.comp_apply, h]
  exact Bool.false_ne_true

theorem countP_activate :
    (m.activate span finishOnClose).2.countP isSpanOpened = 1 ∧
      (m.activate span finishOnClose).2.countP isSpanClosed = 0 ∧
      (m.activate span finishOnClose).2.countP isTraceStarted =
        (if m.active = none then 1 else 0) ∧
      (m.activate span finishOnClose).2.countP isTraceEnded = 0 := by
  have hother (p : ScopeEffect → Bool) (h : ∀ span, p (.spanDeactivated span) = false) :
      ((m.spanOf m.active).map ScopeEffect.spanDeactivated).countP p = 0 :=
    countP_map_eq_zero h _
  simp only [ScopeManager.activate, List.countP_append]
  refine ⟨?_, ?_, ?_, ?_⟩
  · rw [hother _ fun _ => rfl]
    split <;> rfl
  · rw [hother _ fun _ => rfl]
    split <;> rfl
  · rw [hother _ fun _ => rfl]
    split <;> rfl
  · rw [hother _ fun _ => rfl]
    split <;> rfl

/-- What closing a scope does, `Finish` included. -/
def closeEffects : List ScopeEffect :=
  (m.close r scope).2 ++ if scope.finishOnClose then [.finish scope.span] else []

theorem countP_closeEffects :
    (closeEffects m r scope).countP isSpanOpened = 0 ∧
      (closeEffects m r scope).countP isSpanClosed = 1 ∧
      (closeEffects m r scope).countP isTraceStarted = 0 ∧
      (closeEffects m r scope).countP isTraceEnded =
        if m.active = some r ∧ scope.parent = none then 1 else 0 := by
  have hother (p : ScopeEffect → Bool) (h : ∀ span, p (.spanActivated span) = false) :
      ((m.spanOf scope.parent).map ScopeEffect.spanActivated).countP p = 0 :=
    countP_map_eq_zero h _
  have hfinish (p : ScopeEffect → Bool) (h : p (.finish scope.span) = false) :
      (if scope.finishOnClose then [ScopeEffect.finish scope.span] else []).countP p = 0 := by
    cases scope.finishOnClose with
    | false => rfl
    | true =>
        rw [if_pos rfl, List.countP_singleton, h]
        rfl
  simp only [closeEffects, ScopeManager.close, List.countP_append]
  by_cases hactive : m.active = some r
  · rw [if_neg (not_not.mpr hactive)]
    simp only [List.countP_append, hactive, true_and]
    refine ⟨?_, ?_, ?_, ?_⟩
    · rw [hother _ fun _ => rfl, hfinish _ rfl]
      split <;> rfl
    · rw [hother _ fun _ => rfl, hfinish _ rfl]
      split <;> rfl
    · rw [hother _ fun _ => rfl, hfinish _ rfl]
      split <;> rfl
    · rw [hother _ fun _ => rfl, hfinish _ rfl]
      split <;> rfl
  · have hended : (if m.active = some r ∧ scope.parent = none then 1 else 0) = 0 :=
      if_neg fun h => hactive h.1
    rw [hended, if_pos hactive]
    refine ⟨?_, ?_, ?_, ?_⟩
    · rw [hfinish _ rfl]
      rfl
    · rw [hfinish _ rfl]
      rfl
    · rw [hfinish _ rfl]
      rfl
    · rw [hfinish _ rfl]
      rfl

open LogSubscriber

/-- An opened scope pushes its contexts. -/
theorem onEffects_activate (stack : List ScopeRef) :
    onEffects stack r (m.activate span finishOnClose).2 =
      (List.replicate numPropertiesSetOnSpanEvent r ++ stack, []) := by
  have hstarted : onEffects stack r (if m.active = none then [.traceStarted span] else []) =
      (stack, []) := by
    apply onEffects_of_other
    intro e he
    split at he
    · rw [List.mem_singleton.mp he]
      exact ⟨rfl, rfl⟩
    · cases he
  have hlater (stack' : List ScopeRef) : onEffects stack' r
      ((m.spanOf m.active).map ScopeEffect.spanDeactivated ++ [.spanActivated span]) =
        (stack', []) := by
    apply onEffects_of_other
    intro e he
    rcases List.mem_append.mp he with he | he
    · obtain ⟨other, -, rfl⟩ := List.mem_map.mp he
      exact ⟨rfl, rfl⟩
    · rw [List.mem_singleton.mp he]
      exact ⟨rfl, rfl⟩
  simp only [ScopeManager.activate, List.append_assoc]
  rw [onEffects_append, hstarted, onEffects_append, hlater]
  rfl

/-- Each closing pops as many. -/
theorem onEffects_closeEffects (stack : List ScopeRef) :
    onEffects stack r (closeEffects m r scope) =
      (stack.drop numPropertiesSetOnSpanEvent, stack.take numPropertiesSetOnSpanEvent) := by
  have hfinish (stack' : List ScopeRef) : onEffects stack' r
      (if scope.finishOnClose then [.finish scope.span] else []) = (stack', []) := by
    apply onEffects_of_other
    intro e he
    split at he
    · rw [List.mem_singleton.mp he]
      exact ⟨rfl, rfl⟩
    · cases he
  have hended (stack' : List ScopeRef) : onEffects stack' r
      (if scope.parent = none then [.traceEnded scope.span] else []) = (stack', []) := by
    apply onEffects_of_other
    intro e he
    split at he
    · rw [List.mem_singleton.mp he]
      exact ⟨rfl, rfl⟩
    · cases he
  have hbefore : onEffects stack r ([.spanDeactivated scope.span] ++
      (m.spanOf scope.parent).map ScopeEffect.spanActivated) = (stack, []) := by
    apply onEffects_of_other
    intro e he
    rcases List.mem_append.mp he with he | he
    · rw [List.mem_singleton.mp he]
      exact ⟨rfl, rfl⟩
    · obtain ⟨other, -, rfl⟩ := List.mem_map.mp he
      exact ⟨rfl, rfl⟩
  have hclosed : onEffects stack r [.spanClosed scope.span] =
      (stack.drop numPropertiesSetOnSpanEvent, stack.take numPropertiesSetOnSpanEvent) := by
    rw [onEffects, onEffects, List.append_nil]
    rfl
  rw [closeEffects, ScopeManager.close]
  split
  · rw [onEffects_append, hclosed, hfinish, List.append_nil]
  · simp only
    rw [onEffects_append, onEffects_append, onEffects_append, hbefore, hclosed, hended, hfinish,
      List.append_nil, List.append_nil, List.nil_append]

end Effects

/-! ## Runs with their events -/

/-- What happened in one call. -/
structure ScopeRecord where
  /-- The scope the call was about. -/
  scope : ScopeRef
  /-- What was raised and finished. -/
  effects : List ScopeEffect
  /-- The number of open scopes before the call. -/
  openBefore : Nat
  /-- The number of open scopes after the call. -/
  openAfter : Nat
  /-- The contexts the subscriber disposed of. -/
  popped : List ScopeRef
  deriving DecidableEq, Repr

/-- The scopes that were activated and not closed. -/
def ScopeContext.openScopes (c : ScopeContext) : List ScopeRef :=
  (List.range c.manager.scopes.length).filter (· ∉ c.closed)

/-- A context with what happened in it, the last call first. -/
structure ScopeEvents where
  context : ScopeContext
  /-- The stack of the subscriber. -/
  contexts : List ScopeRef
  records : List ScopeRecord
  deriving DecidableEq, Repr

namespace ScopeEvents

/-- A context in which nothing was called. -/
def new : ScopeEvents := ⟨.new, [], []⟩

/-- One call, with the subscriber. -/
def step (o : ScopeEvents) (call : ScopeCall) : Option ScopeEvents :=
  (call.exec o.context.manager).map fun (m, r, effects) =>
    let c : ScopeContext := ⟨m, call.closes.toList ++ o.context.closed⟩
    let told := LogSubscriber.onEffects o.contexts r effects
    ⟨c, told.1, ⟨r, effects, o.context.openScopes.length, c.openScopes.length, told.2⟩ ::
      o.records⟩

/-- How often something of a kind was raised in the calls about a scope. -/
def raised (o : ScopeEvents) (r : ScopeRef) (p : ScopeEffect → Bool) : Nat :=
  ((o.records.filter fun record => record.scope = r).map fun record =>
    record.effects.countP p).sum

/-- The events were raised as they should: `SpanOpened` and `SpanClosed` once for each scope that
was activated and closed, `TraceStarted` and `TraceEnded` when there begin and end to be open
scopes, and the subscriber never popped the contexts of another scope and kept none. -/
structure Balanced (o : ScopeEvents) : Prop where
  opened : ∀ r, r < o.context.manager.scopes.length → o.raised r isSpanOpened = 1
  closed : ∀ r, r < o.context.manager.scopes.length →
    o.raised r isSpanClosed = if r ∈ o.context.closed then 1 else 0
  started : ∀ record ∈ o.records, record.effects.countP isTraceStarted =
    if record.openBefore = 0 ∧ record.openAfter = 1 then 1 else 0
  ended : ∀ record ∈ o.records, record.effects.countP isTraceEnded =
    if record.openBefore = 1 ∧ record.openAfter = 0 then 1 else 0
  pops : ∀ record ∈ o.records, ∀ owner ∈ record.popped, owner = record.scope
  left : o.context.openScopes = [] → o.contexts = []

/-- The call is of a scope that there is. -/
def Refers (o : ScopeEvents) (call : ScopeCall) : Prop := o.context.Refers call

/-- If the call closes a scope, that is the active one. -/
def ClosesActive (o : ScopeEvents) (call : ScopeCall) : Prop :=
  ∀ r, call.closes = some r → o.context.manager.active = some r

/-! ## The open scopes as a stack -/

/-- The scopes from one on, each with its parent behind it. -/
inductive Chain (scopes : List Scope) : Option ScopeRef → List ScopeRef → Prop
  | root : Chain scopes none []
  | scope {r : ScopeRef} {scope : Scope} {rest : List ScopeRef} :
      scopes[r]? = some scope → Chain scopes scope.parent rest → Chain scopes (some r) (r :: rest)

/-- More scopes do not change it. -/
theorem Chain.append {scopes : List Scope} {active : Option ScopeRef} {chain : List ScopeRef}
    (h : Chain scopes active chain) (more : List Scope) :
    Chain (scopes ++ more) active chain := by
  induction h with
  | root => exact Chain.root
  | scope hscope _ ih =>
      have hlt := (List.getElem?_eq_some_iff.mp hscope).1
      exact Chain.scope ((List.getElem?_append_left hlt).trans hscope) ih

theorem Chain.eq_none_iff {scopes : List Scope} {active : Option ScopeRef}
    {chain : List ScopeRef} (h : Chain scopes active chain) : active = none ↔ chain = [] := by
  cases h with
  | root => exact iff_of_true rfl rfl
  | scope _ _ => exact iff_of_false (Option.some_ne_none _) (List.cons_ne_nil _ _)

/-- The open scopes are those from the active one on, and the contexts of the subscriber are
theirs. -/
structure Stacked (o : ScopeEvents) (chain : List ScopeRef) : Prop where
  linked : o.context.Linked
  chained : Chain o.context.manager.scopes o.context.manager.active chain
  nodup : chain.Nodup
  mem : ∀ r, r ∈ chain ↔ r ∈ o.context.openScopes
  contexts : o.contexts = chain.flatMap (List.replicate LogSubscriber.numPropertiesSetOnSpanEvent)
  recorded : ∀ record ∈ o.records, record.scope < o.context.manager.scopes.length

variable {o u : ScopeEvents} {chain : List ScopeRef}

theorem mem_openScopes {c : ScopeContext} {r : ScopeRef} :
    r ∈ c.openScopes ↔ r < c.manager.scopes.length ∧ r ∉ c.closed := by
  rw [ScopeContext.openScopes, List.mem_filter, List.mem_range, decide_eq_true_eq]

namespace Stacked

theorem length_openScopes (h : o.Stacked chain) :
    o.context.openScopes.length = chain.length := by
  have hnodup : o.context.openScopes.Nodup := List.nodup_range.filter _
  have hperm := (List.perm_ext_iff_of_nodup h.nodup hnodup).mpr h.mem
  exact hperm.length_eq.symm

end Stacked

/-! ## One call -/

theorem raised_cons (record : ScopeRecord) (records : List ScopeRecord) (c : ScopeContext)
    (contexts : List ScopeRef) (r : ScopeRef) (p : ScopeEffect → Bool) :
    raised ⟨c, contexts, record :: records⟩ r p =
      (if record.scope = r then record.effects.countP p else 0) +
        raised ⟨c, contexts, records⟩ r p := by
  rw [raised, raised, List.filter_cons]
  by_cases hr : record.scope = r
  · rw [if_pos (decide_eq_true hr), if_pos hr, List.map_cons, List.sum_cons]
  · rw [if_neg (by simpa using hr), if_neg hr, Nat.zero_add]

/-- Nothing is raised for a scope that no call was about. -/
theorem raised_eq_zero {r : ScopeRef} (h : ∀ record ∈ o.records, record.scope ≠ r)
    (p : ScopeEffect → Bool) : o.raised r p = 0 := by
  have hfilter : (o.records.filter fun record => record.scope = r) = [] := by
    rw [List.filter_eq_nil_iff]
    intro record hrecord
    simpa using h record hrecord
  rw [raised, hfilter]
  rfl

theorem step_activate (o : ScopeEvents) (span : SpanRef) (finishOnClose : Bool) :
    ∃ c : ScopeContext, c = ⟨(o.context.manager.activate span finishOnClose).1, o.context.closed⟩ ∧
      o.step (.activate span finishOnClose) = some ⟨c,
        List.replicate LogSubscriber.numPropertiesSetOnSpanEvent o.context.manager.scopes.length ++
          o.contexts,
        ⟨o.context.manager.scopes.length, (o.context.manager.activate span finishOnClose).2,
          o.context.openScopes.length, c.openScopes.length, []⟩ :: o.records⟩ := by
  refine ⟨_, rfl, ?_⟩
  have htold := onEffects_activate o.context.manager span finishOnClose
    o.context.manager.scopes.length o.contexts
  rw [step, ScopeCall.exec]
  simp only [Option.map_some, ScopeCall.closes, Option.toList_none, List.nil_append]
  rw [htold]

theorem step_closes (o : ScopeEvents) {call : ScopeCall} {r : ScopeRef} {scope : Scope}
    (hr : call.closes = some r) (hscope : o.context.manager.scopes[r]? = some scope) :
    ∃ c : ScopeContext, c = ⟨(o.context.manager.close r scope).1, r :: o.context.closed⟩ ∧
      o.step call = some ⟨c, o.contexts.drop LogSubscriber.numPropertiesSetOnSpanEvent,
        ⟨r, closeEffects o.context.manager r scope, o.context.openScopes.length,
          c.openScopes.length, o.contexts.take LogSubscriber.numPropertiesSetOnSpanEvent⟩ ::
            o.records⟩ := by
  refine ⟨_, rfl, ?_⟩
  have htold := onEffects_closeEffects o.context.manager r scope o.contexts
  have hexec : call.exec o.context.manager = some ((o.context.manager.close r scope).1, r,
      closeEffects o.context.manager r scope) := by
    cases call with
    | activate span finishOnClose => cases hr
    | close r' =>
        obtain rfl := Option.some.inj hr
        simp [ScopeCall.exec, hscope, closeEffects]
    | dispose r' =>
        obtain rfl := Option.some.inj hr
        simp [ScopeCall.exec, hscope, closeEffects]
  rw [step, hexec, hr]
  simp only [Option.map_some, Option.toList_some, List.singleton_append]
  rw [htold]

/-- Activating a scope puts it on the stack. -/
theorem Stacked.activate (h : o.Stacked chain) (span : SpanRef) (finishOnClose : Bool)
    (hu : o.step (.activate span finishOnClose) = some u) :
    u.Stacked (o.context.manager.scopes.length :: chain) := by
  obtain ⟨c, hc, hstep⟩ := step_activate o span finishOnClose
  obtain rfl := Option.some.inj (hstep.symm.trans hu)
  have hlinked := h.linked.activate span finishOnClose
  rw [← hc] at hlinked
  have hscopes : c.manager.scopes =
      o.context.manager.scopes ++ [⟨o.context.manager.active, span, finishOnClose⟩] := by
    rw [hc]
    rfl
  have hclosed : c.closed = o.context.closed := by rw [hc]
  have hnew : o.context.manager.scopes.length ∉ chain := by
    intro hmem
    exact Nat.lt_irrefl _ (mem_openScopes.mp ((h.mem _).mp hmem)).1
  refine ⟨hlinked, ?_, List.nodup_cons.mpr ⟨hnew, h.nodup⟩, ?_, ?_, ?_⟩
  · have hactive : c.manager.active = some o.context.manager.scopes.length := by
      rw [hc]
      rfl
    have hscope : (o.context.manager.scopes ++
        [⟨o.context.manager.active, span, finishOnClose⟩])[o.context.manager.scopes.length]? =
          some ⟨o.context.manager.active, span, finishOnClose⟩ := by
      rw [List.getElem?_append_right (Nat.le_refl _), Nat.sub_self]
      rfl
    rw [hactive, hscopes]
    exact Chain.scope hscope (h.chained.append _)
  · intro r
    rw [mem_openScopes, hscopes, hclosed, List.length_append, List.length_singleton, List.mem_cons,
      h.mem, mem_openScopes, Nat.lt_succ_iff_lt_or_eq]
    constructor
    · rintro (rfl | ⟨hlt, hnot⟩)
      · exact ⟨Or.inr rfl, fun hmem => Nat.lt_irrefl _ (h.linked.closed _ hmem)⟩
      · exact ⟨Or.inl hlt, hnot⟩
    · rintro ⟨hlt | rfl, hnot⟩
      · exact Or.inr ⟨hlt, hnot⟩
      · exact Or.inl rfl
  · rw [List.flatMap_cons, ← h.contexts]
  · intro record hrecord
    rw [hscopes, List.length_append]
    rcases List.mem_cons.mp hrecord with rfl | hrecord
    · exact Nat.lt_succ_self _
    · exact Nat.lt_add_right _ (h.recorded record hrecord)

/-- Closing the active scope takes it from the stack. -/
theorem Stacked.close {call : ScopeCall} {r : ScopeRef} {scope : Scope} {rest : List ScopeRef}
    (h : o.Stacked (r :: rest)) (hr : call.closes = some r)
    (hscope : o.context.manager.scopes[r]? = some scope)
    (hactive : o.context.manager.active = some r)
    (hrest : Chain o.context.manager.scopes scope.parent rest) (hu : o.step call = some u) :
    u.Stacked rest := by
  obtain ⟨c, hc, hstep⟩ := step_closes o hr hscope
  obtain rfl := Option.some.inj (hstep.symm.trans hu)
  have hlinked := h.linked.close hscope
  rw [← hc] at hlinked
  have hmanager : c.manager = { o.context.manager with active := scope.parent } := by
    rw [hc, ScopeManager.close, if_neg (not_not.mpr hactive)]
  have hclosed : c.closed = r :: o.context.closed := by rw [hc]
  obtain ⟨hnot, hnodup⟩ := List.nodup_cons.mp h.nodup
  refine ⟨hlinked, ?_, hnodup, ?_, ?_, ?_⟩
  · rw [hmanager]
    exact hrest
  · intro q
    rw [mem_openScopes, hmanager, hclosed, List.mem_cons, not_or]
    have hq := h.mem q
    rw [List.mem_cons, mem_openScopes] at hq
    constructor
    · intro hmem
      obtain ⟨hlt, hopen⟩ := hq.mp (Or.inr hmem)
      exact ⟨hlt, fun heq => hnot (heq ▸ hmem), hopen⟩
    · rintro ⟨hlt, hne, hopen⟩
      exact (hq.mpr ⟨hlt, hopen⟩).resolve_left hne
  · rw [h.contexts, List.flatMap_cons]
    exact List.drop_left' (List.length_replicate)
  · intro record hrecord
    rw [hmanager]
    rcases List.mem_cons.mp hrecord with rfl | hrecord
    · exact (List.getElem?_eq_some_iff.mp hscope).1
    · exact h.recorded record hrecord

/-- What is raised in a call that keeps the stack is as it should be. -/
theorem Balanced.activate (h : o.Stacked chain) (hb : o.Balanced) (span : SpanRef)
    (finishOnClose : Bool) (hu : o.step (.activate span finishOnClose) = some u) :
    u.Balanced := by
  have hstacked := h.activate span finishOnClose hu
  have hbefore := h.length_openScopes
  have hafter := hstacked.length_openScopes
  obtain ⟨c, hc, hstep⟩ := step_activate o span finishOnClose
  obtain rfl := Option.some.inj (hstep.symm.trans hu)
  obtain ⟨hopened, hclosed, hstarted, hended⟩ :=
    countP_activate o.context.manager span finishOnClose
  have hlength : c.manager.scopes.length = o.context.manager.scopes.length + 1 := by
    rw [hc, ScopeManager.activate, List.length_append]
    rfl
  have hcclosed : c.closed = o.context.closed := by rw [hc]
  have hnone (p : ScopeEffect → Bool) : o.raised o.context.manager.scopes.length p = 0 :=
    raised_eq_zero (fun record hrecord => Nat.ne_of_lt (h.recorded record hrecord)) p
  have hopen : c.openScopes ≠ [] := by
    intro hnil
    rw [hnil] at hafter
    cases hafter
  refine ⟨?_, ?_, ?_, ?_, ?_, fun hnil => absurd hnil hopen⟩
  · intro r hr
    have hr : r < o.context.manager.scopes.length + 1 := hlength ▸ hr
    rw [raised_cons]
    show _ + o.raised r isSpanOpened = 1
    rcases Nat.lt_succ_iff_lt_or_eq.mp hr with hlt | rfl
    · rw [if_neg (Nat.ne_of_gt hlt), hb.opened r hlt]
    · rw [if_pos rfl, hnone, hopened]
  · intro r hr
    have hr : r < o.context.manager.scopes.length + 1 := hlength ▸ hr
    rw [raised_cons]
    show _ + o.raised r isSpanClosed = if r ∈ c.closed then 1 else 0
    rw [hcclosed]
    rcases Nat.lt_succ_iff_lt_or_eq.mp hr with hlt | rfl
    · rw [if_neg (Nat.ne_of_gt hlt), hb.closed r hlt, Nat.zero_add]
    · have hnot : o.context.manager.scopes.length ∉ o.context.closed :=
        fun hmem => Nat.lt_irrefl _ (h.linked.closed _ hmem)
      rw [if_pos rfl, hnone, hclosed, if_neg hnot]
  · intro record hrecord
    rcases List.mem_cons.mp hrecord with rfl | hrecord
    · simp only [hbefore, hafter, hstarted, List.length_cons]
      by_cases hnil : chain = []
      · rw [if_pos (h.chained.eq_none_iff.mpr hnil), hnil]
        rfl
      · have hlen : ¬(chain.length = 0 ∧ chain.length + 1 = 1) :=
          fun h => hnil (List.length_eq_zero_iff.mp h.1)
        rw [if_neg (mt h.chained.eq_none_iff.mp hnil), if_neg hlen]
    · exact hb.started record hrecord
  · intro record hrecord
    rcases List.mem_cons.mp hrecord with rfl | hrecord
    · simp only [hbefore, hafter, hended, List.length_cons]
      have hlen : ¬(chain.length = 1 ∧ chain.length + 1 = 0) := fun h => Nat.succ_ne_zero _ h.2
      rw [if_neg hlen]
    · exact hb.ended record hrecord
  · intro record hrecord
    rcases List.mem_cons.mp hrecord with rfl | hrecord
    · intro owner howner
      cases howner
    · exact hb.pops record hrecord

theorem Balanced.close {call : ScopeCall} {r : ScopeRef} {scope : Scope} {rest : List ScopeRef}
    (h : o.Stacked (r :: rest)) (hb : o.Balanced) (hr : call.closes = some r)
    (hscope : o.context.manager.scopes[r]? = some scope)
    (hactive : o.context.manager.active = some r)
    (hrest : Chain o.context.manager.scopes scope.parent rest) (hu : o.step call = some u) :
    u.Balanced := by
  have hstacked := h.close hr hscope hactive hrest hu
  have hbefore := h.length_openScopes
  have hafter := hstacked.length_openScopes
  have hcontexts := hstacked.contexts
  obtain ⟨c, hc, hstep⟩ := step_closes o hr hscope
  obtain rfl := Option.some.inj (hstep.symm.trans hu)
  obtain ⟨hopened, hclosed, hstarted, hended⟩ :=
    countP_closeEffects o.context.manager r scope
  have hmanager : c.manager = { o.context.manager with active := scope.parent } := by
    rw [hc, ScopeManager.close, if_neg (not_not.mpr hactive)]
  have hcclosed : c.closed = r :: o.context.closed := by rw [hc]
  obtain ⟨hlt, hopen⟩ := mem_openScopes.mp ((h.mem r).mp List.mem_cons_self)
  refine ⟨?_, ?_, ?_, ?_, ?_, ?_⟩
  · intro q hq
    have hq : q < o.context.manager.scopes.length := by
      rw [hmanager] at hq
      exact hq
    rw [raised_cons]
    show _ + o.raised q isSpanOpened = 1
    rw [hb.opened q hq]
    split
    · rw [hopened]
    · rfl
  · intro q hq
    have hq : q < o.context.manager.scopes.length := by
      rw [hmanager] at hq
      exact hq
    rw [raised_cons]
    show _ + o.raised q isSpanClosed = if q ∈ c.closed then 1 else 0
    rw [hcclosed, hb.closed q hq]
    by_cases hrq : r = q
    · subst hrq
      rw [if_pos rfl, hclosed, if_neg hopen, if_pos List.mem_cons_self]
    · have hmem : q ∈ r :: o.context.closed ↔ q ∈ o.context.closed := by
        rw [List.mem_cons, or_iff_right (Ne.symm hrq)]
      rw [if_neg hrq, Nat.zero_add]
      simp only [hmem]
  · intro record hrecord
    rcases List.mem_cons.mp hrecord with rfl | hrecord
    · simp only [hbefore, hstarted, List.length_cons]
      rw [if_neg fun h => Nat.succ_ne_zero _ h.1]
    · exact hb.started record hrecord
  · intro record hrecord
    rcases List.mem_cons.mp hrecord with rfl | hrecord
    · simp only [hbefore, hafter, hended, hactive, List.length_cons, true_and]
      by_cases hnil : rest = []
      · rw [if_pos (hrest.eq_none_iff.mpr hnil), hnil]
        rfl
      · have hlen : ¬(rest.length + 1 = 1 ∧ rest.length = 0) :=
          fun h => hnil (List.length_eq_zero_iff.mp h.2)
        rw [if_neg (mt hrest.eq_none_iff.mp hnil), if_neg hlen]
    · exact hb.ended record hrecord
  · intro record hrecord
    rcases List.mem_cons.mp hrecord with rfl | hrecord
    · have htake : o.contexts.take LogSubscriber.numPropertiesSetOnSpanEvent =
          List.replicate LogSubscriber.numPropertiesSetOnSpanEvent r := by
        rw [h.contexts, List.flatMap_cons]
        exact List.take_left' List.length_replicate
      intro owner howner
      have howner : owner ∈ o.contexts.take LogSubscriber.numPropertiesSetOnSpanEvent := howner
      rw [htake] at howner
      exact List.eq_of_mem_replicate howner
    · exact hb.pops record hrecord
  · intro hnil
    have hlen : rest.length = 0 := by
      rw [← hafter, hnil]
      rfl
    rw [hcontexts, List.length_eq_zero_iff.mp hlen]
    rfl

/-- Closing another scope than the active one is always told twice or pops the contexts of that
one. -/
theorem not_balanced_of_close (h : o.Stacked chain) (hb : o.Balanced) {call : ScopeCall}
    {r : ScopeRef} {scope : Scope} (hr : call.closes = some r)
    (hscope : o.context.manager.scopes[r]? = some scope)
    (hactive : o.context.manager.active ≠ some r) (hu : o.step call = some u) : ¬u.Balanced := by
  obtain ⟨c, hc, hstep⟩ := step_closes o hr hscope
  obtain rfl := Option.some.inj (hstep.symm.trans hu)
  obtain ⟨-, hclosed, -, -⟩ := countP_closeEffects o.context.manager r scope
  have hmanager : c.manager = o.context.manager := by
    rw [hc, ScopeManager.close, if_pos hactive]
  have hlt := (List.getElem?_eq_some_iff.mp hscope).1
  intro hbalanced
  by_cases hmem : r ∈ o.context.closed
  · -- the scope was closed before
    have hlt' : r < c.manager.scopes.length := by
      rw [hmanager]
      exact hlt
    have htwice := hbalanced.closed r hlt'
    rw [raised_cons, if_pos rfl, hclosed] at htwice
    have hsum : 1 + o.raised r isSpanClosed = if r ∈ c.closed then 1 else 0 := htwice
    rw [hb.closed r hlt, if_pos hmem] at hsum
    split at hsum
    · cases hsum
    · cases hsum
  · -- the scope is open, and the active one is in front of it
    have hchain : r ∈ chain := (h.mem r).mpr (mem_openScopes.mpr ⟨hlt, hmem⟩)
    cases chain with
    | nil => cases hchain
    | cons first rest =>
        have hfirst : o.context.manager.active = some first := by
          have hchained := h.chained
          generalize o.context.manager.active = active at hchained
          cases hchained with
          | scope _ _ => rfl
        have hpopped : first ∈ o.contexts.take LogSubscriber.numPropertiesSetOnSpanEvent := by
          rw [h.contexts, List.flatMap_cons, List.take_left' List.length_replicate]
          exact List.mem_replicate.mpr ⟨by decide, rfl⟩
        have howner : first = r := hbalanced.pops _ List.mem_cons_self first hpopped
        exact hactive (hfirst.trans (congrArg some howner))

/-! ## Runs -/

theorem Chain.exists_cons {scopes : List Scope} {r : ScopeRef} {chain : List ScopeRef}
    (h : Chain scopes (some r) chain) :
    ∃ scope rest, scopes[r]? = some scope ∧ chain = r :: rest ∧ Chain scopes scope.parent rest := by
  cases h with
  | scope hscope hrest => exact ⟨_, _, hscope, rfl, hrest⟩

theorem stacked_new : new.Stacked [] where
  linked := ScopeContext.linked_new
  chained := Chain.root
  nodup := List.nodup_nil
  mem := fun r => Iff.rfl
  contexts := rfl
  recorded := fun record h => by cases h

theorem balanced_new : new.Balanced where
  opened := fun r h => absurd h (Nat.not_lt_zero r)
  closed := fun r h => absurd h (Nat.not_lt_zero r)
  started := fun record h => by cases h
  ended := fun record h => by cases h
  pops := fun record h => by cases h
  left := fun _ => rfl

/-- One call succeeds, and it keeps the stack if it closes the active scope only. -/
theorem Stacked.step (h : o.Stacked chain) {call : ScopeCall} (hcall : o.Refers call) :
    ∃ u, o.step call = some u ∧ (o.ClosesActive call → ∃ chain, u.Stacked chain) := by
  rcases ScopeContext.call_cases call with ⟨span, finishOnClose, rfl⟩ | ⟨r, hr⟩
  · obtain ⟨c, -, hstep⟩ := step_activate o span finishOnClose
    exact ⟨_, hstep, fun _ => ⟨_, h.activate span finishOnClose hstep⟩⟩
  · have hscope := List.getElem?_eq_getElem (hcall r hr)
    obtain ⟨c, -, hstep⟩ := step_closes o hr hscope
    refine ⟨_, hstep, fun hcloses => ?_⟩
    have hactive := hcloses r hr
    have hchained := h.chained
    rw [hactive] at hchained
    obtain ⟨scope, rest, hscope', rfl, hrest⟩ := hchained.exists_cons
    obtain rfl := Option.some.inj (hscope.symm.trans hscope')
    exact ⟨rest, h.close hr hscope hactive hrest hstep⟩

theorem Stacked.balanced_step_iff (h : o.Stacked chain) (hb : o.Balanced) {call : ScopeCall}
    (hcall : o.Refers call) (hu : o.step call = some u) : u.Balanced ↔ o.ClosesActive call := by
  rcases ScopeContext.call_cases call with ⟨span, finishOnClose, rfl⟩ | ⟨r, hr⟩
  · exact iff_of_true (hb.activate h span finishOnClose hu) fun r hr => by cases hr
  · have hscope := List.getElem?_eq_getElem (hcall r hr)
    constructor
    · intro hbalanced r' hr'
      obtain rfl := Option.some.inj (hr.symm.trans hr')
      by_contra hactive
      exact not_balanced_of_close h hb hr hscope hactive hu hbalanced
    · intro hcloses
      have hactive := hcloses r hr
      have hchained := h.chained
      rw [hactive] at hchained
      obtain ⟨scope, rest, hscope', rfl, hrest⟩ := hchained.exists_cons
      exact hb.close h hr hscope' hactive hrest hu

/-- **The events of scopes are balanced** in every state of a run exactly if only the active scope
is closed. -/
theorem balanced_iff {calls : List ScopeCall} (hrefers : AllOps step Refers new calls) :
    (∀ pre, pre <+: calls → ∃ o, runOps step new pre = some o ∧ o.Balanced) ↔
      AllOps step ClosesActive new calls := by
  refine runOps_exact_iff_along (I := fun (o : ScopeEvents) => ∃ chain, o.Stacked chain)
    ⟨[], stacked_new⟩ balanced_new ?_ ?_ hrefers
  · rintro o call ⟨chain, h⟩ hcall
    exact h.step hcall
  · rintro o call u ⟨chain, h⟩ hb hcall hu
    exact h.balanced_step_iff hb hcall hu

/-- Two scopes that are closed last in, first out. -/
theorem balanced_twoScopes : AllOps step ClosesActive new ScopeContext.twoScopes ∧
    ∀ pre, pre <+: ScopeContext.twoScopes →
      ∃ o, runOps step new pre = some o ∧ o.Balanced := by
  have hrefers : AllOps step Refers new ScopeContext.twoScopes := by
    refine allOps_cons (fun r h => by cases h) fun _ ht => ?_
    obtain rfl := Option.some.inj ht
    refine allOps_cons (fun r h => by cases h) fun _ ht => ?_
    obtain rfl := Option.some.inj ht
    refine allOps_cons (fun r h => ?_) fun _ ht => ?_
    · obtain rfl := Option.some.inj h
      decide
    obtain rfl := Option.some.inj ht
    refine allOps_cons (fun r h => ?_) fun _ _ => allOps_nil step Refers _
    obtain rfl := Option.some.inj h
    decide
  have hcloses : AllOps step ClosesActive new ScopeContext.twoScopes := by
    refine allOps_cons (fun r h => by cases h) fun _ ht => ?_
    obtain rfl := Option.some.inj ht
    refine allOps_cons (fun r h => by cases h) fun _ ht => ?_
    obtain rfl := Option.some.inj ht
    refine allOps_cons (fun r h => h) fun _ ht => ?_
    obtain rfl := Option.some.inj ht
    exact allOps_cons (fun r h => h) fun _ _ => allOps_nil step ClosesActive _
  exact ⟨hcloses, (balanced_iff hrefers).mpr hcloses⟩

/-- **`SpanClosed` is raised again** when a scope that was closed is disposed of. -/
theorem not_balanced_closeDispose :
    ∃ o, runOps step new [.activate 0 true, .close 0, .dispose 0] = some o ∧
      o.raised 0 isSpanClosed = 2 ∧ ¬o.Balanced := by
  refine ⟨_, rfl, by decide, fun h => ?_⟩
  have hclosed := h.closed 0 Nat.one_pos
  revert hclosed
  decide

end ScopeEvents

end DdTrace.Tracing
