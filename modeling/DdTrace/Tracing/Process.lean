import DdTrace.Lib.SideBySide
import DdTrace.Tracing.ScopeManager
import DdTrace.Tracing.SpanTree

/-!
# The tracer of a process

All traces of a process, and the execution contexts (`flows`) that its code runs in. A call is made in
one flow; the calls of several flows come in any order.

* `ProcessCall`: what a program calls, among it `StartSpan`, which looks up the active scope of its
  flow, and the flow of the active scope into a new execution context.
* `Process.run_spec`: every run succeeds, and each trace in it is a run of its own.
* `traces_independent`, `spans_are_trees`, `finished_spans_conserved`, `active_innermost`: what holds
  in every order of the calls.

Sources: `Tracer.cs`, `StartSpan`, `CreateSpanContext`, `ActivateSpan`; `ScopeManagerBase.cs`;
`AsyncLocalScopeManager.cs`; `Scope.cs`; `Span.cs`, `Finish`.
-/

namespace DdTrace.Tracing

open DdTrace.Lib

/-! ## Data -/

/-- Where a span of the process is: its trace, and its number there. -/
structure SpanPlace where
  trace : Nat
  span : SpanRef
  deriving DecidableEq, Repr

/-- The traces of a process, its spans and scopes in the order in which they were made, and the
value of `Active` in each execution context.
Source: `AsyncLocalScopeManager.cs`, `_activeScope` -/
structure Process where
  traces : List TraceState := []
  spans : List SpanPlace := []
  scopes : List Scope := []
  flows : List (Option ScopeRef) := [none]

/-- What is done with one span. -/
inductive SpanCall where
  /-- `SetTag`. -/
  | setTag (key : String) (value : Option String)
  /-- `SetTraceSamplingPriority`. -/
  | setTraceSamplingPriority (priority : SamplingPriority)
  /-- `Context.TraceContext.SamplingPriority = value`. -/
  | assignSamplingPriority (value : Option SamplingPriority)
  /-- `Finish`. -/
  | finish (duration : Int)
  /-- `Inject` of the context. -/
  | inject

/-- The operation on the trace of the span. -/
def SpanCall.operation (span : SpanRef) : SpanCall → Operation
  | setTag key value => .setTag span key value
  | setTraceSamplingPriority priority => .setTraceSamplingPriority span priority
  | assignSamplingPriority value => .assignSamplingPriority span value
  | finish duration => .finish span duration
  | inject => .inject span

/-- What a program calls. A span of the process as a parent is named by its number. -/
inductive ProcessCall where
  /-- `StartSpan`. -/
  | startSpan (flow : Nat) (parent : Option ISpanContext) (args : StartSpanArgs)
      (ignoreActiveScope : Bool)
  /-- `ActivateSpan`, `Close` and `Dispose`, with the duration of a span that is finished. -/
  | scope (flow : Nat) (call : ScopeCall) (duration : Int)
  /-- A new execution context, which starts with the active scope of the one it is made in. -/
  | fork (flow : Nat)
  /-- A call of a method of a span. -/
  | span (span : SpanRef) (call : SpanCall)

namespace Process

/-- The state of the scope manager in a flow. -/
def manager (p : Process) (active : Option ScopeRef) : ScopeManager := ⟨p.scopes, active⟩

/-- `_scopeManager.Active?.Span?.Context`, and the parent that is used.
Source: `Tracer.cs`, `CreateSpanContext`, its first lines -/
def parentOf (p : Process) (active : Option ScopeRef) (parent : Option ISpanContext)
    (ignoreActiveScope : Bool) : Option ISpanContext :=
  if parent = none ∧ ignoreActiveScope = false then
    (active.bind fun r => p.scopes[r]?).map fun scope => .ofSpan scope.span
  else parent

/-- What a reference to no span shows. -/
def noSpan : Span where
  context := { traceId := 0, spanId := 0 }
  parent := none
  tags := { type := commonTags }
  operationName := none

/-- An operation on the trace of a span of the process. -/
def operate (tracer : Tracer) (p : Process) (span : SpanRef) (op : SpanRef → Operation) :
    Option (Process × List (Nat × Published)) := do
  let place ← p.spans[span]?
  let t ← p.traces[place.trace]?
  let (u, new) ← (op place.span).exec tracer t
  some ({ p with traces := p.traces.set place.trace u }, new.map fun x => (place.trace, x))

/-- Source: `Tracer.cs`, `StartSpan` and `CreateSpanContext`, once the parent is known -/
def startSpan (tracer : Tracer) (p : Process) (parent : Option ISpanContext)
    (args : StartSpanArgs) : Option (Process × List (Nat × Published)) :=
  match parent with
  | some (.ofSpan n) => do
      let place ← p.spans[n]?
      let t ← p.traces[place.trace]?
      let (p, new) ← p.operate tracer n fun span => .startChildSpan span args
      some ({ p with spans := p.spans ++ [⟨place.trace, t.allocated⟩] }, new)
  | parent =>
      some ({ p with
        traces := p.traces ++ [Tracing.startSpan tracer [] (fun _ => noSpan) parent args]
        spans := p.spans ++ [⟨p.traces.length, 0⟩] }, [])

/-- `Finish`, as `Close` calls it: the effects of a scope call on spans. -/
def finishAll (tracer : Tracer) (duration : Int) :
    List ScopeEffect → Process → Option (Process × List (Nat × Published))
  | [], p => some (p, [])
  | .finish span :: effects, p => do
      let (p, now) ← p.operate tracer span fun span => .finish span duration
      let (p, later) ← finishAll tracer duration effects p
      some (p, now ++ later)
  | _ :: effects, p => finishAll tracer duration effects p

/-- One call of a program. -/
def exec (tracer : Tracer) (p : Process) :
    ProcessCall → Option (Process × List (Nat × Published))
  | .startSpan flow parent args ignoreActiveScope => do
      let active ← p.flows[flow]?
      p.startSpan tracer (p.parentOf active parent ignoreActiveScope) args
  | .scope flow call duration => do
      let active ← p.flows[flow]?
      let (m, _, effects) ← call.exec (p.manager active)
      finishAll tracer duration effects
        { p with scopes := m.scopes, flows := p.flows.set flow m.active }
  | .fork flow => do
      let active ← p.flows[flow]?
      some ({ p with flows := p.flows ++ [active] }, [])
  | .span span call => p.operate tracer span call.operation

/-! ## Processes that can be reached -/

/-- The call is of a flow, of spans and of scopes that there are. -/
def Refers (p : Process) : ProcessCall → Prop
  | .startSpan flow parent _ _ =>
      flow < p.flows.length ∧ ∀ n, parent = some (.ofSpan n) → n < p.spans.length
  | .scope flow (.activate span _) _ => flow < p.flows.length ∧ span < p.spans.length
  | .scope flow (.close r) _ => flow < p.flows.length ∧ r < p.scopes.length
  | .scope flow (.dispose r) _ => flow < p.flows.length ∧ r < p.scopes.length
  | .fork flow => flow < p.flows.length
  | .span span _ => span < p.spans.length

/-- A parent that is no span of the process. -/
def Foreign (parent : Option ISpanContext) : Prop := ∀ n, parent ≠ some (.ofSpan n)

/-- The invariant of the process. -/
structure WellFormed (p : Process) : Prop where
  sound : ∀ (k : Nat) (t : TraceState), p.traces[k]? = some t → ∃ parent, Foreign parent ∧ t.Sound parent
  nodup : p.spans.Nodup
  mem : ∀ place, place ∈ p.spans ↔
    ∃ t, p.traces[place.trace]? = some t ∧ place.span < t.allocated
  scopeSpan : ∀ scope ∈ p.scopes, scope.span < p.spans.length
  scopeParent : ∀ scope ∈ p.scopes, ∀ r, scope.parent = some r → r < p.scopes.length
  active : ∀ r, some r ∈ p.flows → r < p.scopes.length

/-- The traces of a process, as machines that run side by side. -/
def traceMachine (tracer : Tracer) :
    SideBySide TraceState (Option ISpanContext × StartSpanArgs) Operation Published where
  start i := Tracing.startSpan tracer [] (fun _ => noSpan) i.1 i.2
  Starts i := Foreign i.1
  step := Operation.exec tracer
  Allowed := Operation.Refers

section steps

variable {tracer : Tracer} {p p' : Process}

theorem wellFormed_new : ({} : Process).WellFormed where
  sound k t h := by simp at h
  nodup := List.nodup_nil
  mem place := by simp
  scopeSpan scope h := by simp at h
  scopeParent scope h := by simp at h
  active r h := by simp at h

/-- Where a span of the process is. -/
theorem WellFormed.place (h : p.WellFormed) {n : SpanRef} (hn : n < p.spans.length) :
    ∃ place t, p.spans[n]? = some place ∧ p.traces[place.trace]? = some t ∧
      place.span < t.allocated := by
  have hmem : p.spans[n] ∈ p.spans := List.getElem_mem hn
  obtain ⟨t, ht, hlt⟩ := (h.mem _).mp hmem
  exact ⟨p.spans[n], t, List.getElem?_eq_getElem hn, ht, hlt⟩

variable (tracer) in
/-- An operation on the trace of a span succeeds. -/
theorem WellFormed.operate (h : p.WellFormed) {n : SpanRef} (hn : n < p.spans.length)
    {op : SpanRef → Operation} (hop : ∀ span, (op span).span = span) :
    ∃ place t u new, p.spans[n]? = some place ∧ p.traces[place.trace]? = some t ∧
      (op place.span).Refers t ∧ (op place.span).exec tracer t = some (u, new) ∧
      p.operate tracer n op = some ({ p with traces := p.traces.set place.trace u },
        new.map fun x => (place.trace, x)) := by
  obtain ⟨place, t, hplace, ht, hlt⟩ := h.place hn
  obtain ⟨parent, -, hsound⟩ := h.sound _ _ ht
  have hrefers : (op place.span).Refers t := by
    rw [Operation.Refers, hop]
    exact hlt
  obtain ⟨u, new, hu, -⟩ := (op place.span).exec_spec tracer hsound.started hrefers
  refine ⟨place, t, u, new, hplace, ht, hrefers, hu, ?_⟩
  simp [Process.operate, hplace, ht, hu]

/-- Replacing a trace by what an operation made of it keeps the traces sound. -/
theorem WellFormed.sound_set (h : p.WellFormed) {k : Nat} {t u : TraceState}
    (ht : p.traces[k]? = some t) {op : Operation} (hop : op.Refers t) {new : List Published}
    (hu : op.exec tracer t = some (u, new)) : ∀ (j : Nat) (v : TraceState), (p.traces.set k u)[j]? = some v →
      ∃ parent, Foreign parent ∧ v.Sound parent := by
  intro j v hv
  by_cases hjk : j = k
  · subst hjk
    rw [List.getElem?_set_self (List.getElem?_eq_some_iff.mp ht).1, Option.some.injEq] at hv
    subst hv
    obtain ⟨parent, hforeign, hsound⟩ := h.sound _ _ ht
    exact ⟨parent, hforeign, hsound.step tracer hop hu⟩
  · rw [List.getElem?_set_ne (Ne.symm hjk)] at hv
    exact h.sound j v hv

/-- An operation that starts no span keeps the process well formed. -/
theorem WellFormed.set (h : p.WellFormed) {k : Nat} {t u : TraceState}
    (ht : p.traces[k]? = some t) {op : Operation} (hop : op.Refers t) {new : List Published}
    (hu : op.exec tracer t = some (u, new)) (hallocated : u.allocated = t.allocated) :
    ({ p with traces := p.traces.set k u } : Process).WellFormed := by
  refine ⟨h.sound_set ht hop hu, h.nodup, fun place => (h.mem place).trans ?_, h.scopeSpan,
    h.scopeParent, h.active⟩
  show _ ↔ ∃ v, (p.traces.set k u)[place.trace]? = some v ∧ _
  by_cases hk : place.trace = k
  · subst hk
    rw [List.getElem?_set_self (List.getElem?_eq_some_iff.mp ht).1, ht]
    simp [hallocated]
  · rw [List.getElem?_set_ne (Ne.symm hk)]

/-- A new span of the process. -/
theorem WellFormed.scopes_append (h : p.WellFormed) (place : SpanPlace) :
    ∀ scope ∈ p.scopes, scope.span < (p.spans ++ [place]).length := by
  intro scope hscope
  rw [List.length_append]
  exact Nat.lt_of_lt_of_le (h.scopeSpan scope hscope) (Nat.le_add_right _ _)

/-- A span that is not there yet is added to the list. -/
theorem nodup_concat {spans : List SpanPlace} (h : spans.Nodup) {place : SpanPlace}
    (hnot : place ∉ spans) : (spans ++ [place]).Nodup :=
  List.nodup_append.mpr ⟨h, List.nodup_singleton place, fun _ ha _ hb hab =>
    hnot (List.mem_singleton.mp hb ▸ hab ▸ ha)⟩

/-- A child span keeps the process well formed. -/
theorem WellFormed.child (h : p.WellFormed) {k : Nat} {t u : TraceState}
    (ht : p.traces[k]? = some t) {op : Operation} (hop : op.Refers t) {new : List Published}
    (hu : op.exec tracer t = some (u, new)) (hallocated : u.allocated = t.allocated + 1) :
    ({ p with traces := p.traces.set k u, spans := p.spans ++ [⟨k, t.allocated⟩] } :
      Process).WellFormed := by
  have hlt := (List.getElem?_eq_some_iff.mp ht).1
  have hnot : (⟨k, t.allocated⟩ : SpanPlace) ∉ p.spans := by
    rw [h.mem, ht]
    rintro ⟨v, hv, hv'⟩
    obtain rfl := Option.some.inj hv
    exact Nat.lt_irrefl _ hv'
  refine ⟨h.sound_set ht hop hu, nodup_concat h.nodup hnot, fun place => ?_, h.scopes_append _,
    h.scopeParent, h.active⟩
  rw [List.mem_append, List.mem_singleton, h.mem place]
  show _ ↔ ∃ v, (p.traces.set k u)[place.trace]? = some v ∧ _
  rcases place with ⟨j, r⟩
  by_cases hjk : j = k
  · subst hjk
    rw [List.getElem?_set_self hlt, ht, SpanPlace.mk.injEq]
    constructor
    · rintro (⟨v, hv, hr⟩ | ⟨-, rfl⟩)
      · obtain rfl := Option.some.inj hv
        exact ⟨u, rfl, hallocated ▸ Nat.lt_succ_of_lt hr⟩
      · exact ⟨u, rfl, hallocated ▸ Nat.lt_succ_self _⟩
    · rintro ⟨v, hv, hr⟩
      obtain rfl := Option.some.inj hv
      rcases Nat.lt_succ_iff_lt_or_eq.mp (hallocated ▸ hr) with hr | rfl
      · exact Or.inl ⟨t, rfl, hr⟩
      · exact Or.inr ⟨rfl, rfl⟩
  · rw [List.getElem?_set_ne (Ne.symm hjk), SpanPlace.mk.injEq]
    simp [hjk]

/-- A new trace keeps the process well formed. -/
theorem WellFormed.root (h : p.WellFormed) {t : TraceState} {parent : Option ISpanContext}
    (hforeign : Foreign parent) (ht : t.Sound parent) (hallocated : t.allocated = 1) :
    ({ p with traces := p.traces ++ [t], spans := p.spans ++ [⟨p.traces.length, 0⟩] } :
      Process).WellFormed := by
  have hnot : (⟨p.traces.length, 0⟩ : SpanPlace) ∉ p.spans := by
    rw [h.mem, List.getElem?_eq_none (Nat.le_refl _)]
    rintro ⟨v, hv, -⟩
    cases hv
  refine ⟨fun j v hv => ?_, nodup_concat h.nodup hnot, fun place => ?_, h.scopes_append _,
    h.scopeParent, h.active⟩
  · rcases getElem?_concat_eq_some.mp hv with hv | ⟨-, rfl⟩
    · exact h.sound j v hv
    · exact ⟨parent, hforeign, ht⟩
  · rw [List.mem_append, List.mem_singleton, h.mem place]
    rcases place with ⟨j, r⟩
    simp only [getElem?_concat_eq_some, SpanPlace.mk.injEq]
    constructor
    · rintro (⟨v, hv, hr⟩ | ⟨rfl, rfl⟩)
      · exact ⟨v, Or.inl hv, hr⟩
      · exact ⟨t, Or.inr ⟨rfl, rfl⟩, hallocated ▸ Nat.one_pos⟩
    · rintro ⟨v, hv | ⟨rfl, rfl⟩, hr⟩
      · exact Or.inl ⟨v, hv, hr⟩
      · rw [hallocated] at hr
        exact Or.inr ⟨rfl, Nat.lt_one_iff.mp hr⟩

/-! ## Calls -/

/-- The process after a call: it is well formed, and the traces have run side by side. -/
structure Reaches (tracer : Tracer) (p p' : Process) (new : List (Nat × Published)) : Prop where
  wellFormed : p'.WellFormed
  separate : ∀ out, (traceMachine tracer).Separate p.traces out →
    (traceMachine tracer).Separate p'.traces (out ++ new)

theorem WellFormed.reaches_refl (h : p.WellFormed) : Reaches tracer p p [] :=
  ⟨h, fun out hout => by rwa [List.append_nil]⟩

theorem Reaches.trans {q : Process} {now later : List (Nat × Published)}
    (h : Reaches tracer p p' now) (h' : Reaches tracer p' q later) :
    Reaches tracer p q (now ++ later) :=
  ⟨h'.wellFormed, fun out hout => List.append_assoc out now later ▸ h'.separate _ (h.separate out hout)⟩

/-- The spans, the scopes and the execution contexts stay. -/
structure SameScopes (p p' : Process) : Prop where
  spans : p'.spans = p.spans
  scopes : p'.scopes = p.scopes
  flows : p'.flows = p.flows

variable (tracer) in
/-- **A call of a method of a span.** -/
theorem WellFormed.spanCall (h : p.WellFormed) {n : SpanRef} (hn : n < p.spans.length)
    (call : SpanCall) : ∃ p' new, p.operate tracer n call.operation = some (p', new) ∧
      Reaches tracer p p' new ∧ SameScopes p p' := by
  have hop : ∀ span, (call.operation span).span = span := by
    intro span
    cases call <;> rfl
  obtain ⟨place, t, u, new, -, ht, hrefers, hu, hoperate⟩ := h.operate tracer hn hop
  have hallocated : u.allocated = t.allocated := by
    have heffect := Operation.effect_of_exec hu
    generalize hcall : call.operation place.span = op at heffect
    cases heffect with
    | startChildSpan parent args hmore => cases call <;> cases hcall
    | finish span duration hopen hone v hledger hclose => exact hone.allocated
    | same op hsame hledger hnot => exact hsame.allocated
  exact ⟨_, _, hoperate, ⟨h.set ht hrefers hu hallocated, fun out hout =>
    (SideBySide.Step.act _ _ _ _ _ ht hrefers hu).separate hout⟩, rfl, rfl, rfl⟩

variable (tracer) in
/-- The spans that `Close` finishes. -/
theorem WellFormed.finishAll (h : p.WellFormed) (duration : Int) {effects : List ScopeEffect}
    (heffects : ∀ span, .finish span ∈ effects → span < p.spans.length) :
    ∃ p' new, Process.finishAll tracer duration effects p = some (p', new) ∧
      Reaches tracer p p' new ∧ SameScopes p p' := by
  induction effects generalizing p with
  | nil => exact ⟨p, [], rfl, h.reaches_refl, rfl, rfl, rfl⟩
  | cons effect effects ih =>
      have hrest : ∀ span, .finish span ∈ effects → span < p.spans.length :=
        fun span hspan => heffects span (List.mem_cons_of_mem _ hspan)
      cases effect with
      | finish span =>
          obtain ⟨q, now, hq, hreaches, hsame⟩ := h.spanCall tracer
            (heffects span List.mem_cons_self) (.finish duration)
          obtain ⟨r, later, hr, hreaches', hsame'⟩ := ih hreaches.wellFormed
            (hsame.spans.symm ▸ hrest)
          refine ⟨r, now ++ later, ?_, hreaches.trans hreaches', hsame'.spans.trans hsame.spans,
            hsame'.scopes.trans hsame.scopes, hsame'.flows.trans hsame.flows⟩
          have hq' : p.operate tracer span (fun span => .finish span duration) = some (q, now) := hq
          simp [Process.finishAll, hq', hr]
      | traceStarted => exact ih h hrest
      | spanOpened => exact ih h hrest
      | spanActivated => exact ih h hrest
      | spanDeactivated => exact ih h hrest
      | spanClosed => exact ih h hrest
      | traceEnded => exact ih h hrest

/-- A new span is a child of its parent in the trace of that, or the root of a new trace. -/
structure Joins (p p' : Process) (parent : Option ISpanContext) (place : SpanPlace) : Prop where
  spans : p'.spans = p.spans ++ [place]
  child : ∀ n, parent = some (.ofSpan n) → ∃ above t, p.spans[n]? = some above ∧
    place.trace = above.trace ∧ p'.traces[place.trace]? = some t ∧
      (t.objects place.span).parent = some (.ofSpan above.span)
  root : Foreign parent → place = ⟨p.traces.length, 0⟩

variable (tracer) in
/-- **A call of `StartSpan`**, with the place of the new span. -/
theorem WellFormed.startSpan (h : p.WellFormed) (parent : Option ISpanContext)
    (args : StartSpanArgs) (hparent : ∀ n, parent = some (.ofSpan n) → n < p.spans.length) :
    ∃ p' new place, p.startSpan tracer parent args = some (p', new) ∧ Reaches tracer p p' new ∧
      Joins p p' parent place ∧ p'.scopes = p.scopes ∧ p'.flows = p.flows := by
  by_cases hlocal : ∃ n, parent = some (.ofSpan n)
  · obtain ⟨n, rfl⟩ := hlocal
    obtain ⟨place, t, u, new, hplace, ht, hrefers, hu, hoperate⟩ :=
      h.operate tracer (hparent n rfl)
        (show ∀ span, (Operation.startChildSpan span args).span = span from fun _ => rfl)
    have hmore := TraceState.addNewSpan_oneMore tracer t (some (.ofSpan place.span))
      (createSpanContext tracer t.objects (some (.ofSpan place.span)) args).2 args
    obtain rfl : t.startChildSpan tracer place.span args = u :=
      (Prod.mk.inj (Option.some.inj hu)).1
    refine ⟨_, _, ⟨place.trace, t.allocated⟩, ?_, ⟨h.child ht hrefers hu hmore.allocated,
      fun out hout => (SideBySide.Step.act _ _ _ _ _ ht hrefers hu).separate hout⟩,
      ⟨rfl, fun m hm => ?_, fun hforeign => absurd rfl (hforeign n)⟩, rfl, rfl⟩
    · simp [Process.startSpan, hplace, ht, hoperate]
    · obtain rfl : n = m := ISpanContext.ofSpan.inj (Option.some.inj hm)
      refine ⟨place, _, hplace, rfl,
        List.getElem?_set_self (List.getElem?_eq_some_iff.mp ht).1, ?_⟩
      exact congrArg Prod.fst ((hmore.identity t.allocated).trans (if_pos rfl))
  · have hforeign : Foreign parent := fun n hn => hlocal ⟨n, hn⟩
    have hsound := sound_startSpan tracer [] (fun _ => noSpan) parent args
    have hallocated : (Tracing.startSpan tracer [] (fun _ => noSpan) parent args).allocated = 1 :=
      (TraceState.addNewSpan_oneMore tracer _ parent _ args).allocated
    refine ⟨_, _, ⟨p.traces.length, 0⟩, ?_, ⟨h.root hforeign hsound hallocated, fun out hout =>
      SideBySide.Step.separate (.start (parent, args) hforeign) hout⟩,
      ⟨rfl, fun n hn => absurd hn (hforeign n), fun _ => rfl⟩, rfl, rfl⟩
    unfold Process.startSpan
    split
    · exact absurd rfl (hforeign _)
    · rfl

/-- What a call on scopes leaves of the scopes and the active one. -/
structure Rescoped (p : Process) (m : ScopeManager) : Prop where
  length : p.scopes.length ≤ m.scopes.length
  span : ∀ scope ∈ m.scopes, scope.span < p.spans.length
  parent : ∀ scope ∈ m.scopes, ∀ r, scope.parent = some r → r < m.scopes.length
  active : ∀ r, m.active = some r → r < m.scopes.length

/-- **A call on scopes**: the scopes it leaves, and the spans it finishes. -/
theorem WellFormed.scopeCall (h : p.WellFormed) {flow : Nat} {active : Option ScopeRef}
    (hactive : p.flows[flow]? = some active) {call : ScopeCall} {duration : Int}
    (hrefers : p.Refers (.scope flow call duration)) :
    ∃ m r effects, call.exec (p.manager active) = some (m, r, effects) ∧ p.Rescoped m ∧
      ∀ span, .finish span ∈ effects → span < p.spans.length := by
  have hlt : ∀ r, active = some r → r < p.scopes.length := fun r hr =>
    h.active r (hr ▸ List.mem_of_getElem? hactive)
  have hclose : ∀ r, r < p.scopes.length → ∃ scope, p.scopes[r]? = some scope ∧
      p.Rescoped ((p.manager active).close r scope).1 ∧
      ∀ span, .finish span ∈ ((p.manager active).close r scope).2 ++
        (if scope.finishOnClose then [.finish scope.span] else []) → span < p.spans.length := by
    intro r hr
    have hmem : p.scopes[r] ∈ p.scopes := List.getElem_mem hr
    refine ⟨p.scopes[r], List.getElem?_eq_getElem hr, ?_, fun span hspan => ?_⟩
    · unfold ScopeManager.close
      split
      · exact ⟨Nat.le_refl _, h.scopeSpan, h.scopeParent, hlt⟩
      · exact ⟨Nat.le_refl _, h.scopeSpan, h.scopeParent, h.scopeParent _ hmem⟩
    · have hspan' : span = p.scopes[r].span := by
        unfold ScopeManager.close at hspan
        split at hspan <;> split at hspan <;> simp_all
      exact hspan' ▸ h.scopeSpan _ hmem
  cases call with
  | activate span finishOnClose =>
      refine ⟨_, _, _, rfl, ⟨?_, ?_, ?_, ?_⟩, fun s hs => ?_⟩
      · exact List.length_append ▸ Nat.le_add_right _ _
      · refine List.forall_mem_append.mpr ⟨h.scopeSpan, List.forall_mem_singleton.mpr hrefers.2⟩
      · refine List.forall_mem_append.mpr ⟨fun scope hscope r hr => ?_,
          List.forall_mem_singleton.mpr fun r hr => ?_⟩
        · exact List.length_append ▸ Nat.lt_succ_of_lt (h.scopeParent scope hscope r hr)
        · exact List.length_append ▸ Nat.lt_succ_of_lt (hlt r hr)
      · intro r hr
        obtain rfl := Option.some.inj hr
        exact List.length_append ▸ Nat.lt_succ_self _
      · simp at hs
  | close r =>
      obtain ⟨scope, hscope, hrescoped, heffects⟩ := hclose r hrefers.2
      refine ⟨_, r, _, ?_, hrescoped, heffects⟩
      simp [ScopeCall.exec, manager, hscope]
  | dispose r =>
      obtain ⟨scope, hscope, hrescoped, heffects⟩ := hclose r hrefers.2
      refine ⟨_, r, _, ?_, hrescoped, heffects⟩
      simp [ScopeCall.exec, manager, hscope]

/-- The scopes of the process after a call on scopes. -/
theorem WellFormed.rescoped (h : p.WellFormed) {m : ScopeManager} (hm : p.Rescoped m)
    (flow : Nat) :
    ({ p with scopes := m.scopes, flows := p.flows.set flow m.active } : Process).WellFormed := by
  refine ⟨h.sound, h.nodup, h.mem, hm.span, hm.parent, fun r hr => ?_⟩
  rcases List.mem_or_eq_of_mem_set hr with hr | hr
  · exact Nat.lt_of_lt_of_le (h.active r hr) hm.length
  · exact hm.active r hr.symm

/-- The parent that is looked up is a span of the process. -/
theorem WellFormed.parentOf (h : p.WellFormed) (active : Option ScopeRef)
    (parent : Option ISpanContext) (hparent : ∀ n, parent = some (.ofSpan n) → n < p.spans.length)
    (ignoreActiveScope : Bool) (n : SpanRef)
    (hn : p.parentOf active parent ignoreActiveScope = some (.ofSpan n)) : n < p.spans.length := by
  unfold Process.parentOf at hn
  split at hn
  · obtain ⟨scope, hscope, heq⟩ := Option.map_eq_some_iff.mp hn
    obtain ⟨r, -, hr⟩ := Option.bind_eq_some_iff.mp hscope
    obtain rfl := ISpanContext.ofSpan.inj heq
    exact h.scopeSpan scope (List.mem_of_getElem? hr)
  · exact hparent n hn

/-- What a call does to the scopes and the execution contexts. -/
inductive ScopeStep (p p' : Process) : ProcessCall → Prop
  | startSpan (flow : Nat) (parent : Option ISpanContext) (args : StartSpanArgs)
      (ignoreActiveScope : Bool) (hscopes : p'.scopes = p.scopes) (hflows : p'.flows = p.flows) :
      ScopeStep p p' (.startSpan flow parent args ignoreActiveScope)
  | scope (flow : Nat) (call : ScopeCall) (duration : Int) (active : Option ScopeRef)
      (m : ScopeManager) (r : ScopeRef) (effects : List ScopeEffect)
      (hactive : p.flows[flow]? = some active)
      (hm : call.exec (p.manager active) = some (m, r, effects)) (hscopes : p'.scopes = m.scopes)
      (hflows : p'.flows = p.flows.set flow m.active) : ScopeStep p p' (.scope flow call duration)
  | fork (flow : Nat) (active : Option ScopeRef) (hscopes : p'.scopes = p.scopes)
      (hflows : p'.flows = p.flows ++ [active]) : ScopeStep p p' (.fork flow)
  | span (n : SpanRef) (call : SpanCall) (hscopes : p'.scopes = p.scopes)
      (hflows : p'.flows = p.flows) : ScopeStep p p' (.span n call)

variable (tracer) in
/-- **A call of a program** succeeds, and keeps the process well formed and its traces apart. -/
theorem WellFormed.exec (h : p.WellFormed) {call : ProcessCall} (hrefers : p.Refers call) :
    ∃ p' new, p.exec tracer call = some (p', new) ∧ Reaches tracer p p' new ∧ ScopeStep p p' call := by
  cases call with
  | startSpan flow parent args ignoreActiveScope =>
      obtain ⟨hflow, hparent⟩ := hrefers
      obtain ⟨p', new, place, hp', hreaches, -, hscopes, hflows⟩ := h.startSpan tracer
        (p.parentOf p.flows[flow] parent ignoreActiveScope) args
        (h.parentOf _ parent hparent ignoreActiveScope)
      refine ⟨p', new, ?_, hreaches, .startSpan _ _ _ _ hscopes hflows⟩
      simp [Process.exec, List.getElem?_eq_getElem hflow, hp']
  | scope flow call duration =>
      have hflow : flow < p.flows.length := by
        cases call <;> exact hrefers.1
      have hactive := List.getElem?_eq_getElem hflow
      obtain ⟨m, r, effects, hm, hrescoped, heffects⟩ := h.scopeCall hactive hrefers
      obtain ⟨p', new, hp', hreaches, hsame⟩ :=
        (h.rescoped hrescoped flow).finishAll tracer duration heffects
      refine ⟨p', new, ?_, ⟨hreaches.wellFormed, hreaches.separate⟩,
        .scope flow call duration _ m r effects hactive hm hsame.scopes hsame.flows⟩
      simp [Process.exec, hactive, hm, hp']
  | fork flow =>
      have hactive := List.getElem?_eq_getElem (show flow < p.flows.length from hrefers)
      refine ⟨{ p with flows := p.flows ++ [p.flows[flow]] }, [], ?_, ⟨⟨h.sound, h.nodup, h.mem,
        h.scopeSpan, h.scopeParent, ?_⟩, fun out hout => ?_⟩, .fork flow _ rfl rfl⟩
      · rw [Process.exec, hactive]
        rfl
      · intro r hr
        rcases List.mem_append.mp hr with hr | hr
        · exact h.active r hr
        · exact h.active r (List.mem_singleton.mp hr ▸ List.getElem_mem hrefers)
      · rw [List.append_nil]
        exact hout
  | span n call =>
      obtain ⟨p', new, hp', hreaches, hsame⟩ := h.spanCall tracer hrefers call
      exact ⟨p', new, hp', hreaches, .span n call hsame.scopes hsame.flows⟩

/-- **Every run of calls** of spans, scopes and execution contexts that there are. -/
theorem run_spec {calls : List ProcessCall}
    (hrefers : AllSteps (Process.exec tracer) Refers {} calls) :
    ∃ p out, runOut (Process.exec tracer) {} calls = some (p, out) ∧ p.WellFormed ∧
      (traceMachine tracer).Separate p.traces out :=
  runOut_invariant (I := fun out (p : Process) => p.WellFormed ∧
      (traceMachine tracer).Separate p.traces out) ⟨wellFormed_new, SideBySide.separate_nil⟩
    (fun out q call hq hcall => by
      obtain ⟨q', new, hq', hreaches, -⟩ := hq.1.exec tracer hcall
      exact ⟨q', new, hq', hreaches.wellFormed, hreaches.separate out hq.2⟩) calls hrefers

end steps

/-! ## What holds in every run -/

/-- What the operations on one trace make public agrees. -/
theorem published_agree {tracer : Tracer} {t s : TraceState} (ht : t.Started) {ops : List Operation}
    {out : List Published} (hrefers : AllSteps (Operation.exec tracer) Operation.Refers t ops)
    (hrun : runOut (Operation.exec tracer) t ops = some (s, out)) :
    ∃ v, ∀ x ∈ out, x.Shows none ∨ x.Shows (some v) := by
  obtain ⟨s', out', hrun', -, hagree⟩ := runOut_invariant
    (I := fun out (s : TraceState) => s.Started ∧ PublishedAgree out s)
    ⟨ht, fun x hx => absurd hx (by simp)⟩
    (fun out t op ht hop => by
      obtain ⟨u, new, hu, hu', hagree', -⟩ := ht.2.step tracer ht.1 hop
      exact ⟨u, new, hu, hu', hagree'⟩) ops hrefers
  obtain ⟨rfl, rfl⟩ := Prod.mk.inj (Option.some.inj (hrun.symm.trans hrun'))
  cases hvalue : s.cell.value with
  | none =>
      refine ⟨.autoKeep, fun x hx => ?_⟩
      rcases hagree x hx with hnone | ⟨q, hq, -⟩
      · exact Or.inl hnone
      · exact absurd (hvalue.symm.trans hq.2) (by simp)
  | some v =>
      refine ⟨v, fun x hx => ?_⟩
      rcases hagree x hx with hnone | ⟨q, hq, hshows⟩
      · exact Or.inl hnone
      · obtain rfl : v = q := Option.some.inj (hvalue.symm.trans hq.2)
        exact Or.inr hshows

/-- A span is started and activated, and then another execution context is made. -/
def twoFlows : List ProcessCall :=
  [.startSpan 0 none plainArgs false, .scope 0 (.activate 0 true) 0, .fork 0]

/-- In the other one a child is started, and the span is injected; then both are finished. -/
def childInFlow : List ProcessCall :=
  [.startSpan 1 none plainArgs false, .span 0 .inject, .span 1 (.finish 5), .scope 0 (.close 0) 9]

theorem refers_childInFlow :
    AllSteps (exec flushingTracer) Refers {} (twoFlows ++ childInFlow) := by
  refine (allSteps_cons _ _ _ _ _).mpr ⟨⟨Nat.one_pos, fun n hn => by cases hn⟩, fun t new ht => ?_⟩
  obtain ⟨rfl, rfl⟩ := Prod.mk.inj (Option.some.inj ht)
  refine (allSteps_cons _ _ _ _ _).mpr ⟨⟨Nat.one_pos, Nat.one_pos⟩, fun t new ht => ?_⟩
  obtain ⟨rfl, rfl⟩ := Prod.mk.inj (Option.some.inj ht)
  refine (allSteps_cons _ _ _ _ _).mpr ⟨Nat.one_pos, fun t new ht => ?_⟩
  obtain ⟨rfl, rfl⟩ := Prod.mk.inj (Option.some.inj ht)
  refine (allSteps_cons _ _ _ _ _).mpr
    ⟨⟨Nat.one_lt_two, fun n hn => by cases hn⟩, fun t new ht => ?_⟩
  obtain ⟨rfl, rfl⟩ := Prod.mk.inj (Option.some.inj ht)
  refine (allSteps_cons _ _ _ _ _).mpr ⟨Nat.two_pos, fun t new ht => ?_⟩
  obtain ⟨rfl, rfl⟩ := Prod.mk.inj (Option.some.inj ht)
  refine (allSteps_cons _ _ _ _ _).mpr ⟨Nat.one_lt_two, fun t new ht => ?_⟩
  obtain ⟨rfl, rfl⟩ := Prod.mk.inj (Option.some.inj ht)
  exact (allSteps_cons _ _ _ _ _).mpr ⟨⟨Nat.two_pos, Nat.one_pos⟩, fun t new ht => allSteps_nil _ _ _⟩

/-- **The spans of a process form one tree for each trace.** -/
theorem spans_are_trees (tracer : Tracer) {calls : List ProcessCall}
    (hrefers : AllSteps (exec tracer) Refers {} calls) :
    ∃ p out, runOut (exec tracer) {} calls = some (p, out) ∧
      (p.spans.Nodup ∧ ∀ place, place ∈ p.spans ↔
        ∃ t, p.traces[place.trace]? = some t ∧ place.span < t.allocated) ∧
      ∀ (k : Nat) (t : TraceState), p.traces[k]? = some t →
        (∃ parent, Foreign parent ∧ t.IsTree parent) ∧
        ((t.objects 0).context.traceId ≠ 0 →
          ∀ r < t.allocated, (t.objects r).context.traceId = (t.objects 0).context.traceId) := by
  obtain ⟨p, out, hrun, hp, -⟩ := run_spec hrefers
  refine ⟨p, out, hrun, ⟨hp.nodup, hp.mem⟩, fun k t ht => ?_⟩
  obtain ⟨parent, hforeign, hsound⟩ := hp.sound k t ht
  exact ⟨⟨parent, hforeign, hsound.tree⟩, hsound.tree.traceId_eq⟩

/-- The trace id of the child that was started in another execution context. -/
theorem spans_are_trees_childInFlow :
    ∃ p out t, runOut (exec flushingTracer) {} (twoFlows ++ childInFlow) = some (p, out) ∧
      p.traces[0]? = some t ∧ (t.objects 1).context.traceId = (t.objects 0).context.traceId := by
  obtain ⟨p, out, hrun, -, htraces⟩ := spans_are_trees flushingTracer refers_childInFlow
  obtain ⟨rfl, rfl⟩ := Prod.mk.inj (Option.some.inj hrun)
  obtain ⟨-, hids⟩ := htraces 0 _ rfl
  exact ⟨_, _, _, hrun, rfl, hids (by decide) 1 Nat.one_lt_two⟩

/-- **Every finished span is handed on once.** What a trace has sent, and then what it still holds, are
the spans of the trace that are finished, each once; when all are finished it holds none. -/
theorem finished_spans_conserved (tracer : Tracer) {calls : List ProcessCall}
    (hrefers : AllSteps (exec tracer) Refers {} calls) :
    ∃ p out, runOut (exec tracer) {} calls = some (p, out) ∧
      ∀ (k : Nat) (t : TraceState), p.traces[k]? = some t → ∃ order : List SpanRef,
        order.Nodup ∧ (∀ r, r ∈ order ↔ r < t.allocated ∧ (t.objects r).isFinished = true) ∧
        t.ledger.sent ++ t.ledger.pending = order.map some ∧
        ((∀ r < t.allocated, (t.objects r).isFinished = true) → t.ledger.pending = []) := by
  obtain ⟨p, out, hrun, hp, -⟩ := run_spec hrefers
  refine ⟨p, out, hrun, fun k t ht => ?_⟩
  obtain ⟨parent, -, hsound⟩ := hp.sound k t ht
  obtain ⟨order, haccounted⟩ := hsound.accounted
  refine ⟨order, haccounted.nodup, haccounted.mem, haccounted.sent_append_pending, fun hall => ?_⟩
  have hsent := haccounted.sent_append_pending
  rw [haccounted.sent_of_finished hall] at hsent
  exact List.append_right_eq_self.mp hsent

/-- Both spans are finished, and the trace holds none. -/
theorem finished_spans_conserved_childInFlow :
    ∃ p out t, runOut (exec flushingTracer) {} (twoFlows ++ childInFlow) = some (p, out) ∧
      p.traces[0]? = some t ∧ t.ledger.pending = [] := by
  obtain ⟨p, out, hrun, htraces⟩ := finished_spans_conserved flushingTracer refers_childInFlow
  obtain ⟨rfl, rfl⟩ := Prod.mk.inj (Option.some.inj hrun)
  obtain ⟨order, -, -, -, hpending⟩ := htraces 0 _ rfl
  refine ⟨_, _, _, hrun, rfl, hpending fun r hr => ?_⟩
  rcases Nat.lt_succ_iff_lt_or_eq.mp (show r < 1 + 1 from hr) with hr | rfl
  · obtain rfl := Nat.lt_one_iff.mp hr
    rfl
  · rfl

/-! ## The innermost scope of an execution context -/

/-- A process, with the scopes that one flow has activated and not closed, the last one first. -/
structure Watched where
  process : Process
  stack : List ScopeRef

/-- The scopes a flow has open after a call. -/
def openAfter (flow : Nat) (w : Watched) : ProcessCall → List ScopeRef
  | .scope f call _ =>
      if f = flow then
        match call.closes with
        | none => w.process.scopes.length :: w.stack
        | some _ => w.stack.tail
      else w.stack
  | _ => w.stack

/-- One call, by a program of which a flow is watched. -/
def watch (tracer : Tracer) (flow : Nat) (w : Watched) (call : ProcessCall) :
    Option (Watched × List (Nat × Published)) :=
  (w.process.exec tracer call).map fun r => (⟨r.1, openAfter flow w call⟩, r.2)

/-- If the call closes a scope in the flow, that is the last one the flow has activated. -/
def LastInFirstOut (flow : Nat) (w : Watched) (call : ProcessCall) : Prop :=
  w.process.Refers call ∧ ∀ c duration r, call = .scope flow c duration → c.closes = some r →
    w.stack.head? = some r

/-- Each of the scopes is the child of the next one, and the last one of what was active before. -/
def Chained (scopes : List Scope) (base : Option ScopeRef) : List ScopeRef → Prop
  | [] => True
  | r :: rest =>
      (scopes[r]?.map Scope.parent = some (rest.head?.or base)) ∧ Chained scopes base rest

/-- More scopes do not change the chain. -/
theorem Chained.append {scopes more : List Scope} {base : Option ScopeRef} {stack : List ScopeRef}
    (h : Chained scopes base stack) : Chained (scopes ++ more) base stack := by
  induction stack with
  | nil => trivial
  | cons r rest ih =>
      refine ⟨?_, ih h.2⟩
      obtain ⟨scope, hscope, hparent⟩ := Option.map_eq_some_iff.mp h.1
      rw [List.getElem?_append_left (List.getElem?_eq_some_iff.mp hscope).1, hscope]
      exact congrArg some hparent

/-- The active scope of a flow is the last one it has activated. -/
structure Innermost (flow : Nat) (base : Option ScopeRef) (w : Watched) : Prop where
  wellFormed : w.process.WellFormed
  active : w.process.flows[flow]? = some (w.stack.head?.or base)
  chained : Chained w.process.scopes base w.stack

/-- What a call on scopes does to the scopes and the active one. -/
theorem scopeCall_cases {m m' : ScopeManager} {call : ScopeCall} {r : ScopeRef}
    {effects : List ScopeEffect} (h : call.exec m = some (m', r, effects)) :
    (call.closes = none ∧ m'.active = some m.scopes.length ∧
      ∃ scope : Scope, scope.parent = m.active ∧ m'.scopes = m.scopes ++ [scope]) ∨
    (call.closes = some r ∧ m'.scopes = m.scopes ∧ ∃ scope, m.scopes[r]? = some scope ∧
      m'.active = if m.active = some r then scope.parent else m.active) := by
  have hclose : ∀ c : ScopeCall, c.closes = some r → (do
      let scope ← m.scopes[r]?
      let closed := m.close r scope
      some (closed.1, r, closed.2 ++ if scope.finishOnClose then [.finish scope.span] else [])) =
        some (m', r, effects) →
      c.closes = some r ∧ m'.scopes = m.scopes ∧ ∃ scope, m.scopes[r]? = some scope ∧
        m'.active = if m.active = some r then scope.parent else m.active := by
    intro c hc hrun
    obtain ⟨scope, hscope, heq⟩ := Option.bind_eq_some_iff.mp hrun
    have hm' : m' = (m.close r scope).1 := (Prod.mk.inj (Option.some.inj heq)).1.symm
    rw [hm', ScopeManager.close]
    by_cases hactive : m.active = some r
    · rw [if_neg (not_not.mpr hactive)]
      exact ⟨hc, rfl, scope, hscope, (if_pos hactive).symm⟩
    · rw [if_pos hactive]
      exact ⟨hc, rfl, scope, hscope, (if_neg hactive).symm⟩
  cases call with
  | activate span finishOnClose =>
      obtain ⟨rfl, -⟩ := Prod.mk.inj (Option.some.inj h)
      exact Or.inl ⟨rfl, rfl, _, rfl, rfl⟩
  | close r' =>
      have hr : r' = r := by
        obtain ⟨scope, -, heq⟩ := Option.bind_eq_some_iff.mp h
        exact (Prod.mk.inj (Prod.mk.inj (Option.some.inj heq)).2).1
      subst hr
      exact Or.inr (hclose _ rfl h)
  | dispose r' =>
      have hr : r' = r := by
        obtain ⟨scope, -, heq⟩ := Option.bind_eq_some_iff.mp h
        exact (Prod.mk.inj (Prod.mk.inj (Option.some.inj heq)).2).1
      subst hr
      exact Or.inr (hclose _ rfl h)

/-- **A call by any flow**, if the watched one closes its scopes last in, first out. -/
theorem Innermost.step {tracer : Tracer} {flow : Nat} {base : Option ScopeRef} {w : Watched}
    (h : Innermost flow base w) {call : ProcessCall} (hcall : LastInFirstOut flow w call) :
    ∃ w' new, watch tracer flow w call = some (w', new) ∧ Innermost flow base w' := by
  obtain ⟨hrefers, hlast⟩ := hcall
  obtain ⟨p', new, hp', hreaches, hstep⟩ := h.wellFormed.exec tracer hrefers
  have hkept : openAfter flow w call = w.stack → p'.flows[flow]? = w.process.flows[flow]? →
      (∃ more, p'.scopes = w.process.scopes ++ more) → ∃ w' now,
        watch tracer flow w call = some (w', now) ∧ Innermost flow base w' := by
    rintro hstack hflows ⟨more, hscopes⟩
    refine ⟨⟨p', openAfter flow w call⟩, new, by rw [watch, hp']; rfl, hreaches.wellFormed, ?_, ?_⟩
    · rw [hstack]
      exact hflows.trans h.active
    · rw [hstack]
      exact hscopes ▸ h.chained.append
  cases hstep with
  | startSpan f parent args ignoreActiveScope hscopes hflows =>
      exact hkept rfl (by rw [hflows]) ⟨[], by rw [hscopes, List.append_nil]⟩
  | span n call hscopes hflows =>
      exact hkept rfl (by rw [hflows]) ⟨[], by rw [hscopes, List.append_nil]⟩
  | fork f active hscopes hflows =>
      refine hkept rfl ?_ ⟨[], by rw [hscopes, List.append_nil]⟩
      rw [hflows, List.getElem?_append_left (List.getElem?_eq_some_iff.mp h.active).1]
  | scope f c duration active m r effects hactive hm hscopes hflows =>
      by_cases hf : f = flow
      · subst hf
        have hlt := (List.getElem?_eq_some_iff.mp hactive).1
        obtain rfl : w.stack.head?.or base = active :=
          Option.some.inj (h.active.symm.trans hactive)
        refine ⟨_, new, by rw [watch, hp']; rfl, hreaches.wellFormed, ?_, ?_⟩
        · show p'.flows[f]? = some ((openAfter f w (.scope f c duration)).head?.or base)
          rw [hflows, List.getElem?_set_self hlt, openAfter, if_pos rfl]
          rcases scopeCall_cases hm with ⟨hc, hactive', -⟩ | ⟨hc, -, scope, hscope, hactive'⟩
          · rw [hc, hactive']
            rfl
          · have hhead := hlast c duration r rfl hc
            obtain ⟨rest, hrest⟩ := List.head?_eq_some_iff.mp hhead
            have hchained := h.chained
            rw [hrest] at hchained
            have hr : (w.process.manager ((r :: rest).head?.or base)).active = some r := rfl
            rw [hc, hactive', hrest, if_pos hr]
            obtain ⟨scope', hscope', hparent⟩ := Option.map_eq_some_iff.mp hchained.1
            obtain rfl := Option.some.inj (hscope.symm.trans hscope')
            exact congrArg some hparent
        · show Chained p'.scopes base (openAfter f w (.scope f c duration))
          rw [hscopes, openAfter, if_pos rfl]
          rcases scopeCall_cases hm with ⟨hc, -, scope, hparent, hscopes'⟩ | ⟨hc, hscopes', -⟩
          · rw [hc, hscopes']
            refine ⟨?_, h.chained.append⟩
            rw [manager, List.getElem?_concat_length]
            exact congrArg some hparent
          · obtain ⟨rest, hrest⟩ := List.head?_eq_some_iff.mp (hlast c duration r rfl hc)
            have hchained := h.chained
            rw [hrest] at hchained
            rw [hc, hscopes', hrest]
            exact hchained.2
      · refine hkept (by rw [openAfter, if_neg hf]) ?_ ?_
        · rw [hflows, List.getElem?_set_ne hf]
        · rcases scopeCall_cases hm with ⟨-, -, scope, -, hscopes'⟩ | ⟨-, hscopes', -⟩
          · exact ⟨[scope], hscopes.trans hscopes'⟩
          · exact ⟨[], by rw [List.append_nil]; exact hscopes.trans hscopes'⟩

/-- **The innermost scope.** From any moment of a run on: if a flow closes the scopes it activates last
in, first out, then whatever the other flows call, among them closing these scopes, the active scope of
the flow is the last one that it has activated and not closed, or what was active before; and a span
that it starts without naming a parent is a child of the span of that scope, or the root of a new
trace where there is no scope. -/
theorem active_innermost (tracer : Tracer) {before : List ProcessCall}
    (hbefore : AllSteps (exec tracer) Refers {} before) {p : Process} {out : List (Nat × Published)}
    (hp : runOut (exec tracer) {} before = some (p, out)) {flow : Nat} {base : Option ScopeRef}
    (hflow : p.flows[flow]? = some base) {calls : List ProcessCall}
    (hcalls : AllSteps (watch tracer flow) (LastInFirstOut flow) ⟨p, []⟩ calls) :
    ∃ w now, runOut (watch tracer flow) ⟨p, []⟩ calls = some (w, now) ∧
      w.process.flows[flow]? = some (w.stack.head?.or base) ∧
      ∀ args, ∃ q new place, w.process.exec tracer (.startSpan flow none args false) = some (q, new) ∧
        q.spans = w.process.spans ++ [place] ∧
        (w.stack.head?.or base = none → place = ⟨w.process.traces.length, 0⟩) ∧
        ∀ r, w.stack.head?.or base = some r → ∃ scope above t, w.process.scopes[r]? = some scope ∧
          w.process.spans[scope.span]? = some above ∧ place.trace = above.trace ∧
          q.traces[place.trace]? = some t ∧
          (t.objects place.span).parent = some (.ofSpan above.span) := by
  obtain ⟨p', out', hp', hwellFormed, -⟩ := run_spec hbefore
  obtain ⟨rfl, rfl⟩ := Prod.mk.inj (Option.some.inj (hp.symm.trans hp'))
  have hstart : Innermost flow base ⟨p, []⟩ := ⟨hwellFormed, hflow, trivial⟩
  obtain ⟨w, now, hw, hinnermost⟩ := runOut_invariant
    (I := fun _ (w : Watched) => Innermost flow base w) hstart
    (fun _ _ _ h hcall => h.step hcall) calls hcalls
  refine ⟨w, now, hw, hinnermost.active, fun args => ?_⟩
  have hw' := hinnermost.wellFormed
  obtain ⟨q, new, place, hq, -, hjoins, -⟩ := hw'.startSpan tracer
    (w.process.parentOf (w.stack.head?.or base) none false) args
    (hw'.parentOf _ none (fun n hn => by cases hn) false)
  refine ⟨q, new, place, ?_, hjoins.spans, fun hnone => ?_, fun r hr => ?_⟩
  · rw [exec, hinnermost.active]
    exact hq
  · refine hjoins.root fun n hn => ?_
    rw [hnone] at hn
    cases hn
  · have hlt := hw'.active r (hr ▸ List.mem_of_getElem? hinnermost.active)
    have hscope := List.getElem?_eq_getElem hlt
    have hparent : w.process.parentOf (w.stack.head?.or base) none false =
        some (.ofSpan w.process.scopes[r].span) := by
      rw [hr, parentOf, if_pos ⟨rfl, rfl⟩, Option.bind_some, hscope]
      rfl
    obtain ⟨above, t, habove, hplace, ht, htparent⟩ := hjoins.child _ hparent
    exact ⟨_, above, t, hscope, habove, hplace, ht, htparent⟩

/-- The scope that another flow has closed is still the active one, and the parent. -/
theorem active_innermost_twoFlows :
    ∃ w now, runOut (watch flushingTracer 1)
        ⟨((runOut (exec flushingTracer) {} twoFlows).getD ({}, [])).1, []⟩ [.scope 0 (.close 0) 7] =
          some (w, now) ∧
      w.process.flows[1]? = some (some 0) := by
  have hbefore : AllSteps (exec flushingTracer) Refers {} twoFlows :=
    refers_childInFlow.of_initial (List.prefix_append twoFlows childInFlow)
  have hcalls : AllSteps (watch flushingTracer 1) (LastInFirstOut 1)
      ⟨((runOut (exec flushingTracer) {} twoFlows).getD ({}, [])).1, []⟩ [.scope 0 (.close 0) 7] := by
    refine (allSteps_cons _ _ _ _ _).mpr
      ⟨⟨⟨Nat.two_pos, Nat.one_pos⟩, fun c duration r hc => ?_⟩, fun t new ht => allSteps_nil _ _ _⟩
    exact absurd (ProcessCall.scope.inj hc).1 Nat.zero_ne_one
  obtain ⟨w, now, hw, hactive, -⟩ := active_innermost flushingTracer hbefore rfl rfl hcalls
  obtain ⟨rfl, rfl⟩ := Prod.mk.inj (Option.some.inj hw)
  exact ⟨_, _, hw, hactive⟩

end Process

end DdTrace.Tracing
