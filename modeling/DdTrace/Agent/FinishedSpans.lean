import DdTrace.Agent.SpanFormatter
import DdTrace.Tracing.SamplingDecision

/-!
# What becomes of a span after it was finished

The documentation of `Finish` promises that all modifications of a finished span are ignored. The
calls of this module are those by which a program changes a span or its trace (`SpanCall`), and
`Spans.view` is what the formatter reads of a span.

* `TraceState.TouchesOnly`, `Grows`: what an operation leaves alone, and what it never takes back.
* `SpanCall.exec_view`: what one call does to the data of a finished span.
* `serialize_view_eq_iff`: the formatter writes the same bytes before and after a call exactly if
  the call is `Harmless`: `SetTag` always is, a setter only if it sets the value there is.
* `frozen_iff`: the same for the states of all runs after the first `Finish`.
* `not_frozen_operationName`: a name set after `Finish` is written.

Sources: `Span.cs`; `SpanContext.cs`; `Agent/MessagePack/SpanMessagePackFormatter.cs`.
-/

namespace DdTrace.Tracing.TraceState

open DdTrace.Lib

/-! ## What an operation on one span leaves alone -/

/-- At most one span was changed, and of its identity nothing was. -/
structure TouchesOnly (span : SpanRef) (s t : TraceState) : Prop where
  others : ∀ r, r ≠ span → t.objects r = s.objects r
  allocated : t.allocated = s.allocated
  parent : (t.objects span).parent = (s.objects span).parent
  spanId : (t.objects span).context.spanId = (s.objects span).context.spanId
  serviceName : (t.objects span).context.serviceName = (s.objects span).context.serviceName
  finished : (s.objects span).isFinished = true → (t.objects span).isFinished = true

namespace TouchesOnly

variable {span : SpanRef} {s t u : TraceState}

theorem of_objects (hobjects : t.objects = s.objects) (halloc : t.allocated = s.allocated) :
    TouchesOnly span s t := by
  refine ⟨fun r _ => ?_, halloc, ?_, ?_, ?_, ?_⟩
  · rw [hobjects]
  · rw [hobjects]
  · rw [hobjects]
  · rw [hobjects]
  · intro hfinished
    rw [hobjects]
    exact hfinished

theorem refl (span : SpanRef) (s : TraceState) : TouchesOnly span s s := of_objects rfl rfl

theorem trans (h₁ : TouchesOnly span s t) (h₂ : TouchesOnly span t u) : TouchesOnly span s u := by
  refine ⟨fun r hr => ?_, ?_, ?_, ?_, ?_, ?_⟩
  · rw [h₂.others r hr, h₁.others r hr]
  · rw [h₂.allocated, h₁.allocated]
  · rw [h₂.parent, h₁.parent]
  · rw [h₂.spanId, h₁.spanId]
  · rw [h₂.serviceName, h₁.serviceName]
  · intro hfinished
    exact h₂.finished (h₁.finished hfinished)

theorem modifySpan (s : TraceState) (span : SpanRef) {f : Span → Span}
    (hf : ∀ sp, (f sp).parent = sp.parent ∧ (f sp).context.spanId = sp.context.spanId ∧
      (f sp).context.serviceName = sp.context.serviceName ∧
      (sp.isFinished = true → (f sp).isFinished = true)) :
    TouchesOnly span s (s.modifySpan span f) := by
  have hself : (s.modifySpan span f).objects span = f (s.objects span) := by
    simp [TraceState.modifySpan]
  obtain ⟨hparent, hspanId, hserviceName, hfinished⟩ := hf (s.objects span)
  refine ⟨fun r hr => ?_, rfl, ?_, ?_, ?_, ?_⟩
  · simp [TraceState.modifySpan, Function.update_of_ne hr]
  · rw [hself, hparent]
  · rw [hself, hspanId]
  · rw [hself, hserviceName]
  · intro h
    rw [hself]
    exact hfinished h

theorem setMetric (s : TraceState) (span : SpanRef) (key : String) (value : Option Float) :
    TouchesOnly span s (s.setMetric span key value) :=
  modifySpan s span fun _ => ⟨rfl, rfl, rfl, id⟩

theorem setTag (tracer : Tracer) (s : TraceState) (span : SpanRef) (key : String)
    (value : Option String) : TouchesOnly span s (s.setTag tracer span key value) := by
  have hpriority : ∀ p, TouchesOnly span s (s.setTraceSamplingPriority p) :=
    fun p => of_objects rfl rfl
  have hsame := refl span s
  unfold TraceState.setTag
  split
  · exact hsame
  split
  · exact modifySpan s span fun _ => ⟨rfl, rfl, rfl, id⟩
  split
  · split
    · split
      · apply hpriority
      · exact hsame
    · exact hsame
  split
  · split
    · apply hpriority
    · exact hsame
  split
  · split
    · apply hpriority
    · exact hsame
  split
  · split
    · apply setMetric
    · split
      · apply setMetric
      · split
        · apply setMetric
        · apply setMetric
        · split
          · apply setMetric
          · exact hsame
  split
  · split
    · apply setMetric
    · split
      · apply setMetric
      · split
        · apply setMetric
        · apply setMetric
        · exact hsame
  · exact modifySpan s span fun _ => ⟨rfl, rfl, rfl, id⟩

theorem setTags (tracer : Tracer) (s : TraceState) (span : SpanRef)
    (entries : List (String × Option String)) :
    TouchesOnly span s (s.setTags tracer span entries) := by
  induction entries generalizing s with
  | nil => exact refl span s
  | cons e es ih => exact (setTag tracer s span e.1 e.2).trans (ih _)

theorem decorateRootSpan (tracer : Tracer) (s : TraceState) (span : SpanRef) :
    TouchesOnly span s (s.decorateRootSpan tracer span) := by
  unfold TraceState.decorateRootSpan
  cases tracer.azureAppServices with
  | none => exact refl span s
  | some a => apply setTags

theorem initSamplingPriority (tracer : Tracer) (s : TraceState) (span : SpanRef) :
    TouchesOnly span s (s.initSamplingPriority tracer span) := by
  unfold TraceState.initSamplingPriority
  simp only
  split
  · exact of_objects rfl rfl
  · cases tracer.sampler with
    | none => exact of_objects rfl rfl
    | some getSamplingPriority =>
        have htags : TouchesOnly span s (s.modifySpan span fun sp =>
            { sp with tags := (getSamplingPriority (s.objects span)).2 }) :=
          modifySpan s span fun _ => ⟨rfl, rfl, rfl, id⟩
        exact htags.trans (of_objects rfl rfl)

theorem addSpan (tracer : Tracer) (s : TraceState) (span : SpanRef) :
    TouchesOnly span s (s.addSpan tracer span) := by
  unfold TraceState.addSpan
  split
  · exact of_objects rfl rfl
  · have hroot : TouchesOnly span s (s.modifyContext fun c => { c with rootSpan := some span }) :=
      of_objects rfl rfl
    have hdecorated := hroot.trans (decorateRootSpan tracer _ span)
    simp only
    split
    · exact (hdecorated.trans (initSamplingPriority tracer _ span)).trans (of_objects rfl rfl)
    · exact hdecorated.trans (of_objects rfl rfl)

theorem publishSamplingPriority (s : TraceState) (span : SpanRef) :
    TouchesOnly span s (s.publishSamplingPriority span) := by
  have hlock : TouchesOnly span s (s.modifyContext TraceContext.lockSamplingPriority) :=
    of_objects rfl rfl
  unfold TraceState.publishSamplingPriority
  simp only
  split
  · exact hlock
  · split
    · exact hlock.trans (modifySpan _ _ fun _ => ⟨rfl, rfl, rfl, id⟩)
    · exact hlock.trans (setMetric _ _ _ _)

/-- A span that is closed stays as it was before, but for its priority metric. -/
theorem closeSpan {tracer : Tracer} (h : s.closeSpan tracer span = some t) :
    TouchesOnly span s t := by
  unfold TraceState.closeSpan at h
  simp only at h
  obtain ⟨hobjects, halloc, -, -⟩ := collectSpan_frame h
  refine TouchesOnly.trans ?_ (of_objects hobjects halloc)
  split
  · exact publishSamplingPriority s span
  · exact refl span s

theorem finish {tracer : Tracer} {duration : Int} (h : s.finish tracer span duration = some t) :
    TouchesOnly span s t ∧ (t.objects span).isFinished = true := by
  unfold TraceState.finish at h
  simp only at h
  have hnamed : TouchesOnly span s (s.modifySpan span fun sp =>
      { sp with resourceName := sp.resourceName.or sp.operationName }) :=
    modifySpan s span fun _ => ⟨rfl, rfl, rfl, id⟩
  split at h
  · rename_i hfinished
    obtain rfl := Option.some.inj h
    exact ⟨hnamed, hfinished⟩
  · have hmarked := modifySpan (s.modifySpan span fun sp =>
      { sp with resourceName := sp.resourceName.or sp.operationName }) span (f := fun sp =>
      { sp with duration := max duration 0, isFinished := true })
      fun _ => ⟨rfl, rfl, rfl, fun _ => rfl⟩
    have hclosed := closeSpan h
    refine ⟨(hnamed.trans hmarked).trans hclosed, hclosed.finished ?_⟩
    simp [TraceState.modifySpan]

/-- A new span is the only span that is changed by its start. -/
theorem addNewSpan (tracer : Tracer) (s : TraceState) (parent : Option ISpanContext)
    (context : SpanContext) (args : StartSpanArgs) :
    TouchesOnly s.allocated (s.withNewSpan parent context args)
      (s.addNewSpan tracer parent context args) := by
  unfold TraceState.addNewSpan
  refine TouchesOnly.trans ?_ (addSpan tracer _ s.allocated)
  have htags := setTags tracer (s.withNewSpan parent context args) s.allocated
    (tracer.globalTags.map fun e => (e.1, some e.2))
  have hset : ∀ u key value, TouchesOnly s.allocated (s.withNewSpan parent context args) u →
      TouchesOnly s.allocated (s.withNewSpan parent context args)
        (TraceState.setTag tracer u s.allocated key value) :=
    fun u key value hu => hu.trans (setTag tracer u s.allocated key value)
  unfold withNewSpan at htags hset ⊢
  split_ifs
  · exact hset _ _ _ htags
  · exact htags
  · exact hset _ _ _ (hset _ _ _ htags)
  · exact hset _ _ _ htags

theorem startChildSpan (tracer : Tracer) (s : TraceState) (parent : SpanRef)
    (args : StartSpanArgs) :
    TouchesOnly s.allocated
      (s.withNewSpan (some (.ofSpan parent))
        (createSpanContext tracer s.objects (some (.ofSpan parent)) args).2 args)
      (s.startChildSpan tracer parent args) :=
  addNewSpan tracer s _ _ args

end TouchesOnly

end DdTrace.Tracing.TraceState

namespace DdTrace.Agent

open DdTrace.Lib DdTrace.Tracing MessagePack

/-! ## Data -/

/-- The properties of a span that its trace does not read.
Source: `Span.cs`, its properties -/
structure SpanProperties where
  /-- `Type`. -/
  type : Option String := none
  /-- `Error`. -/
  error : Bool := false
  /-- `StartTime`. -/
  startTime : DateTimeOffset

/-- The spans of a trace. -/
structure Spans where
  /-- The trace. -/
  trace : TraceState
  /-- The other properties of its spans. -/
  properties : SpanRef → SpanProperties

/-- What is read of an exception. -/
structure ExceptionData where
  /-- `Message`. -/
  message : Option String
  /-- `ToString()`. -/
  text : Option String
  /-- `GetType().ToString()`. -/
  typeName : Option String

/-- An exception; an `AggregateException` has inner ones. -/
structure Exception extends ExceptionData where
  /-- `InnerExceptions` of an `AggregateException`. -/
  innerExceptions : Option (List ExceptionData)

namespace ErrorTags

def errorMsg : String := "error.msg"
def errorType : String := "error.type"
def errorStack : String := "error.stack"

end ErrorTags

/-- The exception that is reported: the first inner one of an `AggregateException` that has any.
Source: `Span.cs`, `SetException` -/
def Exception.reported (exception : Exception) : ExceptionData :=
  match exception.innerExceptions with
  | some (inner :: _) => inner
  | _ => exception.toExceptionData

namespace Spans

/-- Update the other properties of a span. -/
def modifyProperties (s : Spans) (span : SpanRef) (f : SpanProperties → SpanProperties) : Spans :=
  { s with properties := Function.update s.properties span (f (s.properties span)) }

/-- Update the trace. -/
def modifyTrace (s : Spans) (f : TraceState → TraceState) : Spans := { s with trace := f s.trace }

/-- Source: `Span.cs`, `SetException` -/
def setException (tracer : Tracer) (s : Spans) (span : SpanRef) (exception : Option Exception) :
    Spans :=
  let s := s.modifyProperties span fun p => { p with error := true }
  match exception with
  | none => s
  | some exception =>
      s.modifyTrace fun trace => trace.setTags tracer span
        [(ErrorTags.errorMsg, exception.reported.message),
          (ErrorTags.errorStack, exception.reported.text),
          (ErrorTags.errorType, exception.reported.typeName)]

/-- The trace of a root span. `objects` and `properties` are what a reference to no span would
show. -/
def start (tracer : Tracer) (heap : ArrayHeap SpanRef) (objects : SpanRef → Tracing.Span)
    (properties : SpanRef → SpanProperties) (parent : Option ISpanContext) (args : StartSpanArgs)
    (startTime : DateTimeOffset) : Spans where
  trace := startSpan tracer heap objects parent args
  properties := Function.update properties 0 { startTime := startTime }

/-- What the formatter reads of a parent. -/
def parentContext (s : Spans) : ISpanContext → ParentContext
  | .propagated context => ⟨context.spanId, context.serviceName⟩
  | .ofSpan parent =>
      ⟨(s.trace.objects parent).context.spanId, (s.trace.objects parent).context.serviceName⟩
  | .other _ spanId serviceName => ⟨spanId, serviceName⟩

/-- What the formatter reads of a span. -/
def view (s : Spans) (span : SpanRef) : MessagePack.Span where
  traceId := (s.trace.objects span).context.traceId
  spanId := (s.trace.objects span).context.spanId
  parent := (s.trace.objects span).parent.map s.parentContext
  origin := (s.trace.objects span).context.origin
  operationName := (s.trace.objects span).operationName
  resourceName := (s.trace.objects span).resourceName
  serviceName := (s.trace.objects span).context.serviceName
  type := (s.properties span).type
  startTime := (s.properties span).startTime
  duration := (s.trace.objects span).duration
  error := (s.properties span).error
  tags := (s.trace.objects span).tags

end Spans

/-! ## Calls -/

/-- A call by which a program changes a span or its trace. -/
inductive SpanCall where
  /-- `StartSpan` with a span of the trace as parent. -/
  | startChildSpan (parent : SpanRef) (args : StartSpanArgs) (startTime : DateTimeOffset)
  /-- `SetTag`. -/
  | setTag (span : SpanRef) (key : String) (value : Option String)
  /-- `SetException`. -/
  | setException (span : SpanRef) (exception : Option Exception)
  /-- The setter of `OperationName`. -/
  | setOperationName (span : SpanRef) (value : Option String)
  /-- The setter of `ResourceName`. -/
  | setResourceName (span : SpanRef) (value : Option String)
  /-- The setter of `Type`. -/
  | setType (span : SpanRef) (value : Option String)
  /-- The setter of `Error`. -/
  | setError (span : SpanRef) (value : Bool)
  /-- The setter of `ServiceName`. -/
  | setServiceName (span : SpanRef) (value : Option String)
  /-- `Finish` or `Dispose`, with the duration that is computed from the arguments and the clock. -/
  | finish (span : SpanRef) (duration : Int)
  /-- `SetTraceSamplingPriority`. -/
  | setTraceSamplingPriority (span : SpanRef) (priority : SamplingPriority)
  /-- `Context.TraceContext.SamplingPriority = value`. -/
  | assignSamplingPriority (span : SpanRef) (value : Option SamplingPriority)
  /-- `Inject` of the context of the span. -/
  | inject (span : SpanRef)
  /-- A change of the tags object: its setters, or the setter of `Tags`. -/
  | assignTags (span : SpanRef) (tags : TagsList)
  /-- `ResetStartTime`. -/
  | resetStartTime (span : SpanRef) (startTime : DateTimeOffset)

namespace SpanCall

/-- The span a call is made on. -/
def span : SpanCall → SpanRef
  | startChildSpan parent _ _ => parent
  | setTag span _ _ => span
  | setException span _ => span
  | setOperationName span _ => span
  | setResourceName span _ => span
  | setType span _ => span
  | setError span _ => span
  | setServiceName span _ => span
  | finish span _ => span
  | setTraceSamplingPriority span _ => span
  | assignSamplingPriority span _ => span
  | inject span => span
  | assignTags span _ => span
  | resetStartTime span _ => span

/-- Make a call. -/
def exec (tracer : Tracer) (s : Spans) : SpanCall → Option Spans
  | startChildSpan parent args startTime =>
      some
        { trace := s.trace.startChildSpan tracer parent args
          properties := Function.update s.properties s.trace.allocated { startTime := startTime } }
  | setTag span key value => some (s.modifyTrace fun trace => trace.setTag tracer span key value)
  | setException span exception => some (s.setException tracer span exception)
  | setOperationName span value =>
      some (s.modifyTrace fun trace =>
        trace.modifySpan span fun sp => { sp with operationName := value })
  | setResourceName span value =>
      some (s.modifyTrace fun trace =>
        trace.modifySpan span fun sp => { sp with resourceName := value })
  | setType span value => some (s.modifyProperties span fun p => { p with type := value })
  | setError span value => some (s.modifyProperties span fun p => { p with error := value })
  | setServiceName span value =>
      some (s.modifyTrace fun trace =>
        trace.modifySpan span fun sp =>
          { sp with context := { sp.context with serviceName := value } })
  | finish span duration =>
      (s.trace.finish tracer span duration).map fun trace => { s with trace := trace }
  | setTraceSamplingPriority _ priority =>
      some (s.modifyTrace fun trace => trace.setTraceSamplingPriority priority)
  | assignSamplingPriority _ value =>
      some (s.modifyTrace fun trace =>
        trace.modifyContext fun c => c.setSamplingPriority value)
  | inject span =>
      ((Operation.inject span).exec tracer s.trace).map fun out => { s with trace := out.1 }
  | assignTags span tags =>
      some (s.modifyTrace fun trace => trace.modifySpan span fun sp => { sp with tags := tags })
  | resetStartTime span startTime =>
      some (s.modifyProperties span fun p => { p with startTime := startTime })

/-- The call is made on a span of the trace, and the internal setters are not called on the given
span. -/
def Covered (finished : SpanRef) (s : Spans) (call : SpanCall) : Prop :=
  call.span < s.trace.allocated ∧
    match call with
    | assignTags span _ => span ≠ finished
    | resetStartTime span _ => span ≠ finished
    | _ => True

/-- The call leaves alone what is written of the given span. -/
def Harmless (finished : SpanRef) (s : Spans) : SpanCall → Prop
  | setException span _ => span = finished → (s.properties finished).error = true
  | setOperationName span value =>
      span = finished → value = (s.trace.objects finished).operationName
  | setResourceName span value =>
      span = finished → value = (s.trace.objects finished).resourceName
  | setType span value => span = finished → value = (s.properties finished).type
  | setError span value => span = finished → value = (s.properties finished).error
  | setServiceName span value =>
      if span = finished then value = (s.trace.objects finished).context.serviceName
      else (s.trace.objects finished).parent = some (.ofSpan span) →
        (value = (s.trace.objects finished).context.serviceName ↔
          (s.trace.objects span).context.serviceName =
            (s.trace.objects finished).context.serviceName)
  | finish span _ =>
      span = finished → (s.trace.objects finished).resourceName = none →
        (s.trace.objects finished).operationName = none
  | _ => True

end SpanCall

/-! ## What a call does to the data of a finished span -/

/-- The span is one of the trace and was finished, and the parents of spans are older spans. -/
structure Finished (span : SpanRef) (s : Spans) : Prop where
  allocated : span < s.trace.allocated
  isFinished : (s.trace.objects span).isFinished = true
  older : ∀ r < s.trace.allocated, ∀ q, (s.trace.objects r).parent = some (.ofSpan q) → q < r

/-- What a call does to the data of a finished span. -/
def SpanCall.effect (finished : SpanRef) (s : Spans) (v : MessagePack.Span) :
    SpanCall → MessagePack.Span
  | .setException span _ => if span = finished then { v with error := true } else v
  | .setOperationName span value =>
      if span = finished then { v with operationName := value } else v
  | .setResourceName span value => if span = finished then { v with resourceName := value } else v
  | .setType span value => if span = finished then { v with type := value } else v
  | .setError span value => if span = finished then { v with error := value } else v
  | .setServiceName span value =>
      if span = finished then { v with serviceName := value }
      else if (s.trace.objects finished).parent = some (.ofSpan span) then
        { v with parent := v.parent.map fun p => { p with serviceName := value } }
      else v
  | .finish span _ =>
      if span = finished then { v with resourceName := v.resourceName.or v.operationName } else v
  | _ => v

namespace Spans

variable {s t : Spans} {span : SpanRef}

/-- The data of a span are its own and the identity of its parent. -/
theorem view_congr (hobjects : t.trace.objects span = s.trace.objects span)
    (hproperties : t.properties span = s.properties span)
    (hparent : ∀ q, (s.trace.objects span).parent = some (.ofSpan q) →
      (t.trace.objects q).context.spanId = (s.trace.objects q).context.spanId ∧
        (t.trace.objects q).context.serviceName = (s.trace.objects q).context.serviceName) :
    t.view span = s.view span := by
  unfold view
  rw [hobjects, hproperties]
  congr 1
  cases hp : (s.trace.objects span).parent with
  | none => rfl
  | some p =>
      cases p with
      | propagated context => rfl
      | other traceId spanId serviceName => rfl
      | ofSpan q =>
          obtain ⟨hspanId, hserviceName⟩ := hparent q hp
          simp [parentContext, hspanId, hserviceName]

/-- An operation that touches another span. -/
theorem view_of_touchesOnly {x : SpanRef} (h : s.trace.TouchesOnly x t.trace) (hne : x ≠ span)
    (hproperties : t.properties span = s.properties span) : t.view span = s.view span := by
  refine view_congr (h.others span hne.symm) hproperties fun q _ => ?_
  by_cases hq : q = x
  · subst hq
    exact ⟨h.spanId, h.serviceName⟩
  · rw [h.others q hq]
    exact ⟨rfl, rfl⟩

/-- An operation on the trace context. -/
theorem view_of_objects (hobjects : t.trace.objects = s.trace.objects)
    (hproperties : t.properties = s.properties) : t.view span = s.view span := by
  refine view_congr ?_ ?_ fun q _ => ?_
  · rw [hobjects]
  · rw [hproperties]
  · rw [hobjects]
    exact ⟨rfl, rfl⟩

/-- A change of the other properties of a span. -/
theorem view_modifyProperties (s : Spans) (span x : SpanRef)
    (f : SpanProperties → SpanProperties) :
    (s.modifyProperties x f).view span =
      if x = span then
        { s.view span with
          type := (f (s.properties span)).type
          startTime := (f (s.properties span)).startTime
          error := (f (s.properties span)).error }
      else s.view span := by
  split
  · rename_i hx
    subst hx
    simp [view, modifyProperties]
    rfl
  · rename_i hx
    have hne : span ≠ x := fun h => hx h.symm
    exact view_congr rfl (by simp [modifyProperties, Function.update_of_ne hne])
      fun q _ => ⟨rfl, rfl⟩

/-- A change of the span itself. -/
theorem view_modifySpan_self (s : Spans) (span : SpanRef) {f : Tracing.Span → Tracing.Span}
    (hf : ∀ sp, (f sp).parent = sp.parent)
    (holder : ∀ q, (s.trace.objects span).parent = some (.ofSpan q) → q < span) :
    (s.modifyTrace fun trace => trace.modifySpan span f).view span =
      { s.view span with
        traceId := (f (s.trace.objects span)).context.traceId
        spanId := (f (s.trace.objects span)).context.spanId
        origin := (f (s.trace.objects span)).context.origin
        operationName := (f (s.trace.objects span)).operationName
        resourceName := (f (s.trace.objects span)).resourceName
        serviceName := (f (s.trace.objects span)).context.serviceName
        duration := (f (s.trace.objects span)).duration
        tags := (f (s.trace.objects span)).tags } := by
  have hself : (s.trace.modifySpan span f).objects span = f (s.trace.objects span) := by
    simp [TraceState.modifySpan]
  have hparent : (s.trace.objects span).parent.map
      (s.modifyTrace fun trace => trace.modifySpan span f).parentContext =
      (s.trace.objects span).parent.map s.parentContext := by
    cases hp : (s.trace.objects span).parent with
    | none => rfl
    | some p =>
        cases p with
        | propagated context => rfl
        | other traceId spanId serviceName => rfl
        | ofSpan q =>
            have hne : q ≠ span := Nat.ne_of_lt (holder q hp)
            simp [parentContext, modifyTrace, TraceState.modifySpan, Function.update_of_ne hne]
  unfold view
  simp only [modifyTrace] at hparent ⊢
  rw [hself, hf, hparent]

/-- A change of another span that keeps its identity. -/
theorem view_modifySpan_of_ne (s : Spans) {span x : SpanRef} (hne : x ≠ span)
    {f : Tracing.Span → Tracing.Span}
    (hf : ∀ sp, (f sp).parent = sp.parent ∧ (f sp).context.spanId = sp.context.spanId ∧
      (f sp).context.serviceName = sp.context.serviceName ∧
      (sp.isFinished = true → (f sp).isFinished = true)) :
    (s.modifyTrace fun trace => trace.modifySpan x f).view span = s.view span :=
  view_of_touchesOnly (.modifySpan s.trace x hf) hne rfl

/-- A change of the service name of another span. -/
theorem view_setServiceName_of_ne (s : Spans) {span x : SpanRef} (hne : x ≠ span)
    (value : Option String) :
    (s.modifyTrace fun trace => trace.modifySpan x fun sp =>
        { sp with context := { sp.context with serviceName := value } }).view span =
      if (s.trace.objects span).parent = some (.ofSpan x) then
        { s.view span with
          parent := (s.view span).parent.map fun p => { p with serviceName := value } }
      else s.view span := by
  have hobjects : (s.trace.modifySpan x fun sp =>
      { sp with context := { sp.context with serviceName := value } }).objects span =
      s.trace.objects span := by
    simp [TraceState.modifySpan, Function.update_of_ne hne.symm]
  split
  · rename_i hp
    unfold view
    simp only [modifyTrace]
    rw [hobjects]
    simp [hp, parentContext, TraceState.modifySpan]
  · rename_i hp
    refine view_congr hobjects rfl fun q hq => ?_
    have hqx : q ≠ x := by
      rintro rfl
      exact hp hq
    simp [modifyTrace, TraceState.modifySpan, Function.update_of_ne hqx]

end Spans

/-- A tag of a finished span is not set. -/
theorem setTag_of_finished (tracer : Tracer) {s : TraceState} {span : SpanRef}
    (h : (s.objects span).isFinished = true) (key : String) (value : Option String) :
    s.setTag tracer span key value = s := if_pos h

theorem setTags_of_finished (tracer : Tracer) {s : TraceState} {span : SpanRef}
    (h : (s.objects span).isFinished = true) (entries : List (String × Option String)) :
    s.setTags tracer span entries = s := by
  induction entries with
  | nil => rfl
  | cons e es ih =>
      have hfirst := setTag_of_finished tracer h e.1 e.2
      have hunfold : s.setTags tracer span (e :: es) =
          (s.setTag tracer span e.1 e.2).setTags tracer span es := rfl
      rw [hunfold, hfirst]
      exact ih

/-- Another `Finish` of a finished span sets its resource name, if it has none. -/
theorem finish_of_finished (tracer : Tracer) {s : TraceState} {span : SpanRef}
    (h : (s.objects span).isFinished = true) (duration : Int) :
    s.finish tracer span duration = some (s.modifySpan span fun sp =>
      { sp with resourceName := sp.resourceName.or sp.operationName }) := by
  have hnamed : ((s.modifySpan span fun sp =>
      { sp with resourceName := sp.resourceName.or sp.operationName }).objects span).isFinished =
      true := by
    simpa [TraceState.modifySpan] using h
  exact if_pos hnamed

/-- `SetException` sets three tags and the flag. -/
theorem touchesOnly_setException (tracer : Tracer) (s : Spans) (x : SpanRef)
    (exception : Option Exception) :
    s.trace.TouchesOnly x (s.setException tracer x exception).trace ∧
      (s.setException tracer x exception).properties =
        (s.modifyProperties x fun p => { p with error := true }).properties := by
  unfold Spans.setException
  cases exception with
  | none => exact ⟨.refl x _, rfl⟩
  | some exception => exact ⟨.setTags tracer _ x _, rfl⟩

/-- On a finished span it sets the flag only. -/
theorem setException_of_finished (tracer : Tracer) {s : Spans} {span : SpanRef}
    (h : (s.trace.objects span).isFinished = true) (exception : Option Exception) :
    s.setException tracer span exception =
      s.modifyProperties span fun p => { p with error := true } := by
  unfold Spans.setException
  cases exception with
  | none => rfl
  | some exception =>
      simp only [Spans.modifyTrace]
      rw [setTags_of_finished tracer (s := (s.modifyProperties span _).trace) h]

/-- **What a call does to the data of a finished span.** -/
theorem SpanCall.exec_view (tracer : Tracer) {s t : Spans} {span : SpanRef} (hs : Finished span s)
    {call : SpanCall} (hcall : call.Covered span s) (h : call.exec tracer s = some t) :
    t.view span = call.effect span s (s.view span) := by
  have holder := hs.older span hs.allocated
  obtain ⟨hrefers, hcovered⟩ := hcall
  cases call with
  | startChildSpan parent args startTime =>
      obtain rfl := Option.some.inj h
      have hne : span ≠ s.trace.allocated := Nat.ne_of_lt hs.allocated
      have htouches := TraceState.TouchesOnly.startChildSpan tracer s.trace parent args
      refine Spans.view_congr ?_ (by simp [Function.update_of_ne hne]) fun q hq => ?_
      · rw [htouches.others span hne]
        simp [TraceState.withNewSpan, Function.update_of_ne hne]
      · have hqne : q ≠ s.trace.allocated := Nat.ne_of_lt ((holder q hq).trans hs.allocated)
        rw [htouches.others q hqne]
        simp [TraceState.withNewSpan, Function.update_of_ne hqne]
  | setTag x key value =>
      obtain rfl := Option.some.inj h
      by_cases hx : x = span
      · subst hx
        simp only [Spans.modifyTrace]
        rw [setTag_of_finished tracer hs.isFinished]
        rfl
      · exact Spans.view_of_touchesOnly (.setTag tracer s.trace x key value) hx rfl
  | setException x exception =>
      obtain rfl := Option.some.inj h
      by_cases hx : x = span
      · subst hx
        rw [setException_of_finished tracer hs.isFinished, Spans.view_modifyProperties]
        rfl
      · obtain ⟨htouches, hproperties⟩ := touchesOnly_setException tracer s x exception
        have hsame := Spans.view_of_touchesOnly htouches hx (by
          rw [hproperties]
          have hne : span ≠ x := fun heq => hx heq.symm
          simp [Spans.modifyProperties, Function.update_of_ne hne])
        rw [hsame, effect, if_neg hx]
  | setOperationName x value =>
      obtain rfl := Option.some.inj h
      rw [effect]
      split
      · rename_i hx
        subst hx
        exact Spans.view_modifySpan_self s x (fun _ => rfl) holder
      · rename_i hx
        exact Spans.view_modifySpan_of_ne s hx fun _ => ⟨rfl, rfl, rfl, id⟩
  | setResourceName x value =>
      obtain rfl := Option.some.inj h
      rw [effect]
      split
      · rename_i hx
        subst hx
        exact Spans.view_modifySpan_self s x (fun _ => rfl) holder
      · rename_i hx
        exact Spans.view_modifySpan_of_ne s hx fun _ => ⟨rfl, rfl, rfl, id⟩
  | setType x value =>
      obtain rfl := Option.some.inj h
      rw [Spans.view_modifyProperties]
      rfl
  | setError x value =>
      obtain rfl := Option.some.inj h
      rw [Spans.view_modifyProperties]
      rfl
  | setServiceName x value =>
      obtain rfl := Option.some.inj h
      rw [effect]
      split
      · rename_i hx
        subst hx
        exact Spans.view_modifySpan_self s x (fun _ => rfl) holder
      · rename_i hx
        exact Spans.view_setServiceName_of_ne s hx value
  | finish x duration =>
      obtain ⟨trace, htrace, rfl⟩ := Option.map_eq_some_iff.mp h
      rw [effect]
      split
      · rename_i hx
        subst hx
        rw [finish_of_finished tracer hs.isFinished] at htrace
        obtain rfl := Option.some.inj htrace
        exact Spans.view_modifySpan_self s x (fun _ => rfl) holder
      · rename_i hx
        exact Spans.view_of_touchesOnly (TraceState.TouchesOnly.finish htrace).1 hx rfl
  | setTraceSamplingPriority x priority =>
      obtain rfl := Option.some.inj h
      exact Spans.view_of_objects rfl rfl
  | assignSamplingPriority x value =>
      obtain rfl := Option.some.inj h
      exact Spans.view_of_objects rfl rfl
  | inject x =>
      obtain ⟨out, hout, rfl⟩ := Option.map_eq_some_iff.mp h
      simp only [Operation.exec] at hout
      obtain ⟨headers, -, rfl⟩ := Option.map_eq_some_iff.mp hout
      exact Spans.view_of_objects rfl rfl
  | assignTags x tags =>
      obtain rfl := Option.some.inj h
      exact Spans.view_modifySpan_of_ne s hcovered fun _ => ⟨rfl, rfl, rfl, id⟩
  | resetStartTime x startTime =>
      obtain rfl := Option.some.inj h
      rw [Spans.view_modifyProperties, if_neg hcovered]
      rfl

/-! ## What every call keeps -/

/-- The spans there were keep their parents and stay finished, and the new ones are children of the
given span. -/
structure Grows (ancestor : SpanRef) (s t : TraceState) : Prop where
  allocated : s.allocated ≤ t.allocated
  parent : ∀ r < s.allocated, (t.objects r).parent = (s.objects r).parent
  finished : ∀ r < s.allocated, (s.objects r).isFinished = true → (t.objects r).isFinished = true
  new : ∀ r, s.allocated ≤ r → r < t.allocated → (t.objects r).parent = some (.ofSpan ancestor)

namespace Grows

variable {ancestor x : SpanRef} {s t : TraceState}

theorem of_kept (halloc : t.allocated = s.allocated)
    (hparent : ∀ r, (t.objects r).parent = (s.objects r).parent)
    (hfinished : ∀ r, (s.objects r).isFinished = true → (t.objects r).isFinished = true) :
    Grows ancestor s t := by
  refine ⟨by omega, fun r _ => hparent r, fun r _ => hfinished r, fun r hle hlt => ?_⟩
  omega

theorem of_touchesOnly (h : s.TouchesOnly x t) : Grows ancestor s t := by
  refine of_kept h.allocated (fun r => ?_) fun r hr => ?_
  · by_cases hx : r = x
    · subst hx
      exact h.parent
    · rw [h.others r hx]
  · by_cases hx : r = x
    · subst hx
      exact h.finished hr
    · rw [h.others r hx]
      exact hr

theorem modifySpan (s : TraceState) (x : SpanRef) {f : Tracing.Span → Tracing.Span}
    (hf : ∀ sp, (f sp).parent = sp.parent ∧ (f sp).isFinished = sp.isFinished) :
    Grows ancestor s (s.modifySpan x f) := by
  have hkept : ∀ r, ((s.modifySpan x f).objects r).parent = (s.objects r).parent ∧
      ((s.modifySpan x f).objects r).isFinished = (s.objects r).isFinished := by
    intro r
    by_cases hr : r = x
    · subst hr
      simpa [TraceState.modifySpan] using hf (s.objects r)
    · simp [TraceState.modifySpan, Function.update_of_ne hr]
  refine of_kept rfl (fun r => (hkept r).1) fun r hr => ?_
  rw [(hkept r).2]
  exact hr

theorem startChildSpan (tracer : Tracer) (s : TraceState) (parent : SpanRef)
    (args : StartSpanArgs) : Grows parent s (s.startChildSpan tracer parent args) := by
  have htouches := TraceState.TouchesOnly.startChildSpan tracer s parent args
  have halloc : (s.startChildSpan tracer parent args).allocated = s.allocated + 1 :=
    htouches.allocated
  have hold : ∀ r < s.allocated, (s.startChildSpan tracer parent args).objects r = s.objects r := by
    intro r hr
    have hne : r ≠ s.allocated := Nat.ne_of_lt hr
    rw [htouches.others r hne]
    simp [TraceState.withNewSpan, Function.update_of_ne hne]
  refine ⟨by omega, fun r hr => ?_, fun r hr hfinished => ?_, fun r hle hlt => ?_⟩
  · rw [hold r hr]
  · rw [hold r hr]
    exact hfinished
  · obtain rfl : r = s.allocated := by omega
    rw [htouches.parent]
    simp [TraceState.withNewSpan]

end Grows

theorem SpanCall.exec_grows (tracer : Tracer) {s t : Spans} {call : SpanCall}
    (h : call.exec tracer s = some t) : Grows call.span s.trace t.trace := by
  have hsame : ∀ {u : TraceState}, u.objects = s.trace.objects → u.allocated = s.trace.allocated →
      Grows call.span s.trace u := by
    intro u hobjects halloc
    exact .of_touchesOnly (.of_objects hobjects halloc : s.trace.TouchesOnly call.span u)
  have hspan : ∀ x (f : Tracing.Span → Tracing.Span),
      (∀ sp, (f sp).parent = sp.parent ∧ (f sp).isFinished = sp.isFinished) →
      Grows call.span s.trace (s.modifyTrace fun trace => trace.modifySpan x f).trace :=
    fun x f hf => .modifySpan s.trace x hf
  cases call with
  | startChildSpan parent args startTime =>
      obtain rfl := Option.some.inj h
      exact .startChildSpan tracer s.trace parent args
  | setTag x key value =>
      obtain rfl := Option.some.inj h
      exact .of_touchesOnly (.setTag tracer s.trace x key value)
  | setException x exception =>
      obtain rfl := Option.some.inj h
      exact .of_touchesOnly (touchesOnly_setException tracer s x exception).1
  | setOperationName x value =>
      obtain rfl := Option.some.inj h
      exact hspan x _ fun _ => ⟨rfl, rfl⟩
  | setResourceName x value =>
      obtain rfl := Option.some.inj h
      exact hspan x _ fun _ => ⟨rfl, rfl⟩
  | setType x value =>
      obtain rfl := Option.some.inj h
      exact hsame rfl rfl
  | setError x value =>
      obtain rfl := Option.some.inj h
      exact hsame rfl rfl
  | setServiceName x value =>
      obtain rfl := Option.some.inj h
      exact hspan x _ fun _ => ⟨rfl, rfl⟩
  | finish x duration =>
      obtain ⟨trace, htrace, rfl⟩ := Option.map_eq_some_iff.mp h
      exact .of_touchesOnly (TraceState.TouchesOnly.finish htrace).1
  | setTraceSamplingPriority x priority =>
      obtain rfl := Option.some.inj h
      exact hsame rfl rfl
  | assignSamplingPriority x value =>
      obtain rfl := Option.some.inj h
      exact hsame rfl rfl
  | inject x =>
      obtain ⟨out, hout, rfl⟩ := Option.map_eq_some_iff.mp h
      simp only [Operation.exec] at hout
      obtain ⟨headers, -, rfl⟩ := Option.map_eq_some_iff.mp hout
      exact hsame rfl rfl
  | assignTags x tags =>
      obtain rfl := Option.some.inj h
      exact hspan x _ fun _ => ⟨rfl, rfl⟩
  | resetStartTime x startTime =>
      obtain rfl := Option.some.inj h
      exact hsame rfl rfl

/-- The parents of the spans of a trace are older spans of it. -/
def OlderParents (s : TraceState) : Prop :=
  ∀ r < s.allocated, ∀ q, (s.objects r).parent = some (.ofSpan q) → q < r

theorem OlderParents.grow {parent : SpanRef} {s t : TraceState} (hs : OlderParents s)
    (hgrows : Grows parent s t) (hparent : parent < s.allocated) : OlderParents t := by
  intro r hr q hq
  by_cases hold : r < s.allocated
  · rw [hgrows.parent r hold] at hq
    exact hs r hold q hq
  · rw [hgrows.new r (by omega) hr] at hq
    have hq : parent = q := by simpa using hq
    have hnew : s.allocated ≤ r := by omega
    rw [← hq]
    exact Nat.lt_of_lt_of_le hparent hnew

/-- A call leaves a finished span finished. -/
theorem Finished.exec {tracer : Tracer} {s t : Spans} {span : SpanRef} (hs : Finished span s)
    {call : SpanCall} (hcall : call.span < s.trace.allocated) (h : call.exec tracer s = some t) :
    Finished span t := by
  have hgrows := call.exec_grows tracer h
  have holder := OlderParents.grow hs.older hgrows hcall
  exact ⟨Nat.lt_of_lt_of_le hs.allocated hgrows.allocated,
    hgrows.finished span hs.allocated hs.isFinished, holder⟩

/-! ## What is written of a span -/

/-- The formatter reads the same of two spans: of the parent it reads the id, and whether its
service name is another one. -/
structure SameData (v w : MessagePack.Span) : Prop where
  own : w = { v with parent := w.parent }
  parentId : w.parentId = v.parentId
  isTopLevel : w.isTopLevel = v.isTopLevel

theorem SameData.refl (v : MessagePack.Span) : SameData v v := ⟨rfl, rfl, rfl⟩

/-- **The same data, the same bytes.** -/
theorem SameData.serialize_eq {v w : MessagePack.Span} (h : SameData v w) (runtimeId : String)
    (bytes : List UInt8) (offset : Nat) :
    serialize runtimeId bytes offset w = serialize runtimeId bytes offset v := by
  obtain ⟨hown, hparentId, htopLevel⟩ := h
  have hlen : w.len = v.len := by
    unfold MessagePack.Span.len
    rw [hparentId, hown]
  have hwriteParentId : ∀ o, writeParentId o w = writeParentId o v := by
    intro o
    unfold writeParentId
    rw [hparentId]
  have hwriteTags : ∀ o, writeTags runtimeId o w = writeTags runtimeId o v := by
    intro o
    unfold writeTags writeRuntimeId
    rw [htopLevel, hown]
    rfl
  have hwriteMetrics : ∀ o, writeMetrics o w = writeMetrics o v := by
    intro o
    unfold writeMetrics writeTopLevel
    rw [htopLevel, hown]
  have hwrite : ∀ o, write runtimeId o w = write runtimeId o v := by
    intro o
    unfold write
    rw [hlen]
    simp only [hwriteMetrics, hwriteTags, hwriteParentId]
    rw [hown]
    rfl
  unfold serialize
  rw [hwrite]

/-- The value of a string determines it. -/
theorem ofString_injective : Function.Injective ofString := by
  intro a b h
  cases a with
  | none =>
      cases b with
      | none => rfl
      | some b => cases h
  | some a =>
      cases b with
      | none => cases h
      | some b =>
          obtain rfl : a = b := by simpa [ofString] using h
          rfl

/-- **The same bytes, the same data**, of two spans that agree on what no call changes. -/
theorem sameData_of_serialize_eq {v w : MessagePack.Span} {runtimeId : String}
    {bytes : List UInt8} {offset : Nat} {out : Nat × List UInt8} (hcustom : v.tags.Custom)
    (hids : w.traceId = v.traceId ∧ w.spanId = v.spanId ∧ w.parentId = v.parentId)
    (hkept : w.origin = v.origin ∧ w.startTime = v.startTime ∧ w.duration = v.duration ∧
      w.tags = v.tags)
    (hv : serialize runtimeId bytes offset v = some out)
    (hw : serialize runtimeId bytes offset w = some out) : SameData v w := by
  obtain ⟨size, bytes'⟩ := out
  obtain ⟨htraceId, hspanId, hparentId⟩ := hids
  obtain ⟨horigin, hstart, hduration, htags⟩ := hkept
  have hdecodeV := decode_serialize hcustom hv
  have hdecodeW := decode_serialize (htags ▸ hcustom) hw
  rw [hdecodeV] at hdecodeW
  have hvalue := Option.some.inj hdecodeW
  unfold MessagePack.Span.toValue at hvalue
  simp only [Value.map.injEq, List.cons_append, List.cons.injEq, Prod.mk.injEq, true_and,
    hparentId, List.nil_append, List.append_assoc, List.append_cancel_left_eq] at hvalue
  obtain ⟨-, -, hname, hresource, hservice, htype, -, -, hrest⟩ := hvalue
  have herror : w.error = v.error := by
    have hlen := congrArg List.length hrest
    cases hv : v.error with
    | false =>
        cases hw : w.error with
        | false => rfl
        | true => simp [hv, hw] at hlen
    | true =>
        cases hw : w.error with
        | false => simp [hv, hw] at hlen
        | true => rfl
  have htopLevel : w.isTopLevel = v.isTopLevel := by
    rw [herror, List.append_cancel_left_eq] at hrest
    simp only [List.cons.injEq, Prod.mk.injEq, Value.map.injEq, true_and, and_true] at hrest
    have hlen := congrArg List.length hrest.2
    simp only [List.length_map, metricsPairs, List.length_append, htags, addedMetrics] at hlen
    cases hv : v.isTopLevel with
    | false =>
        cases hw : w.isTopLevel with
        | false => rfl
        | true => simp [hv, hw] at hlen
    | true =>
        cases hw : w.isTopLevel with
        | false => simp [hv, hw] at hlen
        | true => rfl
  refine ⟨?_, hparentId, htopLevel⟩
  have hname := ofString_injective hname
  have hresource := ofString_injective hresource
  have hservice := ofString_injective hservice
  have htype := ofString_injective htype
  cases v
  cases w
  simp_all

/-! ## Harmless calls -/

section setters

variable {α : Type} (field : MessagePack.Span → α)
  (update : MessagePack.Span → α → MessagePack.Span)

/-- A setter of a property leaves what is written alone exactly if it sets the value there is. -/
theorem sameData_update_iff (hget : ∀ v a, field (update v a) = a)
    (hput : ∀ v, update v (field v) = v)
    (hparent : ∀ v parent, field { v with parent := parent } = field v) (v : MessagePack.Span)
    (value : α) : SameData v (update v value) ↔ value = field v := by
  constructor
  · intro h
    rw [← hget v value, h.own, hparent]
  · rintro rfl
    rw [hput]
    exact .refl v

/-- The same of a setter that is called on some span. -/
theorem sameData_ite_iff (hget : ∀ v a, field (update v a) = a)
    (hput : ∀ v, update v (field v) = v)
    (hparent : ∀ v parent, field { v with parent := parent } = field v) (v : MessagePack.Span)
    (value : α) (x span : SpanRef) :
    SameData v (if x = span then update v value else v) ↔ (x = span → value = field v) := by
  by_cases hx : x = span
  · rw [if_pos hx, sameData_update_iff field update hget hput hparent]
    exact ⟨fun h _ => h, fun h => h hx⟩
  · rw [if_neg hx]
    exact ⟨fun _ h => absurd h hx, fun _ => .refl v⟩

end setters

/-- Another service name of the parent leaves what is written alone exactly if it does not change
whether the span is a top-level span. -/
theorem sameData_parent_iff (v : MessagePack.Span) {parent : ParentContext}
    (hparent : v.parent = some parent) (value : Option String) :
    SameData v { v with parent := v.parent.map fun p => { p with serviceName := value } } ↔
      (value = v.serviceName ↔ parent.serviceName = v.serviceName) := by
  have htopLevel : v.isTopLevel = (parent.serviceName != v.serviceName) := by
    simp [MessagePack.Span.isTopLevel, hparent]
  have hafter : ({ v with parent := v.parent.map fun p => { p with serviceName := value } } :
      MessagePack.Span).isTopLevel = (value != v.serviceName) := by
    simp [MessagePack.Span.isTopLevel, hparent]
  constructor
  · intro h
    have heq := h.isTopLevel
    rw [hafter, htopLevel] at heq
    simpa using not_congr (Bool.eq_iff_iff.mp heq)
  · intro h
    refine ⟨rfl, ?_, ?_⟩
    · simp [MessagePack.Span.parentId, hparent]
    · rw [hafter, htopLevel, Bool.eq_iff_iff]
      simpa using not_congr h

/-- **The exact condition** for a call to leave alone what is written of a finished span. -/
theorem SpanCall.sameData_effect_iff {s : Spans} {span : SpanRef} (call : SpanCall) :
    SameData (s.view span) (call.effect span s (s.view span)) ↔ call.Harmless span s := by
  have htrivial : SameData (s.view span) (s.view span) ↔ True := iff_true_intro (.refl _)
  cases call with
  | startChildSpan parent args startTime => exact htrivial
  | setTag x key value => exact htrivial
  | setException x exception =>
      have hiff := sameData_ite_iff MessagePack.Span.error (fun v a => { v with error := a })
        (fun _ _ => rfl) (fun _ => rfl) (fun _ _ => rfl) (s.view span) true x span
      exact hiff.trans ⟨fun h hx => (h hx).symm, fun h hx => (h hx).symm⟩
  | setOperationName x value =>
      exact sameData_ite_iff MessagePack.Span.operationName
        (fun v a => { v with operationName := a }) (fun _ _ => rfl) (fun _ => rfl)
        (fun _ _ => rfl) (s.view span) value x span
  | setResourceName x value =>
      exact sameData_ite_iff MessagePack.Span.resourceName
        (fun v a => { v with resourceName := a }) (fun _ _ => rfl) (fun _ => rfl)
        (fun _ _ => rfl) (s.view span) value x span
  | setType x value =>
      exact sameData_ite_iff MessagePack.Span.type (fun v a => { v with type := a })
        (fun _ _ => rfl) (fun _ => rfl) (fun _ _ => rfl) (s.view span) value x span
  | setError x value =>
      exact sameData_ite_iff MessagePack.Span.error (fun v a => { v with error := a })
        (fun _ _ => rfl) (fun _ => rfl) (fun _ _ => rfl) (s.view span) value x span
  | setServiceName x value =>
      rw [effect, Harmless]
      split
      · exact sameData_update_iff MessagePack.Span.serviceName
          (fun v a => { v with serviceName := a }) (fun _ _ => rfl) (fun _ => rfl)
          (fun _ _ => rfl) (s.view span) value
      · split
        · rename_i hparent
          have hview : (s.view span).parent = some (s.parentContext (.ofSpan x)) := by
            unfold Spans.view
            rw [hparent]
            rfl
          rw [sameData_parent_iff (s.view span) hview]
          exact ⟨fun h _ => h, fun h => h hparent⟩
        · rename_i hparent
          exact ⟨fun _ h => absurd h hparent, fun _ => .refl _⟩
  | finish x duration =>
      have hiff := sameData_ite_iff MessagePack.Span.resourceName
        (fun v a => { v with resourceName := a }) (fun _ _ => rfl) (fun _ => rfl)
        (fun _ _ => rfl) (s.view span) ((s.view span).resourceName.or (s.view span).operationName)
        x span
      refine hiff.trans ?_
      have hor : ((s.view span).resourceName.or (s.view span).operationName =
          (s.view span).resourceName) ↔ ((s.view span).resourceName = none →
            (s.view span).operationName = none) := by
        cases (s.view span).resourceName <;> simp
      exact ⟨fun h hx => hor.mp (h hx), fun h hx => hor.mpr (h hx)⟩
  | setTraceSamplingPriority x priority => exact htrivial
  | assignSamplingPriority x value => exact htrivial
  | inject x => exact htrivial
  | assignTags x tags => exact htrivial
  | resetStartTime x startTime => exact htrivial

/-- No call changes the ids, the origin, the times and the tags of a finished span. -/
theorem SpanCall.effect_kept (finished : SpanRef) (s : Spans) (v : MessagePack.Span)
    (call : SpanCall) :
    ((call.effect finished s v).traceId = v.traceId ∧
        (call.effect finished s v).spanId = v.spanId ∧
        (call.effect finished s v).parentId = v.parentId) ∧
      (call.effect finished s v).origin = v.origin ∧
        (call.effect finished s v).startTime = v.startTime ∧
        (call.effect finished s v).duration = v.duration ∧
        (call.effect finished s v).tags = v.tags := by
  have hsame : (v.traceId = v.traceId ∧ v.spanId = v.spanId ∧ v.parentId = v.parentId) ∧
      v.origin = v.origin ∧ v.startTime = v.startTime ∧ v.duration = v.duration ∧
        v.tags = v.tags := ⟨⟨rfl, rfl, rfl⟩, rfl, rfl, rfl, rfl⟩
  cases call with
  | setServiceName x value =>
      rw [effect]
      split
      · exact hsame
      · split
        · refine ⟨⟨rfl, rfl, ?_⟩, rfl, rfl, rfl, rfl⟩
          cases hparent : v.parent <;> simp [MessagePack.Span.parentId, hparent]
        · exact hsame
  | setException | setOperationName | setResourceName | setType | setError | finish =>
      rw [effect]
      split <;> exact hsame
  | startChildSpan | setTag | setTraceSamplingPriority | assignSamplingPriority | inject |
      assignTags | resetStartTime => exact hsame

/-- **The formatter writes the same bytes before and after a call** exactly if the call is
harmless. -/
theorem serialize_view_eq_iff (tracer : Tracer) {s t : Spans} {span : SpanRef}
    (hs : Finished span s) {call : SpanCall} (hcall : call.Covered span s)
    (h : call.exec tracer s = some t) (hcustom : (s.view span).tags.Custom) {runtimeId : String}
    {bytes : List UInt8} {offset : Nat} {out : Nat × List UInt8}
    (hout : serialize runtimeId bytes offset (s.view span) = some out) :
    serialize runtimeId bytes offset (t.view span) = some out ↔ call.Harmless span s := by
  rw [call.exec_view tracer hs hcall h, ← call.sameData_effect_iff]
  constructor
  · intro hafter
    obtain ⟨hids, hkept⟩ := call.effect_kept span s (s.view span)
    exact sameData_of_serialize_eq hcustom hids hkept hout hafter
  · intro hsame
    rw [hsame.serialize_eq]
    exact hout

/-! ## Runs -/

/-- Every call on a span of a trace that was started returns. -/
theorem SpanCall.exec_started (tracer : Tracer) {s : Spans} (hs : s.trace.Started) {call : SpanCall}
    (hcall : call.span < s.trace.allocated) :
    ∃ t, call.exec tracer s = some t ∧ t.trace.Started := by
  have hspan : ∀ x (f : Tracing.Span → Tracing.Span),
      (∀ sp, (f sp).isFinished = sp.isFinished ∧ (f sp).parent = sp.parent ∧
        (f sp).context.samplingPriority = sp.context.samplingPriority) →
      (s.modifyTrace fun trace => trace.modifySpan x f).trace.Started :=
    fun x f hf => (TraceState.TagFrame.modifySpan s.trace x f hf).started hs
  have hoperation : ∀ op : Operation, op.span < s.trace.allocated →
      ∃ u out, op.exec tracer s.trace = some (u, out) ∧ u.Started := by
    intro op hop
    obtain ⟨u, out, hu, hstarted, -⟩ := op.exec_spec tracer hs hop
    exact ⟨u, out, hu, hstarted⟩
  cases call with
  | startChildSpan parent args startTime =>
      exact ⟨_, rfl, (TraceState.startChildSpan_spec tracer hs parent args).1⟩
  | setTag x key value =>
      exact ⟨_, rfl, (TraceState.setTag_spec tracer s.trace x key value).1.started hs⟩
  | setException x exception =>
      refine ⟨_, rfl, ?_⟩
      by_cases hfinished : (s.trace.objects x).isFinished = true
      · rw [setException_of_finished tracer hfinished]
        exact hs
      · cases exception with
        | none => exact hs
        | some exception =>
            have hopen : (s.trace.objects x).isFinished = false := by simpa using hfinished
            exact (TraceState.setTags_spec tracer hopen _).1.started hs
  | setOperationName x value => exact ⟨_, rfl, hspan x _ fun _ => ⟨rfl, rfl, rfl⟩⟩
  | setResourceName x value => exact ⟨_, rfl, hspan x _ fun _ => ⟨rfl, rfl, rfl⟩⟩
  | setType x value => exact ⟨_, rfl, hs⟩
  | setError x value => exact ⟨_, rfl, hs⟩
  | setServiceName x value => exact ⟨_, rfl, hspan x _ fun _ => ⟨rfl, rfl, rfl⟩⟩
  | finish x duration =>
      obtain ⟨u, hu, hstarted, -⟩ := TraceState.finish_spec tracer hs x duration
      refine ⟨{ s with trace := u }, ?_, hstarted⟩
      rw [exec, hu]
      rfl
  | setTraceSamplingPriority x priority =>
      exact ⟨_, rfl, (TraceState.TagFrame.setTraceSamplingPriority s.trace priority).started hs⟩
  | assignSamplingPriority x value =>
      obtain ⟨u, out, hu, hstarted⟩ := hoperation (.assignSamplingPriority x value) hcall
      obtain ⟨rfl, -⟩ := Prod.mk.inj (Option.some.inj hu)
      exact ⟨_, rfl, hstarted⟩
  | inject x =>
      obtain ⟨u, out, hu, hstarted⟩ := hoperation (.inject x) hcall
      refine ⟨{ s with trace := u }, ?_, hstarted⟩
      rw [exec, hu]
      rfl
  | assignTags x tags => exact ⟨_, rfl, hspan x _ fun _ => ⟨rfl, rfl, rfl⟩⟩
  | resetStartTime x startTime => exact ⟨_, rfl, hs⟩

/-- The call is made on a span of the trace. -/
def SpanCall.Refers (s : Spans) (call : SpanCall) : Prop := call.span < s.trace.allocated

/-- The parents of the spans of a new trace are older spans. -/
theorem olderParents_start (tracer : Tracer) (heap : ArrayHeap SpanRef)
    (objects : SpanRef → Tracing.Span) {parent : Option ISpanContext}
    (hparent : ∀ q, parent ≠ some (.ofSpan q)) (args : StartSpanArgs) :
    OlderParents (startSpan tracer heap objects parent args) := by
  unfold startSpan
  generalize createSpanContext tracer objects parent args = created
  obtain ⟨traceContext, context⟩ := created
  simp only
  generalize hs : TraceState.mk heap objects 0 (traceContext.getD {}) [] = s
  have halloc : s.allocated = 0 := by rw [← hs]
  have htouches := TraceState.TouchesOnly.addNewSpan tracer s parent context args
  intro r hr q hq
  have hcount : (s.addNewSpan tracer parent context args).allocated = s.allocated + 1 :=
    htouches.allocated
  obtain rfl : r = s.allocated := by omega
  rw [htouches.parent] at hq
  refine absurd ?_ (hparent q)
  simpa [TraceState.withNewSpan] using hq

/-- What holds in every run: the trace was started, and parents are older than their children. -/
theorem run_started (tracer : Tracer) (heap : ArrayHeap SpanRef)
    (objects : SpanRef → Tracing.Span) (properties : SpanRef → SpanProperties)
    {parent : Option ISpanContext} (hparent : ∀ q, parent ≠ some (.ofSpan q))
    (args : StartSpanArgs) (startTime : DateTimeOffset) {calls : List SpanCall}
    (hrefers : AllOps (SpanCall.exec tracer) SpanCall.Refers
      (Spans.start tracer heap objects properties parent args startTime) calls) :
    ∃ s, runOps (SpanCall.exec tracer)
        (Spans.start tracer heap objects properties parent args startTime) calls = some s ∧
      s.trace.Started ∧ OlderParents s.trace := by
  refine runOps_invariant_of_allOps (I := fun s : Spans => s.trace.Started ∧ OlderParents s.trace)
    ⟨(TraceState.startSpan_spec tracer heap objects parent args).1,
      olderParents_start tracer heap objects hparent args⟩ ?_ hrefers
  rintro s call ⟨hstarted, holder⟩ hcall
  obtain ⟨t, ht, hstartedT⟩ := call.exec_started tracer hstarted hcall
  exact ⟨t, ht, hstartedT, holder.grow (call.exec_grows tracer ht) hcall⟩

/-- **A finished span is frozen in the runs of harmless calls, and in no others**: take any run on
a trace, the `Finish` of one of its spans, and any run `after` it. The bytes that the formatter
writes for the span stay what they are right after `Finish` exactly if every call of `after` is
harmless. -/
theorem frozen_iff (tracer : Tracer) (heap : ArrayHeap SpanRef) (objects : SpanRef → Tracing.Span)
    (properties : SpanRef → SpanProperties) {parent : Option ISpanContext}
    (hparent : ∀ q, parent ≠ some (.ofSpan q)) (args : StartSpanArgs)
    (startTime : DateTimeOffset) {before : List SpanCall}
    (hrefers : AllOps (SpanCall.exec tracer) SpanCall.Refers
      (Spans.start tracer heap objects properties parent args startTime) before) {s : Spans}
    (hrun : runOps (SpanCall.exec tracer)
      (Spans.start tracer heap objects properties parent args startTime) before = some s)
    {span : SpanRef} (hspan : span < s.trace.allocated) (duration : Int) :
    ∃ s₁, (SpanCall.finish span duration).exec tracer s = some s₁ ∧
      ∀ after, AllOps (SpanCall.exec tracer) (SpanCall.Covered span) s₁ after →
        (AllOps (SpanCall.exec tracer) (fun t call => call.Harmless span t) s₁ after →
          ∀ pre, pre <+: after → ∃ t, runOps (SpanCall.exec tracer) s₁ pre = some t ∧
            ∀ runtimeId bytes offset, serialize runtimeId bytes offset (t.view span) =
              serialize runtimeId bytes offset (s₁.view span)) ∧
        ((s₁.view span).tags.Built → ∀ runtimeId bytes offset out,
          serialize runtimeId bytes offset (s₁.view span) = some out →
          ((∀ pre, pre <+: after → ∃ t, runOps (SpanCall.exec tracer) s₁ pre = some t ∧
              serialize runtimeId bytes offset (t.view span) = some out) ↔
            AllOps (SpanCall.exec tracer) (fun t call => call.Harmless span t) s₁ after)) := by
  obtain ⟨s', hrun', hstarted, holder⟩ :=
    run_started tracer heap objects properties hparent args startTime hrefers
  obtain rfl := Option.some.inj (hrun.symm.trans hrun')
  obtain ⟨s₁, hfinish, hstarted₁⟩ :=
    (SpanCall.finish span duration).exec_started tracer hstarted hspan
  refine ⟨s₁, hfinish, fun after hafter => ?_⟩
  have hgrows := SpanCall.exec_grows tracer hfinish
  have hfinished : (s₁.trace.objects span).isFinished = true := by
    obtain ⟨trace, htrace, rfl⟩ := Option.map_eq_some_iff.mp hfinish
    exact (TraceState.TouchesOnly.finish htrace).2
  have hstart : s₁.trace.Started ∧ Finished span s₁ :=
    ⟨hstarted₁, Nat.lt_of_lt_of_le hspan hgrows.allocated, hfinished, holder.grow hgrows hspan⟩
  have hinv : ∀ (t : Spans) (call : SpanCall), t.trace.Started ∧ Finished span t →
      call.Covered span t → ∃ u, call.exec tracer t = some u ∧ u.trace.Started ∧ Finished span u := by
    rintro t call ⟨ht, hft⟩ hcall
    obtain ⟨u, hu, hstartedU⟩ := call.exec_started tracer ht hcall.1
    exact ⟨u, hu, hstartedU, hft.exec hcall.1 hu⟩
  constructor
  · intro hharmless pre hpre
    have hboth : AllOps (SpanCall.exec tracer)
        (fun t call => call.Covered span t ∧ call.Harmless span t) s₁ after :=
      fun pre a hpre t ht => ⟨hafter pre a hpre t ht, hharmless pre a hpre t ht⟩
    obtain ⟨t, ht, -, hsame⟩ := runOps_invariant_of_allOps
      (I := fun t => (t.trace.Started ∧ Finished span t) ∧
        ∀ runtimeId bytes offset, serialize runtimeId bytes offset (t.view span) =
          serialize runtimeId bytes offset (s₁.view span))
      ⟨hstart, fun _ _ _ => rfl⟩ (fun t call ⟨ht, hsame⟩ ⟨hcall, hharm⟩ => by
        obtain ⟨u, hu, hIu⟩ := hinv t call ht hcall
        refine ⟨u, hu, hIu, fun runtimeId bytes offset => ?_⟩
        rw [call.exec_view tracer ht.2 hcall hu, (call.sameData_effect_iff.mpr hharm).serialize_eq]
        exact hsame runtimeId bytes offset) (hboth.of_initial hpre)
    exact ⟨t, ht, hsame⟩
  · intro hbuilt runtimeId bytes offset out hout
    -- a covered call keeps the tags, so that what is written stays readable
    have htags : ∀ (t : Spans) (call : SpanCall) (u : Spans), t.trace.Started ∧ Finished span t →
        call.Covered span t → call.exec tracer t = some u → (u.view span).tags = (t.view span).tags := by
      intro t call u ht hcall hu
      rw [call.exec_view tracer ht.2 hcall hu]
      exact (call.effect_kept span t (t.view span)).2.2.2.2
    have hexact := runOps_exact_iff
      (I := fun t => (t.trace.Started ∧ Finished span t) ∧ (t.view span).tags.Custom)
      (P := fun t => serialize runtimeId bytes offset (t.view span) = some out)
      (C := fun t call => call.Harmless span t) ⟨hstart, hbuilt.custom⟩ hout
      (fun t call ⟨ht, hcustom⟩ hcall => by
        obtain ⟨u, hu, hIu⟩ := hinv t call ht hcall
        refine ⟨u, hu, hIu, ?_⟩
        rw [htags t call u ht hcall hu]
        exact hcustom)
      (fun t call u ⟨ht, hcustom⟩ hwritten hcall hu =>
        serialize_view_eq_iff tracer ht.2 hcall hu hcustom hwritten) hafter
    exact hexact

/-- The arguments of the span of a request. -/
def requestArgs : StartSpanArgs where
  operationName := some "web.request"
  tags :=
    { type := TagsClass.common.type, tagValues := fun _ => none, metricValues := fun _ => none }
  serviceName := none
  spanId := none
  newTraceId := 3
  newSpanId := 4

/-- The trace of the span of a request. -/
def requestTrace : Spans :=
  Spans.start flushingTracer [] (fun _ => plainSpan)
    (fun _ => { startTime := ⟨637134336000000000, 0, by decide⟩ }) none requestArgs
    ⟨637134336000000000, 0, by decide⟩

/-- The root span is finished, and then a tag is set on it and it is finished again. -/
theorem frozen_tagAfterFinish :
    ∃ s₁, (SpanCall.finish 0 5).exec flushingTracer requestTrace = some s₁ ∧
      ∃ t, runOps (SpanCall.exec flushingTracer) s₁
          [.setTag 0 "key" (some "value"), .finish 0 9] = some t ∧
        ∀ runtimeId bytes offset, serialize runtimeId bytes offset (t.view 0) =
          serialize runtimeId bytes offset (s₁.view 0) := by
  have hparent : ∀ q, (none : Option ISpanContext) ≠ some (.ofSpan q) := by
    intro q h
    cases h
  have hspan : 0 < requestTrace.trace.allocated := Nat.one_pos
  obtain ⟨s₁, hfinish, hruns⟩ := frozen_iff flushingTracer [] (fun _ => plainSpan)
    (fun _ => { startTime := ⟨637134336000000000, 0, by decide⟩ }) hparent requestArgs
    ⟨637134336000000000, 0, by decide⟩ (allOps_nil _ _ _) rfl hspan 5
  obtain rfl := Option.some.inj hfinish
  refine ⟨_, rfl, ?_⟩
  obtain ⟨hharmless, -⟩ := hruns [.setTag 0 "key" (some "value"), .finish 0 9] <| by
    refine allOps_cons ⟨Nat.one_pos, trivial⟩ fun t ht => ?_
    obtain rfl := Option.some.inj ht
    exact allOps_cons ⟨Nat.one_pos, trivial⟩ fun _ _ => allOps_nil _ _ _
  refine hharmless ?_ _ List.prefix_rfl
  refine allOps_cons trivial fun t ht => ?_
  obtain rfl := Option.some.inj ht
  refine allOps_cons (fun _ hnone => ?_) fun _ _ => allOps_nil _ _ _
  -- the first `Finish` gave it the operation name as its resource name
  cases hnone

/-- **The name of a finished span can be set**, and the formatter writes the new one: after
`OperationName = "other"` the encoding of the span is another one. -/
theorem not_frozen_operationName :
    ∃ s₁ t, (SpanCall.finish 0 5).exec flushingTracer requestTrace = some s₁ ∧
      runOps (SpanCall.exec flushingTracer) s₁ [.setOperationName 0 (some "other")] = some t ∧
      serialize "id" [] 0 (t.view 0) ≠ serialize "id" [] 0 (s₁.view 0) := by
  refine ⟨_, _, rfl, rfl, ?_⟩
  decide +kernel

end DdTrace.Agent
