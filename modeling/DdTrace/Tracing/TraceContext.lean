import Mathlib.Data.List.Basic
import DdTrace.Tracing.ArrayBuilder
import DdTrace.Tracing.SamplingPriority
import DdTrace.Tracing.Tags

/-!
# Spans and the trace context that owns them

One trace of the process: its span objects, the `TraceContext` they share, the heap of the arrays
in which closed spans are collected, and the segments passed to `Tracer.Write` so far. The
operations are the ones by which a program changes a trace:

* `createSpanContext`, `startSpan`, `startChildSpan`: start a trace or a child span;
* `setTag` (with the tags that have special meaning), `setTraceSamplingPriority`: the tag and
  priority setters;
* `addSpan`, `closeSpan`, `finish`: the life of a span;
* `lockSamplingPriority` and the setter of `SamplingPriority`, which the others go through.

A span is an object and is handled by reference (`SpanRef`); reference equality is equality of
references. The counter of open spans is an integer. An operation that would throw returns `none`.

Sources: `TraceContext.cs`; `Span.cs`; `SpanContext.cs`; `Tracer.cs`, `CreateSpanContext` to
`StartSpan`; `ExtensionMethods/SpanExtensions.cs`, `SetTraceSamplingPriority`; `Tags.cs`.
-/

namespace DdTrace.Tracing

open DdTrace.Lib

/-! ## Tag names -/

namespace Tags

def origin : String := "_dd.origin"
def samplingPriority : String := "sampling.priority"
def forceKeep : String := "force.keep"
def forceDrop : String := "force.drop"
def manualKeep : String := "manual.keep"
def manualDrop : String := "manual.drop"
def analytics : String := "_dd1.sr.eausr"
def measured : String := "_dd.measured"
def env : String := "env"
def version : String := "version"

end Tags

/-! ## Data -/

/-- A reference to a span object. -/
abbrev SpanRef := Nat

/-- The data of a `SpanContext` but its `TraceContext` and its `Parent`. A context extracted from
headers or built by a user has its own sampling priority and no trace context; the context of a
local span has none of its own.
Source: `SpanContext.cs` -/
structure SpanContext where
  /-- `TraceId`. -/
  traceId : UInt64
  /-- `SpanId`. -/
  spanId : UInt64
  /-- `ServiceName`. -/
  serviceName : Option String := none
  /-- `SamplingPriority`. -/
  samplingPriority : Option SamplingPriority := none
  /-- `Origin`. -/
  origin : Option String := none
  deriving DecidableEq, Repr

/-- The values a parent of type `ISpanContext` can have. -/
inductive ISpanContext where
  /-- A `SpanContext` without a trace context: propagated from another process. -/
  | propagated (context : SpanContext)
  /-- The `SpanContext` of a span of this trace. -/
  | ofSpan (span : SpanRef)
  /-- Another implementation of the interface. -/
  | other (traceId spanId : UInt64) (serviceName : Option String)
  deriving DecidableEq, Repr

/-- A span object.
Source: `Span.cs` -/
structure Span where
  /-- `Context`. -/
  context : SpanContext
  /-- `Context.Parent`. -/
  parent : Option ISpanContext
  /-- `Tags`. -/
  tags : TagsList
  /-- `OperationName`. -/
  operationName : Option String
  /-- `ResourceName`. -/
  resourceName : Option String := none
  /-- `Duration`. -/
  duration : Int := 0
  /-- `IsFinished`. -/
  isFinished : Bool := false

/-- A trace context.
Source: `TraceContext.cs`, its fields -/
structure TraceContext where
  /-- `RootSpan`. -/
  rootSpan : Option SpanRef := none
  /-- `_spans`. -/
  spans : ArrayBuilder := {}
  /-- `_openSpans`. -/
  openSpans : Int := 0
  /-- `_samplingPriority`. -/
  samplingPriority : Option SamplingPriority := none
  /-- `_samplingPriorityLocked`. -/
  samplingPriorityLocked : Bool := false
  deriving DecidableEq, Repr

/-- `AzureAppServices.Metadata`: whether the process runs there, and the values put on a root
span, by tag name.
Source: `TraceContext.cs`, `DecorateRootSpan` -/
structure AzureAppServices where
  siteName : Option String
  siteKind : Option String
  siteType : Option String
  resourceGroup : Option String
  subscriptionId : Option String
  resourceId : Option String
  instanceId : Option String
  instanceName : Option String
  operatingSystem : Option String
  runtime : Option String
  siteExtensionVersion : Option String

/-- What a trace gets from its tracer and from the process around it. -/
structure Tracer where
  /-- `Sampler`, by what `GetSamplingPriority` returns and does to the tags of the span. -/
  sampler : Option (Span → SamplingPriority × TagsList)
  /-- `Settings.PartialFlushEnabled`. -/
  partialFlushEnabled : Bool
  /-- `Settings.PartialFlushMinSpans`. -/
  partialFlushMinSpans : Int
  /-- `Settings.GlobalTags`. -/
  globalTags : List (String × String)
  /-- `Settings.Environment`. -/
  environment : Option String
  /-- `Settings.ServiceVersion`. -/
  serviceVersion : Option String
  /-- `DefaultServiceName`. -/
  defaultServiceName : String
  /-- `AzureAppServices.Metadata` if `IsRelevant`. -/
  azureAppServices : Option AzureAppServices
  /-- `double.TryParse` with the invariant culture, as `SetTag` calls it. -/
  doubleTryParse : String → Option Float

/-- One trace of the process. -/
structure TraceState where
  /-- The arrays of the process, by reference. -/
  heap : ArrayHeap SpanRef
  /-- The span objects; those from `allocated` on do not exist yet. -/
  objects : SpanRef → Span
  /-- The number of span objects. -/
  allocated : Nat
  /-- The trace context all spans share. -/
  context : TraceContext
  /-- The arguments of the calls of `Tracer.Write` so far. -/
  written : List ArraySegment := []

/-! ## The sampling priority -/

/-- The setter of `SamplingPriority`.
Source: `TraceContext.cs`, `SamplingPriority` -/
def TraceContext.setSamplingPriority (c : TraceContext) (value : Option SamplingPriority) :
    TraceContext :=
  if c.samplingPriorityLocked then c else { c with samplingPriority := value }

/-- Source: `TraceContext.cs`, `LockSamplingPriority` -/
def TraceContext.lockSamplingPriority (c : TraceContext) : TraceContext :=
  match c.samplingPriority with
  | none => c
  | some _ => { c with samplingPriorityLocked := true }

namespace TraceState

/-- Update one span object. -/
def modifySpan (s : TraceState) (span : SpanRef) (f : Span → Span) : TraceState :=
  { s with objects := Function.update s.objects span (f (s.objects span)) }

/-- Update the trace context. -/
def modifyContext (s : TraceState) (f : TraceContext → TraceContext) : TraceState :=
  { s with context := f s.context }

/-- `span.Context.TraceContext.SamplingPriority = priority`.
Source: `SpanExtensions.cs`, `SetTraceSamplingPriority` -/
def setTraceSamplingPriority (s : TraceState) (priority : SamplingPriority) : TraceState :=
  s.modifyContext fun c => c.setSamplingPriority (some priority)

/-- Source: `Span.cs`, `SetMetric` -/
def setMetric (s : TraceState) (span : SpanRef) (key : String) (value : Option Float) :
    TraceState :=
  s.modifySpan span fun sp => { sp with tags := sp.tags.setMetric key value }

/-- Source: `Span.cs`, `SetTag` -/
def setTag (tracer : Tracer) (s : TraceState) (span : SpanRef) (key : String)
    (value : Option String) : TraceState :=
  if (s.objects span).isFinished then s
  else if key = Tags.origin then
    s.modifySpan span fun sp => { sp with context := { sp.context with origin := value } }
  else if key = Tags.samplingPriority then
    match SamplingPriority.enumTryParse value with
    | some p => if p.isDefined then s.setTraceSamplingPriority p else s
    | none => s
  else if key = Tags.forceKeep ∨ key = Tags.manualKeep then
    if value.bind toBoolean = some true then s.setTraceSamplingPriority .userKeep else s
  else if key = Tags.forceDrop ∨ key = Tags.manualDrop then
    if value.bind toBoolean = some true then s.setTraceSamplingPriority .userReject else s
  else if key = Tags.analytics then
    match value with
    | none => s.setMetric span Tags.analytics none
    | some v =>
        if v = "" then s.setMetric span Tags.analytics none
        else
          match toBoolean v with
          | some true => s.setMetric span Tags.analytics (some 1.0)
          | some false => s.setMetric span Tags.analytics (some 0.0)
          | none =>
              match tracer.doubleTryParse v with
              | some rate => s.setMetric span Tags.analytics (some rate)
              | none => s
  else if key = Tags.measured then
    match value with
    | none => s.setMetric span Tags.measured none
    | some v =>
        if v = "" then s.setMetric span Tags.measured none
        else
          match toBoolean v with
          | some true => s.setMetric span Tags.measured (some 1.0)
          | some false => s.setMetric span Tags.measured (some 0.0)
          | none => s
  else s.modifySpan span fun sp => { sp with tags := sp.tags.setTag key value }

/-- Set several tags, one after another. -/
def setTags (tracer : Tracer) (s : TraceState) (span : SpanRef)
    (entries : List (String × Option String)) : TraceState :=
  entries.foldl (fun s e => s.setTag tracer span e.1 e.2) s

/-! ## The life of a span -/

/-- Source: `TraceContext.cs`, `DecorateRootSpan` -/
def decorateRootSpan (tracer : Tracer) (s : TraceState) (span : SpanRef) : TraceState :=
  match tracer.azureAppServices with
  | none => s
  | some a =>
      s.setTags tracer span
        [("aas.site.name", a.siteName), ("aas.site.kind", a.siteKind),
          ("aas.site.type", a.siteType), ("aas.resource.group", a.resourceGroup),
          ("aas.subscription.id", a.subscriptionId), ("aas.resource.id", a.resourceId),
          ("aas.environment.instance_id", a.instanceId),
          ("aas.environment.instance_name", a.instanceName),
          ("aas.environment.os", a.operatingSystem), ("aas.environment.runtime", a.runtime),
          ("aas.environment.extension_version", a.siteExtensionVersion)]

/-- The first sampling priority of a trace that has none: the parent's, locked, if the root span's
parent is a propagated context with a priority, else the sampler's.
Source: `TraceContext.cs`, `AddSpan`, the block under `_samplingPriority == null` -/
def initSamplingPriority (tracer : Tracer) (s : TraceState) (span : SpanRef) : TraceState :=
  let fromParent :=
    match (s.objects span).parent with
    | some (.propagated c) => c.samplingPriority
    | _ => none
  match fromParent with
  | some p =>
      s.modifyContext fun c => { c with samplingPriority := some p }.lockSamplingPriority
  | none =>
      match tracer.sampler with
      | none => s.modifyContext fun c => { c with samplingPriority := none }
      | some getSamplingPriority =>
          let (p, tags) := getSamplingPriority (s.objects span)
          (s.modifySpan span fun sp => { sp with tags := tags }).modifyContext
            fun c => { c with samplingPriority := some p }

/-- Source: `TraceContext.cs`, `AddSpan` -/
def addSpan (tracer : Tracer) (s : TraceState) (span : SpanRef) : TraceState :=
  let s :=
    match s.context.rootSpan with
    | some _ => s
    | none =>
        let s := s.modifyContext fun c => { c with rootSpan := some span }
        let s := s.decorateRootSpan tracer span
        if s.context.samplingPriority = none then s.initSamplingPriority tracer span else s
  s.modifyContext fun c => { c with openSpans := c.openSpans + 1 }

/-- Lock the priority and put it on the root span as a metric.
Source: `TraceContext.cs`, `CloseSpan`, the block under `span == RootSpan` -/
def publishSamplingPriority (s : TraceState) (span : SpanRef) : TraceState :=
  let s := s.modifyContext TraceContext.lockSamplingPriority
  match s.context.samplingPriority with
  | none => s
  | some p =>
      if (s.objects span).tags.type.isCommonTags then
        s.modifySpan span fun sp =>
          { sp with tags := sp.tags.setCommonSamplingPriority (some (Float.ofInt p.value)) }
      else s.setMetric span Metrics.samplingPriority (some (Float.ofInt p.value))

/-- `Tracer.Write`, called for a segment that is not empty. -/
def write (s : TraceState) (spansToWrite : ArraySegment) : TraceState :=
  if spansToWrite.count > 0 then { s with written := s.written ++ [spansToWrite] } else s

/-- `ShouldTriggerPartialFlush`. -/
def shouldTriggerPartialFlush (tracer : Tracer) (spans : ArrayBuilder) : Bool :=
  tracer.partialFlushEnabled && decide ((spans.count : Int) ≥ tracer.partialFlushMinSpans)

/-- Collect a closed span and hand the collected spans on: all of them when no span is open any
more, or when there are enough of them for a partial flush.
Source: `TraceContext.cs`, `CloseSpan`, from the `lock` on -/
def collectSpan (tracer : Tracer) (s : TraceState) (span : SpanRef) : Option TraceState :=
  (s.context.spans.add s.heap span).map fun (heap, spans) =>
    let openSpans := s.context.openSpans - 1
    if openSpans = 0 then
      { s with
        heap := heap
        context := { s.context with spans := {}, openSpans := openSpans } }.write spans.getArray
    else if shouldTriggerPartialFlush tracer spans then
      let spansToWrite := spans.getArray
      let (heap, fresh) := ArrayBuilder.ofCapacity heap spansToWrite.count
      { s with
        heap := heap
        context := { s.context with spans := fresh, openSpans := openSpans } }.write spansToWrite
    else
      { s with
        heap := heap
        context := { s.context with spans := spans, openSpans := openSpans } }

/-- Source: `TraceContext.cs`, `CloseSpan` -/
def closeSpan (tracer : Tracer) (s : TraceState) (span : SpanRef) : Option TraceState :=
  let s := if s.context.rootSpan = some span then s.publishSamplingPriority span else s
  s.collectSpan tracer span

/-- Source: `Span.cs`, `Finish(TimeSpan)` -/
def finish (tracer : Tracer) (s : TraceState) (span : SpanRef) (duration : Int) :
    Option TraceState :=
  let s := s.modifySpan span fun sp =>
    { sp with resourceName := sp.resourceName.or sp.operationName }
  if (s.objects span).isFinished then some s
  else
    (s.modifySpan span fun sp =>
      { sp with duration := max duration 0, isFinished := true }).closeSpan tracer span

end TraceState

/-! ## Starting spans -/

/-- The arguments of `StartSpan` that are not its parent, with the identifiers that are generated
when they are needed. -/
structure StartSpanArgs where
  operationName : Option String
  tags : TagsList
  serviceName : Option String
  spanId : Option UInt64
  newTraceId : UInt64
  newSpanId : UInt64

/-- `string.IsNullOrWhiteSpace`. -/
def isNullOrWhiteSpace : Option String → Bool
  | none => true
  | some v => v.toList.all SamplingPriority.isWhiteSpace

/-- The context of a new span, and the new trace context if the parent has none to share.
`objects` are the spans of the parent's trace.
Source: `Tracer.cs`, `CreateSpanContext`, after the active scope was looked up; `SpanContext.cs`,
the constructor with a parent -/
def createSpanContext (tracer : Tracer) (objects : SpanRef → Span) (parent : Option ISpanContext)
    (args : StartSpanArgs) : Option TraceContext × SpanContext :=
  let traceContext : Option TraceContext :=
    match parent with
    | some (.propagated c) => some (({} : TraceContext).setSamplingPriority c.samplingPriority)
    | some (.ofSpan _) => none
    | some (.other _ _ _) => some {}
    | none => some {}
  let parentContext : Option SpanContext :=
    match parent with
    | some (.propagated c) => some c
    | some (.ofSpan span) => some (objects span).context
    | some (.other traceId spanId serviceName) =>
        some { traceId := traceId, spanId := spanId, serviceName := serviceName }
    | none => none
  let parentTraceId := (parentContext.map SpanContext.traceId).getD 0
  (traceContext,
    { traceId := if parentTraceId > 0 then parentTraceId else args.newTraceId
      spanId := args.spanId.getD args.newSpanId
      serviceName :=
        (args.serviceName.or (parentContext.bind SpanContext.serviceName)).or
          (some tracer.defaultServiceName)
      origin := parentContext.bind SpanContext.origin })

namespace TraceState

/-- Create the span object with its tags from the settings and add it to the trace.
Source: `Tracer.cs`, `StartSpan`, from the construction of the span on -/
def addNewSpan (tracer : Tracer) (s : TraceState) (parent : Option ISpanContext)
    (context : SpanContext) (args : StartSpanArgs) : TraceState :=
  let span := s.allocated
  let s : TraceState :=
    { s with
      objects := Function.update s.objects span
        { context := context, parent := parent, tags := args.tags
          operationName := args.operationName }
      allocated := s.allocated + 1 }
  let s := s.setTags tracer span (tracer.globalTags.map fun e => (e.1, some e.2))
  let s :=
    if isNullOrWhiteSpace tracer.environment then s
    else s.setTag tracer span Tags.env tracer.environment
  let s :=
    if isNullOrWhiteSpace tracer.serviceVersion = false ∧
        (s.objects span).context.serviceName = some tracer.defaultServiceName then
      s.setTag tracer span Tags.version tracer.serviceVersion
    else s
  s.addSpan tracer span

/-- Start a child of a span of the trace.
Source: `Tracer.cs`, `StartSpan` with a local parent -/
def startChildSpan (tracer : Tracer) (s : TraceState) (parent : SpanRef) (args : StartSpanArgs) :
    TraceState :=
  let (_, context) := createSpanContext tracer s.objects (some (.ofSpan parent)) args
  s.addNewSpan tracer (some (.ofSpan parent)) context args

end TraceState

/-- Start a trace: its root span has no parent, a propagated one, or a foreign one. The heap holds
the arrays the process already has, and `objects` is what a reference to no span would show.
Source: `Tracer.cs`, `StartSpan` with a parent outside the process's traces -/
def startSpan (tracer : Tracer) (heap : ArrayHeap SpanRef) (objects : SpanRef → Span)
    (parent : Option ISpanContext) (args : StartSpanArgs) : TraceState :=
  let (traceContext, context) := createSpanContext tracer objects parent args
  let s : TraceState :=
    { heap := heap, objects := objects, allocated := 0, context := traceContext.getD {} }
  s.addNewSpan tracer parent context args

end DdTrace.Tracing
