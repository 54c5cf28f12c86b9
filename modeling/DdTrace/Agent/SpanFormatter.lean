import Mathlib.Tactic.Linarith
import DdTrace.Agent.MessagePackBinary
import DdTrace.Tracing.TagsTypes
import DdTrace.Tracing.TraceContext

/-!
# The encoding of a span

`SpanMessagePackFormatter` writes a span as a map whose last two entries are the maps of its tags
and of its metrics. The number of entries of these two is not known before they are written, so
that their headers are written twice.

* `serialize`: the formatter, with `writeTags` and `writeMetrics`.
* `wrote_serialize`: what it writes is a header and the bytes of `fields`.
* `IsEncoding`: what the encoding of a span is for: it decodes to a map with the data of the span
  and with the tags and metrics that are visible.
* `serialize_isEncoding_iff`: the formatter writes such an encoding exactly for the spans whose
  start time has no offset to UTC.

Sources: `Agent/MessagePack/SpanMessagePackFormatter.cs`; `Tagging/TagsList.cs`, `SerializeTo` to
`WriteMetrics`; `ExtensionMethods/TimeExtensions.cs`; `TimeConstants.cs`; `Span.cs`, `IsTopLevel`;
`SpanContext.cs`, `ParentId`.
-/

namespace DdTrace.Agent.MessagePack

open DdTrace.Lib DdTrace.Lib.MessagePack DdTrace.Tracing

/-! ## Time -/

/-- The value of an expression of type `long`: the sum or product modulo `2 ^ 64`. -/
def int64 (n : Int) : Int := (BitVec.ofInt 64 n).toInt

theorem int64_range (n : Int) : -2 ^ 63 ≤ int64 n ∧ int64 n < 2 ^ 63 := by
  have hlo := BitVec.le_toInt (BitVec.ofInt 64 n)
  have hhi := BitVec.toInt_lt (x := BitVec.ofInt 64 n)
  exact ⟨hlo, hhi⟩

/-- The value is the number up to a multiple of `2 ^ 64`. -/
theorem int64_eq (n : Int) : ∃ q : Int, int64 n = n + q * 2 ^ 64 := by
  rw [int64, BitVec.toInt_ofInt, Int.bmod_def]
  split
  · exact ⟨-(n / 2 ^ 64), by omega⟩
  · exact ⟨-(n / 2 ^ 64) - 1, by omega⟩

/-- A value in range is kept. -/
theorem int64_of_range {n : Int} (hlo : -2 ^ 63 ≤ n) (hhi : n < 2 ^ 63) : int64 n = n := by
  obtain ⟨q, hq⟩ := int64_eq n
  have hrange := int64_range n
  omega

/-- Source: `TimeConstants.cs`, `UnixEpochInTicks` -/
def unixEpochInTicks : Int := 621355968000000000

/-- Source: `TimeConstants.cs`, `NanoSecondsPerTick` -/
def nanoSecondsPerTick : Int := 100

/-- A point in time, read from a clock that is set ahead of UTC by whole minutes, at most 14 hours
either way. -/
structure DateTimeOffset where
  /-- `UtcTicks`. -/
  utcTicks : Int
  /-- `Offset`, in minutes. -/
  offsetMinutes : Int
  /-- An offset is at most 14 hours. -/
  offset_range : -840 ≤ offsetMinutes ∧ offsetMinutes ≤ 840

/-- `Ticks`: what the clock shows. -/
def DateTimeOffset.ticks (d : DateTimeOffset) : Int := d.utcTicks + d.offsetMinutes * 600000000

/-- Source: `TimeExtensions.cs`, `ToUnixTimeNanoseconds` -/
def DateTimeOffset.toUnixTimeNanoseconds (d : DateTimeOffset) : Int :=
  int64 ((d.ticks - unixEpochInTicks) * nanoSecondsPerTick)

/-- The nanoseconds since the beginning of 1970 in UTC. -/
def DateTimeOffset.unixNanoseconds (d : DateTimeOffset) : Int :=
  (d.utcTicks - unixEpochInTicks) * nanoSecondsPerTick

/-- An offset of at most 14 hours, in nanoseconds, is no multiple of `2 ^ 64` but zero. -/
theorem offset_eq_zero {o q : Int} (hq : o * 60000000000 + q * 18446744073709551616 = 0)
    (hlo : -840 ≤ o) (hhi : o ≤ 840) : o = 0 := by
  rcases Int.lt_trichotomy q 0 with hneg | hzero | hpos
  · have hle : q + 1 ≤ 0 := hneg
    linarith
  · rw [hzero, Int.zero_mul, Int.add_zero] at hq
    omega
  · have hle : 0 + 1 ≤ q := hpos
    linarith

/-- What is written is the start time exactly if the clock shows UTC. -/
theorem DateTimeOffset.toUnixTimeNanoseconds_eq_iff {d : DateTimeOffset}
    (hlo : -2 ^ 63 ≤ d.unixNanoseconds) (hhi : d.unixNanoseconds < 2 ^ 63) :
    d.toUnixTimeNanoseconds = d.unixNanoseconds ↔ d.offsetMinutes = 0 := by
  have hclock : (d.ticks - unixEpochInTicks) * nanoSecondsPerTick =
      d.unixNanoseconds + d.offsetMinutes * 60000000000 := by
    simp only [ticks, unixNanoseconds, nanoSecondsPerTick]
    linarith
  have hwritten : d.toUnixTimeNanoseconds =
      int64 (d.unixNanoseconds + d.offsetMinutes * 60000000000) := congrArg int64 hclock
  constructor
  · intro heq
    obtain ⟨q, hq⟩ := int64_eq (d.unixNanoseconds + d.offsetMinutes * 60000000000)
    rw [← hwritten, heq] at hq
    exact offset_eq_zero (by linarith) d.offset_range.1 d.offset_range.2
  · intro hzero
    rw [hwritten, hzero, Int.zero_mul, Int.add_zero, int64_of_range hlo hhi]

/-- The ticks of a `TimeSpan` in nanoseconds.
Source: `TimeExtensions.cs`, `ToNanoseconds` -/
def toNanoseconds (ticks : Int) : Int := int64 (ticks * nanoSecondsPerTick)

/-! ## Data -/

/-- What the formatter reads of a parent. -/
structure ParentContext where
  /-- `SpanId`. -/
  spanId : UInt64
  /-- `ServiceName`. -/
  serviceName : Option String

/-- What the formatter reads of a span.
Sources: `Span.cs`; `SpanContext.cs` -/
structure Span where
  /-- `Context.TraceId`. -/
  traceId : UInt64
  /-- `Context.SpanId`. -/
  spanId : UInt64
  /-- `Context.Parent`. -/
  parent : Option ParentContext
  /-- `Context.Origin`. -/
  origin : Option String
  /-- `OperationName`. -/
  operationName : Option String
  /-- `ResourceName`. -/
  resourceName : Option String
  /-- `ServiceName`. -/
  serviceName : Option String
  /-- `Type`. -/
  type : Option String
  /-- `StartTime`. -/
  startTime : DateTimeOffset
  /-- `Duration`, in ticks. -/
  duration : Int
  /-- `Error`. -/
  error : Bool
  /-- `Tags`. -/
  tags : TagsList

/-- Source: `SpanContext.cs`, `ParentId` -/
def Span.parentId (span : Span) : Option UInt64 := span.parent.map ParentContext.spanId

/-- Source: `Span.cs`, `IsTopLevel` -/
def Span.isTopLevel (span : Span) : Bool :=
  match span.parent with
  | none => true
  | some parent => parent.serviceName != span.serviceName

/-- The origin, if it is neither null nor empty. -/
def Span.origin? (span : Span) : Option String := span.origin.filter (· != "")

/-! ## The formatter -/

/-- Source: `TagsList.cs`, `WriteTag` -/
def writeTag (o : Output) (key : Option String) (value : String) : Output :=
  (o.write (writeString key)).write (writeString (some value))

/-- Source: `TagsList.cs`, `WriteMetric` -/
def writeMetric (o : Output) (key : Option String) (value : Float) : Output :=
  (o.write (writeString key)).write (writeDouble value)

/-- The locals of `WriteTags` and `WriteMetrics`. -/
structure MapWriter where
  /-- `bytes` and `offset`. -/
  output : Output
  /-- `count`. -/
  count : Nat
  /-- `isOriginWritten`. -/
  isOriginWritten : Bool := false

/-- Write the tag of a property that has a value.
Source: `TagsList.cs`, the loop over `GetAdditionalTags()` in `WriteTags` -/
def writeTagProperty (tags : TagsList) (w : MapWriter) (property : Property) : MapWriter :=
  match tags.tagValues property.key with
  | none => w
  | some value =>
      { output := writeTag w.output property.key value
        count := w.count + 1
        isOriginWritten := property.key == Tags.origin || w.isOriginWritten }

/-- Write the metric of a property that has a value.
Source: `TagsList.cs`, the loop over `GetAdditionalMetrics()` in `WriteMetrics` -/
def writeMetricProperty (tags : TagsList) (w : MapWriter) (property : Property) : MapWriter :=
  match tags.metricValues property.key with
  | none => w
  | some value =>
      { w with output := writeMetric w.output property.key value, count := w.count + 1 }

/-- Write the header again, now with the count.
Source: `TagsList.cs`, the end of `WriteTags` and of `WriteMetrics` -/
def MapWriter.patch (w : MapWriter) (countOffset : Nat) : Output :=
  if 0 < w.count then w.output.overwrite countOffset (writeMapHeaderForceMap32Block w.count)
  else w.output

/-- Source: `Tags.cs`, `RuntimeId` -/
def runtimeIdKey : String := "runtime-id"

/-- Source: `Metrics.cs`, `TopLevelSpan` -/
def topLevelKey : String := "_dd.top_level"

/-- Write the tag of a top-level span. `runtimeId` is `Tracer.RuntimeId`.
Source: `TagsList.cs`, `WriteTags` -/
def writeRuntimeId (runtimeId : String) (span : Span) (w : MapWriter) : MapWriter :=
  if span.isTopLevel then
    { w with
      output := (w.output.write (writeStringBytes (utf8 runtimeIdKey))).write
        (writeStringBytes (utf8 runtimeId))
      count := w.count + 1 }
  else w

/-- Write the origin, unless a property has.
Source: `TagsList.cs`, `WriteTags` -/
def writeOrigin (span : Span) (w : MapWriter) : MapWriter :=
  match w.isOriginWritten, span.origin? with
  | false, some origin =>
      { w with
        output := (w.output.write (writeStringBytes (utf8 Tags.origin))).write
          (writeString (some origin))
        count := w.count + 1 }
  | _, _ => w

/-- Write the metric of a top-level span.
Source: `TagsList.cs`, `WriteMetrics` -/
def writeTopLevel (span : Span) (w : MapWriter) : MapWriter :=
  if span.isTopLevel then
    { w with output := writeMetric w.output topLevelKey 1.0, count := w.count + 1 }
  else w

/-- Write the tags.
Source: `TagsList.cs`, `WriteTags` -/
def writeTags (runtimeId : String) (o : Output) (span : Span) : Output :=
  let o := o.write (writeStringBytes (utf8 "meta"))
  let countOffset := o.offset
  let o := o.write (writeMapHeaderForceMap32Block 0)
  let tags := span.tags.tags
  let w : MapWriter :=
    { output := tags.foldl (fun o pair => writeTag o pair.1 pair.2) o, count := tags.length }
  let w := span.tags.type.additionalTags.foldl (writeTagProperty span.tags) w
  let w := writeRuntimeId runtimeId span w
  let w := writeOrigin span w
  w.patch countOffset

/-- Write the metrics.
Source: `TagsList.cs`, `WriteMetrics` -/
def writeMetrics (o : Output) (span : Span) : Output :=
  let o := o.write (writeStringBytes (utf8 "metrics"))
  let countOffset := o.offset
  let o := o.write (writeMapHeaderForceMap32Block 0)
  let metrics := span.tags.metrics
  let w : MapWriter :=
    { output := metrics.foldl (fun o pair => writeMetric o pair.1 pair.2) o
      count := metrics.length }
  let w := span.tags.type.additionalMetrics.foldl (writeMetricProperty span.tags) w
  let w := writeTopLevel span w
  w.patch countOffset

/-- Write the name of a field and an image of its value.
Source: `SpanMessagePackFormatter.cs`, `Serialize` -/
def writeField (o : Output) (name : String) (image : List UInt8) : Output :=
  (o.write (writeStringBytes (utf8 name))).write image

/-- The number of fields that are written.
Source: `SpanMessagePackFormatter.cs`, `Serialize` -/
def Span.len (value : Span) : Nat :=
  let len := 8
  let len := if value.parentId.isSome then len + 1 else len
  let len := if value.error then len + 1 else len
  -- tags and metrics
  len + 2

/-- Write the field of a span that has a parent.
Source: `SpanMessagePackFormatter.cs`, `Serialize` -/
def writeParentId (o : Output) (value : Span) : Output :=
  match value.parentId with
  | some parentId => writeField o "parent_id" (writeUInt64 parentId.toNat)
  | none => o

/-- Write the field of a span with an error.
Source: `SpanMessagePackFormatter.cs`, `Serialize` -/
def writeError (o : Output) (value : Span) : Output :=
  if value.error then writeField o "error" (writeByte 1) else o

/-- The body of `Serialize`.
Source: `SpanMessagePackFormatter.cs`, `Serialize` -/
def write (runtimeId : String) (o : Output) (value : Span) : Output :=
  let o := o.write (writeMapHeader value.len)
  let o := writeField o "trace_id" (writeUInt64 value.traceId.toNat)
  let o := writeField o "span_id" (writeUInt64 value.spanId.toNat)
  let o := writeField o "name" (writeString value.operationName)
  let o := writeField o "resource" (writeString value.resourceName)
  let o := writeField o "service" (writeString value.serviceName)
  let o := writeField o "type" (writeString value.type)
  let o := writeField o "start" (writeInt64 value.startTime.toUnixTimeNanoseconds)
  let o := writeField o "duration" (writeInt64 (toNanoseconds value.duration))
  let o := writeParentId o value
  let o := writeError o value
  writeMetrics (writeTags runtimeId o value) value

/-- Write a span from an offset of an array on. The result is the number of bytes written and the
array; there is none if the array would be too long for an array.
Source: `SpanMessagePackFormatter.cs`, `Serialize` -/
def serialize (runtimeId : String) (bytes : List UInt8) (offset : Nat) (value : Span) :
    Option (Nat × List UInt8) :=
  let o := write runtimeId ⟨bytes, offset⟩ value
  if o.bytes.length < 2 ^ 31 then some (o.offset - offset, o.bytes) else none

/-! ## What is written -/

/-- The entry of a tag. -/
def tagEntry (pair : Option String × String) : Entry where
  key := ofString pair.1
  value := .str pair.2
  keyBytes := writeString pair.1
  valueBytes := writeString (some pair.2)

/-- The entry of a metric. -/
def metricEntry (pair : Option String × Float) : Entry where
  key := ofString pair.1
  value := .float64 pair.2.toBits.toNat
  keyBytes := writeString pair.1
  valueBytes := writeDouble pair.2

/-- The tags that the formatter adds: the runtime id of a top-level span, and the origin of a span
that has one. -/
def addedTags (runtimeId : String) (span : Span) : List (Option String × String) :=
  (if span.isTopLevel then [(some runtimeIdKey, runtimeId)] else []) ++
    span.origin?.toList.map fun origin => (some Tags.origin, origin)

/-- The metric that the formatter adds to a top-level span. -/
def addedMetrics (span : Span) : List (Option String × Float) :=
  if span.isTopLevel then [(some topLevelKey, 1.0)] else []

/-- The tags that are written. -/
def metaPairs (runtimeId : String) (span : Span) : List (Option String × String) :=
  span.tags.tags ++ propertyPairs span.tags.type.additionalTags span.tags.tagValues ++
    addedTags runtimeId span

/-- The metrics that are written. -/
def metricsPairs (span : Span) : List (Option String × Float) :=
  span.tags.metrics ++ propertyPairs span.tags.type.additionalMetrics span.tags.metricValues ++
    addedMetrics span

/-- A field of the span. -/
def field (name : String) (value : Value) (valueBytes : List UInt8) : Entry where
  key := .str name
  value := value
  keyBytes := writeStringBytes (utf8 name)
  valueBytes := valueBytes

/-- A field of the span that is a map. -/
def mapField (name : String) (es : List Entry) : Entry :=
  field name (.map (es.map fun e => (e.key, e.value)))
    (writeMapHeaderForceMap32Block es.length ++ es.flatMap Entry.bytes)

/-- The fields of a span. -/
def fields (runtimeId : String) (span : Span) : List Entry :=
  [field "trace_id" (.int span.traceId.toNat) (writeUInt64 span.traceId.toNat),
    field "span_id" (.int span.spanId.toNat) (writeUInt64 span.spanId.toNat),
    field "name" (ofString span.operationName) (writeString span.operationName),
    field "resource" (ofString span.resourceName) (writeString span.resourceName),
    field "service" (ofString span.serviceName) (writeString span.serviceName),
    field "type" (ofString span.type) (writeString span.type),
    field "start" (.int span.startTime.toUnixTimeNanoseconds)
      (writeInt64 span.startTime.toUnixTimeNanoseconds),
    field "duration" (.int (toNanoseconds span.duration))
      (writeInt64 (toNanoseconds span.duration))] ++
    (span.parentId.toList.map fun parentId =>
      field "parent_id" (.int parentId.toNat) (writeUInt64 parentId.toNat)) ++
    (if span.error then [field "error" (.int 1) (writeByte 1)] else []) ++
    [mapField "meta" ((metaPairs runtimeId span).map tagEntry),
      mapField "metrics" ((metricsPairs span).map metricEntry)]

/-- The entries were written and counted. -/
structure Collected (start : Output) (w : MapWriter) (es : List Entry) : Prop where
  wrote : Output.Wrote start w.output (es.flatMap Entry.bytes)
  count : w.count = es.length

namespace Collected

variable {start o : Output} {w w' : MapWriter} {es : List Entry}

/-- One more entry. -/
theorem add (h : Collected start w es) {e : Entry}
    (hwrote : Output.Wrote w.output w'.output e.bytes) (hcount : w'.count = w.count + 1) :
    Collected start w' (es ++ [e]) := by
  refine ⟨?_, ?_⟩
  · rw [List.flatMap_append]
    simpa using h.wrote.trans hwrote
  · rw [hcount, h.count, List.length_append, List.length_singleton]

/-- The custom entries. -/
theorem custom {α : Type} (hstart : start.offset ≤ start.bytes.length)
    {write : Output → α → Output} {entry : α → Entry}
    (hwrite : ∀ o a, Output.Wrote o (write o a) (entry a).bytes) (as : List α) :
    Collected start { output := as.foldl write start, count := as.length } (as.map entry) := by
  induction as using List.reverseRecOn with
  | nil =>
      refine ⟨⟨?_, hstart⟩, rfl⟩
      simp
  | append_singleton as a ih =>
      rw [List.map_append]
      refine ih.add (e := entry a) ?_ ?_
      · simp only [List.foldl_append, List.foldl_cons, List.foldl_nil]
        exact hwrite _ a
      · simp

/-- The header is written again. -/
theorem patch {name : List UInt8} (h : Collected start w es)
    (hstart : Output.Wrote o start (name ++ writeMapHeaderForceMap32Block 0)) :
    Output.Wrote o (w.patch (o.offset + name.length))
      (name ++ (writeMapHeaderForceMap32Block es.length ++ es.flatMap Entry.bytes)) := by
  have hwrote := hstart.trans h.wrote
  rw [MapWriter.patch, h.count]
  split
  · have hlen : (writeMapHeaderForceMap32Block es.length).length =
        (writeMapHeaderForceMap32Block 0).length := by simp [writeMapHeaderForceMap32Block]
    have hpatched := hwrote.overwrite hlen
    rwa [List.append_assoc] at hpatched
  · rename_i hzero
    have hempty : es.length = 0 := by omega
    rw [hempty, ← List.append_assoc]
    exact hwrote

end Collected

variable {start o : Output} {w : MapWriter} {es : List Entry} {runtimeId : String} {span : Span}

theorem wrote_writeTag (o : Output) (pair : Option String × String) :
    Output.Wrote o (writeTag o pair.1 pair.2) (tagEntry pair).bytes :=
  (Output.wrote_write o _).write _

theorem wrote_writeMetric (o : Output) (pair : Option String × Float) :
    Output.Wrote o (writeMetric o pair.1 pair.2) (metricEntry pair).bytes :=
  (Output.wrote_write o _).write _

/-- The properties that stand for tags; none of them is the origin. -/
theorem collected_tagProperties (tags : TagsList) (h : Collected start w es)
    {table : List Property} (horigin : Tags.origin ∉ table.map Property.key)
    (hwritten : w.isOriginWritten = false) :
    Collected start (table.foldl (writeTagProperty tags) w)
        (es ++ (propertyPairs table tags.tagValues).map tagEntry) ∧
      (table.foldl (writeTagProperty tags) w).isOriginWritten = false := by
  induction table generalizing w es with
  | nil => simpa [propertyPairs] using ⟨h, hwritten⟩
  | cons p table ih =>
      rw [List.map_cons, List.mem_cons, not_or] at horigin
      rw [List.foldl_cons, propertyPairs_cons, writeTagProperty]
      cases hvalue : tags.tagValues p.key with
      | none => exact ih h horigin.2 hwritten
      | some value =>
          have hne : (p.key == Tags.origin) = false :=
            beq_eq_false_iff_ne.mpr fun heq => horigin.1 heq.symm
          have hadd : Collected start ⟨writeTag w.output p.key value, w.count + 1,
              p.key == Tags.origin || w.isOriginWritten⟩ (es ++ [tagEntry (some p.key, value)]) :=
            h.add (wrote_writeTag w.output (some p.key, value)) rfl
          obtain ⟨hcollected, hfinal⟩ := ih hadd horigin.2 (by simp [hne, hwritten])
          rw [List.append_assoc] at hcollected
          exact ⟨hcollected, hfinal⟩

/-- The properties that stand for metrics. -/
theorem collected_metricProperties (tags : TagsList) (h : Collected start w es)
    (table : List Property) :
    Collected start (table.foldl (writeMetricProperty tags) w)
        (es ++ (propertyPairs table tags.metricValues).map metricEntry) := by
  induction table generalizing w es with
  | nil => simpa [propertyPairs] using h
  | cons p table ih =>
      rw [List.foldl_cons, propertyPairs_cons, writeMetricProperty]
      cases hvalue : tags.metricValues p.key with
      | none => exact ih h
      | some value =>
          have hadd : Collected start
              { w with output := writeMetric w.output p.key value, count := w.count + 1 }
              (es ++ [metricEntry (some p.key, value)]) :=
            h.add (wrote_writeMetric w.output (some p.key, value)) rfl
          have hcollected := ih hadd
          rw [List.append_assoc] at hcollected
          exact hcollected

/-- No class has a property for the origin. -/
theorem origin_notMem_tagKeys (c : TagsClass) : Tags.origin ∉ c.type.tagKeys := by
  cases c <;> decide

/-- The tag of a top-level span. -/
theorem collected_writeRuntimeId (runtimeId : String) (span : Span) (h : Collected start w es)
    (hwritten : w.isOriginWritten = false) :
    Collected start (writeRuntimeId runtimeId span w)
        (es ++ (if span.isTopLevel then [(some runtimeIdKey, runtimeId)] else []).map tagEntry) ∧
      (writeRuntimeId runtimeId span w).isOriginWritten = false := by
  unfold writeRuntimeId
  cases span.isTopLevel with
  | false => simpa using ⟨h, hwritten⟩
  | true => exact ⟨h.add (wrote_writeTag w.output (some runtimeIdKey, runtimeId)) rfl, hwritten⟩

/-- The origin. -/
theorem collected_writeOrigin (span : Span) (h : Collected start w es)
    (hwritten : w.isOriginWritten = false) :
    Collected start (writeOrigin span w)
      (es ++ (span.origin?.toList.map fun origin => (some Tags.origin, origin)).map tagEntry) := by
  unfold writeOrigin
  rw [hwritten]
  cases span.origin? with
  | none => simpa using h
  | some origin => exact h.add (wrote_writeTag w.output (some Tags.origin, origin)) rfl

/-- The metric of a top-level span. -/
theorem collected_writeTopLevel (span : Span) (h : Collected start w es) :
    Collected start (writeTopLevel span w)
      (es ++ (if span.isTopLevel then [(some topLevelKey, 1.0)] else []).map metricEntry) := by
  unfold writeTopLevel
  cases span.isTopLevel with
  | false => simpa using h
  | true => exact h.add (wrote_writeMetric w.output (some topLevelKey, 1.0)) rfl

/-- What `WriteTags` writes. -/
theorem wrote_writeTags (runtimeId : String) (h : span.tags.Custom) (o : Output) :
    Output.Wrote o (writeTags runtimeId o span)
      (mapField "meta" ((metaPairs runtimeId span).map tagEntry)).bytes := by
  obtain ⟨c, hc⟩ := h.type
  have horigin : Tags.origin ∉ span.tags.type.additionalTags.map Property.key := by
    rw [hc]
    exact origin_notMem_tagKeys c
  have hstart := (Output.wrote_write o (writeStringBytes (utf8 "meta"))).write
    (writeMapHeaderForceMap32Block 0)
  have hcustom := Collected.custom hstart.offset_le wrote_writeTag span.tags.tags
  obtain ⟨hproperties, hwritten⟩ := collected_tagProperties span.tags hcustom horigin rfl
  obtain ⟨hruntimeId, hwritten⟩ := collected_writeRuntimeId runtimeId span hproperties hwritten
  have hall := collected_writeOrigin span hruntimeId hwritten
  rw [← List.map_append, ← List.map_append, ← List.map_append, List.append_assoc (_ ++ _)] at hall
  exact hall.patch hstart

/-- What `WriteMetrics` writes. -/
theorem wrote_writeMetrics (span : Span) (o : Output) :
    Output.Wrote o (writeMetrics o span)
      (mapField "metrics" ((metricsPairs span).map metricEntry)).bytes := by
  have hstart := (Output.wrote_write o (writeStringBytes (utf8 "metrics"))).write
    (writeMapHeaderForceMap32Block 0)
  have hcustom := Collected.custom hstart.offset_le wrote_writeMetric span.tags.metrics
  have hproperties := collected_metricProperties span.tags hcustom span.tags.type.additionalMetrics
  have hall := collected_writeTopLevel span hproperties
  rw [← List.map_append, ← List.map_append] at hall
  exact hall.patch hstart

/-- One more entry. -/
theorem wrote_entry {o' o'' : Output} {header : List UInt8} {e : Entry}
    (h : Output.Wrote o o' (header ++ es.flatMap Entry.bytes)) (he : Output.Wrote o' o'' e.bytes) :
    Output.Wrote o o'' (header ++ (es ++ [e]).flatMap Entry.bytes) := by
  rw [List.flatMap_append]
  simpa using h.trans he

/-- One more field. -/
theorem wrote_writeField {o' : Output} {header : List UInt8}
    (h : Output.Wrote o o' (header ++ es.flatMap Entry.bytes)) (name : String) (value : Value)
    (image : List UInt8) : Output.Wrote o (writeField o' name image)
      (header ++ (es ++ [field name value image]).flatMap Entry.bytes) :=
  wrote_entry h ((Output.wrote_write o' _).write image)

theorem wrote_writeParentId {o' : Output} {header : List UInt8}
    (h : Output.Wrote o o' (header ++ es.flatMap Entry.bytes)) (span : Span) :
    Output.Wrote o (writeParentId o' span)
      (header ++ (es ++ span.parentId.toList.map fun parentId =>
        field "parent_id" (.int parentId.toNat) (writeUInt64 parentId.toNat)).flatMap
          Entry.bytes) := by
  unfold writeParentId
  cases span.parentId with
  | none => simpa using h
  | some parentId => exact wrote_writeField h "parent_id" _ _

theorem wrote_writeError {o' : Output} {header : List UInt8}
    (h : Output.Wrote o o' (header ++ es.flatMap Entry.bytes)) (span : Span) :
    Output.Wrote o (writeError o' span)
      (header ++ (es ++ if span.error then [field "error" (.int 1) (writeByte 1)] else []).flatMap
        Entry.bytes) := by
  unfold writeError
  cases span.error with
  | false => simpa using h
  | true => exact wrote_writeField h "error" _ _

/-- The header counts the fields. -/
theorem len_eq (runtimeId : String) (span : Span) : span.len = (fields runtimeId span).length := by
  unfold Span.len fields
  cases span.parentId <;> cases span.error <;> rfl

/-- **What the formatter writes**: a header that counts the fields, and the fields. -/
theorem wrote_span (runtimeId : String) (h : span.tags.Custom) (o : Output) :
    Output.Wrote o (write runtimeId o span)
      (writeMapHeader (fields runtimeId span).length ++
        (fields runtimeId span).flatMap Entry.bytes) := by
  rw [write, len_eq runtimeId]
  generalize hheader : writeMapHeader (fields runtimeId span).length = header
  have hstart : Output.Wrote o (o.write header) (header ++ ([] : List Entry).flatMap Entry.bytes) := by
    simpa using Output.wrote_write o header
  have htraceId := wrote_writeField hstart "trace_id" (.int span.traceId.toNat)
    (writeUInt64 span.traceId.toNat)
  have hspanId := wrote_writeField htraceId "span_id" (.int span.spanId.toNat)
    (writeUInt64 span.spanId.toNat)
  have hname := wrote_writeField hspanId "name" (ofString span.operationName)
    (writeString span.operationName)
  have hresource := wrote_writeField hname "resource" (ofString span.resourceName)
    (writeString span.resourceName)
  have hservice := wrote_writeField hresource "service" (ofString span.serviceName)
    (writeString span.serviceName)
  have htype := wrote_writeField hservice "type" (ofString span.type) (writeString span.type)
  have hstart := wrote_writeField htype "start" (.int span.startTime.toUnixTimeNanoseconds)
    (writeInt64 span.startTime.toUnixTimeNanoseconds)
  have hduration := wrote_writeField hstart "duration" (.int (toNanoseconds span.duration))
    (writeInt64 (toNanoseconds span.duration))
  have hparentId := wrote_writeParentId hduration span
  have herror := wrote_writeError hparentId span
  have htags := wrote_entry herror (wrote_writeTags runtimeId h _)
  have hmetrics := wrote_entry htags (wrote_writeMetrics span _)
  rw [List.append_assoc (_ ++ _) [_] [_]] at hmetrics
  exact hmetrics

/-! ## What is read -/

/-- A string whose image is part of an array is read. -/
theorem decodes_string {s : Option String} (h : (writeString s).length < 2 ^ 31) :
    Decodes 1 (ofString s) (writeString s) := by
  refine decodes_writeString fun v hv => ?_
  obtain rfl : s = some v := hv
  have hlt := length_lt_writeStringBytes (utf8 v)
  have hlen : (writeStringBytes (utf8 v)).length < 2 ^ 31 := h
  omega

theorem decodes_tagEntry {pair : Option String × String}
    (h : (tagEntry pair).bytes.length < 2 ^ 31) : (tagEntry pair).Decodes 1 := by
  have hlen : (writeString pair.1).length + (writeString (some pair.2)).length < 2 ^ 31 := by
    rw [← List.length_append]
    exact h
  exact ⟨decodes_string (s := pair.1) (by omega), decodes_string (s := some pair.2) (by omega)⟩

theorem decodes_metricEntry {pair : Option String × Float}
    (h : (metricEntry pair).bytes.length < 2 ^ 31) : (metricEntry pair).Decodes 1 := by
  have hlen : (writeString pair.1).length + (writeDouble pair.2).length < 2 ^ 31 := by
    rw [← List.length_append]
    exact h
  exact ⟨decodes_string (s := pair.1) (by omega), decodes_writeDouble pair.2⟩

/-- A field is read if its value is. -/
theorem decodes_field {name : String} {value : Value} {image : List UInt8}
    (h : (field name value image).bytes.length < 2 ^ 31)
    (hvalue : image.length < 2 ^ 31 → Decodes 2 value image) :
    (field name value image).Decodes 2 := by
  have hlen : (writeString (some name)).length + image.length < 2 ^ 31 := by
    rw [← List.length_append]
    exact h
  exact ⟨(decodes_string (s := some name) (by omega)).mono (by omega), hvalue (by omega)⟩

/-- A field that is a map is read if its entries are. -/
theorem decodes_mapField {name : String} {es : List Entry}
    (hpos : ∀ e ∈ es, 0 < e.bytes.length) (hes : ∀ e ∈ es, e.bytes.length < 2 ^ 31 → e.Decodes 1)
    (h : (mapField name es).bytes.length < 2 ^ 31) : (mapField name es).Decodes 2 := by
  refine decodes_field h fun himage => ?_
  rw [List.length_append] at himage
  have hcount := length_le_length_flatMap hpos
  refine decodes_writeMapHeaderForceMap32Block (by omega) fun e he => hes e he ?_
  have hle := length_bytes_le_of_mem he
  omega

theorem pos_length_writeString (s : Option String) : 0 < (writeString s).length := by
  cases s with
  | none => exact Nat.one_pos
  | some v => exact Nat.zero_lt_of_lt (length_lt_writeStringBytes (utf8 v))

/-- An entry with a string as its key is not empty. -/
theorem pos_length_bytes {e : Entry} {key : Option String} (h : e.keyBytes = writeString key) :
    0 < e.bytes.length := by
  have hpos := pos_length_writeString key
  rw [Entry.bytes, h, List.length_append]
  omega

/-- **Every field is read**, if the fields are part of an array. -/
theorem decodes_fields (h : ((fields runtimeId span).flatMap Entry.bytes).length < 2 ^ 31) :
    ∀ e ∈ fields runtimeId span, e.Decodes 2 := by
  intro e he
  have hlen : e.bytes.length < 2 ^ 31 := Nat.lt_of_le_of_lt (length_bytes_le_of_mem he) h
  have huint64 : ∀ n : UInt64, Decodes 2 (.int n.toNat) (writeUInt64 n.toNat) :=
    fun n => (decodes_writeUInt64 n.toNat_lt).mono (by omega)
  have hint64 : ∀ n : Int, Decodes 2 (.int (int64 n)) (writeInt64 (int64 n)) :=
    fun n => (decodes_writeInt64 (int64_range n).1 (int64_range n).2).mono (by omega)
  have hstring : ∀ s : Option String, (writeString s).length < 2 ^ 31 →
      Decodes 2 (ofString s) (writeString s) := fun s hs => (decodes_string hs).mono (by omega)
  rw [fields] at he
  simp only [List.mem_append, List.mem_cons, List.not_mem_nil, or_false, List.mem_map] at he
  rcases he with (((rfl | rfl | rfl | rfl | rfl | rfl | rfl | rfl) | ⟨parentId, -, rfl⟩) | herror) |
    rfl | rfl
  · exact decodes_field hlen fun _ => huint64 _
  · exact decodes_field hlen fun _ => huint64 _
  · exact decodes_field hlen (hstring _)
  · exact decodes_field hlen (hstring _)
  · exact decodes_field hlen (hstring _)
  · exact decodes_field hlen (hstring _)
  · exact decodes_field hlen fun _ => hint64 _
  · exact decodes_field hlen fun _ => hint64 _
  · exact decodes_field hlen fun _ => huint64 _
  · split at herror
    · obtain rfl := List.mem_singleton.mp herror
      exact decodes_field hlen fun _ => decodes_writeByte_one.mono (by omega)
    · cases herror
  · refine decodes_mapField (fun e he => ?_) (fun e he hlen => ?_) hlen
    · obtain ⟨pair, -, rfl⟩ := List.mem_map.mp he
      exact pos_length_bytes rfl
    · obtain ⟨pair, -, rfl⟩ := List.mem_map.mp he
      exact decodes_tagEntry hlen
  · refine decodes_mapField (fun e he => ?_) (fun e he hlen => ?_) hlen
    · obtain ⟨pair, -, rfl⟩ := List.mem_map.mp he
      exact pos_length_bytes rfl
    · obtain ⟨pair, -, rfl⟩ := List.mem_map.mp he
      exact decodes_metricEntry hlen

/-! ## The encoding of a span -/

/-- A tag in a map. -/
def tagValue (pair : Option String × String) : Value × Value := (ofString pair.1, .str pair.2)

/-- A metric in a map. -/
def metricValue (pair : Option String × Float) : Value × Value :=
  (ofString pair.1, .float64 pair.2.toBits.toNat)

/-- The map that stands for a span with given times, tags and metrics. -/
def Span.toValue (span : Span) (start duration : Int) (tags : List (Option String × String))
    (metrics : List (Option String × Float)) : Value :=
  .map ([(.str "trace_id", .int span.traceId.toNat), (.str "span_id", .int span.spanId.toNat),
      (.str "name", ofString span.operationName), (.str "resource", ofString span.resourceName),
      (.str "service", ofString span.serviceName), (.str "type", ofString span.type),
      (.str "start", .int start), (.str "duration", .int duration)] ++
    (span.parentId.toList.map fun parentId => (.str "parent_id", .int parentId.toNat)) ++
    (if span.error then [(.str "error", .int 1)] else []) ++
    [(.str "meta", .map (tags.map tagValue)), (.str "metrics", .map (metrics.map metricValue))])

/-- The bytes are an encoding of the span: they are read as one map with its data, its tags and its
metrics, each once, and what the formatter adds to them. -/
def IsEncoding (runtimeId : String) (span : Span) (bytes : List UInt8) : Prop :=
  ∃ (tags : List (Option String × String)) (metrics : List (Option String × Float)),
    (tags.map Prod.fst).Nodup ∧
    (∀ key value, (key, value) ∈ tags ↔ span.tags.getTag key = some value) ∧
    (metrics.map Prod.fst).Nodup ∧
    (∀ key value, (key, value) ∈ metrics ↔ span.tags.getMetric key = some value) ∧
    decode bytes = some (span.toValue span.startTime.unixNanoseconds
      (span.duration * nanoSecondsPerTick) (tags ++ addedTags runtimeId span)
      (metrics ++ addedMetrics span))

/-- What the fields are read as. -/
theorem value_fields (runtimeId : String) (span : Span) :
    .map ((fields runtimeId span).map fun e => (e.key, e.value)) =
      span.toValue span.startTime.toUnixTimeNanoseconds (toNanoseconds span.duration)
        (metaPairs runtimeId span) (metricsPairs span) := by
  have htags : ((metaPairs runtimeId span).map tagEntry).map (fun e => (e.key, e.value)) =
      (metaPairs runtimeId span).map tagValue := List.map_map ..
  have hmetrics : ((metricsPairs span).map metricEntry).map (fun e => (e.key, e.value)) =
      (metricsPairs span).map metricValue := List.map_map ..
  unfold Span.toValue
  rw [← htags, ← hmetrics]
  unfold fields
  cases span.parentId with
  | none =>
      cases span.error with
      | false => rfl
      | true => rfl
  | some parentId =>
      cases span.error with
      | false => rfl
      | true => rfl

/-- A span has at most twelve fields, and they are not empty. -/
theorem size_fields (runtimeId : String) (span : Span) :
    (fields runtimeId span).length ≤ 12 ∧
      2 ≤ ((fields runtimeId span).flatMap Entry.bytes).length := by
  constructor
  · rw [← len_eq]
    unfold Span.len
    dsimp only
    split <;> split <;> omega
  · have hmem : field "trace_id" (.int span.traceId.toNat) (writeUInt64 span.traceId.toNat) ∈
        fields runtimeId span := by simp [fields]
    have hle := length_bytes_le_of_mem hmem
    have hname : (utf8 "trace_id").length = 8 := by decide
    have hlt := length_lt_writeStringBytes (utf8 "trace_id")
    rw [Entry.bytes, List.length_append] at hle
    have hkey : (field "trace_id" (.int span.traceId.toNat)
      (writeUInt64 span.traceId.toNat)).keyBytes = writeStringBytes (utf8 "trace_id") := rfl
    rw [hkey] at hle
    omega

/-- What the bytes that were written are read as. -/
theorem decode_serialize (h : span.tags.Custom) {bytes bytes' : List UInt8} {offset size : Nat}
    (hserialize : serialize runtimeId bytes offset span = some (size, bytes')) :
    decode ((bytes'.drop offset).take size) =
      some (span.toValue span.startTime.toUnixTimeNanoseconds (toNanoseconds span.duration)
        (metaPairs runtimeId span) (metricsPairs span)) := by
  have hwrote := wrote_span runtimeId h ⟨bytes, offset⟩
  rw [serialize] at hserialize
  generalize write runtimeId ⟨bytes, offset⟩ span = o at hserialize hwrote
  split at hserialize
  case isFalse => cases hserialize
  case isTrue hsmall =>
    obtain ⟨rfl, rfl⟩ := Prod.mk.inj (Option.some.inj hserialize)
    have hlen := hwrote.offset
    have hle := hwrote.offset_le
    obtain ⟨hcount, hsize⟩ := size_fields runtimeId span
    rw [List.length_append] at hlen
    have hdecodes := decodes_writeMapHeader (show (fields runtimeId span).length < 2 ^ 32 by omega)
      (decodes_fields (by omega))
    have hpos := pos_length_writeMapHeader (fields runtimeId span).length
    rw [hwrote.slice, hdecodes.decode (by rw [List.length_append]; omega), value_fields]

/-- Two spans of one data have one value only if their start times are one. -/
theorem start_of_toValue_eq {start start' duration duration' : Int}
    {tags tags' : List (Option String × String)} {metrics metrics' : List (Option String × Float)}
    (h : span.toValue start duration tags metrics = span.toValue start' duration' tags' metrics') :
    start = start' := by
  unfold Span.toValue at h
  simp only [Value.map.injEq, List.cons_append, List.cons.injEq, Prod.mk.injEq, Value.int.injEq,
    true_and] at h
  exact h.1

/-- The bytes are an encoding of the span exactly if the start time was written. -/
theorem isEncoding_iff (h : span.tags.Built) {bytes bytes' : List UInt8} {offset size : Nat}
    (hlo : -2 ^ 63 ≤ span.duration * nanoSecondsPerTick)
    (hhi : span.duration * nanoSecondsPerTick < 2 ^ 63)
    (hserialize : serialize runtimeId bytes offset span = some (size, bytes')) :
    IsEncoding runtimeId span ((bytes'.drop offset).take size) ↔
      span.startTime.toUnixTimeNanoseconds = span.startTime.unixNanoseconds := by
  have hcustom := h.custom
  have hdecode := decode_serialize hcustom hserialize
  constructor
  · rintro ⟨tags, metrics, -, -, -, -, hencoding⟩
    rw [hdecode] at hencoding
    exact start_of_toValue_eq (Option.some.inj hencoding)
  · intro hstart
    refine ⟨_, _, nodup_pairs hcustom.tags hcustom.nodup_tagKeys, fun key value =>
      mem_pairs hcustom.tags hcustom.nodup_tagKeys, nodup_pairs hcustom.metrics
      hcustom.nodup_metricKeys, fun key value => mem_pairs hcustom.metrics hcustom.nodup_metricKeys,
      ?_⟩
    rw [hdecode, hstart, toNanoseconds, int64_of_range hlo hhi]
    rfl

/-- **The encoding of a span**: the formatter writes one exactly if the start time has no offset to
UTC. -/
theorem serialize_isEncoding_iff (runtimeId : String) (span : Span) (h : span.tags.Built)
    (hstart : -2 ^ 63 ≤ span.startTime.unixNanoseconds ∧ span.startTime.unixNanoseconds < 2 ^ 63)
    (hduration : -2 ^ 63 ≤ span.duration * nanoSecondsPerTick ∧
      span.duration * nanoSecondsPerTick < 2 ^ 63)
    (bytes bytes' : List UInt8) (offset size : Nat)
    (hserialize : serialize runtimeId bytes offset span = some (size, bytes')) :
    IsEncoding runtimeId span ((bytes'.drop offset).take size) ↔
      span.startTime.offsetMinutes = 0 := by
  rw [isEncoding_iff h hduration.1 hduration.2 hserialize]
  exact DateTimeOffset.toUnixTimeNanoseconds_eq_iff hstart.1 hstart.2

/-- A root span of one second that was started at midnight of 1 January 2020, on a clock that is
set ahead of UTC. -/
def midnightSpan (offsetMinutes : Int) (h : -840 ≤ offsetMinutes ∧ offsetMinutes ≤ 840) : Span where
  traceId := 1
  spanId := 2
  parent := none
  origin := none
  operationName := some "web.request"
  resourceName := some "GET /"
  serviceName := some "web"
  type := some "web"
  startTime := ⟨637134336000000000 - offsetMinutes * 600000000, offsetMinutes, h⟩
  duration := 10000000
  error := false
  tags := { type := TagsClass.common.type, tagValues := fun _ => none, metricValues := fun _ => none }

theorem serialize_isEncoding_midnight_utc :
    ∃ size bytes, serialize "id" [] 0 (midnightSpan 0 (by decide)) = some (size, bytes) ∧
      (IsEncoding "id" (midnightSpan 0 (by decide)) ((bytes.drop 0).take size) ↔
        (midnightSpan 0 (by decide)).startTime.offsetMinutes = 0) := by
  have hsome : (serialize "id" [] 0 (midnightSpan 0 (by decide))).isSome := by decide +kernel
  obtain ⟨⟨size, bytes⟩, hserialize⟩ := Option.isSome_iff_exists.mp hsome
  exact ⟨size, bytes, hserialize, serialize_isEncoding_iff "id" _ (.new .common _ _) (by decide)
    (by decide) [] bytes 0 size hserialize⟩

/-- Two hours ahead of UTC, the start time that is written is two hours late. -/
theorem serialize_not_isEncoding_midnight :
    (midnightSpan 120 (by decide)).tags.Built ∧
    (midnightSpan 120 (by decide)).startTime.unixNanoseconds = 1577829600000000000 ∧
    (midnightSpan 120 (by decide)).duration * nanoSecondsPerTick = 1000000000 ∧
    ∃ size bytes, serialize "id" [] 0 (midnightSpan 120 (by decide)) = some (size, bytes) ∧
      ¬ IsEncoding "id" (midnightSpan 120 (by decide)) ((bytes.drop 0).take size) := by
  refine ⟨.new .common _ _, by decide, by decide, ?_⟩
  have hsome : (serialize "id" [] 0 (midnightSpan 120 (by decide))).isSome := by decide +kernel
  obtain ⟨⟨size, bytes⟩, hserialize⟩ := Option.isSome_iff_exists.mp hsome
  refine ⟨size, bytes, hserialize, ?_⟩
  rw [isEncoding_iff (.new .common _ _) (by decide) (by decide) hserialize]
  decide

end DdTrace.Agent.MessagePack
