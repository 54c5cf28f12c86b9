import DdTrace.Tracing.SamplingDecision
import DdTrace.Agent.SpanFormatter

/-!
# The keys of an encoded span

The keys in the maps of a span have four sources: the custom entries, the properties of the tags
class, the origin of the trace, and what the formatter adds to a top-level span. `SetTag` keeps the
first three apart. Nothing keeps a custom entry apart from the last.

* `Call`: what a program calls on a span to change its tags, up to its end and after it.
* `KeyState`: which of the keys that the formatter adds are the keys of custom entries.
* `DistinctKeys`: what the encoding promises its reader: no map has a key twice.
* `distinctKeys_iff`: the exact condition on the calls.

Sources: `Span.cs`, `SetTag`, `SetMetric`, `Finish`; `TraceContext.cs`, `CloseSpan`;
`Tagging/TagsList.cs`.
-/

namespace DdTrace.Agent.MessagePack

open DdTrace.Lib DdTrace.Lib.MessagePack DdTrace.Tracing

/-! ## Calls on a span -/

/-- A call on a span that changes its tags. -/
inductive Call where
  /-- `span.SetTag`. -/
  | setTag (key value : Option String)
  /-- `span.SetMetric`. -/
  | setMetric (key : Option String) (value : Option Float)
  /-- The setters of the properties of `span.Tags`. -/
  | setProperties (tagValues : String → Option String) (metricValues : String → Option Float)
  /-- `span.Finish`. -/
  | finish (duration : Int)

/-- Execute a call. A key that is null is no tag with special meaning. -/
def Call.exec (tracer : Tracer) (span : SpanRef) (s : TraceState) : Call → Option TraceState
  | setTag (some key) value => some (s.setTag tracer span key value)
  | setTag none value =>
      if (s.objects span).isFinished then some s
      else some (s.modifySpan span fun sp => { sp with tags := sp.tags.setTag none value })
  | setMetric key value =>
      some (s.modifySpan span fun sp => { sp with tags := sp.tags.setMetric key value })
  | setProperties tagValues metricValues =>
      some (s.modifySpan span fun sp =>
        { sp with tags :=
            { sp.tags with tagValues := tagValues, metricValues := metricValues } })
  | finish duration => s.finish tracer span duration

/-- The value that calls give to a tag with no special meaning: that of the last `SetTag` with its
key before the end of the span. -/
def tagGiven (key : String) (value : Option String) : List Call → Option String
  | [] => value
  | .setTag key' value' :: calls =>
      tagGiven key (if key' = some key then value' else value) calls
  | .finish _ :: _ => value
  | .setMetric _ _ :: calls => tagGiven key value calls
  | .setProperties _ _ :: calls => tagGiven key value calls

/-- The value that calls give to a metric: that of the last `SetMetric` with its key. -/
def metricGiven (key : String) (value : Option Float) : List Call → Option Float
  | [] => value
  | .setMetric key' value' :: calls =>
      metricGiven key (if key' = some key then value' else value) calls
  | .setTag _ _ :: calls => metricGiven key value calls
  | .finish _ :: calls => metricGiven key value calls
  | .setProperties _ _ :: calls => metricGiven key value calls

/-- What the formatter reads of the parent of a span. -/
def parentContext (s : TraceState) : ISpanContext → ParentContext
  | .propagated context => ⟨context.spanId, context.serviceName⟩
  | .ofSpan span => ⟨(s.objects span).context.spanId, (s.objects span).context.serviceName⟩
  | .other _ spanId serviceName => ⟨spanId, serviceName⟩

/-- What the formatter reads of a span object, with the properties that the trace does not use. -/
def ofObject (s : TraceState) (span : SpanRef) (type : Option String) (startTime : DateTimeOffset)
    (error : Bool) : Span where
  traceId := (s.objects span).context.traceId
  spanId := (s.objects span).context.spanId
  parent := (s.objects span).parent.map (parentContext s)
  origin := (s.objects span).context.origin
  operationName := (s.objects span).operationName
  resourceName := (s.objects span).resourceName
  serviceName := (s.objects span).context.serviceName
  type := type
  startTime := startTime
  duration := (s.objects span).duration
  error := error
  tags := (s.objects span).tags

/-- A span whose tags nobody has set yet. -/
structure Fresh (s : TraceState) (span : SpanRef) : Prop where
  isFinished : (s.objects span).isFinished = false
  tags : ∃ (c : TagsClass) (tagValues : String → Option String)
    (metricValues : String → Option Float), (s.objects span).tags =
      { type := c.type, tagValues := tagValues, metricValues := metricValues }

/-! ## What a call does to the keys -/

@[simp] theorem objects_modifySpan (s : TraceState) (span : SpanRef)
    (f : Tracing.Span → Tracing.Span) :
    (s.modifySpan span f).objects span = f (s.objects span) := by
  simp [TraceState.modifySpan]

/-- No class has a property with a key that the formatter adds. -/
theorem added_notMem_keys (c : TagsClass) :
    runtimeIdKey ∉ c.type.tagKeys ∧ topLevelKey ∉ c.type.metricKeys := by
  cases c <;> decide

section TagsList

variable {t : TagsList} {key : Option String} {other : String}

/-- A key that selects a property is none that no property has. -/
theorem ne_of_find?_key {table : List Property} {p : Property}
    (hfind : (table.find? fun p => p.key == key) = some p)
    (hother : other ∉ table.map Property.key) : key ≠ some other := by
  rintro rfl
  have hkey : p.key = other := by simpa using List.find?_some hfind
  apply hother
  rw [← hkey]
  exact List.mem_map_of_mem (List.mem_of_find?_eq_some hfind)

/-- The custom tags after `SetTag`, seen from a key that is no property's. -/
theorem mem_keys_setTag (h : t.Custom) (hother : other ∉ t.type.tagKeys) (value : Option String) :
    some other ∈ (t.setTag key value).tags.map Prod.fst ↔
      if key = some other then value ≠ none else some other ∈ t.tags.map Prod.fst := by
  unfold TagsList.setTag
  cases hfind : t.type.additionalTags.find? fun p => p.key == key with
  | some p =>
      rw [if_neg (ne_of_find?_key hfind hother)]
      simp only
      split
      · rfl
      · rfl
  | none =>
      rw [mem_keys_setEntry h.tags.nodup]
      simp only [eq_comm]

/-- The custom metrics after `SetMetric`, seen from a key that is no property's. -/
theorem mem_keys_setMetric (h : t.Custom) (hother : other ∉ t.type.metricKeys)
    (value : Option Float) : some other ∈ (t.setMetric key value).metrics.map Prod.fst ↔
      if key = some other then value ≠ none else some other ∈ t.metrics.map Prod.fst := by
  unfold TagsList.setMetric
  cases hfind : t.type.additionalMetrics.find? fun p => p.key == key with
  | some p =>
      rw [if_neg (ne_of_find?_key hfind hother)]
      simp only
      split
      · rfl
      · rfl
  | none =>
      rw [mem_keys_setEntry h.metrics.nodup]
      simp only [eq_comm]

theorem metrics_setTag (value : Option String) : (t.setTag key value).metrics = t.metrics := by
  unfold TagsList.setTag
  split
  · split
    · rfl
    · rfl
  · rfl

theorem tags_setMetric (value : Option Float) : (t.setMetric key value).tags = t.tags := by
  unfold TagsList.setMetric
  split
  · split
    · rfl
    · rfl
  · rfl

end TagsList

/-- Which of the keys that the formatter adds are the keys of custom entries: those that were given
a value, and never the origin. -/
structure KeyState (t : TagsList) (runtimeId : Option String) (topLevel : Option Float) : Prop where
  custom : t.Custom
  origin : some Tags.origin ∉ t.tags.map Prod.fst
  runtimeId : some runtimeIdKey ∈ t.tags.map Prod.fst ↔ runtimeId ≠ none
  topLevel : some topLevelKey ∈ t.metrics.map Prod.fst ↔ topLevel ≠ none

namespace KeyState

variable {t : TagsList} {runtimeId : Option String} {topLevel : Option Float} {key : Option String}

theorem runtimeId_notMem (h : KeyState t runtimeId topLevel) : runtimeIdKey ∉ t.type.tagKeys := by
  obtain ⟨c, hc⟩ := h.custom.type
  rw [hc]
  exact (added_notMem_keys c).1

theorem topLevel_notMem (h : KeyState t runtimeId topLevel) :
    topLevelKey ∉ t.type.metricKeys := by
  obtain ⟨c, hc⟩ := h.custom.type
  rw [hc]
  exact (added_notMem_keys c).2

theorem origin_notMem (h : KeyState t runtimeId topLevel) : Tags.origin ∉ t.type.tagKeys := by
  obtain ⟨c, hc⟩ := h.custom.type
  rw [hc]
  exact origin_notMem_tagKeys c

/-- Setting a tag that is not the origin. -/
theorem setTag (h : KeyState t runtimeId topLevel) (hkey : key ≠ some Tags.origin)
    (value : Option String) : KeyState (t.setTag key value)
      (if key = some runtimeIdKey then value else runtimeId) topLevel := by
  refine ⟨h.custom.setTag key value, ?_, ?_, ?_⟩
  · rw [mem_keys_setTag h.custom h.origin_notMem, if_neg hkey]
    exact h.origin
  · rw [mem_keys_setTag h.custom h.runtimeId_notMem]
    split
    · rfl
    · exact h.runtimeId
  · rw [metrics_setTag]
    exact h.topLevel

/-- Setting a metric. -/
theorem setMetric (h : KeyState t runtimeId topLevel) (key : Option String)
    (value : Option Float) : KeyState (t.setMetric key value) runtimeId
      (if key = some topLevelKey then value else topLevel) := by
  refine ⟨h.custom.setMetric key value, ?_, ?_, ?_⟩
  · rw [tags_setMetric]
    exact h.origin
  · rw [tags_setMetric]
    exact h.runtimeId
  · rw [mem_keys_setMetric h.custom h.topLevel_notMem]
    split
    · rfl
    · exact h.topLevel

/-- Setting a metric that the formatter does not add. -/
theorem setMetric_of_ne (h : KeyState t runtimeId topLevel) (hkey : key ≠ some topLevelKey)
    (value : Option Float) : KeyState (t.setMetric key value) runtimeId topLevel := by
  have hset := h.setMetric key value
  rwa [if_neg hkey] at hset

theorem setProperties (h : KeyState t runtimeId topLevel) (tagValues : String → Option String)
    (metricValues : String → Option Float) :
    KeyState { t with tagValues := tagValues, metricValues := metricValues } runtimeId topLevel :=
  ⟨⟨h.custom.type, h.custom.tags, h.custom.metrics⟩, h.origin, h.runtimeId, h.topLevel⟩

end KeyState

/-- A change that leaves the keys alone which the formatter adds. -/
inductive Aside (t : TagsList) : TagsList → Prop where
  | refl : Aside t t
  | setMetric {key : String} (hkey : key ≠ topLevelKey) (value : Option Float) :
      Aside t (t.setMetric (some key) value)
  | setProperties (tagValues : String → Option String) (metricValues : String → Option Float) :
      Aside t { t with tagValues := tagValues, metricValues := metricValues }

theorem KeyState.aside {t t' : TagsList} {runtimeId : Option String} {topLevel : Option Float}
    (h : KeyState t runtimeId topLevel) (haside : Aside t t') : KeyState t' runtimeId topLevel := by
  cases haside with
  | refl => exact h
  | setMetric hkey value => exact h.setMetric_of_ne (fun heq => hkey (Option.some.inj heq)) value
  | setProperties tagValues metricValues => exact h.setProperties tagValues metricValues

section Trace

variable {tracer : Tracer} {s u : TraceState} {span : SpanRef}

/-- **What `SetTag` does to the tags of a span that is not finished**: it sets a tag with no special
meaning; any other it turns into a metric at most. -/
theorem tags_setTag (tracer : Tracer) (s : TraceState) (span : SpanRef) (key : String)
    (value : Option String) (hf : (s.objects span).isFinished = false) :
    (key ≠ Tags.origin ∧ ((s.setTag tracer span key value).objects span).tags =
      (s.objects span).tags.setTag (some key) value) ∨
    (key ≠ runtimeIdKey ∧
      Aside (s.objects span).tags ((s.setTag tracer span key value).objects span).tags) := by
  have hmetric : ∀ {name : String}, name ≠ topLevelKey → ∀ v : Option Float,
      Aside (s.objects span).tags ((s.setMetric span name v).objects span).tags := by
    intro name hname v
    rw [TraceState.setMetric, objects_modifySpan]
    exact .setMetric hname v
  have hpriority : ∀ p : SamplingPriority,
      Aside (s.objects span).tags ((s.setTraceSamplingPriority p).objects span).tags :=
    fun _ => .refl
  unfold TraceState.setTag
  rw [if_neg (by simp [hf])]
  by_cases horigin : key = Tags.origin
  · rw [if_pos horigin, objects_modifySpan, horigin]
    exact Or.inr ⟨by decide, .refl⟩
  rw [if_neg horigin]
  by_cases hruntimeId : key = runtimeIdKey
  · -- the key has no special meaning
    subst hruntimeId
    refine Or.inl ⟨horigin, ?_⟩
    rw [if_neg (by decide), if_neg (by decide), if_neg (by decide), if_neg (by decide),
      if_neg (by decide), objects_modifySpan]
  by_cases hsampling : key = Tags.samplingPriority
  · refine Or.inr ⟨hruntimeId, ?_⟩
    rw [if_pos hsampling]
    split
    · split
      · exact hpriority _
      · exact .refl
    · exact .refl
  rw [if_neg hsampling]
  by_cases hkeep : key = Tags.forceKeep ∨ key = Tags.manualKeep
  · refine Or.inr ⟨hruntimeId, ?_⟩
    rw [if_pos hkeep]
    split
    · exact hpriority _
    · exact .refl
  rw [if_neg hkeep]
  by_cases hdrop : key = Tags.forceDrop ∨ key = Tags.manualDrop
  · refine Or.inr ⟨hruntimeId, ?_⟩
    rw [if_pos hdrop]
    split
    · exact hpriority _
    · exact .refl
  rw [if_neg hdrop]
  by_cases hanalytics : key = Tags.analytics
  · refine Or.inr ⟨hruntimeId, ?_⟩
    have hname : Tags.analytics ≠ topLevelKey := by decide
    rw [if_pos hanalytics]
    split
    · exact hmetric hname _
    · split
      · exact hmetric hname _
      · split
        · exact hmetric hname _
        · exact hmetric hname _
        · split
          · exact hmetric hname _
          · exact .refl
  rw [if_neg hanalytics]
  by_cases hmeasured : key = Tags.measured
  · refine Or.inr ⟨hruntimeId, ?_⟩
    have hname : Tags.measured ≠ topLevelKey := by decide
    rw [if_pos hmeasured]
    split
    · exact hmetric hname _
    · split
      · exact hmetric hname _
      · split
        · exact hmetric hname _
        · exact hmetric hname _
        · exact .refl
  · rw [if_neg hmeasured, objects_modifySpan]
    exact Or.inl ⟨horigin, rfl⟩

/-- Publishing the priority of a trace sets no metric that the formatter adds. -/
theorem aside_publishSamplingPriority (s : TraceState) (span : SpanRef) :
    Aside (s.objects span).tags ((s.publishSamplingPriority span).objects span).tags := by
  have hname : Metrics.samplingPriority ≠ topLevelKey := by decide
  have hlock : (s.modifyContext TraceContext.lockSamplingPriority).objects span =
      s.objects span := rfl
  unfold TraceState.publishSamplingPriority
  simp only
  rw [← hlock]
  generalize s.modifyContext TraceContext.lockSamplingPriority = t
  split
  · exact .refl
  · split
    · rw [objects_modifySpan]
      exact .setProperties _ _
    · rw [TraceState.setMetric, objects_modifySpan]
      exact .setMetric hname _

/-- The end of a span sets no key that the formatter adds. -/
theorem aside_finish {duration : Int} (h : s.finish tracer span duration = some u) :
    (u.objects span).isFinished = true ∧ Aside (s.objects span).tags (u.objects span).tags := by
  unfold TraceState.finish at h
  simp only [objects_modifySpan] at h
  split at h
  case isTrue hf =>
    obtain rfl := Option.some.inj h
    rw [objects_modifySpan]
    exact ⟨hf, .refl⟩
  case isFalse hf =>
    unfold TraceState.closeSpan at h
    simp only at h
    obtain ⟨hobjects, -, -, -⟩ := TraceState.collectSpan_frame h
    rw [hobjects]
    generalize hv : TraceState.modifySpan (s.modifySpan span _) span _ = v
    have hfinished : (v.objects span).isFinished = true := by
      rw [← hv, objects_modifySpan]
    have htags : (v.objects span).tags = (s.objects span).tags := by
      rw [← hv, objects_modifySpan, objects_modifySpan]
    rw [← htags]
    split
    · refine ⟨?_, aside_publishSamplingPriority v span⟩
      rw [(TraceState.publishSamplingPriority_spec v span).1.finished]
      exact hfinished
    · exact ⟨hfinished, .refl⟩

/-! ## What a run does to the keys -/

variable {runtimeId : Option String} {topLevel : Option Float}

/-- A call after the end of the span. -/
theorem keyState_exec_finished {call : Call} (hstep : call.exec tracer span s = some u)
    (h : KeyState (s.objects span).tags runtimeId topLevel)
    (hf : (s.objects span).isFinished = true) : (u.objects span).isFinished = true ∧
      KeyState (u.objects span).tags runtimeId (metricGiven topLevelKey topLevel [call]) := by
  cases call with
  | setTag key value =>
      have hsame : u = s := by
        cases key with
        | none => simpa [Call.exec, hf] using hstep.symm
        | some key => simpa [Call.exec, TraceState.setTag, hf] using hstep.symm
      rw [hsame]
      exact ⟨hf, h⟩
  | setMetric key value =>
      obtain rfl := Option.some.inj hstep
      rw [objects_modifySpan]
      exact ⟨hf, h.setMetric key value⟩
  | setProperties tagValues metricValues =>
      obtain rfl := Option.some.inj hstep
      rw [objects_modifySpan]
      exact ⟨hf, h.setProperties tagValues metricValues⟩
  | finish duration =>
      obtain ⟨hfinished, haside⟩ := aside_finish hstep
      exact ⟨hfinished, h.aside haside⟩

/-- A call before the end of the span. -/
theorem keyState_exec {call : Call} (hstep : call.exec tracer span s = some u)
    (h : KeyState (s.objects span).tags runtimeId topLevel)
    (hf : (s.objects span).isFinished = false) :
    ((u.objects span).isFinished = true ↔ ∃ duration, call = .finish duration) ∧
      KeyState (u.objects span).tags (tagGiven runtimeIdKey runtimeId [call])
        (metricGiven topLevelKey topLevel [call]) := by
  cases call with
  | setTag key value =>
      have hopen : ∀ b : Bool, b = false → (b = true ↔ ∃ duration, Call.setTag key value =
          .finish duration) := by simp
      cases key with
      | none =>
          rw [Call.exec, if_neg (by simp [hf])] at hstep
          obtain rfl := Option.some.inj hstep
          rw [objects_modifySpan]
          exact ⟨hopen _ hf, h.setTag (by simp) value⟩
      | some key =>
          obtain rfl := Option.some.inj hstep
          refine ⟨hopen _ ?_, ?_⟩
          · rw [(TraceState.setTag_spec tracer s span key value).1.finished, hf]
          · rcases tags_setTag tracer s span key value hf with ⟨hne, htags⟩ | ⟨hne, haside⟩
            · rw [htags]
              exact h.setTag (fun heq => hne (Option.some.inj heq)) value
            · rw [tagGiven, if_neg fun heq => hne (Option.some.inj heq)]
              exact h.aside haside
  | setMetric key value =>
      obtain rfl := Option.some.inj hstep
      rw [objects_modifySpan]
      exact ⟨by simp [hf], h.setMetric key value⟩
  | setProperties tagValues metricValues =>
      obtain rfl := Option.some.inj hstep
      rw [objects_modifySpan]
      exact ⟨by simp [hf], h.setProperties tagValues metricValues⟩
  | finish duration =>
      obtain ⟨hfinished, haside⟩ := aside_finish hstep
      exact ⟨by simp [hfinished], h.aside haside⟩

theorem metricGiven_cons (key : String) (value : Option Float) (call : Call) (calls : List Call) :
    metricGiven key value (call :: calls) =
      metricGiven key (metricGiven key value [call]) calls := by
  cases call with
  | setTag key' value' => rfl
  | setMetric key' value' => rfl
  | setProperties tagValues metricValues => rfl
  | finish duration => rfl

/-- A run after the end of the span. -/
theorem keyState_run_finished {calls : List Call}
    (hrun : runOps (Call.exec tracer span) s calls = some u)
    (h : KeyState (s.objects span).tags runtimeId topLevel)
    (hf : (s.objects span).isFinished = true) :
    KeyState (u.objects span).tags runtimeId (metricGiven topLevelKey topLevel calls) := by
  induction calls generalizing s topLevel with
  | nil =>
      obtain rfl := Option.some.inj hrun
      exact h
  | cons call calls ih =>
      obtain ⟨t, hstep, hrun⟩ := Option.bind_eq_some_iff.mp hrun
      obtain ⟨hfinished, ht⟩ := keyState_exec_finished hstep h hf
      rw [metricGiven_cons]
      exact ih hrun ht hfinished

/-- **A run**: the keys of custom entries are those that were given a value. -/
theorem keyState_run {calls : List Call}
    (hrun : runOps (Call.exec tracer span) s calls = some u)
    (h : KeyState (s.objects span).tags runtimeId topLevel)
    (hf : (s.objects span).isFinished = false) :
    KeyState (u.objects span).tags (tagGiven runtimeIdKey runtimeId calls)
      (metricGiven topLevelKey topLevel calls) := by
  induction calls generalizing s runtimeId topLevel with
  | nil =>
      obtain rfl := Option.some.inj hrun
      exact h
  | cons call calls ih =>
      obtain ⟨t, hstep, hrest⟩ := Option.bind_eq_some_iff.mp hrun
      obtain ⟨hfinished, ht⟩ := keyState_exec hstep h hf
      rw [metricGiven_cons]
      have hopen : (¬ ∃ duration, call = .finish duration) → (t.objects span).isFinished = false :=
        fun hno => by simpa [hno] using hfinished
      cases call with
      | setTag key value => exact ih hrest ht (hopen (by simp))
      | setMetric key value => exact ih hrest ht (hopen (by simp))
      | setProperties tagValues metricValues => exact ih hrest ht (hopen (by simp))
      | finish duration => exact keyState_run_finished hrest ht (hfinished.mpr ⟨duration, rfl⟩)

/-- The keys of a fresh span. -/
theorem Fresh.keyState (h : Fresh s span) : KeyState (s.objects span).tags none none := by
  obtain ⟨c, tagValues, metricValues, htags⟩ := h.tags
  rw [htags]
  exact ⟨(TagsList.Built.new c tagValues metricValues).custom, by simp, by simp, by simp⟩

end Trace

/-! ## The keys that are written -/

/-- No map of the encoding has a key twice: the bytes are read as a map with one map of tags and one
map of metrics, each with distinct keys. -/
def DistinctKeys (bytes : List UInt8) : Prop :=
  ∃ (fields tags metrics : List (Value × Value)), decode bytes = some (.map fields) ∧
    (.str "meta", .map tags) ∈ fields ∧ (tags.map Prod.fst).Nodup ∧
    (.str "metrics", .map metrics) ∈ fields ∧ (metrics.map Prod.fst).Nodup

theorem ofString_injective : Function.Injective ofString := by
  intro a b h
  cases a with
  | none =>
      cases b with
      | none => rfl
      | some w => cases h
  | some v =>
      cases b with
      | none => cases h
      | some w =>
          obtain rfl := Value.str.inj h
          rfl

section Keys

variable {runtimeId : String} {span : Span}

/-- The bytes have distinct keys exactly if the tags and the metrics have. -/
theorem distinctKeys_iff_pairs (h : span.tags.Custom) {bytes bytes' : List UInt8}
    {offset size : Nat}
    (hserialize : serialize runtimeId bytes offset span = some (size, bytes')) :
    DistinctKeys ((bytes'.drop offset).take size) ↔
      ((metaPairs runtimeId span).map Prod.fst).Nodup ∧
        ((metricsPairs span).map Prod.fst).Nodup := by
  have htags : ((metaPairs runtimeId span).map tagValue).map Prod.fst =
      ((metaPairs runtimeId span).map Prod.fst).map ofString := by
    simp only [List.map_map]
    rfl
  have hmetrics : ((metricsPairs span).map metricValue).map Prod.fst =
      ((metricsPairs span).map Prod.fst).map ofString := by
    simp only [List.map_map]
    rfl
  rw [← List.nodup_map_iff ofString_injective, ← htags,
    ← List.nodup_map_iff (l := (metricsPairs span).map Prod.fst) ofString_injective, ← hmetrics,
    DistinctKeys, decode_serialize h hserialize]
  unfold Span.toValue
  constructor
  · rintro ⟨fields, tags, metrics, hfields, hmeta, hnodupTags, hmetric, hnodupMetrics⟩
    obtain rfl := Value.map.inj (Option.some.inj hfields)
    simp at hmeta hmetric
    rw [hmeta] at hnodupTags
    rw [hmetric] at hnodupMetrics
    exact ⟨hnodupTags, hnodupMetrics⟩
  · rintro ⟨hnodupTags, hnodupMetrics⟩
    exact ⟨_, _, _, rfl, by simp, hnodupTags, by simp, hnodupMetrics⟩

/-- Entries that are added to the visible ones have further keys exactly if none is the key of a
custom entry. -/
theorem nodup_pairs_append_iff {α : Type} {table : List Property} {values : String → Option α}
    {entries added : List (Option String × α)} (h : CustomKeys table entries)
    (hnodup : (table.map Property.key).Nodup) (hadded : (added.map Prod.fst).Nodup)
    (hproperty : ∀ p ∈ table, some p.key ∉ added.map Prod.fst) :
    ((entries ++ propertyPairs table values ++ added).map Prod.fst).Nodup ↔
      ∀ key ∈ added.map Prod.fst, key ∉ entries.map Prod.fst := by
  have hvisible : ((entries ++ propertyPairs table values).map Prod.fst).Nodup :=
    nodup_pairs h hnodup
  rw [List.map_append, List.nodup_append, List.map_append]
  rw [List.map_append] at hvisible
  constructor
  · rintro ⟨-, -, hdisjoint⟩ key hkey hmem
    exact hdisjoint key (List.mem_append_left _ hmem) key hkey rfl
  · intro hcustom
    refine ⟨hvisible, hadded, ?_⟩
    rintro key hmem _ hkey rfl
    rcases List.mem_append.mp hmem with hmem | hmem
    · exact hcustom key hkey hmem
    · obtain ⟨p, hp, rfl⟩ := mem_keys_propertyPairs hmem
      exact hproperty p hp hkey

theorem mem_keys_addedTags {key : Option String} :
    key ∈ (addedTags runtimeId span).map Prod.fst ↔
      (span.isTopLevel = true ∧ key = some runtimeIdKey) ∨
        (span.origin?.isSome ∧ key = some Tags.origin) := by
  unfold addedTags
  cases span.isTopLevel <;> cases span.origin? <;> simp

theorem mem_keys_addedMetrics {key : Option String} :
    key ∈ (addedMetrics span).map Prod.fst ↔ span.isTopLevel = true ∧ key = some topLevelKey := by
  unfold addedMetrics
  cases span.isTopLevel <;> simp

theorem nodup_keys_addedTags : ((addedTags runtimeId span).map Prod.fst).Nodup := by
  have hne : runtimeIdKey ≠ Tags.origin := by decide
  unfold addedTags
  cases span.isTopLevel <;> cases span.origin? <;> simp [hne]

theorem nodup_keys_addedMetrics : ((addedMetrics span).map Prod.fst).Nodup := by
  unfold addedMetrics
  cases span.isTopLevel <;> simp

variable {given : Option String} {givenTopLevel : Option Float}

/-- The tags have distinct keys exactly if a top-level span was given no tag `runtime-id`. -/
theorem nodup_metaPairs_iff (h : KeyState span.tags given givenTopLevel) :
    ((metaPairs runtimeId span).map Prod.fst).Nodup ↔
      (span.isTopLevel = true → given = none) := by
  have hproperty : ∀ p ∈ span.tags.type.additionalTags,
      some p.key ∉ (addedTags runtimeId span).map Prod.fst := by
    intro p hp hmem
    have hkey : p.key ∈ span.tags.type.tagKeys := List.mem_map_of_mem hp
    rcases mem_keys_addedTags.mp hmem with ⟨-, heq⟩ | ⟨-, heq⟩
    · rw [Option.some.inj heq] at hkey
      exact h.runtimeId_notMem hkey
    · rw [Option.some.inj heq] at hkey
      exact h.origin_notMem hkey
  rw [metaPairs, nodup_pairs_append_iff h.custom.tags h.custom.nodup_tagKeys nodup_keys_addedTags
    hproperty]
  constructor
  · intro hdisjoint htop
    have hnotin := hdisjoint _ (mem_keys_addedTags.mpr (Or.inl ⟨htop, rfl⟩))
    rwa [h.runtimeId, not_not] at hnotin
  · intro hgiven key hkey
    rcases mem_keys_addedTags.mp hkey with ⟨htop, rfl⟩ | ⟨-, rfl⟩
    · rw [h.runtimeId, not_not]
      exact hgiven htop
    · exact h.origin

/-- The metrics have distinct keys exactly if a top-level span was given no metric
`_dd.top_level`. -/
theorem nodup_metricsPairs_iff (h : KeyState span.tags given givenTopLevel) :
    ((metricsPairs span).map Prod.fst).Nodup ↔
      (span.isTopLevel = true → givenTopLevel = none) := by
  have hproperty : ∀ p ∈ span.tags.type.additionalMetrics,
      some p.key ∉ (addedMetrics span).map Prod.fst := by
    intro p hp hmem
    have hkey : p.key ∈ span.tags.type.metricKeys := List.mem_map_of_mem hp
    rw [Option.some.inj (mem_keys_addedMetrics.mp hmem).2] at hkey
    exact h.topLevel_notMem hkey
  rw [metricsPairs, nodup_pairs_append_iff h.custom.metrics h.custom.nodup_metricKeys
    nodup_keys_addedMetrics hproperty]
  constructor
  · intro hdisjoint htop
    have hnotin := hdisjoint _ (mem_keys_addedMetrics.mpr ⟨htop, rfl⟩)
    rwa [h.topLevel, not_not] at hnotin
  · intro hgiven key hkey
    obtain ⟨htop, rfl⟩ := mem_keys_addedMetrics.mp hkey
    rw [h.topLevel, not_not]
    exact hgiven htop

end Keys

/-- **The keys of an encoded span** are distinct exactly if the span is not at top level, or the calls
on it left it without a tag `runtime-id` and without a metric `_dd.top_level`. -/
theorem distinctKeys_iff (tracer : Tracer) (s t : TraceState) (span : SpanRef)
    (hfresh : Fresh s span) (calls : List Call)
    (hrun : runOps (Call.exec tracer span) s calls = some t) (runtimeId : String)
    (type : Option String) (startTime : DateTimeOffset) (error : Bool)
    (bytes bytes' : List UInt8) (offset size : Nat)
    (hserialize : serialize runtimeId bytes offset (ofObject t span type startTime error) =
      some (size, bytes')) :
    DistinctKeys ((bytes'.drop offset).take size) ↔
      ((ofObject t span type startTime error).isTopLevel = true →
        tagGiven runtimeIdKey none calls = none ∧ metricGiven topLevelKey none calls = none) := by
  have hkeys : KeyState (ofObject t span type startTime error).tags
      (tagGiven runtimeIdKey none calls) (metricGiven topLevelKey none calls) :=
    keyState_run hrun hfresh.keyState hfresh.isFinished
  rw [distinctKeys_iff_pairs hkeys.custom hserialize, nodup_metaPairs_iff hkeys,
    nodup_metricsPairs_iff hkeys, forall_and]

/-- A tracer with no settings. -/
def plainTracer : Tracer where
  sampler := none
  partialFlushEnabled := false
  partialFlushMinSpans := 0
  globalTags := []
  environment := none
  serviceVersion := none
  defaultServiceName := "web"
  azureAppServices := none
  doubleTryParse := fun _ => none

/-- A trace with a root span that was just started. -/
def rootTrace : TraceState where
  heap := []
  objects _ :=
    { context := { traceId := 1, spanId := 2, serviceName := some "web" }
      parent := none
      tags := { type := TagsClass.common.type }
      operationName := some "web.request" }
  allocated := 1
  context := { rootSpan := some 0, openSpans := 1 }

theorem fresh_rootTrace : Fresh rootTrace 0 :=
  ⟨rfl, .common, fun _ => none, fun _ => none, rfl⟩

theorem utc_range : -840 ≤ (0 : Int) ∧ (0 : Int) ≤ 840 := by decide

/-- Midnight of 1 January 2020 in UTC. -/
def midnight : DateTimeOffset := ⟨637134336000000000, 0, utc_range⟩

theorem distinctKeys_setComponent :
    ∃ size bytes, serialize "id" [] 0
        (ofObject (rootTrace.setTag plainTracer 0 "component" (some "mine")) 0 none midnight false) =
          some (size, bytes) ∧
      DistinctKeys ((bytes.drop 0).take size) := by
  have hsome : (serialize "id" [] 0 (ofObject
      (rootTrace.setTag plainTracer 0 "component" (some "mine")) 0 none midnight false)).isSome := by
    decide +kernel
  obtain ⟨⟨size, bytes⟩, hserialize⟩ := Option.isSome_iff_exists.mp hsome
  refine ⟨size, bytes, hserialize, ?_⟩
  exact (distinctKeys_iff plainTracer rootTrace _ 0 fresh_rootTrace
    [.setTag (some "component") (some "mine")] rfl "id" none midnight false [] bytes 0 size
    hserialize).mpr fun _ => ⟨by decide, rfl⟩

/-- A root span with a tag `runtime-id` is written with this tag twice. -/
theorem not_distinctKeys_setRuntimeId :
    Fresh rootTrace 0 ∧
    runOps (Call.exec plainTracer 0) rootTrace [.setTag (some "runtime-id") (some "mine")] =
      some (rootTrace.setTag plainTracer 0 "runtime-id" (some "mine")) ∧
    ∃ size bytes, serialize "id" [] 0
        (ofObject (rootTrace.setTag plainTracer 0 "runtime-id" (some "mine")) 0 none midnight
          false) = some (size, bytes) ∧
      ¬ DistinctKeys ((bytes.drop 0).take size) := by
  have hsome : (serialize "id" [] 0 (ofObject
      (rootTrace.setTag plainTracer 0 "runtime-id" (some "mine")) 0 none midnight
        false)).isSome := by
    decide +kernel
  obtain ⟨⟨size, bytes⟩, hserialize⟩ := Option.isSome_iff_exists.mp hsome
  refine ⟨fresh_rootTrace, rfl, size, bytes, hserialize, ?_⟩
  have hrun : runOps (Call.exec plainTracer 0) rootTrace
      [.setTag (some "runtime-id") (some "mine")] =
        some (rootTrace.setTag plainTracer 0 "runtime-id" (some "mine")) := rfl
  have hkeys := keyState_run hrun fresh_rootTrace.keyState fresh_rootTrace.isFinished
  rw [distinctKeys_iff_pairs hkeys.custom hserialize, nodup_metaPairs_iff hkeys]
  rintro ⟨hgiven, -⟩
  exact absurd (hgiven rfl) (by decide)

end DdTrace.Agent.MessagePack
