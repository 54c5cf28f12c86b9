import Mathlib.Data.List.Basic
import Mathlib.Tactic.Common

/-!
# The tags of a span

A `TagsList` keeps the tags and metrics of a span in two places: properties of the concrete tags
class, found by key in a table that belongs to the class, and lists of custom entries. Reading and
writing go through the table first and through the list only for keys that the table does not
have. `TagsType` is the class-level part with what the tracer relies on about it; `TagsList` is one
tags object.

Sources: `Tagging/TagsList.cs`, `GetTag` to `SetMetric`; `Tagging/CommonTags.cs`;
`Tagging/Property.cs`, `Tagging/ReadOnlyProperty.cs`; `Metrics.cs`.
-/

namespace DdTrace.Tracing

/-- The key of the priority metric. Source: `Metrics.cs`, `SamplingPriority` -/
def Metrics.samplingPriority : String := "_sampling_priority_v1"

/-- One row of a property table.
Source: `Property.cs`, `ReadOnlyProperty.cs` -/
structure Property where
  /-- The tag or metric the property stands for. -/
  key : String
  /-- A read-only property ignores what is set. -/
  isReadOnly : Bool := false
  deriving DecidableEq, Repr

/-- A tags class: its property tables, and whether it derives from `CommonTags`. The tables of
every class have no read-only priority metric, and those of `CommonTags` have the metric. -/
structure TagsType where
  /-- `GetAdditionalTags()`. -/
  additionalTags : List Property
  /-- `GetAdditionalMetrics()`. -/
  additionalMetrics : List Property
  /-- `tags is CommonTags`. -/
  isCommonTags : Bool
  /-- The priority metric can be set. -/
  priority_writable : ∀ p ∈ additionalMetrics, p.key = Metrics.samplingPriority →
    p.isReadOnly = false
  /-- `CommonTags` has the priority metric. -/
  priority_common : isCommonTags = true →
    (additionalMetrics.find? fun p => p.key == Metrics.samplingPriority).isSome = true

/-- `CommonTags`, the tags class of a span that is given none.
Source: `CommonTags.cs`, `CommonMetricsProperties`, `CommonTagsProperties` -/
def commonTags : TagsType where
  additionalTags := [⟨"env", false⟩, ⟨"version", false⟩]
  additionalMetrics := [⟨"_dd.limit_psr", false⟩, ⟨Metrics.samplingPriority, false⟩,
    ⟨"_dd.tracer_kr", false⟩]
  isCommonTags := true
  priority_writable := by
    intro p hp _
    simp only [List.mem_cons, List.not_mem_nil, or_false] at hp
    rcases hp with rfl | rfl | rfl <;> rfl
  priority_common := by intro _; rfl

/-- Set, replace or (with `none`) remove the first entry with a key.
Source: `TagsList.cs`, the loops of `SetTag` and `SetMetric` -/
def setEntry {α : Type} (key : Option String) (value : Option α) :
    List (Option String × α) → List (Option String × α)
  | [] =>
      match value with
      | none => []
      | some v => [(key, v)]
  | (k, v) :: entries =>
      if k = key then
        match value with
        | none => entries
        | some v' => (key, v') :: entries
      else (k, v) :: setEntry key value entries

/-- A tags object: the values of its class's properties by key, and the custom entries, one of
which may have null as its key.
Source: `TagsList.cs`, `_tags`, `_metrics` -/
structure TagsList where
  /-- The class. -/
  type : TagsType
  /-- The property values of tags. -/
  tagValues : String → Option String := fun _ => none
  /-- The property values of metrics. -/
  metricValues : String → Option Float := fun _ => none
  /-- `_tags`. -/
  tags : List (Option String × String) := []
  /-- `_metrics`. -/
  metrics : List (Option String × Float) := []

namespace TagsList

/-- Source: `TagsList.cs`, `GetTag` -/
def getTag (t : TagsList) (key : Option String) : Option String :=
  match t.type.additionalTags.find? fun p => p.key == key with
  | some p => t.tagValues p.key
  | none => t.tags.lookup key

/-- Source: `TagsList.cs`, `GetMetric` -/
def getMetric (t : TagsList) (key : Option String) : Option Float :=
  match t.type.additionalMetrics.find? fun p => p.key == key with
  | some p => t.metricValues p.key
  | none => t.metrics.lookup key

/-- Source: `TagsList.cs`, `SetTag` -/
def setTag (t : TagsList) (key : Option String) (value : Option String) : TagsList :=
  match t.type.additionalTags.find? fun p => p.key == key with
  | some p =>
      if p.isReadOnly then t
      else { t with tagValues := Function.update t.tagValues p.key value }
  | none => { t with tags := setEntry key value t.tags }

/-- Source: `TagsList.cs`, `SetMetric` -/
def setMetric (t : TagsList) (key : Option String) (value : Option Float) : TagsList :=
  match t.type.additionalMetrics.find? fun p => p.key == key with
  | some p =>
      if p.isReadOnly then t
      else { t with metricValues := Function.update t.metricValues p.key value }
  | none => { t with metrics := setEntry key value t.metrics }

/-- The setter of the property `CommonTags.SamplingPriority`. -/
def setCommonSamplingPriority (t : TagsList) (value : Option Float) : TagsList :=
  { t with metricValues := Function.update t.metricValues Metrics.samplingPriority value }

@[simp] theorem lookup_setEntry_some {α : Type} (key : Option String) (v : α)
    (entries : List (Option String × α)) : (setEntry key (some v) entries).lookup key = some v := by
  induction entries with
  | nil => simp [setEntry]
  | cons e es ih =>
      obtain ⟨k, w⟩ := e
      unfold setEntry
      by_cases hk : k = key
      · simp [hk]
      · have hbeq : (key == k) = false := by simpa using Ne.symm hk
        simp only [if_neg hk, List.lookup_cons, hbeq]
        exact ih

/-- The priority metric set on an object of any class is read back. -/
theorem getMetric_setMetric_samplingPriority (t : TagsList) (v : Float) :
    (t.setMetric Metrics.samplingPriority (some v)).getMetric Metrics.samplingPriority =
      some v := by
  unfold setMetric getMetric
  cases hfind : t.type.additionalMetrics.find? fun p => p.key == Metrics.samplingPriority with
  | none => simp [hfind]
  | some p =>
      have hkey : p.key = Metrics.samplingPriority := by
        simpa using List.find?_some hfind
      have hrw := t.type.priority_writable p (List.mem_of_find?_eq_some hfind) hkey
      simp [hrw, hfind]

/-- The property of `CommonTags` is what `GetMetric` reads. -/
theorem getMetric_setCommonSamplingPriority (t : TagsList) (hc : t.type.isCommonTags = true)
    (v : Float) :
    (t.setCommonSamplingPriority (some v)).getMetric Metrics.samplingPriority = some v := by
  unfold setCommonSamplingPriority getMetric
  obtain ⟨p, hp⟩ := Option.isSome_iff_exists.mp (t.type.priority_common hc)
  have hkey : p.key = Metrics.samplingPriority := by simpa using List.find?_some hp
  simp [hp, hkey]

end TagsList

end DdTrace.Tracing
