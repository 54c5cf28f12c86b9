import Mathlib.Data.List.Nodup
import DdTrace.Lib.Dictionaries
import DdTrace.Tracing.Tags

/-!
# The tags classes

The property tables of the classes that derive from `TagsList`. A class adds its properties behind
those of its base class (`TagsType.extend`). The keys are those of `Tags.cs` and `Metrics.cs`.

* `TagsClass`: the classes that are not abstract, and the type of each.
* `TagsClass.nodup_tags`, `TagsClass.nodup_metrics`: no table has a key twice.
* `TagsList.Built`: the tags objects there are: new ones, with any property values, and what
  `SetTag`, `SetMetric` and the setters of the properties make of them.
* `Built.custom`: the keys of the custom entries are distinct, and none is the key of a property.

Sources: the classes of `Tagging/`; `ServiceFabric/ServiceRemotingTags.cs`; in
`Datadog.Trace.ClrProfiler.Managed/Integrations`, `StackExchange.Redis/RedisTags.cs`,
`GraphQLTags.cs`, `Elasticsearch/ElasticsearchTags.cs`, `MongoDbTags.cs`, `AdoNet/SqlTags.cs`;
`TagsList.cs`, `SetTag` and `SetMetric`.
-/

namespace DdTrace.Tracing

/-! ## The tables -/

/-- A class with further properties. -/
def TagsType.extend (base : TagsType) (tags metrics : List Property)
    (hmetrics : ∀ p ∈ metrics, p.key ≠ Metrics.samplingPriority := by simp) : TagsType where
  additionalTags := base.additionalTags ++ tags
  additionalMetrics := base.additionalMetrics ++ metrics
  isCommonTags := base.isCommonTags
  priority_writable := by
    intro p hp hkey
    rcases List.mem_append.mp hp with hbase | hnew
    · exact base.priority_writable p hbase hkey
    · exact absurd hkey (hmetrics p hnew)
  priority_common := by
    intro hcommon
    rw [List.find?_append]
    obtain ⟨p, hp⟩ := Option.isSome_iff_exists.mp (base.priority_common hcommon)
    simp [hp]

/-- Source: `InstrumentationTags.cs` -/
def instrumentationTags : TagsType :=
  commonTags.extend [⟨"span.kind", true⟩] [⟨"_dd1.sr.eausr", false⟩]
    (by simp [Metrics.samplingPriority])

/-- Source: `WebTags.cs` -/
def webTags : TagsType :=
  instrumentationTags.extend
    [⟨"http.status_code", false⟩, ⟨"http.method", false⟩, ⟨"http.request.headers.host", false⟩,
      ⟨"http.url", false⟩, ⟨"language", true⟩] []

/-- Source: `AspNetTags.cs` -/
def aspNetTags : TagsType :=
  webTags.extend
    [⟨"aspnet.route", false⟩, ⟨"aspnet.area", false⟩, ⟨"aspnet.controller", false⟩,
      ⟨"aspnet.action", false⟩] []

/-- Source: `AspNetCoreTags.cs` -/
def aspNetCoreTags : TagsType := webTags.extend [⟨"component", true⟩] []

/-- Source: `AspNetCoreEndpointTags.cs` -/
def aspNetCoreEndpointTags : TagsType :=
  aspNetCoreTags.extend
    [⟨"aspnet_core.route", false⟩, ⟨"aspnet_core.area", false⟩, ⟨"aspnet_core.controller", false⟩,
      ⟨"aspnet_core.endpoint", false⟩, ⟨"aspnet_core.page", false⟩, ⟨"aspnet_core.action", false⟩]
    []

/-- Source: `AwsSdkTags.cs` -/
def awsSdkTags : TagsType :=
  instrumentationTags.extend
    [⟨"component", true⟩, ⟨"aws.agent", true⟩, ⟨"aws.operation", false⟩, ⟨"aws.region", false⟩,
      ⟨"aws.requestId", false⟩, ⟨"aws.service", false⟩, ⟨"http.method", false⟩,
      ⟨"http.status_code", false⟩, ⟨"http.url", false⟩] []

/-- Source: `AwsSqsTags.cs` -/
def awsSqsTags : TagsType :=
  awsSdkTags.extend [⟨"aws.queue.name", false⟩, ⟨"aws.queue.url", false⟩] []

/-- Source: `CosmosDbTags.cs` -/
def cosmosDbTags : TagsType :=
  instrumentationTags.extend
    [⟨"component", true⟩, ⟨"db.type", false⟩, ⟨"db.name", false⟩, ⟨"cosmosdb.container", false⟩,
      ⟨"out.host", false⟩] []

/-- Source: `HttpTags.cs` -/
def httpTags : TagsType :=
  instrumentationTags.extend
    [⟨"http.status_code", false⟩, ⟨"http-client-handler-type", false⟩, ⟨"http.method", false⟩,
      ⟨"http.url", false⟩, ⟨"component", false⟩] []

/-- Source: `KafkaTags.cs` -/
def kafkaTags : TagsType :=
  instrumentationTags.extend
    [⟨"component", true⟩, ⟨"kafka.partition", false⟩, ⟨"kafka.offset", false⟩,
      ⟨"kafka.tombstone", false⟩]
    [⟨"message.queue_time_ms", false⟩] (by simp [Metrics.samplingPriority])

/-- Source: `MsmqTags.cs` -/
def msmqTags : TagsType :=
  instrumentationTags.extend
    [⟨"component", true⟩, ⟨"msmq.command", false⟩, ⟨"msmq.queue.path", false⟩,
      ⟨"msmq.queue.transactional", false⟩, ⟨"msmq.message.transactional", false⟩] []

/-- Source: `RabbitMQTags.cs` -/
def rabbitMQTags : TagsType :=
  instrumentationTags.extend
    [⟨"component", false⟩, ⟨"amqp.command", false⟩, ⟨"amqp.delivery_mode", false⟩,
      ⟨"amqp.exchange", false⟩, ⟨"amqp.queue", false⟩, ⟨"amqp.routing_key", false⟩,
      ⟨"message.size", false⟩] []

/-- Source: `ServiceRemotingTags.cs` -/
def serviceRemotingTags : TagsType :=
  instrumentationTags.extend
    [⟨"service-fabric.application-id", false⟩, ⟨"service-fabric.application-name", false⟩,
      ⟨"service-fabric.partition-id", false⟩, ⟨"service-fabric.node-id", false⟩,
      ⟨"service-fabric.node-name", false⟩, ⟨"service-fabric.service-name", false⟩,
      ⟨"service-fabric.service-remoting.uri", false⟩,
      ⟨"service-fabric.service-remoting.method-name", false⟩,
      ⟨"service-fabric.service-remoting.method-id", false⟩,
      ⟨"service-fabric.service-remoting.interface-id", false⟩,
      ⟨"service-fabric.service-remoting.invocation-id", false⟩] []

/-- Source: `RedisTags.cs` -/
def redisTags : TagsType :=
  instrumentationTags.extend
    [⟨"component", true⟩, ⟨"redis.raw_command", false⟩, ⟨"out.port", false⟩, ⟨"out.host", false⟩] []

/-- Source: `GraphQLTags.cs` -/
def graphQLTags : TagsType :=
  instrumentationTags.extend
    [⟨"component", true⟩, ⟨"graphql.source", false⟩, ⟨"graphql.operation.name", false⟩,
      ⟨"graphql.operation.type", false⟩, ⟨"language", true⟩] []

/-- Source: `ElasticsearchTags.cs` -/
def elasticsearchTags : TagsType :=
  instrumentationTags.extend
    [⟨"component", true⟩, ⟨"elasticsearch.action", false⟩, ⟨"elasticsearch.method", false⟩,
      ⟨"elasticsearch.url", false⟩] []

/-- Source: `MongoDbTags.cs` -/
def mongoDbTags : TagsType :=
  instrumentationTags.extend
    [⟨"component", true⟩, ⟨"db.name", false⟩, ⟨"mongodb.query", false⟩,
      ⟨"mongodb.collection", false⟩, ⟨"out.host", false⟩, ⟨"out.port", false⟩] []

/-- Source: `SqlTags.cs` -/
def sqlTags : TagsType :=
  instrumentationTags.extend
    [⟨"db.type", false⟩, ⟨"component", true⟩, ⟨"db.name", false⟩, ⟨"db.user", false⟩,
      ⟨"out.host", false⟩] []

/-! ## The classes -/

/-- A class whose instances are the tags of spans. -/
inductive TagsClass where
  | common
  | web
  | aspNet
  | aspNetCore
  | aspNetCoreEndpoint
  | awsSqs
  | cosmosDb
  | http
  | kafka
  | msmq
  | rabbitMQ
  | serviceRemoting
  | redis
  | graphQL
  | elasticsearch
  | mongoDb
  | sql
  deriving DecidableEq, Repr

/-- The property tables of a class. -/
def TagsClass.type : TagsClass → TagsType
  | .common => commonTags
  | .web => webTags
  | .aspNet => aspNetTags
  | .aspNetCore => aspNetCoreTags
  | .aspNetCoreEndpoint => aspNetCoreEndpointTags
  | .awsSqs => awsSqsTags
  | .cosmosDb => cosmosDbTags
  | .http => httpTags
  | .kafka => kafkaTags
  | .msmq => msmqTags
  | .rabbitMQ => rabbitMQTags
  | .serviceRemoting => serviceRemotingTags
  | .redis => redisTags
  | .graphQL => graphQLTags
  | .elasticsearch => elasticsearchTags
  | .mongoDb => mongoDbTags
  | .sql => sqlTags

/-- The keys of the properties that stand for tags. -/
def TagsType.tagKeys (t : TagsType) : List String := t.additionalTags.map Property.key

/-- The keys of the properties that stand for metrics. -/
def TagsType.metricKeys (t : TagsType) : List String := t.additionalMetrics.map Property.key

/-- No class has two properties for one tag. -/
theorem TagsClass.nodup_tags (c : TagsClass) : c.type.tagKeys.Nodup := by
  cases c <;> decide

/-- No class has two properties for one metric. -/
theorem TagsClass.nodup_metrics (c : TagsClass) : c.type.metricKeys.Nodup := by
  cases c <;> decide

/-! ## Tags and metrics alike

A table of properties with their values, and the custom entries beside them. -/

section Entries

variable {α : Type} {table : List Property} {values : String → Option α}
  {entries : List (Option String × α)} {key : Option String}

/-- What `GetTag` and `GetMetric` return. -/
def getEntry (table : List Property) (values : String → Option α)
    (entries : List (Option String × α)) (key : Option String) : Option α :=
  match table.find? fun p => p.key == key with
  | some p => values p.key
  | none => entries.lookup key

/-- The properties that have a value. -/
def propertyPairs (table : List Property) (values : String → Option α) :
    List (Option String × α) :=
  table.filterMap fun p => (values p.key).map fun v => (some p.key, v)

theorem propertyPairs_cons (p : Property) : propertyPairs (p :: table) values =
    ((values p.key).map fun v => (some p.key, v)).toList ++ propertyPairs table values := by
  rw [propertyPairs, List.filterMap_cons]
  cases values p.key with
  | none => rfl
  | some v => rfl

/-- The keys of custom entries: distinct, and none is the key of a property. -/
structure CustomKeys (table : List Property) (entries : List (Option String × α)) : Prop where
  nodup : (entries.map Prod.fst).Nodup
  disjoint : ∀ p ∈ table, some p.key ∉ entries.map Prod.fst

theorem customKeys_nil : CustomKeys table ([] : List (Option String × α)) :=
  ⟨List.nodup_nil, by simp⟩

theorem find?_key_eq_none : (table.find? fun p => p.key == key) = none ↔
    ∀ p ∈ table, some p.key ≠ key := by
  simp [List.find?_eq_none]

/-- What the loops of `SetTag` and `SetMetric` leave: the other keys, and the key itself if it was
given a value. -/
theorem mem_keys_setEntry {value : Option α} (hnodup : (entries.map Prod.fst).Nodup)
    {other : Option String} : other ∈ (setEntry key value entries).map Prod.fst ↔
      if other = key then value ≠ none else other ∈ entries.map Prod.fst := by
  induction entries with
  | nil =>
      cases value with
      | none => simp [setEntry]
      | some v => simp [setEntry]
  | cons e es ih =>
      obtain ⟨k, w⟩ := e
      obtain ⟨hnotin, hnodup⟩ := List.nodup_cons.mp hnodup
      have ih := ih hnodup
      unfold setEntry
      by_cases hk : k = key
      · subst hk
        rw [if_pos rfl]
        by_cases hother : other = k
        · subst hother
          cases value with
          | none => simpa using hnotin
          | some v => simp
        · rw [if_neg hother]
          cases value with
          | none => simp [hother]
          | some v => simp [hother]
      · rw [if_neg hk, List.map_cons, List.mem_cons, ih, List.map_cons, List.mem_cons]
        by_cases hother : other = key
        · subst hother
          simp [Ne.symm hk]
        · simp [hother]

theorem nodup_setEntry {value : Option α} (hnodup : (entries.map Prod.fst).Nodup) :
    ((setEntry key value entries).map Prod.fst).Nodup := by
  induction entries with
  | nil =>
      cases value with
      | none => simp [setEntry]
      | some v => simp [setEntry]
  | cons e es ih =>
      obtain ⟨k, w⟩ := e
      obtain ⟨hnotin, hnodup⟩ := List.nodup_cons.mp hnodup
      unfold setEntry
      by_cases hk : k = key
      · rw [if_pos hk]
        cases value with
        | none => exact hnodup
        | some v =>
            subst hk
            exact List.nodup_cons.mpr ⟨hnotin, hnodup⟩
      · rw [if_neg hk, List.map_cons]
        refine List.nodup_cons.mpr ⟨?_, ih hnodup⟩
        rw [mem_keys_setEntry hnodup, if_neg hk]
        exact hnotin

/-- Setting an entry that is not one of the table keeps the keys in order. -/
theorem CustomKeys.setEntry (h : CustomKeys table entries)
    (hkey : (table.find? fun p => p.key == key) = none) (value : Option α) :
    CustomKeys table (setEntry key value entries) := by
  refine ⟨nodup_setEntry h.nodup, fun p hp => ?_⟩
  rw [mem_keys_setEntry h.nodup, if_neg (find?_key_eq_none.mp hkey p hp)]
  exact h.disjoint p hp

/-- The property of a table that a key selects. -/
theorem find?_key_of_mem (hnodup : (table.map Property.key).Nodup) {p : Property}
    (hp : p ∈ table) : (table.find? fun q => some q.key == some p.key) = some p := by
  induction table with
  | nil => cases hp
  | cons q table ih =>
      obtain ⟨hnotin, hnodup⟩ := List.nodup_cons.mp hnodup
      rcases List.mem_cons.mp hp with rfl | hp
      · simp
      · have hne : q.key ≠ p.key := fun heq => hnotin (heq ▸ List.mem_map_of_mem hp)
        rw [List.find?_cons_of_neg (by simpa using hne)]
        exact ih hnodup hp

theorem mem_propertyPairs (hnodup : (table.map Property.key).Nodup) {v : α} :
    (key, v) ∈ propertyPairs table values ↔
      ∃ p, (table.find? fun p => p.key == key) = some p ∧ values p.key = some v := by
  rw [propertyPairs, List.mem_filterMap]
  constructor
  · rintro ⟨p, hp, hpair⟩
    obtain ⟨v', hv', heq⟩ := Option.map_eq_some_iff.mp hpair
    obtain ⟨rfl, rfl⟩ := Prod.mk.inj heq
    exact ⟨p, find?_key_of_mem hnodup hp, hv'⟩
  · rintro ⟨p, hfind, hv⟩
    have hkey : some p.key = key := by simpa using List.find?_some hfind
    refine ⟨p, List.mem_of_find?_eq_some hfind, ?_⟩
    rw [hv, Option.map_some, hkey]

/-- **The entries that are visible**: the custom ones and the properties that have a value. -/
theorem mem_pairs (h : CustomKeys table entries) (hnodup : (table.map Property.key).Nodup)
    {v : α} : (key, v) ∈ entries ++ propertyPairs table values ↔
      getEntry table values entries key = some v := by
  rw [List.mem_append, mem_propertyPairs hnodup, getEntry]
  cases hfind : table.find? fun p => p.key == key with
  | none => simp [Lib.lookup_eq_some_iff_mem h.nodup]
  | some p =>
      have hkey : some p.key = key := by simpa using List.find?_some hfind
      have hnotin : (key, v) ∉ entries := by
        intro hmem
        apply h.disjoint p (List.mem_of_find?_eq_some hfind)
        rw [hkey]
        exact List.mem_map_of_mem hmem
      simp [hnotin]

theorem mem_keys_propertyPairs (h : key ∈ (propertyPairs table values).map Prod.fst) :
    ∃ p ∈ table, key = some p.key := by
  obtain ⟨e, he, rfl⟩ := List.mem_map.mp h
  obtain ⟨p, hp, hpair⟩ := List.mem_filterMap.mp he
  obtain ⟨v, -, rfl⟩ := Option.map_eq_some_iff.mp hpair
  exact ⟨p, hp, rfl⟩

theorem nodup_propertyPairs (hnodup : (table.map Property.key).Nodup) :
    ((propertyPairs table values).map Prod.fst).Nodup := by
  induction table with
  | nil => exact List.nodup_nil
  | cons p table ih =>
      obtain ⟨hnotin, hnodup⟩ := List.nodup_cons.mp hnodup
      rw [propertyPairs, List.filterMap_cons]
      cases values p.key with
      | none => exact ih hnodup
      | some v =>
          refine List.nodup_cons.mpr ⟨fun hmem => ?_, ih hnodup⟩
          obtain ⟨q, hq, heq⟩ := mem_keys_propertyPairs hmem
          rw [Option.some.inj heq] at hnotin
          exact hnotin (List.mem_map_of_mem hq)

/-- The visible entries have distinct keys. -/
theorem nodup_pairs (h : CustomKeys table entries) (hnodup : (table.map Property.key).Nodup) :
    ((entries ++ propertyPairs table values).map Prod.fst).Nodup := by
  rw [List.map_append, List.nodup_append]
  refine ⟨h.nodup, nodup_propertyPairs hnodup, ?_⟩
  rintro key hcustom _ hproperty rfl
  obtain ⟨p, hp, rfl⟩ := mem_keys_propertyPairs hproperty
  exact h.disjoint p hp hcustom

end Entries

/-! ## The tags objects -/

namespace TagsList

/-- The tags objects there are. -/
inductive Built : TagsList → Prop where
  /-- A new object; the constructor of its class has set its properties. -/
  | new (c : TagsClass) (tagValues : String → Option String)
      (metricValues : String → Option Float) :
      Built { type := c.type, tagValues := tagValues, metricValues := metricValues }
  /-- `SetTag`. -/
  | setTag {t : TagsList} (key value : Option String) : Built t → Built (t.setTag key value)
  /-- `SetMetric`. -/
  | setMetric {t : TagsList} (key : Option String) (value : Option Float) :
      Built t → Built (t.setMetric key value)
  /-- The setters of the properties. -/
  | setProperties {t : TagsList} (tagValues : String → Option String)
      (metricValues : String → Option Float) :
      Built t → Built { t with tagValues := tagValues, metricValues := metricValues }

/-- The keys of an object: those of a class, with custom entries beside them. -/
structure Custom (t : TagsList) : Prop where
  type : ∃ c : TagsClass, t.type = c.type
  tags : CustomKeys t.type.additionalTags t.tags
  metrics : CustomKeys t.type.additionalMetrics t.metrics

theorem Custom.setTag {t : TagsList} (h : t.Custom) (key value : Option String) :
    (t.setTag key value).Custom := by
  unfold TagsList.setTag
  split
  · split
    · exact h
    · exact ⟨h.type, h.tags, h.metrics⟩
  · exact ⟨h.type, h.tags.setEntry ‹_› value, h.metrics⟩

theorem Custom.setMetric {t : TagsList} (h : t.Custom) (key : Option String)
    (value : Option Float) : (t.setMetric key value).Custom := by
  unfold TagsList.setMetric
  split
  · split
    · exact h
    · exact ⟨h.type, h.tags, h.metrics⟩
  · exact ⟨h.type, h.tags, h.metrics.setEntry ‹_› value⟩

/-- **The keys of every tags object are in order.** -/
theorem Built.custom {t : TagsList} (h : t.Built) : t.Custom := by
  induction h with
  | new c _ _ => exact ⟨⟨c, rfl⟩, customKeys_nil, customKeys_nil⟩
  | setTag key value _ ih => exact ih.setTag key value
  | setMetric key value _ ih => exact ih.setMetric key value
  | setProperties _ _ _ ih => exact ⟨ih.type, ih.tags, ih.metrics⟩

theorem Custom.nodup_tagKeys {t : TagsList} (h : t.Custom) :
    (t.type.additionalTags.map Property.key).Nodup := by
  obtain ⟨c, hc⟩ := h.type
  rw [hc]
  exact c.nodup_tags

theorem Custom.nodup_metricKeys {t : TagsList} (h : t.Custom) :
    (t.type.additionalMetrics.map Property.key).Nodup := by
  obtain ⟨c, hc⟩ := h.type
  rw [hc]
  exact c.nodup_metrics

end TagsList

end DdTrace.Tracing
