import DdTrace.Lib.Run
import DdTrace.Propagation.SpanContextPropagator

/-!
# Injecting into headers that carry a context already

* `ReplacesHeaders`: what the documentation of `IHeadersCollection.Set` promises: the previous
  values of the header are gone.
* `overwrittenContext`: what is read after contexts were injected one after another into the same
  headers. All of it is the last context's, except that `Inject` does not write the origin header
  of a context without an origin: the last origin that was written stays, or the one that was there
  before.
* `extractWithGetter_injectAll`: the result for every sequence of contexts.
* `TextMapHeadersCollection`: the collection over a text map, which reads names without regard to
  case but sets them as they are.

Sources: `SpanContextPropagator.cs`; `Headers/IHeadersCollection.cs`;
`Headers/DictionaryHeadersCollection.cs`; `TextMapHeadersCollection.cs` of the OpenTracing package.
-/

namespace DdTrace.Propagation

open DdTrace.Lib DdTrace.Tracing

/-! ## Setting a header that may be there -/

/-- Setting a header replaces its values and leaves the other headers alone, for the headers of the
tracer in carriers of a kind that setting them does not leave.
Source: `IHeadersCollection.cs`, the documentation of `GetValues` and `Set` -/
structure ReplacesHeaders {T : Type} (Kind : T → Prop) (getter : Getter T) (setter : Setter T) :
    Prop where
  /-- The value that is set is the header's only one; a null value leaves no text. -/
  set_self : ∀ carrier, Kind carrier → ∀ name ∈ HttpHeaderNames.datadog, ∀ value,
    ∃ carrier', setter carrier name value = some carrier' ∧ Kind carrier' ∧
      Holds value (getter carrier' name)
  /-- Other headers are left alone. -/
  set_other : ∀ carrier carrier' name value, Kind carrier →
    setter carrier name value = some carrier' → name ∈ HttpHeaderNames.datadog →
    ∀ other ∈ HttpHeaderNames.datadog, other ≠ name →
      getter carrier' other = getter carrier other

/-- A call of `Inject`: a context and the trace it belongs to, if any. -/
structure InjectCall where
  traceContext : Option TraceContext
  context : SpanContext

/-- Inject contexts one after another into the same collection. -/
def injectAll {T : Type} (collection : IHeadersCollection T) (headers : T)
    (calls : List InjectCall) : Option T :=
  runOps (fun headers call => (inject collection call.traceContext call.context headers).2) headers
    calls

/-- Inject contexts one after another into the same carrier. -/
def injectAllWithSetter {T : Type} (setter : Setter T) (carrier : T) (calls : List InjectCall) :
    Option T :=
  runOps (fun carrier call => (injectWithSetter call.traceContext call.context carrier setter).2)
    carrier calls

/-- The origin that is read after the calls: the last one that was written, or else the one that
was read before. -/
def survivingOrigin (initial : Option String) (calls : List InjectCall) : Option String :=
  match (calls.filterMap fun call => call.context.origin).getLast? with
  | some origin => some origin |>.filter (· ≠ "")
  | none => initial

/-- The context that is read after the calls, of which `last` was the last, from headers that
showed the origin `initial` before. -/
def overwrittenContext (initial : Option String) (calls : List InjectCall) (last : InjectCall) :
    Option SpanContext :=
  if last.context.traceId = 0 then none
  else
    some
      { traceId := last.context.traceId
        spanId := last.context.spanId
        samplingPriority :=
          (effectivePriority last.traceContext last.context).filter SamplingPriority.isDefined
        origin := survivingOrigin initial (calls ++ [last]) }

/-! ## One injection -/

section injection

variable {T : Type} {Kind : T → Prop} {getter : Getter T} {setter : Setter T}

/-- The headers of the tracer after an injection into a carrier. -/
structure Injected (getter : Getter T) (call : InjectCall) (before after : T) : Prop where
  traceId : getter after HttpHeaderNames.traceId = [some (toString call.context.traceId)]
  parentId : getter after HttpHeaderNames.parentId = [some (toString call.context.spanId)]
  samplingPriority :
    Holds ((effectivePriority call.traceContext call.context).map fun p => toString p.value)
      (getter after HttpHeaderNames.samplingPriority)
  /-- The origin header is that of the context, or is left alone. -/
  origin : getter after HttpHeaderNames.origin =
    match call.context.origin with
    | some origin => [some origin]
    | none => getter before HttpHeaderNames.origin

/-- Setting a header, and what the other three show. -/
theorem ReplacesHeaders.set (hreplace : ReplacesHeaders Kind getter setter) {carrier : T}
    (hkind : Kind carrier) {name : String} (hname : name ∈ HttpHeaderNames.datadog)
    (value : Option String) :
    ∃ carrier', setter carrier name value = some carrier' ∧ Kind carrier' ∧
      Holds value (getter carrier' name) ∧
      ∀ other ∈ HttpHeaderNames.datadog, other ≠ name →
        getter carrier' other = getter carrier other := by
  obtain ⟨carrier', hset, hkind', hheld⟩ := hreplace.set_self carrier hkind name hname value
  exact ⟨carrier', hset, hkind', hheld, hreplace.set_other carrier carrier' name value hkind hset
    hname⟩

/-- The origin header is written only if the context has an origin. -/
theorem ReplacesHeaders.set_origin (hreplace : ReplacesHeaders Kind getter setter) {carrier : T}
    (hkind : Kind carrier) (origin : Option String) :
    ∃ carrier', (match origin with
        | some origin => setter carrier HttpHeaderNames.origin (some origin)
        | none => some carrier) = some carrier' ∧ Kind carrier' ∧
      (getter carrier' HttpHeaderNames.origin =
        match origin with
        | some origin => [some origin]
        | none => getter carrier HttpHeaderNames.origin) ∧
      ∀ other ∈ HttpHeaderNames.datadog, other ≠ HttpHeaderNames.origin →
        getter carrier' other = getter carrier other := by
  cases origin with
  | none => exact ⟨carrier, rfl, hkind, rfl, fun _ _ _ => rfl⟩
  | some origin => exact hreplace.set hkind (by simp [HttpHeaderNames.datadog]) (some origin)

/-- **One injection** overwrites the tracer's headers, but for the origin of a context without. -/
theorem injectWithSetter_injected (hreplace : ReplacesHeaders Kind getter setter)
    (call : InjectCall) {carrier : T} (hkind : Kind carrier) :
    ∃ carrier', (injectWithSetter call.traceContext call.context carrier setter).2 =
        some carrier' ∧ Kind carrier' ∧ Injected getter call carrier carrier' := by
  have heffective : ((call.traceContext.map TraceContext.lockSamplingPriority).bind
      TraceContext.samplingPriority).or call.context.samplingPriority =
      effectivePriority call.traceContext call.context := by
    cases h : call.traceContext <;> simp [effectivePriority]
  have hmt : HttpHeaderNames.traceId ∈ HttpHeaderNames.datadog := by simp [HttpHeaderNames.datadog]
  have hmp : HttpHeaderNames.parentId ∈ HttpHeaderNames.datadog := by simp [HttpHeaderNames.datadog]
  have hms : HttpHeaderNames.samplingPriority ∈ HttpHeaderNames.datadog := by
    simp [HttpHeaderNames.datadog]
  have hmo : HttpHeaderNames.origin ∈ HttpHeaderNames.datadog := by simp [HttpHeaderNames.datadog]
  obtain ⟨c₁, hset₁, hkind₁, hheld₁, hkeep₁⟩ :=
    hreplace.set hkind hmt (some (toString call.context.traceId))
  obtain ⟨c₂, hset₂, hkind₂, hheld₂, hkeep₂⟩ :=
    hreplace.set hkind₁ hmp (some (toString call.context.spanId))
  obtain ⟨c₃, hset₃, hkind₃, hheld₃, hkeep₃⟩ := hreplace.set_origin hkind₂ call.context.origin
  obtain ⟨c₄, hset₄, hkind₄, hheld₄, hkeep₄⟩ := hreplace.set hkind₃ hms
    ((effectivePriority call.traceContext call.context).map fun p => toString p.value)
  refine ⟨c₄, ?_, hkind₄, ?_, ?_, hheld₄, ?_⟩
  · simp only [injectWithSetter, hset₁, hset₂, Option.bind_eq_bind, Option.bind_some, heffective]
    cases horigin : call.context.origin with
    | none =>
        simp only [horigin] at hset₃
        rw [Option.bind_some, Option.some.inj hset₃, hset₄]
    | some origin =>
        simp only [horigin] at hset₃
        simp only [hset₃, Option.bind_some, hset₄]
  · rw [hkeep₄ _ hmt (by decide), hkeep₃ _ hmt (by decide), hkeep₂ _ hmt (by decide)]
    exact hheld₁
  · rw [hkeep₄ _ hmp (by decide), hkeep₃ _ hmp (by decide)]
    exact hheld₂
  · rw [hkeep₄ _ hmo (by decide), hheld₃]
    cases call.context.origin with
    | none =>
        show getter c₂ HttpHeaderNames.origin = getter carrier HttpHeaderNames.origin
        rw [hkeep₂ _ hmo (by decide), hkeep₁ _ hmo (by decide)]
    | some origin => rfl

/-! ## Reading -/

/-- A printed priority is read back if it is one of the enumeration. -/
theorem parseSamplingPriorityWithGetter_held {culture : IntegerText.NumberFormat}
    (hculture : culture.negativeSign = ['-']) {carrier : T} {priority : Option SamplingPriority}
    (hheld : Holds (priority.map fun p => toString p.value)
      (getter carrier HttpHeaderNames.samplingPriority)) :
    parseSamplingPriorityWithGetter culture carrier getter HttpHeaderNames.samplingPriority =
      priority.filter SamplingPriority.isDefined := by
  unfold parseSamplingPriorityWithGetter
  cases priority with
  | none =>
      refine List.findSome?_eq_none_iff.mpr fun value hvalue => ?_
      rcases hheld value hvalue with rfl | rfl
      · rfl
      · have hblank : intTryParse culture (some "") = none :=
          IntegerText.tryParse_empty culture _ _
        rw [hblank]
        rfl
  | some p =>
      have hheld' : getter carrier HttpHeaderNames.samplingPriority = [some (toString p.value)] :=
        hheld
      have hparse : intTryParse culture (some (toString p.value)) =
          if -2 ^ 31 ≤ p.value ∧ p.value ≤ 2 ^ 31 - 1 then some p.value else none := by
        rw [intTryParse, Option.bind_some, IntegerText.tryParse,
          IntegerText.parse_toString culture hculture, Option.filter_some]
        simp only [decide_eq_true_eq]
      have hrange : minimumSamplingPriority = -1 ∧ maximumSamplingPriority = 2 := ⟨rfl, rfl⟩
      rw [hheld', List.findSome?_singleton, hparse, Option.filter_some]
      by_cases hdefined : p.isDefined = true
      · have hbounds := (isDefined_iff p).mp hdefined
        have hint : -2 ^ 31 ≤ p.value ∧ p.value ≤ 2 ^ 31 - 1 := by
          rw [hrange.1, hrange.2] at hbounds
          omega
        rw [if_pos hint, Option.bind_some, if_pos hbounds, if_pos hdefined]
      · have hbounds := mt (isDefined_iff p).mpr hdefined
        rw [if_neg hdefined]
        split
        · rw [Option.bind_some, if_neg hbounds]
        · rfl

/-- The origin that is read after an injection. -/
theorem Injected.readOrigin {call : InjectCall} {before after : T}
    (h : Injected getter call before after) {initial : Option String} {calls : List InjectCall}
    (hbefore : parseStringWithGetter before getter HttpHeaderNames.origin =
      survivingOrigin initial calls) :
    parseStringWithGetter after getter HttpHeaderNames.origin =
      survivingOrigin initial (calls ++ [call]) := by
  have horigin := h.origin
  unfold survivingOrigin parseStringWithGetter at hbefore ⊢
  rw [List.filterMap_append]
  cases hc : call.context.origin with
  | none =>
      rw [hc] at horigin
      rw [horigin, hbefore]
      simp [hc]
  | some origin =>
      rw [hc] at horigin
      rw [horigin, List.findSome?_singleton]
      simp [hc]

/-- The context that is read after an injection. -/
theorem Injected.extract {culture : IntegerText.NumberFormat}
    (hculture : culture.negativeSign = ['-']) {call : InjectCall} {before after : T}
    (h : Injected getter call before after) {initial : Option String} {calls : List InjectCall}
    (hbefore : parseStringWithGetter before getter HttpHeaderNames.origin =
      survivingOrigin initial calls) :
    extractWithGetter culture after getter = overwrittenContext initial calls call := by
  have hreadTrace : parseUInt64WithGetter after getter HttpHeaderNames.traceId =
      call.context.traceId := by
    simp [parseUInt64WithGetter, h.traceId, ulongTryParse_toString]
  have hreadParent : parseUInt64WithGetter after getter HttpHeaderNames.parentId =
      call.context.spanId := by
    simp [parseUInt64WithGetter, h.parentId, ulongTryParse_toString]
  have hreadPriority := parseSamplingPriorityWithGetter_held hculture h.samplingPriority
  simp only [extractWithGetter, overwrittenContext, hreadTrace, hreadParent, hreadPriority,
    h.readOrigin hbefore]

/-- The origin after any number of injections. -/
theorem injectAllWithSetter_origin (hreplace : ReplacesHeaders Kind getter setter) {carrier : T}
    (hkind : Kind carrier) (calls : List InjectCall) :
    ∃ carrier', injectAllWithSetter setter carrier calls = some carrier' ∧ Kind carrier' ∧
      parseStringWithGetter carrier' getter HttpHeaderNames.origin =
        survivingOrigin (parseStringWithGetter carrier getter HttpHeaderNames.origin) calls := by
  apply @runOps_invariant _ _ _ _ (fun _ => True) fun done carrier' => Kind carrier' ∧
    parseStringWithGetter carrier' getter HttpHeaderNames.origin =
      survivingOrigin (parseStringWithGetter carrier getter HttpHeaderNames.origin) done
  · exact ⟨hkind, rfl⟩
  · rintro done call before - ⟨hbefore, horigin⟩
    obtain ⟨after, hinject, hafter, hinjected⟩ := injectWithSetter_injected hreplace call hbefore
    exact ⟨after, hinject, hafter, hinjected.readOrigin horigin⟩
  · exact fun _ _ => trivial

/-- **Injecting again** overwrites what earlier injections and the initial headers left, but for
the origin. -/
theorem extractWithGetter_injectAll (hreplace : ReplacesHeaders Kind getter setter)
    {culture : IntegerText.NumberFormat} (hculture : culture.negativeSign = ['-']) {carrier : T}
    (hkind : Kind carrier) (calls : List InjectCall) (last : InjectCall) :
    ∃ carrier', injectAllWithSetter setter carrier (calls ++ [last]) = some carrier' ∧
      extractWithGetter culture carrier' getter =
        overwrittenContext (parseStringWithGetter carrier getter HttpHeaderNames.origin) calls
          last := by
  obtain ⟨before, hrun, hbefore, horigin⟩ := injectAllWithSetter_origin hreplace hkind calls
  obtain ⟨after, hinject, -, hinjected⟩ := injectWithSetter_injected hreplace last hbefore
  refine ⟨after, ?_, hinjected.extract hculture horigin⟩
  unfold injectAllWithSetter at hrun ⊢
  rw [runOps_concat, hrun, Option.bind_some, hinject]

end injection

/-! ## The collection over a dictionary -/

/-- The collection over a dictionary replaces headers, under every comparer that tells the names
of the tracer's headers apart. -/
theorem DictionaryHeadersCollection.replacesHeaders {comparer : StringComparer}
    (hnames : (HttpHeaderNames.datadog.map comparer.fold).Nodup) :
    ReplacesHeaders (fun _ => True) (DictionaryHeadersCollection comparer).getValues
      (DictionaryHeadersCollection comparer).set := by
  refine ⟨fun carrier _ name _ value => ?_,
    fun carrier carrier' name value _ hset hname other hother hne => ?_⟩
  · obtain ⟨carrier', hset, hget, -⟩ := set_spec carrier name value
    refine ⟨carrier', hset, trivial, ?_⟩
    cases value with
    | none =>
        intro v hv
        rw [hget] at hv
        exact Or.inl (List.mem_singleton.mp hv)
    | some text => exact hget
  · obtain ⟨carrier'', hset', -, hkeep⟩ := set_spec carrier name value
    obtain rfl : carrier'' = carrier' := Option.some.inj (hset'.symm.trans hset)
    exact hkeep other fun heq => hne (List.inj_on_of_nodup_map hnames hother hname heq)

/-! ## The collection over a text map -/

/-- A text map of the OpenTracing interface. -/
structure ITextMap (M : Type) where
  /-- The entries in the order in which they are enumerated. -/
  pairs : M → List (String × Option String)
  /-- `Set`. -/
  set : Setter M

/-- What setting a key does to a text map: the key has one entry, with the value, and the entries
of other keys stay. -/
structure StoresPairs {M : Type} (textMap : ITextMap M) : Prop where
  set_self : ∀ map key value, ∃ map', textMap.set map key value = some map' ∧
    (textMap.pairs map').filter (·.1 == key) = [(key, value)]
  set_other : ∀ map map' key value, textMap.set map key value = some map' → ∀ other, other ≠ key →
    (textMap.pairs map').filter (·.1 == other) = (textMap.pairs map).filter (·.1 == other)

/-- The collection of headers over a text map.
Source: `TextMapHeadersCollection.cs` -/
def TextMapHeadersCollection {M : Type} (textMap : ITextMap M) : IHeadersCollection M where
  getValues map name :=
    (textMap.pairs map).filterMap fun pair =>
      if StringComparer.ordinalIgnoreCase.fold pair.1 ==
          StringComparer.ordinalIgnoreCase.fold name then some pair.2
      else none
  set := textMap.set

/-- No key of the text map is the name of one of the tracer's headers in another case. -/
def NoOtherCase {M : Type} (textMap : ITextMap M) (map : M) : Prop :=
  ∀ pair ∈ textMap.pairs map, ∀ name ∈ HttpHeaderNames.datadog,
    StringComparer.ordinalIgnoreCase.fold pair.1 = StringComparer.ordinalIgnoreCase.fold name →
      pair.1 = name

namespace TextMapHeadersCollection

variable {M : Type} {textMap : ITextMap M}

/-- Without names in another case, a header has the values of its own name. -/
theorem getValues_eq {map : M} (hcase : NoOtherCase textMap map) {name : String}
    (hname : name ∈ HttpHeaderNames.datadog) :
    (TextMapHeadersCollection textMap).getValues map name =
      ((textMap.pairs map).filter (·.1 == name)).map Prod.snd := by
  unfold TextMapHeadersCollection
  rw [← List.filterMap_eq_map, List.filterMap_filter]
  refine List.filterMap_congr fun pair hpair => ?_
  by_cases hkey : pair.1 = name
  · simp [hkey]
  · have hfold := mt (hcase pair hpair name hname) hkey
    simp [hkey, hfold]

/-- Setting one of the tracer's headers adds no name in another case. -/
theorem noOtherCase_set (hstore : StoresPairs textMap) {map map' : M} {key : String}
    {value : Option String} (hcase : NoOtherCase textMap map)
    (hkey : key ∈ HttpHeaderNames.datadog) (hset : textMap.set map key value = some map') :
    NoOtherCase textMap map' := by
  intro pair hpair name hname hfold
  by_cases hself : pair.1 = key
  · -- the tracer's names differ also without regard to case
    have hdistinct : (HttpHeaderNames.datadog.map StringComparer.ordinalIgnoreCase.fold).Nodup := by
      decide
    rw [hself] at hfold ⊢
    exact List.inj_on_of_nodup_map hdistinct hkey hname hfold
  · have hmem : pair ∈ (textMap.pairs map').filter (·.1 == pair.1) :=
      List.mem_filter.mpr ⟨hpair, beq_self_eq_true _⟩
    rw [hstore.set_other map map' key value hset pair.1 hself] at hmem
    exact hcase pair (List.mem_filter.mp hmem).1 name hname hfold

/-- The collection over a text map replaces headers as long as the text map has none of the
tracer's names in another case. -/
theorem replacesHeaders (hstore : StoresPairs textMap) :
    ReplacesHeaders (NoOtherCase textMap) (TextMapHeadersCollection textMap).getValues
      (TextMapHeadersCollection textMap).set := by
  refine ⟨fun map hcase name hname value => ?_,
    fun map map' name value hcase hset hname other hother hne => ?_⟩
  · obtain ⟨map', hset, hself⟩ := hstore.set_self map name value
    have hcase' := noOtherCase_set hstore hcase hname hset
    refine ⟨map', hset, hcase', ?_⟩
    rw [getValues_eq hcase' hname, hself]
    cases value with
    | none => simp [Holds]
    | some text => rfl
  · have hcase' := noOtherCase_set hstore hcase hname hset
    rw [getValues_eq hcase' hother, getValues_eq hcase hother,
      hstore.set_other map map' name value hset other hne]

end TextMapHeadersCollection

/-! ## A text map over a dictionary -/

/-- `Dictionary<string, string>` with its entries in the order of insertion. -/
structure TextDictionary where
  entries : List (String × Option String)
  /-- No key is there twice. -/
  distinct : (entries.map Prod.fst).Nodup

namespace TextDictionary

/-- The entries after `dictionary[key] = value`. -/
def setEntry (key : String) (value : Option String) :
    List (String × Option String) → List (String × Option String)
  | [] => [(key, value)]
  | entry :: rest =>
      if entry.1 = key then (key, value) :: rest else entry :: setEntry key value rest

theorem mem_keys_setEntry {key other : String} {value : Option String}
    {entries : List (String × Option String)} :
    other ∈ (setEntry key value entries).map Prod.fst ↔
      other = key ∨ other ∈ entries.map Prod.fst := by
  induction entries with
  | nil => simp [setEntry]
  | cons entry rest ih =>
      rw [setEntry]
      split
      case isTrue heq => simp [heq]
      case isFalse =>
        simp only [List.map_cons, List.mem_cons] at ih ⊢
        rw [ih]
        exact or_left_comm

theorem distinct_setEntry {key : String} {value : Option String}
    {entries : List (String × Option String)} (h : (entries.map Prod.fst).Nodup) :
    ((setEntry key value entries).map Prod.fst).Nodup := by
  induction entries with
  | nil => simp [setEntry]
  | cons entry rest ih =>
      rw [List.map_cons, List.nodup_cons] at h
      rw [setEntry]
      split
      case isTrue heq =>
        rw [List.map_cons, List.nodup_cons, ← heq]
        exact h
      case isFalse hne =>
        rw [List.map_cons, List.nodup_cons, mem_keys_setEntry, not_or]
        exact ⟨⟨hne, h.1⟩, ih h.2⟩

theorem filter_setEntry_self {key : String} {value : Option String}
    {entries : List (String × Option String)} (h : (entries.map Prod.fst).Nodup) :
    (setEntry key value entries).filter (·.1 == key) = [(key, value)] := by
  induction entries with
  | nil => simp [setEntry]
  | cons entry rest ih =>
      rw [List.map_cons, List.nodup_cons] at h
      rw [setEntry]
      split
      case isTrue heq =>
        have hrest : rest.filter (·.1 == key) = [] := by
          rw [List.filter_eq_nil_iff]
          intro pair hpair hkey
          apply h.1
          rw [heq, ← beq_iff_eq.mp hkey]
          exact List.mem_map_of_mem hpair
        simp [hrest]
      case isFalse hne =>
        rw [List.filter_cons_of_neg (by simpa using hne), ih h.2]

theorem filter_setEntry_other {key other : String} (hne : other ≠ key) {value : Option String}
    {entries : List (String × Option String)} :
    (setEntry key value entries).filter (·.1 == other) = entries.filter (·.1 == other) := by
  induction entries with
  | nil => simp [setEntry, Ne.symm hne]
  | cons entry rest ih =>
      rw [setEntry]
      split
      case isTrue heq =>
        simp [heq, Ne.symm hne]
      case isFalse =>
        rw [List.filter_cons, List.filter_cons, ih]

/-- The text map over a dictionary. -/
def textMap : ITextMap TextDictionary where
  pairs dictionary := dictionary.entries
  set dictionary key value :=
    some ⟨setEntry key value dictionary.entries, distinct_setEntry dictionary.distinct⟩

theorem storesPairs : StoresPairs textMap := by
  refine ⟨fun dictionary key value => ⟨_, rfl, filter_setEntry_self dictionary.distinct⟩, ?_⟩
  intro dictionary dictionary' key value hset other hne
  obtain rfl := Option.some.inj hset
  exact filter_setEntry_other hne

end TextDictionary

/-! ## The result -/

/-- Contexts injected one after another leave what `overwrittenContext` says, whatever the headers
held before. -/
def Overwrites {T : Type} (collection : IHeadersCollection T) (culture : IntegerText.NumberFormat)
    (headers : T) : Prop :=
  ∀ calls last, ∃ headers', injectAll collection headers (calls ++ [last]) = some headers' ∧
    extract collection culture headers' =
      overwrittenContext (parseString collection headers HttpHeaderNames.origin) calls last

/-- A collection that replaces headers is overwritten. -/
theorem ReplacesHeaders.overwrites {T : Type} {Kind : T → Prop} {collection : IHeadersCollection T}
    (hreplace : ReplacesHeaders Kind collection.getValues collection.set)
    {culture : IntegerText.NumberFormat} (hculture : culture.negativeSign = ['-']) {headers : T}
    (hkind : Kind headers) : Overwrites collection culture headers := by
  intro calls last
  obtain ⟨headers', hinject, hextract⟩ :=
    extractWithGetter_injectAll hreplace hculture hkind calls last
  refine ⟨headers', hinject, ?_⟩
  rw [extract_congr culture collection headers' headers' collection.getValues fun _ _ => rfl]
  exact hextract

/-- **Injecting into headers that carry a context.** Whatever a carrier holds, and whatever is
injected into it before, extracting returns the trace id, the span id and the sampling priority of
the last context; its origin is the last origin that was injected, or else the one that the carrier
held before. This holds for every collection, and every carrier with a setter and a getter, that
replaces headers as `IHeadersCollection.Set` promises; for the collection over a dictionary; and
for the collection over a text map without the tracer's names in another case. -/
theorem reinjection_overwrites {culture : IntegerText.NumberFormat}
    (hculture : culture.negativeSign = ['-']) :
    (∀ (T : Type) (Kind : T → Prop) (collection : IHeadersCollection T),
      ReplacesHeaders Kind collection.getValues collection.set →
      ∀ headers, Kind headers → Overwrites collection culture headers) ∧
    (∀ (T : Type) (Kind : T → Prop) (getter : Getter T) (setter : Setter T),
      ReplacesHeaders Kind getter setter → ∀ carrier, Kind carrier → ∀ calls last,
        ∃ carrier', injectAllWithSetter setter carrier (calls ++ [last]) = some carrier' ∧
          extractWithGetter culture carrier' getter =
            overwrittenContext (parseStringWithGetter carrier getter HttpHeaderNames.origin) calls
              last) ∧
    (∀ comparer : StringComparer, (HttpHeaderNames.datadog.map comparer.fold).Nodup →
      ∀ headers, Overwrites (DictionaryHeadersCollection comparer) culture headers) ∧
    (∀ (M : Type) (textMap : ITextMap M), StoresPairs textMap → ∀ map, NoOtherCase textMap map →
      Overwrites (TextMapHeadersCollection textMap) culture map) := by
  refine ⟨?_, ?_, ?_, ?_⟩
  · intro T Kind collection hreplace headers hkind
    exact hreplace.overwrites hculture hkind
  · intro T Kind getter setter hreplace carrier hkind calls last
    exact extractWithGetter_injectAll hreplace hculture hkind calls last
  · intro comparer hnames headers
    exact (DictionaryHeadersCollection.replacesHeaders hnames).overwrites hculture trivial
  · intro M textMap hstore map hcase
    exact (TextMapHeadersCollection.replacesHeaders hstore).overwrites hculture hcase

/-- A first context with an origin and a priority, and a later one without. -/
def retriedContexts : SpanContext × SpanContext :=
  ({ traceId := 1, spanId := 2, samplingPriority := some .userKeep, origin := some "rum" },
    { traceId := 3, spanId := 4, samplingPriority := none, origin := none })

/-- The two contexts in a dictionary and in a text map that holds another header. -/
theorem reinjection_overwrites_retried :
    let calls : List InjectCall := [⟨none, retriedContexts.1⟩]
    let last : InjectCall := ⟨none, retriedContexts.2⟩
    let read : SpanContext := { traceId := 3, spanId := 4, origin := some "rum" }
    (∃ headers, injectAll (DictionaryHeadersCollection .ordinalIgnoreCase) acceptHeader
        (calls ++ [last]) = some headers ∧
      extract (DictionaryHeadersCollection .ordinalIgnoreCase) .invariant headers = some read) ∧
    (∃ headers, injectAllWithSetter (DictionaryHeadersCollection .ordinalIgnoreCase).set
        acceptHeader (calls ++ [last]) = some headers ∧
      extractWithGetter .invariant headers
        (DictionaryHeadersCollection .ordinalIgnoreCase).getValues = some read) ∧
    ∃ map, injectAll (TextMapHeadersCollection TextDictionary.textMap)
        ⟨[("Accept", some "*/*")], List.nodup_singleton _⟩ (calls ++ [last]) = some map ∧
      extract (TextMapHeadersCollection TextDictionary.textMap) .invariant map = some read := by
  intro calls last read
  obtain ⟨-, hsetter, hdictionary, htextMap⟩ :=
    reinjection_overwrites (show IntegerText.NumberFormat.invariant.negativeSign = ['-'] from rfl)
  have hnames : (HttpHeaderNames.datadog.map StringComparer.ordinalIgnoreCase.fold).Nodup := by
    decide
  refine ⟨?_, ?_, ?_⟩
  · exact hdictionary .ordinalIgnoreCase hnames acceptHeader calls last
  · exact hsetter _ _ _ _ (DictionaryHeadersCollection.replacesHeaders hnames) acceptHeader trivial
      calls last
  · refine htextMap _ _ TextDictionary.storesPairs _ ?_ calls last
    unfold NoOtherCase TextDictionary.textMap
    decide

-- a name in another case is not replaced, and its value is the first that is read
example :
    ((injectAll (TextMapHeadersCollection TextDictionary.textMap)
      ⟨[("X-Datadog-Trace-Id", some "10")], List.nodup_singleton _⟩
      [⟨none, retriedContexts.2⟩]).bind fun map =>
        extract (TextMapHeadersCollection TextDictionary.textMap) .invariant map).map
      (·.traceId) = some 10 := by
  decide +kernel

/-- The origin of the first context stays in the dictionary and is read with the second one, which
has none. -/
theorem reinjection_keeps_origin :
    ∃ headers, injectAll (DictionaryHeadersCollection .ordinalIgnoreCase) .empty
        [⟨none, retriedContexts.1⟩, ⟨none, retriedContexts.2⟩] = some headers ∧
      retriedContexts.2.origin = none ∧
      (extract (DictionaryHeadersCollection .ordinalIgnoreCase) .invariant headers).bind
        (·.origin) = some "rum" := by
  have hoverwrites : Overwrites (DictionaryHeadersCollection .ordinalIgnoreCase) .invariant
      .empty :=
    (DictionaryHeadersCollection.replacesHeaders (by decide)).overwrites rfl trivial
  obtain ⟨headers, hinject, hextract⟩ :=
    hoverwrites [⟨none, retriedContexts.1⟩] ⟨none, retriedContexts.2⟩
  refine ⟨headers, hinject, rfl, ?_⟩
  rw [hextract]
  rfl

end DdTrace.Propagation
