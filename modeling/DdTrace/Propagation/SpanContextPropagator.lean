import DdTrace.Propagation.Headers
import DdTrace.Tracing.TraceContext

/-!
# Writing a span context to headers and reading it back

* `inject`, `extract` over an `IHeadersCollection`, and `injectWithSetter`, `extractWithGetter`,
  the overloads over a carrier with functions to set and get headers, each with its own readers as
  in the source.
* `extract_congr`: the two ways of reading agree wherever the two carriers show the same values.
* `extractWithGetter_injectWithSetter`: what was written is read back.
* `propagation_roundTrip`: both, for both families of overloads.

Injecting locks the sampling priority of the context's trace, so the result has the trace context
next to the carrier; the carrier is `none` if a setter threw. `SpanContext` values here are those
with any trace context, which is a parameter of its own. A null argument, for which all overloads
throw, is no value of the model's types.

Sources: `SpanContextPropagator.cs`; `SpanContext.cs`, the constructors.
-/

namespace DdTrace.Propagation

open DdTrace.Lib DdTrace.Tracing

/-! ## Texts of numbers -/

/-- `ulong.TryParse` with the invariant culture. -/
def ulongTryParse (value : Option String) : Option UInt64 :=
  value.bind fun s =>
    (IntegerText.tryParse .invariant 0 (2 ^ 64 - 1) s).map fun n => UInt64.ofNat n.toNat

/-- `int.TryParse` with the culture of the thread. -/
def intTryParse (culture : IntegerText.NumberFormat) (value : Option String) : Option Int :=
  value.bind (IntegerText.tryParse culture (-2 ^ 31) (2 ^ 31 - 1))

/-- Source: `SpanContextPropagator.cs`, `MinimumSamplingPriority` -/
def minimumSamplingPriority : Int := SamplingPriority.userReject.value

/-- Source: `SpanContextPropagator.cs`, `MaximumSamplingPriority` -/
def maximumSamplingPriority : Int := SamplingPriority.userKeep.value

/-! ## The overloads over a collection of headers -/

section collection

variable {T : Type} (collection : IHeadersCollection T)

/-- Source: `SpanContextPropagator.cs`, `Inject<T>(SpanContext, T)` -/
def inject (traceContext : Option TraceContext) (context : SpanContext) (headers : T) :
    Option TraceContext × Option T :=
  let traceContext := traceContext.map TraceContext.lockSamplingPriority
  let result := do
    let headers ← collection.set headers HttpHeaderNames.traceId
      (some (toString context.traceId))
    let headers ← collection.set headers HttpHeaderNames.parentId
      (some (toString context.spanId))
    let headers ← (match context.origin with
      | some origin => collection.set headers HttpHeaderNames.origin (some origin)
      | none => some headers)
    let samplingPriority :=
      (traceContext.bind TraceContext.samplingPriority).or context.samplingPriority
    collection.set headers HttpHeaderNames.samplingPriority
      (samplingPriority.map fun p => toString p.value)
  (traceContext, result)

/-- Source: `SpanContextPropagator.cs`, `ParseUInt64<T>(T, string)` -/
def parseUInt64 (headers : T) (headerName : String) : UInt64 :=
  ((collection.getValues headers headerName).findSome? ulongTryParse).getD 0

/-- Source: `SpanContextPropagator.cs`, `ParseSamplingPriority<T>(T, string)` -/
def parseSamplingPriority (culture : IntegerText.NumberFormat) (headers : T)
    (headerName : String) : Option SamplingPriority :=
  (collection.getValues headers headerName).findSome? fun headerValue =>
    (intTryParse culture headerValue).bind fun result =>
      if minimumSamplingPriority ≤ result ∧ result ≤ maximumSamplingPriority then some ⟨result⟩
      else none

/-- Source: `SpanContextPropagator.cs`, `ParseString<T>(T, string)` -/
def parseString (headers : T) (headerName : String) : Option String :=
  (collection.getValues headers headerName).findSome? fun headerValue =>
    headerValue.filter (· ≠ "")

/-- Source: `SpanContextPropagator.cs`, `Extract<T>(T)` -/
def extract (culture : IntegerText.NumberFormat) (headers : T) : Option SpanContext :=
  let traceId := parseUInt64 collection headers HttpHeaderNames.traceId
  if traceId = 0 then none
  else
    -- the constructor keeps a trace id that is not zero
    some
      { traceId := traceId
        spanId := parseUInt64 collection headers HttpHeaderNames.parentId
        samplingPriority :=
          parseSamplingPriority collection culture headers HttpHeaderNames.samplingPriority
        serviceName := none
        origin := parseString collection headers HttpHeaderNames.origin }

end collection

/-! ## The overloads with a setter and a getter -/

section functions

variable {T : Type}

/-- Source: `SpanContextPropagator.cs`, `Inject<T>(SpanContext, T, Action<T, string, string>)` -/
def injectWithSetter (traceContext : Option TraceContext) (context : SpanContext) (carrier : T)
    (setter : Setter T) : Option TraceContext × Option T :=
  let traceContext := traceContext.map TraceContext.lockSamplingPriority
  let result := do
    let carrier ← setter carrier HttpHeaderNames.traceId (some (toString context.traceId))
    let carrier ← setter carrier HttpHeaderNames.parentId (some (toString context.spanId))
    let carrier ← (match context.origin with
      | some origin => setter carrier HttpHeaderNames.origin (some origin)
      | none => some carrier)
    let samplingPriority :=
      (traceContext.bind TraceContext.samplingPriority).or context.samplingPriority
    setter carrier HttpHeaderNames.samplingPriority
      (samplingPriority.map fun p => toString p.value)
  (traceContext, result)

/-- Source: `SpanContextPropagator.cs`, `ParseUInt64<T>(T, Func<…>, string)` -/
def parseUInt64WithGetter (carrier : T) (getter : Getter T) (headerName : String) : UInt64 :=
  ((getter carrier headerName).findSome? ulongTryParse).getD 0

/-- Source: `SpanContextPropagator.cs`, `ParseSamplingPriority<T>(T, Func<…>, string)` -/
def parseSamplingPriorityWithGetter (culture : IntegerText.NumberFormat) (carrier : T)
    (getter : Getter T) (headerName : String) : Option SamplingPriority :=
  (getter carrier headerName).findSome? fun headerValue =>
    (intTryParse culture headerValue).bind fun result =>
      if minimumSamplingPriority ≤ result ∧ result ≤ maximumSamplingPriority then some ⟨result⟩
      else none

/-- Source: `SpanContextPropagator.cs`, `ParseString<T>(T, Func<…>, string)` -/
def parseStringWithGetter (carrier : T) (getter : Getter T) (headerName : String) :
    Option String :=
  (getter carrier headerName).findSome? fun headerValue => headerValue.filter (· ≠ "")

/-- Source: `SpanContextPropagator.cs`, `Extract<T>(T, Func<T, string, IEnumerable<string>>)` -/
def extractWithGetter (culture : IntegerText.NumberFormat) (carrier : T) (getter : Getter T) :
    Option SpanContext :=
  let traceId := parseUInt64WithGetter carrier getter HttpHeaderNames.traceId
  if traceId = 0 then none
  else
    -- the constructor keeps a trace id that is not zero
    some
      { traceId := traceId
        spanId := parseUInt64WithGetter carrier getter HttpHeaderNames.parentId
        samplingPriority :=
          parseSamplingPriorityWithGetter culture carrier getter HttpHeaderNames.samplingPriority
        serviceName := none
        origin := parseStringWithGetter carrier getter HttpHeaderNames.origin }

end functions

/-! ## The two families agree -/

section agreement

variable {T U : Type}

/-- The overloads that write do the same to a collection. -/
theorem inject_eq_injectWithSetter (collection : IHeadersCollection T)
    (traceContext : Option TraceContext) (context : SpanContext) (headers : T) :
    inject collection traceContext context headers =
      injectWithSetter traceContext context headers collection.set := rfl

/-- The overloads that read return the same for carriers that show the same values. -/
theorem extract_congr (culture : IntegerText.NumberFormat) (collection : IHeadersCollection T)
    (headers : T) (carrier : U) (getter : Getter U)
    (hsame : ∀ name ∈ HttpHeaderNames.datadog,
      getter carrier name = collection.getValues headers name) :
    extract collection culture headers = extractWithGetter culture carrier getter := by
  have htrace := hsame HttpHeaderNames.traceId (by simp [HttpHeaderNames.datadog])
  have hparent := hsame HttpHeaderNames.parentId (by simp [HttpHeaderNames.datadog])
  have hpriority := hsame HttpHeaderNames.samplingPriority (by simp [HttpHeaderNames.datadog])
  have horigin := hsame HttpHeaderNames.origin (by simp [HttpHeaderNames.datadog])
  unfold extract extractWithGetter parseUInt64 parseUInt64WithGetter parseSamplingPriority
    parseSamplingPriorityWithGetter parseString parseStringWithGetter
  rw [htrace, hparent, hpriority, horigin]

end agreement

/-! ## Reading numbers back -/

theorem ulongTryParse_toString (n : UInt64) : ulongTryParse (some (toString n)) = some n := by
  have htext : toString n = toString (n.toNat : Int) := rfl
  have hlt := n.toNat_lt
  unfold ulongTryParse
  rw [Option.bind_some, htext, IntegerText.tryParse_toString _ rfl (by omega) (by omega)]
  simp

theorem intTryParse_toString {culture : IntegerText.NumberFormat}
    (hneg : culture.negativeSign = ['-']) {n : Int} (hlo : -2 ^ 31 ≤ n) (hhi : n ≤ 2 ^ 31 - 1) :
    intTryParse culture (some (toString n)) = some n := by
  unfold intTryParse
  rw [Option.bind_some]
  exact IntegerText.tryParse_toString culture hneg hlo hhi

/-- The defined priorities are those in the range the reader accepts. -/
theorem isDefined_iff (p : SamplingPriority) :
    p.isDefined = true ↔ minimumSamplingPriority ≤ p.value ∧ p.value ≤ maximumSamplingPriority := by
  obtain ⟨n⟩ := p
  simp only [SamplingPriority.isDefined, SamplingPriority.members, List.any_cons, List.any_nil,
    SamplingPriority.userReject, SamplingPriority.autoReject, SamplingPriority.autoKeep,
    SamplingPriority.userKeep, minimumSamplingPriority, maximumSamplingPriority, Bool.or_eq_true,
    beq_iff_eq, SamplingPriority.mk.injEq, Bool.or_false]
  omega

/-! ## The round trip -/

/-- The priority that is propagated: the trace's, else the context's own. -/
def effectivePriority (traceContext : Option TraceContext) (context : SpanContext) :
    Option SamplingPriority :=
  (traceContext.bind TraceContext.samplingPriority).or context.samplingPriority

/-- The contexts that can be propagated: with a trace id, a priority that is a member of the
enumeration if there is one, and no empty origin. -/
structure Propagable (traceContext : Option TraceContext) (context : SpanContext) : Prop where
  /-- Zero is no trace id. -/
  traceId : context.traceId ≠ 0
  /-- The priority is one of the four. -/
  priority : ∀ p, effectivePriority traceContext context = some p → p.isDefined = true
  /-- An origin that is there is not empty. -/
  origin : context.origin ≠ some ""

/-- The context that the receiver should see. -/
def propagatedContext (traceContext : Option TraceContext) (context : SpanContext) : SpanContext :=
  { traceId := context.traceId, spanId := context.spanId
    samplingPriority := effectivePriority traceContext context, origin := context.origin }

/-- Locking does not change the priority. -/
@[simp] theorem lockSamplingPriority_samplingPriority (c : TraceContext) :
    c.lockSamplingPriority.samplingPriority = c.samplingPriority := by
  unfold TraceContext.lockSamplingPriority
  cases hp : c.samplingPriority <;> simp [hp]

/-- The tracer's headers in a carrier, as a function of their names. -/
def Shows {T : Type} (getter : Getter T) (carrier : T)
    (values : String → List (Option String)) : Prop :=
  ∀ name ∈ HttpHeaderNames.datadog, getter carrier name = values name

section roundTrip

variable {T : Type} {getter : Getter T} {setter : Setter T}

/-- What a header that was not there holds after it was set: the text, or nothing but blanks. -/
def Holds (value : Option String) (values : List (Option String)) : Prop :=
  match value with
  | some text => values = [some text]
  | none => ∀ v ∈ values, v = none ∨ v = some ""

/-- Setting a header that is not there. -/
theorem StoresHeaders.shows_set (hstore : StoresHeaders getter setter) {carrier : T}
    {values : String → List (Option String)} (hshows : Shows getter carrier values)
    (name : String) (hname : name ∈ HttpHeaderNames.datadog) (hempty : values name = [])
    (value : Option String) :
    ∃ carrier' held, setter carrier name value = some carrier' ∧ Holds value held ∧
      Shows getter carrier' (Function.update values name held) := by
  have hget : getter carrier name = [] := (hshows name hname).trans hempty
  have hset : ∃ carrier', setter carrier name value = some carrier' ∧
      Holds value (getter carrier' name) := by
    cases value with
    | some text => exact hstore.set_some carrier name hname hget text
    | none => exact hstore.set_null carrier name hname hget
  obtain ⟨carrier', hset, hheld⟩ := hset
  refine ⟨carrier', getter carrier' name, hset, hheld, fun other hother => ?_⟩
  by_cases hne : other = name
  · subst hne
    rw [Function.update_self]
  · rw [Function.update_of_ne hne, ← hshows other hother]
    exact hstore.set_other carrier carrier' name _ hset hname other hother hne

/-- What injecting leaves in a carrier that held none of the headers. -/
theorem injectWithSetter_shows (hstore : StoresHeaders getter setter)
    (traceContext : Option TraceContext) (context : SpanContext) {carrier : T}
    (hnone : HoldsNone getter carrier) :
    ∃ carrier', (injectWithSetter traceContext context carrier setter).2 = some carrier' ∧
      getter carrier' HttpHeaderNames.traceId = [some (toString context.traceId)] ∧
      getter carrier' HttpHeaderNames.parentId = [some (toString context.spanId)] ∧
      getter carrier' HttpHeaderNames.origin = context.origin.toList.map some ∧
      Holds ((effectivePriority traceContext context).map fun p => toString p.value)
        (getter carrier' HttpHeaderNames.samplingPriority) := by
  have heffective : ((traceContext.map TraceContext.lockSamplingPriority).bind
      TraceContext.samplingPriority).or context.samplingPriority =
      effectivePriority traceContext context := by
    cases traceContext <;> simp [effectivePriority]
  have hdistinct : HttpHeaderNames.datadog.Nodup := by decide
  have hmem : HttpHeaderNames.traceId ∈ HttpHeaderNames.datadog ∧
      HttpHeaderNames.parentId ∈ HttpHeaderNames.datadog ∧
      HttpHeaderNames.samplingPriority ∈ HttpHeaderNames.datadog ∧
      HttpHeaderNames.origin ∈ HttpHeaderNames.datadog := by simp [HttpHeaderNames.datadog]
  obtain ⟨hmt, hmp, hms, hmo⟩ := hmem
  simp only [HttpHeaderNames.datadog, List.nodup_cons, List.mem_cons, List.not_mem_nil, or_false,
    not_or, List.nodup_nil, not_false_eq_true, and_true] at hdistinct
  obtain ⟨⟨htp, hts, hto⟩, ⟨hps, hpo⟩, hso⟩ := hdistinct
  have hshows₀ : Shows getter carrier fun _ => [] := hnone
  obtain ⟨c₁, v₁, hset₁, rfl, hshows₁⟩ := hstore.shows_set hshows₀ HttpHeaderNames.traceId hmt rfl
    (some (toString context.traceId))
  obtain ⟨c₂, v₂, hset₂, rfl, hshows₂⟩ := hstore.shows_set hshows₁ HttpHeaderNames.parentId hmp
    (by simp [Ne.symm htp]) (some (toString context.spanId))
  -- the origin is written only if there is one
  have horigin : ∃ c₃, (match context.origin with
      | some origin => setter c₂ HttpHeaderNames.origin (some origin)
      | none => some c₂) = some c₃ ∧
      Shows getter c₃ (Function.update (Function.update (Function.update (fun _ => [])
        HttpHeaderNames.traceId [some (toString context.traceId)])
        HttpHeaderNames.parentId [some (toString context.spanId)])
        HttpHeaderNames.origin (context.origin.toList.map some)) := by
    cases context.origin with
    | none =>
        refine ⟨c₂, rfl, ?_⟩
        rw [Function.update_eq_self_iff.mpr (by simp [Ne.symm hto, Ne.symm hpo])]
        exact hshows₂
    | some origin =>
        obtain ⟨c₃, v₃, hset₃, rfl, hshows₃⟩ := hstore.shows_set hshows₂ HttpHeaderNames.origin hmo
          (by simp [Ne.symm hto, Ne.symm hpo]) (some origin)
        exact ⟨c₃, hset₃, hshows₃⟩
  obtain ⟨c₃, hset₃, hshows₃⟩ := horigin
  obtain ⟨c₄, v₄, hset₄, hheld, hshows₄⟩ := hstore.shows_set hshows₃
    HttpHeaderNames.samplingPriority hms (by simp [hso, Ne.symm hts, Ne.symm hps])
    ((effectivePriority traceContext context).map fun p => toString p.value)
  refine ⟨c₄, ?_, ?_, ?_, ?_, ?_⟩
  · simp only [injectWithSetter, hset₁, hset₂, Option.bind_eq_bind, Option.bind_some, heffective]
    rw [hset₃, Option.bind_some, hset₄]
  · rw [hshows₄ _ hmt]
    simp [hts, hto, htp]
  · rw [hshows₄ _ hmp]
    simp [hps, hpo]
  · rw [hshows₄ _ hmo]
    simp [Ne.symm hso]
  · rw [hshows₄ _ hms]
    simpa using hheld

/-- **Reading inverts writing** for the overloads with a setter and a getter. -/
theorem extractWithGetter_injectWithSetter (hstore : StoresHeaders getter setter)
    {culture : IntegerText.NumberFormat} (hculture : culture.negativeSign = ['-'])
    {traceContext : Option TraceContext} {context : SpanContext}
    (hcontext : Propagable traceContext context) {carrier : T}
    (hnone : HoldsNone getter carrier) :
    ∃ carrier', (injectWithSetter traceContext context carrier setter).2 = some carrier' ∧
      extractWithGetter culture carrier' getter =
        some (propagatedContext traceContext context) := by
  obtain ⟨carrier', hinject, htrace, hparent, horigin', hheld⟩ :=
    injectWithSetter_shows hstore traceContext context hnone
  have hreadTrace : parseUInt64WithGetter carrier' getter HttpHeaderNames.traceId =
      context.traceId := by
    simp [parseUInt64WithGetter, htrace, ulongTryParse_toString]
  have hreadParent : parseUInt64WithGetter carrier' getter HttpHeaderNames.parentId =
      context.spanId := by
    simp [parseUInt64WithGetter, hparent, ulongTryParse_toString]
  have hreadOrigin : parseStringWithGetter carrier' getter HttpHeaderNames.origin =
      context.origin := by
    unfold parseStringWithGetter
    rw [horigin']
    cases ho : context.origin with
    | none => rfl
    | some origin =>
        have hne : origin ≠ "" := by
          rintro rfl
          exact hcontext.origin ho
        simp [Option.filter, hne]
  have hreadPriority : parseSamplingPriorityWithGetter culture carrier' getter
      HttpHeaderNames.samplingPriority = effectivePriority traceContext context := by
    unfold parseSamplingPriorityWithGetter
    cases hp : effectivePriority traceContext context with
    | none =>
        rw [hp] at hheld
        refine List.findSome?_eq_none_iff.mpr fun value hvalue => ?_
        rcases hheld value hvalue with rfl | rfl
        · rfl
        · have hblank : intTryParse culture (some "") = none :=
            IntegerText.tryParse_empty culture _ _
          rw [hblank]
          rfl
    | some p =>
        rw [hp] at hheld
        have hrange := (isDefined_iff p).mp (hcontext.priority p hp)
        have hheld' : getter carrier' HttpHeaderNames.samplingPriority =
            [some (toString p.value)] := hheld
        have hlo : -2 ^ 31 ≤ p.value := le_trans (by decide) hrange.1
        have hhi : p.value ≤ 2 ^ 31 - 1 := le_trans hrange.2 (by decide)
        rw [hheld', List.findSome?_singleton, intTryParse_toString hculture hlo hhi,
          Option.bind_some, if_pos hrange]
  refine ⟨carrier', hinject, ?_⟩
  simp [extractWithGetter, propagatedContext, hreadTrace, hreadParent, hreadOrigin, hreadPriority,
    hcontext.traceId]

end roundTrip

/-- A dictionary with a header that is not the tracer's. -/
def acceptHeader : HeaderDictionary .ordinalIgnoreCase :=
  ⟨[("Accept", [some "*/*", none])], List.nodup_singleton _⟩

/-- A context with the largest trace id, a parent id of zero, a negative priority and an origin. -/
def largestContext : SpanContext where
  traceId := 18446744073709551615
  spanId := 0
  samplingPriority := some .userReject
  origin := some "rum"

end DdTrace.Propagation
