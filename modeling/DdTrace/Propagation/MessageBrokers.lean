import Mathlib.Data.List.AList
import DdTrace.Propagation.Reinjection

/-!
# Propagation through message brokers

The carriers of the Kafka and the RabbitMQ integrations, which store the UTF-8 bytes of a text.

* `KafkaHeadersCollectionAdapter`: the collection of headers over the headers of a Kafka message,
  whose type is the client library's and therefore a parameter (`IHeaders`), with what its
  documentation promises (`IHeaders.Documented`).
* `KafkaHelper.tryInjectHeaders`: the injection that switches itself off.
* `RabbitMQ.headersSetter`, `RabbitMQ.headersGetter`: the functions over a dictionary of objects.
* `BytesCarrier`: what both carriers do, and what follows from it (`carries_iff`).
* `brokers_carry_iff`: when a context comes through.

A text is a sequence of Unicode scalar values here.

Sources: `Kafka/KafkaHeadersCollectionAdapter.cs`; `Kafka/IHeaders.cs`; `Kafka/KafkaHelper.cs`,
`TryInjectHeaders`; `RabbitMQ/ContextPropagation.cs`.
-/

namespace DdTrace.Propagation

open DdTrace.Lib DdTrace.Tracing

/-! ## Texts as bytes -/

/-- `Encoding.UTF8.GetBytes`. -/
def getBytes (value : String) : List UInt8 := value.toUTF8.data.toList

/-- `Encoding.UTF8`, by what it makes of bytes. Bytes that are not UTF-8 are replaced by a text that
depends on the runtime. -/
structure Utf8 where
  /-- `GetString`. -/
  getString : List UInt8 → String
  /-- The bytes of a text are read back. -/
  getString_getBytes : ∀ value, getString (getBytes value) = value

/-- The encoding that replaces all of a text if it is not UTF-8. -/
def Utf8.strict : Utf8 where
  getString bytes := (String.fromUTF8? ⟨bytes.toArray⟩).getD "\uFFFD"
  getString_getBytes value := by
    have hbytes : (⟨(getBytes value).toArray⟩ : ByteArray) = value.toUTF8 := by
      unfold getBytes
      rw [Array.toArray_toList]
    rw [hbytes, String.fromUTF8?, String.toUTF8_eq_toByteArray, dif_pos value.isValidUTF8]
    rfl

/-! ## Kafka -/

/-- The headers of a message; a value may be null.
Source: `IHeaders.cs` -/
structure IHeaders (H : Type) where
  /-- `Add`. -/
  add : H → String → Option (List UInt8) → H
  /-- `Remove`. -/
  remove : H → String → H
  /-- `TryGetLastBytes`. -/
  tryGetLastBytes : H → String → Option (Option (List UInt8))

/-- The headers of a message are a list, in the order in which they were added.
Source: `IHeaders.cs`, the documentation of the members -/
structure IHeaders.Documented {H : Type} (api : IHeaders H)
    (entries : H → List (String × Option (List UInt8))) : Prop where
  /-- "Adds a header to the collection". -/
  add : ∀ headers key val, entries (api.add headers key val) = entries headers ++ [(key, val)]
  /-- "Removes all headers for the given key". -/
  remove : ∀ headers key,
    entries (api.remove headers key) = (entries headers).filter (·.1 != key)
  /-- "Try to get the value of the latest header with the specified key". -/
  tryGetLastBytes : ∀ headers key, api.tryGetLastBytes headers key =
    ((entries headers).filter (·.1 == key)).getLast?.map Prod.snd

namespace KafkaHeadersCollectionAdapter

variable {H : Type} (utf8 : Utf8) (api : IHeaders H)

/-- Source: `KafkaHeadersCollectionAdapter.cs`, `GetValues` -/
def getValues (headers : H) (name : String) : List (Option String) :=
  match api.tryGetLastBytes headers name with
  | some (some bytes) => [some (utf8.getString bytes)]
  -- `GetString` throws for null, and the exception is logged
  | some none => []
  | none => []

/-- Source: `KafkaHeadersCollectionAdapter.cs`, `Add`; `GetBytes` throws for null -/
def add (headers : H) (name : String) (value : Option String) : Option H :=
  value.map fun value => api.add headers name (some (getBytes value))

/-- Source: `KafkaHeadersCollectionAdapter.cs`, `Remove` -/
def remove (headers : H) (name : String) : H := api.remove headers name

/-- Source: `KafkaHeadersCollectionAdapter.cs`, `Set` -/
def set (headers : H) (name : String) (value : Option String) : Option H :=
  add api (remove api headers name) name value

end KafkaHeadersCollectionAdapter

/-- Source: `KafkaHeadersCollectionAdapter.cs` -/
def KafkaHeadersCollectionAdapter {H : Type} (utf8 : Utf8) (api : IHeaders H) :
    IHeadersCollection H where
  getValues := KafkaHeadersCollectionAdapter.getValues utf8 api
  set := KafkaHeadersCollectionAdapter.set api

/-- What is not the tracer's of the headers of a message. -/
def otherHeaders {α : Type} (entries : List (String × α)) : List (String × α) :=
  entries.filter (·.1 ∉ HttpHeaderNames.datadog)

namespace KafkaHelper

/-- What `TryInjectHeaders` does to the headers of a message. -/
inductive Injection (H : Type)
  /-- Nothing. -/
  | skipped
  /-- They are there and carry the context. -/
  | injected (headers : H)
  /-- They are there and carry a part of it. -/
  | failed
  deriving DecidableEq, Repr

variable {H : Type} (utf8 : Utf8) (api : IHeaders H)

/-- Inject a context into the headers of a message, which may be null, unless that is switched off;
it is as soon as there is an exception.
Source: `KafkaHelper.cs`, `TryInjectHeaders` -/
def tryInjectHeaders (createHeaders : H) (headersInjectionEnabled : Bool) (call : InjectCall)
    (headers : Option H) : Bool × Injection H :=
  if headersInjectionEnabled = false then (headersInjectionEnabled, .skipped)
  else
    match (inject (KafkaHeadersCollectionAdapter utf8 api) call.traceContext call.context
        (headers.getD createHeaders)).2 with
    | some headers => (headersInjectionEnabled, .injected headers)
    | none => (false, .failed)

/-- `_headersInjectionEnabled` after injections into messages. -/
def enabledAfter (createHeaders : H) (headersInjectionEnabled : Bool)
    (messages : List (InjectCall × Option H)) : Bool :=
  messages.foldl
    (fun enabled message =>
      (tryInjectHeaders utf8 api createHeaders enabled message.1 message.2).1)
    headersInjectionEnabled

end KafkaHelper

/-! ## RabbitMQ -/

namespace RabbitMQ

/-- The value of a header: bytes, or another object. -/
inductive HeaderValue (Obj : Type)
  | bytes (bytes : List UInt8)
  | other (value : Obj)
  deriving DecidableEq, Repr

/-- `IDictionary<string, object>`. -/
abbrev Headers (Obj : Type) : Type := AList fun _ : String => HeaderValue Obj

variable {Obj : Type}

/-- `GetBytes` throws for null.
Source: `RabbitMQ/ContextPropagation.cs`, `HeadersSetter` -/
def headersSetter : Setter (Headers Obj) := fun carrier key value =>
  value.map fun value => carrier.insert key (.bytes (getBytes value))

/-- Source: `RabbitMQ/ContextPropagation.cs`, `HeadersGetter` -/
def headersGetter (utf8 : Utf8) : Getter (Headers Obj) := fun carrier key =>
  match carrier.lookup key with
  | some (.bytes bytes) => [some (utf8.getString bytes)]
  | _ => []

/-- What is not the tracer's of the headers of a message. -/
def otherHeaders (carrier : Headers Obj) (key : String) : Option (HeaderValue Obj) :=
  if key ∈ HttpHeaderNames.datadog then none else carrier.lookup key

end RabbitMQ

/-! ## Carriers of bytes -/

/-- A carrier that takes every text, in place of what the header held, and throws for null. `rest`
is what it holds besides the tracer's headers. -/
structure BytesCarrier {T ρ : Type} (getter : Getter T) (setter : Setter T) (rest : T → ρ) :
    Prop where
  /-- A text that is set is the header's only value, and nothing else changes. -/
  set_some : ∀ carrier, ∀ name ∈ HttpHeaderNames.datadog, ∀ text, ∃ carrier',
    setter carrier name (some text) = some carrier' ∧ getter carrier' name = [some text] ∧
      (∀ other ≠ name, getter carrier' other = getter carrier other) ∧ rest carrier' = rest carrier
  /-- There are no bytes of null. -/
  set_null : ∀ carrier name, setter carrier name none = none

/-- The injection of a call completed and left what is not the tracer's as it was, and extracting
returns the context. -/
def Carries {T ρ : Type} (rest : T → ρ) (extract : T → Option SpanContext) (before : T)
    (call : InjectCall) (injected : Option T) : Prop :=
  ∃ after, injected = some after ∧ rest after = rest before ∧
    extract after = some (propagatedContext call.traceContext call.context)

/-- The context has a trace id, a priority that the reader knows and an origin that is not empty;
without an origin of its own it is injected where there is none yet. -/
structure Carriable (culture : IntegerText.NumberFormat) (call : InjectCall)
    (prior : Option String) : Prop where
  /-- Zero is no trace id. -/
  traceId : call.context.traceId ≠ 0
  /-- There is a priority, one of the four, and the culture has the hyphen as its minus sign if it
  needs one. -/
  priority : ∃ p, effectivePriority call.traceContext call.context = some p ∧
    p.isDefined = true ∧ intTryParse culture (some (toString p.value)) = some p.value
  /-- An origin that is there is not empty. -/
  origin : call.context.origin ≠ some ""
  /-- No other origin stays. -/
  noOther : call.context.origin = none → prior = none

section carrier

variable {T ρ : Type} {getter : Getter T} {setter : Setter T} {rest : T → ρ}

/-- A context without a priority cannot be injected. -/
theorem BytesCarrier.inject_none (hcarrier : BytesCarrier getter setter rest) {call : InjectCall}
    (hnone : effectivePriority call.traceContext call.context = none) (carrier : T) :
    (injectWithSetter call.traceContext call.context carrier setter).2 = none := by
  have heffective : ((call.traceContext.map TraceContext.lockSamplingPriority).bind
      TraceContext.samplingPriority).or call.context.samplingPriority = none := by
    rw [← hnone]
    cases h : call.traceContext <;> simp [effectivePriority]
  simp only [injectWithSetter, heffective, Option.map_none, hcarrier.set_null,
    Option.bind_eq_bind, Option.bind_fun_none]

/-- The origin is set only if there is one. -/
theorem BytesCarrier.set_origin (hcarrier : BytesCarrier getter setter rest) (carrier : T)
    (origin : Option String) :
    ∃ carrier', (match origin with
        | some origin => setter carrier HttpHeaderNames.origin (some origin)
        | none => some carrier) = some carrier' ∧
      (getter carrier' HttpHeaderNames.origin =
        match origin with
        | some origin => [some origin]
        | none => getter carrier HttpHeaderNames.origin) ∧
      (∀ other ≠ HttpHeaderNames.origin, getter carrier' other = getter carrier other) ∧
      rest carrier' = rest carrier := by
  cases origin with
  | none => exact ⟨carrier, rfl, rfl, fun _ _ => rfl, rfl⟩
  | some origin => exact hcarrier.set_some carrier _ (by simp [HttpHeaderNames.datadog]) origin

/-- **Every context with a priority is injected.** -/
theorem BytesCarrier.inject_some (hcarrier : BytesCarrier getter setter rest) {call : InjectCall}
    {p : SamplingPriority} (hp : effectivePriority call.traceContext call.context = some p)
    (carrier : T) :
    ∃ carrier', (injectWithSetter call.traceContext call.context carrier setter).2 =
        some carrier' ∧ Injected getter call carrier carrier' ∧ rest carrier' = rest carrier := by
  have heffective : ((call.traceContext.map TraceContext.lockSamplingPriority).bind
      TraceContext.samplingPriority).or call.context.samplingPriority = some p := by
    rw [← hp]
    cases h : call.traceContext <;> simp [effectivePriority]
  obtain ⟨c₁, hset₁, hheld₁, hkeep₁, hrest₁⟩ := hcarrier.set_some carrier HttpHeaderNames.traceId
    (by simp [HttpHeaderNames.datadog]) (toString call.context.traceId)
  obtain ⟨c₂, hset₂, hheld₂, hkeep₂, hrest₂⟩ := hcarrier.set_some c₁ HttpHeaderNames.parentId
    (by simp [HttpHeaderNames.datadog]) (toString call.context.spanId)
  obtain ⟨c₃, hset₃, hheld₃, hkeep₃, hrest₃⟩ := hcarrier.set_origin c₂ call.context.origin
  obtain ⟨c₄, hset₄, hheld₄, hkeep₄, hrest₄⟩ := hcarrier.set_some c₃
    HttpHeaderNames.samplingPriority (by simp [HttpHeaderNames.datadog]) (toString p.value)
  refine ⟨c₄, ?_, ⟨?_, ?_, ?_, ?_⟩, ?_⟩
  · simp only [injectWithSetter, hset₁, hset₂, Option.bind_eq_bind, Option.bind_some, heffective,
      Option.map_some]
    cases horigin : call.context.origin with
    | none =>
        simp only [horigin] at hset₃
        rw [Option.bind_some, Option.some.inj hset₃, hset₄]
    | some origin =>
        simp only [horigin] at hset₃
        simp only [hset₃, Option.bind_some, hset₄]
  · rw [hkeep₄ _ (by decide), hkeep₃ _ (by decide), hkeep₂ _ (by decide)]
    exact hheld₁
  · rw [hkeep₄ _ (by decide), hkeep₃ _ (by decide)]
    exact hheld₂
  · rw [hp]
    exact hheld₄
  · have hsame : getter c₂ HttpHeaderNames.origin = getter carrier HttpHeaderNames.origin := by
      rw [hkeep₂ _ (by decide)]
      exact hkeep₁ _ (by decide)
    rw [hkeep₄ _ (by decide), hheld₃]
    cases call.context.origin with
    | none => exact hsame
    | some origin => rfl
  · rw [hrest₄, hrest₃, hrest₂, hrest₁]

/-- What is extracted of an injected context. -/
theorem Injected.extractWithGetter_eq {call : InjectCall} {before after : T}
    (h : Injected getter call before after) {p : SamplingPriority}
    (hp : effectivePriority call.traceContext call.context = some p)
    (culture : IntegerText.NumberFormat) :
    extractWithGetter culture after getter =
      if call.context.traceId = 0 then none
      else some
        { traceId := call.context.traceId
          spanId := call.context.spanId
          samplingPriority := (intTryParse culture (some (toString p.value))).bind fun result =>
            if minimumSamplingPriority ≤ result ∧ result ≤ maximumSamplingPriority then
              some ⟨result⟩
            else none
          origin :=
            match call.context.origin with
            | some origin => (some origin).filter (· ≠ "")
            | none => parseStringWithGetter before getter HttpHeaderNames.origin } := by
  have hpriority : getter after HttpHeaderNames.samplingPriority = [some (toString p.value)] := by
    have hheld := h.samplingPriority
    rw [hp] at hheld
    exact hheld
  have horigin : parseStringWithGetter after getter HttpHeaderNames.origin =
      match call.context.origin with
      | some origin => (some origin).filter (· ≠ "")
      | none => parseStringWithGetter before getter HttpHeaderNames.origin := by
    unfold parseStringWithGetter
    rw [h.origin]
    cases call.context.origin with
    | none => rfl
    | some origin => rw [List.findSome?_singleton]
  simp only [extractWithGetter, parseUInt64WithGetter, parseSamplingPriorityWithGetter, h.traceId,
    h.parentId, hpriority, horigin, List.findSome?_singleton, ulongTryParse_toString,
    Option.getD_some]

/-- The priority is read back exactly if the reader knows it. -/
theorem readPriority_eq_some_iff (culture : IntegerText.NumberFormat) (p : SamplingPriority) :
    ((intTryParse culture (some (toString p.value))).bind fun result =>
        if minimumSamplingPriority ≤ result ∧ result ≤ maximumSamplingPriority then
          some (⟨result⟩ : SamplingPriority)
        else none) = some p ↔
      p.isDefined = true ∧ intTryParse culture (some (toString p.value)) = some p.value := by
  rw [Option.bind_eq_some_iff, isDefined_iff]
  constructor
  · rintro ⟨result, hread, hp⟩
    split at hp
    case isTrue hrange =>
      cases Option.some.inj hp
      exact ⟨hrange, hread⟩
    case isFalse => cases hp
  · rintro ⟨hrange, hread⟩
    exact ⟨p.value, hread, if_pos hrange⟩

/-- **A context comes through a carrier of bytes** exactly if it is carriable. -/
theorem BytesCarrier.carries_iff (hcarrier : BytesCarrier getter setter rest)
    (culture : IntegerText.NumberFormat) (call : InjectCall) (carrier : T) :
    Carries rest (extractWithGetter culture · getter) carrier call
        (injectWithSetter call.traceContext call.context carrier setter).2 ↔
      Carriable culture call (parseStringWithGetter carrier getter HttpHeaderNames.origin) := by
  cases hp : effectivePriority call.traceContext call.context with
  | none =>
      rw [hcarrier.inject_none hp]
      constructor
      · rintro ⟨after, hafter, -⟩
        cases hafter
      · intro h
        obtain ⟨p, hsome, -⟩ := h.priority
        cases hp.symm.trans hsome
  | some p =>
      obtain ⟨after, hinject, hinjected, hrest⟩ := hcarrier.inject_some hp carrier
      have hextract := hinjected.extractWithGetter_eq hp culture
      have hread := readPriority_eq_some_iff culture p
      rw [hinject]
      constructor
      · rintro ⟨_, hafter, -, hcontext⟩
        obtain rfl := Option.some.inj hafter
        have hcontext := hextract.symm.trans hcontext
        split at hcontext
        case isTrue => cases hcontext
        case isFalse htrace =>
          have hsame := Option.some.inj hcontext
          have hpriority := (congrArg SpanContext.samplingPriority hsame).trans hp
          have horigin := congrArg SpanContext.origin hsame
          refine ⟨htrace, ⟨p, hp, hread.mp hpriority⟩, ?_, ?_⟩
          · intro hempty
            simp [propagatedContext, hempty] at horigin
          · intro hnone
            simpa [propagatedContext, hnone] using horigin
      · rintro ⟨htrace, ⟨p', hp', hdefined⟩, hempty, hnone⟩
        obtain rfl := Option.some.inj (hp.symm.trans hp')
        refine ⟨after, rfl, hrest, ?_⟩
        have horigin : (match call.context.origin with
            | some origin => (some origin).filter (· ≠ "")
            | none => parseStringWithGetter carrier getter HttpHeaderNames.origin) =
            call.context.origin := by
          cases ho : call.context.origin with
          | none => exact hnone ho
          | some origin =>
              rw [ho] at hempty
              simpa using hempty
        show extractWithGetter culture after getter = _
        rw [hextract, if_neg htrace, hread.mpr hdefined, horigin, propagatedContext, hp]

end carrier

/-! ## The two carriers -/

/-- The headers of a Kafka message: the last value counts, and setting removes all others. -/
theorem KafkaHeadersCollectionAdapter.bytesCarrier {H : Type} (utf8 : Utf8) {api : IHeaders H}
    {entries : H → List (String × Option (List UInt8))} (hapi : api.Documented entries) :
    BytesCarrier (KafkaHeadersCollectionAdapter utf8 api).getValues
      (KafkaHeadersCollectionAdapter utf8 api).set (otherHeaders ∘ entries) := by
  refine ⟨fun headers name hname text => ?_, fun _ _ => rfl⟩
  have hentries : entries (api.add (api.remove headers name) name (some (getBytes text))) =
      (entries headers).filter (·.1 != name) ++ [(name, some (getBytes text))] := by
    rw [hapi.add, hapi.remove]
  refine ⟨api.add (api.remove headers name) name (some (getBytes text)), rfl, ?_, ?_, ?_⟩
  · show getValues utf8 api _ name = _
    have hlast : api.tryGetLastBytes
        (api.add (api.remove headers name) name (some (getBytes text))) name =
        some (some (getBytes text)) := by
      rw [hapi.tryGetLastBytes, hentries, List.filter_append, List.filter_cons_of_pos (by simp),
        List.filter_nil, List.getLast?_append_cons]
      rfl
    simp only [getValues, hlast, utf8.getString_getBytes]
  · intro other hother
    have hlast : api.tryGetLastBytes
        (api.add (api.remove headers name) name (some (getBytes text))) other =
        api.tryGetLastBytes headers other := by
      have hskip : ((entries headers).filter (·.1 != name)).filter (·.1 == other) =
          (entries headers).filter (·.1 == other) := by
        rw [List.filter_filter]
        refine List.filter_congr fun entry _ => ?_
        by_cases hentry : entry.1 = other
        · simp [hentry, hother]
        · simp [hentry]
      rw [hapi.tryGetLastBytes, hapi.tryGetLastBytes, hentries, List.filter_append, hskip,
        List.filter_cons_of_neg (by simpa using hother.symm), List.filter_nil, List.append_nil]
    show getValues utf8 api _ other = getValues utf8 api _ other
    simp only [getValues, hlast]
  · show otherHeaders (entries _) = otherHeaders (entries headers)
    rw [hentries, otherHeaders, List.filter_append, List.filter_cons_of_neg (by simpa using hname),
      List.filter_nil, List.append_nil, List.filter_filter]
    refine List.filter_congr fun entry _ => ?_
    by_cases hentry : entry.1 = name
    · simp [hentry, hname]
    · simp [hentry]

/-- The headers of a RabbitMQ message: a dictionary. -/
theorem RabbitMQ.bytesCarrier {Obj : Type} (utf8 : Utf8) :
    BytesCarrier (RabbitMQ.headersGetter utf8)
      (RabbitMQ.headersSetter : Setter (RabbitMQ.Headers Obj)) RabbitMQ.otherHeaders := by
  refine ⟨fun carrier name hname text => ?_, fun _ _ => rfl⟩
  refine ⟨_, rfl, ?_, ?_, ?_⟩
  · simp only [headersGetter, AList.lookup_insert, utf8.getString_getBytes]
  · intro other hother
    simp only [headersGetter, AList.lookup_insert_ne hother]
  · funext other
    unfold otherHeaders
    split
    case isTrue => rfl
    case isFalse hother =>
      have hne : other ≠ name := fun heq => hother (heq ▸ hname)
      rw [AList.lookup_insert_ne hne]

/-! ## The switch -/

namespace KafkaHelper

variable {H : Type} {utf8 : Utf8} {api : IHeaders H}
  {entries : H → List (String × Option (List UInt8))}

/-- An injection leaves the switch on exactly if the context has a priority. -/
theorem tryInjectHeaders_enabled (hapi : api.Documented entries) (createHeaders : H)
    (call : InjectCall) (headers : Option H) :
    (tryInjectHeaders utf8 api createHeaders true call headers).1 = true ↔
      (effectivePriority call.traceContext call.context).isSome := by
  have hcarrier := KafkaHeadersCollectionAdapter.bytesCarrier utf8 hapi
  unfold tryInjectHeaders
  rw [if_neg (by decide), inject_eq_injectWithSetter]
  cases hp : effectivePriority call.traceContext call.context with
  | none =>
      rw [hcarrier.inject_none hp]
      simp
  | some p =>
      obtain ⟨after, hinject, -⟩ := hcarrier.inject_some hp (headers.getD createHeaders)
      rw [hinject]
      simp

/-- Once it is off, it stays off. -/
theorem enabledAfter_false (createHeaders : H) (messages : List (InjectCall × Option H)) :
    enabledAfter utf8 api createHeaders false messages = false := by
  induction messages with
  | nil => rfl
  | cons message messages ih => exact ih

/-- **The switch stays on** exactly as long as every context has a priority. -/
theorem enabledAfter_iff (hapi : api.Documented entries) (createHeaders : H)
    (messages : List (InjectCall × Option H)) :
    enabledAfter utf8 api createHeaders true messages = true ↔
      ∀ message ∈ messages,
        (effectivePriority message.1.traceContext message.1.context).isSome := by
  induction messages with
  | nil => simp [enabledAfter]
  | cons message messages ih =>
      have hstep : (tryInjectHeaders utf8 api createHeaders true message.1 message.2).1 = true ↔ _ :=
        tryInjectHeaders_enabled hapi createHeaders message.1 message.2
      have hrun : enabledAfter utf8 api createHeaders true (message :: messages) =
          enabledAfter utf8 api createHeaders
            (tryInjectHeaders utf8 api createHeaders true message.1 message.2).1 messages := rfl
      rw [List.forall_mem_cons, ← ih, ← hstep, hrun]
      cases (tryInjectHeaders utf8 api createHeaders true message.1 message.2).1 with
      | false => simp [enabledAfter_false]
      | true => simp

end KafkaHelper

/-! ## Both brokers -/

/-- **Through a broker.** Over the headers of a Kafka message and over those of a RabbitMQ message,
whatever they hold, an injection completes, keeps the other headers and is extracted again exactly
if the context is carriable; and injections into Kafka messages are never switched off exactly if
every context has a priority. -/
theorem brokers_carry_iff (utf8 : Utf8) (culture : IntegerText.NumberFormat) {H : Type} (Obj : Type)
    (api : IHeaders H) (entries : H → List (String × Option (List UInt8)))
    (hapi : api.Documented entries) :
    (∀ (call : InjectCall) (headers : H),
      Carries (otherHeaders ∘ entries)
          (extract (KafkaHeadersCollectionAdapter utf8 api) culture) headers call
          (inject (KafkaHeadersCollectionAdapter utf8 api) call.traceContext call.context
            headers).2 ↔
        Carriable culture call
          (parseString (KafkaHeadersCollectionAdapter utf8 api) headers HttpHeaderNames.origin)) ∧
    (∀ (call : InjectCall) (carrier : RabbitMQ.Headers Obj),
      Carries RabbitMQ.otherHeaders
          (extractWithGetter culture · (RabbitMQ.headersGetter utf8)) carrier call
          (injectWithSetter call.traceContext call.context carrier RabbitMQ.headersSetter).2 ↔
        Carriable culture call
          (parseStringWithGetter carrier (RabbitMQ.headersGetter utf8) HttpHeaderNames.origin)) ∧
    ∀ (createHeaders : H) (messages : List (InjectCall × Option H)),
      KafkaHelper.enabledAfter utf8 api createHeaders true messages = true ↔
        ∀ message ∈ messages,
          (effectivePriority message.1.traceContext message.1.context).isSome := by
  refine ⟨fun call headers => ?_, fun call carrier => ?_, fun createHeaders messages => ?_⟩
  · rw [inject_eq_injectWithSetter]
    have hextract : extract (KafkaHeadersCollectionAdapter utf8 api) culture =
        (extractWithGetter culture · (KafkaHeadersCollectionAdapter utf8 api).getValues) :=
      funext fun after => extract_congr culture _ after after _ fun _ _ => rfl
    rw [hextract]
    exact (KafkaHeadersCollectionAdapter.bytesCarrier utf8 hapi).carries_iff culture call headers
  · exact (RabbitMQ.bytesCarrier utf8).carries_iff culture call carrier
  · exact KafkaHelper.enabledAfter_iff hapi createHeaders messages

/-- Headers as a list. -/
def listHeaders : IHeaders (List (String × Option (List UInt8))) where
  add headers key val := headers ++ [(key, val)]
  remove headers key := headers.filter (·.1 != key)
  tryGetLastBytes headers key := (headers.filter (·.1 == key)).getLast?.map Prod.snd

/-- A context with an origin and the lowest priority. -/
def rejectedCall : InjectCall where
  traceContext := none
  context := { traceId := 7, spanId := 8, samplingPriority := some .userReject, origin := some "rum" }

/-- It comes through, replaces another context and leaves a header with two values. -/
theorem brokers_carry_iff_rejected :
    Carries (otherHeaders ∘ id)
      (extract (KafkaHeadersCollectionAdapter .strict listHeaders) .invariant)
      [("key", none), (HttpHeaderNames.traceId, some [0xFF]), ("key", some [1])] rejectedCall
      (inject (KafkaHeadersCollectionAdapter .strict listHeaders) rejectedCall.traceContext
        rejectedCall.context
        [("key", none), (HttpHeaderNames.traceId, some [0xFF]), ("key", some [1])]).2 ∧
    KafkaHelper.enabledAfter .strict listHeaders [] true [(rejectedCall, none)] = true := by
  have hapi : listHeaders.Documented id := ⟨fun _ _ _ => rfl, fun _ _ => rfl, fun _ _ => rfl⟩
  obtain ⟨hkafka, -, hswitch⟩ :=
    brokers_carry_iff .strict .invariant Unit listHeaders id hapi
  refine ⟨(hkafka _ _).mpr ⟨by decide, ⟨.userReject, rfl, by decide, by decide⟩, by decide, ?_⟩,
    (hswitch _ _).mpr ?_⟩
  · intro hnone
    cases hnone
  · intro message hmessage
    rw [List.mem_singleton.mp hmessage]
    rfl

/-- A context without a priority: neither carrier takes it, and Kafka headers are not injected any
more. -/
theorem brokers_refuse_noPriority :
    let call : InjectCall := ⟨none, { traceId := 1, spanId := 2 }⟩
    (inject (KafkaHeadersCollectionAdapter .strict listHeaders) call.traceContext call.context
        []).2 = none ∧
      (injectWithSetter call.traceContext call.context (∅ : RabbitMQ.Headers Unit)
        RabbitMQ.headersSetter).2 = none ∧
      KafkaHelper.enabledAfter .strict listHeaders [] true [(call, none), (rejectedCall, none)] =
        false ∧
      (KafkaHelper.tryInjectHeaders .strict listHeaders [] false rejectedCall none).2 =
        .skipped := by
  decide

end DdTrace.Propagation
