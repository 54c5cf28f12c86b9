import Mathlib.Data.List.AList
import DdTrace.Lib.JsonText
import DdTrace.Propagation.Reinjection

/-!
# Propagation through message attributes

* `inject`, `injectHeadersIntoMessage`: the headers of a context as the members of one JSON object,
  in the attribute `_datadog` of a message, of which there may be ten.
* `headersSet`: the headers that the propagator sets for a context.
* `decodable_iff`: when the attribute can be decoded to them.

Source: `AWS/SQS/ContextPropagation.cs`
-/

namespace DdTrace.Propagation.Sqs

open DdTrace.Lib DdTrace.Lib.JsonText DdTrace.Tracing

/-! ## The code -/

/-- An attribute of a message. -/
structure MessageAttributeValue where
  /-- `DataType`. -/
  dataType : String
  /-- `StringValue`. -/
  stringValue : Option String := none
  /-- `BinaryValue`. -/
  binaryValue : Option (List UInt8) := none
  deriving DecidableEq, Repr

/-- The attributes of a message. -/
abbrev MessageAttributes : Type := AList fun _ : String => MessageAttributeValue

/-- `Count`. -/
def count (attributes : MessageAttributes) : Nat := attributes.entries.length

/-- Source: `AWS/SQS/CachedMessageHeadersHelper.cs`, `CreateMessageAttributeValue` -/
def createMessageAttributeValue (value : String) : MessageAttributeValue where
  dataType := "String"
  stringValue := some value

/-- Source: `AWS/SQS/ContextPropagation.cs`, `SqsKey` -/
def sqsKey : String := "_datadog"

/-- A member of the object and a comma; null is formatted as nothing.
Source: `AWS/SQS/ContextPropagation.cs`, the setter in `Inject` -/
def appendFormat (sb key : String) (value : Option String) : String :=
  sb ++ "\"" ++ key ++ "\":\"" ++ value.getD "" ++ "\","

/-- Source: `AWS/SQS/ContextPropagation.cs`, `Inject` -/
def inject (call : InjectCall) (messageAttributes : MessageAttributes) :
    Option MessageAttributes := do
  let sb ← (injectWithSetter call.traceContext call.context "\x7b"
    fun carrier key value => some (appendFormat carrier key value)).2
  -- remove the trailing comma
  let sb := String.ofList sb.toList.dropLast
  let sb := sb ++ "\x7d"
  return messageAttributes.insert sqsKey (createMessageAttributeValue sb)

/-- Inject a context into the attributes of a message, which may be null.
Source: `AWS/SQS/ContextPropagation.cs`, `InjectHeadersIntoMessage` -/
def injectHeadersIntoMessage (messageAttributes : Option MessageAttributes) (call : InjectCall) :
    Option MessageAttributes :=
  let messageAttributes := messageAttributes.getD ∅
  if count messageAttributes < 10 then inject call messageAttributes else some messageAttributes

/-! ## The claim -/

/-- The headers that the propagator sets for a context, but for those that are null. -/
def headersSet (call : InjectCall) : List (String × String) :=
  ((injectWithSetter call.traceContext call.context []
    fun headers key value => some (headers ++ [(key, value)])).2.getD []).filterMap fun header =>
      header.2.map (header.1, ·)

/-- The names and values of headers, as the members of an object. -/
def members (headers : List (String × String)) : List (List Char × List Char) :=
  headers.map fun header => (header.1.toList, header.2.toList)

/-- The attribute holds an object whose members are these headers. -/
def Holds (attributes : MessageAttributes) (headers : List (String × String)) : Prop :=
  ∃ value text read, attributes.lookup sqsKey = some value ∧ value.stringValue = some text ∧
    IsObject text.toList read ∧ read.Perm (members headers)

/-- An injection leaves at most ten attributes and the others as they were, and the attribute of the
tracer holds the headers of the context, if there was room for it or it was there. -/
structure Decodable (before : MessageAttributes) (call : InjectCall)
    (injected : Option MessageAttributes) : Prop where
  /-- The injection completes. -/
  completes : injected.isSome
  /-- There are not too many attributes. -/
  count_le : ∀ after ∈ injected, count after ≤ 10
  /-- The other attributes stay. -/
  others : ∀ after ∈ injected, ∀ key ≠ sqsKey, after.lookup key = before.lookup key
  /-- The tracer's attribute holds the headers. -/
  holds : ∀ after ∈ injected, count before < 10 ∨ sqsKey ∈ before → Holds after (headersSet call)

/-! ## What is set -/

/-- All that the propagator sets for a context, in order. -/
def allHeaders (call : InjectCall) : List (String × Option String) :=
  [(HttpHeaderNames.traceId, some (toString call.context.traceId)),
    (HttpHeaderNames.parentId, some (toString call.context.spanId))] ++
  call.context.origin.toList.map (fun origin => (HttpHeaderNames.origin, some origin)) ++
  [(HttpHeaderNames.samplingPriority,
    (effectivePriority call.traceContext call.context).map fun p => toString p.value)]

/-- A setter that does not throw sets one after the other. -/
theorem injectWithSetter_foldl {T : Type} (setter : T → String → Option String → T)
    (call : InjectCall) (carrier : T) :
    (injectWithSetter call.traceContext call.context carrier
        fun carrier key value => some (setter carrier key value)).2 =
      some ((allHeaders call).foldl (fun carrier header => setter carrier header.1 header.2)
        carrier) := by
  have heffective : ((call.traceContext.map TraceContext.lockSamplingPriority).bind
      TraceContext.samplingPriority).or call.context.samplingPriority =
      effectivePriority call.traceContext call.context := by
    cases h : call.traceContext <;> simp [effectivePriority]
  simp only [injectWithSetter, heffective, Option.bind_eq_bind, Option.bind_some, allHeaders]
  cases call.context.origin with
  | none => rfl
  | some origin => rfl

theorem headersSet_eq (call : InjectCall) :
    headersSet call = (allHeaders call).filterMap fun header => header.2.map (header.1, ·) := by
  have hfold : ∀ headers : List (String × Option String), ∀ initial,
      headers.foldl (fun headers header => headers ++ [(header.1, header.2)]) initial =
        initial ++ headers := by
    intro headers
    induction headers with
    | nil => simp
    | cons header headers ih =>
        intro initial
        rw [List.foldl_cons, ih, List.append_assoc]
        rfl
  rw [headersSet, injectWithSetter_foldl, hfold, Option.getD_some, List.nil_append]

/-- What is written for null is the empty text. -/
def writtenHeaders (call : InjectCall) : List (String × String) :=
  (allHeaders call).map fun header => (header.1, header.2.getD "")

theorem toList_foldl_appendFormat (headers : List (String × Option String)) (sb : String) :
    (headers.foldl (fun sb header => appendFormat sb header.1 header.2) sb).toList =
      sb.toList ++
        renderMembers (members (headers.map fun header => (header.1, header.2.getD ""))) := by
  induction headers generalizing sb with
  | nil => simp [members, renderMembers]
  | cons header headers ih =>
      rw [List.foldl_cons, ih]
      simp [members, renderMembers, quote, appendFormat, String.toList_append]

/-- **The text that is injected** is the object of the headers, written without escapes. -/
theorem inject_eq (call : InjectCall) (attributes : MessageAttributes) :
    inject call attributes = some (attributes.insert sqsKey (createMessageAttributeValue
      (String.ofList (render (members (writtenHeaders call)))))) := by
  have hne : renderMembers (members (writtenHeaders call)) ≠ [] := by
    unfold writtenHeaders allHeaders
    exact List.cons_ne_nil _ _
  have htext : ((allHeaders call).foldl
      (fun sb header => appendFormat sb header.1 header.2) "\x7b").toList =
      '{' :: renderMembers (members (writtenHeaders call)) :=
    toList_foldl_appendFormat (allHeaders call) "\x7b"
  have hclose : (String.ofList ['}']) = "\x7d" := rfl
  rw [inject, injectWithSetter_foldl, Option.bind_eq_bind, Option.bind_some, htext,
    List.dropLast_cons_of_ne_nil hne, ← hclose]
  show some (attributes.insert sqsKey (createMessageAttributeValue (String.ofList
    ('{' :: (renderMembers (members (writtenHeaders call))).dropLast) ++ String.ofList ['}']))) = _
  rw [← String.ofList_append]
  rfl

/-! ## What can be decoded -/

theorem isPlain_of_isDigit {c : Char} (hc : c.isDigit = true) : isPlain c = true := by
  simp only [Char.isDigit, Bool.and_eq_true, decide_eq_true_eq] at hc
  have hlo : 48 ≤ c.toNat := by simpa [UInt32.le_iff_toNat_le] using hc.1
  have hhi : c.toNat ≤ 57 := by simpa [UInt32.le_iff_toNat_le] using hc.2
  have hquote : c ≠ '"' := fun heq => absurd hlo (by rw [heq]; decide)
  have hbackslash : c ≠ '\\' := fun heq => absurd hhi (by rw [heq]; decide)
  simp only [isPlain, Bool.and_eq_true, decide_eq_true_eq, bne_iff_ne, ne_eq, hquote, hbackslash,
    not_false_eq_true, and_true]
  omega

/-- The text of a number needs no escape. -/
theorem isPlain_toString (n : Int) : ∀ c ∈ (toString n).toList, isPlain c = true := by
  have hdigit : ∀ m : Nat, ∀ c ∈ Nat.toDigits 10 m, isPlain c = true := by
    intro m c hc
    exact isPlain_of_isDigit (Nat.isDigit_of_mem_toDigits (by decide) (by decide) hc)
  rw [Int.toString_eq_repr]
  cases n with
  | ofNat m =>
      have hrepr : (Int.ofNat m).repr.toList = Nat.toDigits 10 m := by simp [Int.repr]
      rw [hrepr]
      exact hdigit m
  | negSucc m =>
      have hrepr : (Int.negSucc m).repr.toList = '-' :: Nat.toDigits 10 (m + 1) := by
        simp [Int.repr, String.toList_append]
      rw [hrepr, List.forall_mem_cons]
      exact ⟨by decide, hdigit (m + 1)⟩

/-- The context has a priority, and an origin without characters that have to be escaped, if any. -/
structure Formattable (call : InjectCall) : Prop where
  /-- There is a priority. -/
  priority : (effectivePriority call.traceContext call.context).isSome
  /-- No quote, backslash or control character. -/
  origin : ∀ origin ∈ call.context.origin, ∀ c ∈ origin.toList, isPlain c = true

/-- With a priority, no header is null. -/
theorem writtenHeaders_eq {call : InjectCall}
    (h : (effectivePriority call.traceContext call.context).isSome) :
    writtenHeaders call = headersSet call := by
  obtain ⟨p, hp⟩ := Option.isSome_iff_exists.mp h
  rw [headersSet_eq, writtenHeaders, allHeaders, hp]
  cases call.context.origin <;> rfl

/-- All characters of a header are plain. -/
def PlainHeader (header : String × String) : Prop :=
  (∀ c ∈ header.1.toList, isPlain c = true) ∧ ∀ c ∈ header.2.toList, isPlain c = true

theorem allPlain_members_iff (headers : List (String × String)) :
    AllPlain (members headers) ↔ ∀ header ∈ headers, PlainHeader header := List.forall_mem_map

/-- The names of the headers need no escape. -/
theorem plain_names {name : String} (h : name ∈ HttpHeaderNames.datadog) :
    ∀ c ∈ name.toList, isPlain c = true := by
  have hall : HttpHeaderNames.datadog.all fun name => name.toList.all isPlain := by decide
  exact List.all_eq_true.mp (List.all_eq_true.mp hall name h)

theorem allPlain_headersSet_iff (call : InjectCall) :
    AllPlain (members (headersSet call)) ↔
      ∀ origin ∈ call.context.origin, ∀ c ∈ origin.toList, isPlain c = true := by
  have hname {name : String} (h : name ∈ HttpHeaderNames.datadog) := plain_names h
  have hid (n : UInt64) : ∀ c ∈ (toString n).toList, isPlain c = true :=
    isPlain_toString (n.toNat : Int)
  rw [allPlain_members_iff, headersSet_eq]
  constructor
  · intro h origin horigin
    refine (h (HttpHeaderNames.origin, origin) (List.mem_filterMap.mpr
      ⟨(HttpHeaderNames.origin, some origin), ?_, rfl⟩)).2
    rw [allHeaders, Option.mem_def.mp horigin]
    simp
  · intro h header hheader
    obtain ⟨header', hmem, hmap⟩ := List.mem_filterMap.mp hheader
    obtain ⟨value, hvalue, rfl⟩ := Option.map_eq_some_iff.mp hmap
    simp only [allHeaders, List.mem_append, List.mem_cons, List.not_mem_nil, or_false,
      List.mem_map, Option.mem_toList] at hmem
    rcases hmem with ((rfl | rfl) | ⟨origin, horigin, rfl⟩) | rfl
    · cases Option.some.inj hvalue
      exact ⟨hname (by simp [HttpHeaderNames.datadog]), hid _⟩
    · cases Option.some.inj hvalue
      exact ⟨hname (by simp [HttpHeaderNames.datadog]), hid _⟩
    · cases Option.some.inj hvalue
      exact ⟨hname (by simp [HttpHeaderNames.datadog]), h _ horigin⟩
    · obtain ⟨p, -, rfl⟩ := Option.map_eq_some_iff.mp hvalue
      exact ⟨hname (by simp [HttpHeaderNames.datadog]), isPlain_toString p.value⟩

/-- Without a priority, the object has a member for it nevertheless. -/
theorem not_isObject {call : InjectCall}
    (hnone : effectivePriority call.traceContext call.context = none)
    {read : List (List Char × List Char)}
    (h : IsObject (render (members (writtenHeaders call))) read) :
    ¬read.Perm (members (headersSet call)) := by
  intro hperm
  have hwritten : writtenHeaders call =
      headersSet call ++ [(HttpHeaderNames.samplingPriority, "")] := by
    rw [headersSet_eq, writtenHeaders, allHeaders, hnone]
    cases call.context.origin <;> rfl
  have hrender : ∃ text, render (members (writtenHeaders call)) =
      text ++ ['y'] ++ ['"'] ++ [':'] ++ ['"'] ++ ['"'] ++ ['}'] := by
    have hmembers : members (writtenHeaders call) =
        members (headersSet call) ++ [(HttpHeaderNames.samplingPriority.toList, [])] := by
      rw [hwritten, members, List.map_append]
      rfl
    have hname : quote HttpHeaderNames.samplingPriority.toList =
        '"' :: "x-datadog-sampling-priorit".toList ++ ['y'] ++ ['"'] := by decide
    refine ⟨'{' :: renderMembers (members (headersSet call)) ++
      '"' :: "x-datadog-sampling-priorit".toList, ?_⟩
    rw [hmembers, render_concat, hname]
    simp only [quote, List.append_assoc, List.cons_append, List.nil_append]
  obtain ⟨text, htext⟩ := hrender
  rw [htext] at h
  obtain ⟨member, hmember, rest, hend⟩ := h.exists_last (by decide) (by decide)
  obtain ⟨header, hheader, rfl⟩ := List.mem_map.mp ((hperm.mem_iff).mp hmember)
  -- no other name ends with this letter
  have hother : header.1 ∈ [HttpHeaderNames.traceId, HttpHeaderNames.parentId,
      HttpHeaderNames.origin] := by
    rw [headersSet_eq, allHeaders, hnone] at hheader
    cases ho : call.context.origin with
    | none =>
        rw [ho] at hheader
        simp at hheader
        rcases hheader with rfl | rfl <;> simp
    | some origin =>
        rw [ho] at hheader
        simp at hheader
        rcases hheader with rfl | rfl | rfl <;> simp
  have hlast : ∀ name ∈ [HttpHeaderNames.traceId, HttpHeaderNames.parentId,
      HttpHeaderNames.origin], name.toList.getLast? ≠ some 'y' := by decide
  have hend : header.1.toList = rest ++ ['y'] := hend
  exact hlast _ hother (by rw [hend, List.getLast?_concat])

/-- **An injected attribute is decodable** exactly if the context is formattable. -/
theorem holds_insert_iff (call : InjectCall) (attributes : MessageAttributes) :
    Holds (attributes.insert sqsKey (createMessageAttributeValue
        (String.ofList (render (members (writtenHeaders call)))))) (headersSet call) ↔
      Formattable call := by
  have hne : members (headersSet call) ≠ [] := by
    rw [headersSet_eq]
    exact List.cons_ne_nil _ _
  have hholds : Holds (attributes.insert sqsKey (createMessageAttributeValue
      (String.ofList (render (members (writtenHeaders call)))))) (headersSet call) ↔
      ∃ read, IsObject (render (members (writtenHeaders call))) read ∧
        read.Perm (members (headersSet call)) := by
    unfold Holds
    rw [AList.lookup_insert]
    constructor
    · rintro ⟨value, text, read, hvalue, htext, hread⟩
      cases Option.some.inj hvalue
      cases Option.some.inj htext
      rw [String.toList_ofList] at hread
      exact ⟨read, hread⟩
    · rintro ⟨read, hread⟩
      refine ⟨_, _, read, rfl, rfl, ?_⟩
      rw [String.toList_ofList]
      exact hread
  rw [hholds]
  cases hp : effectivePriority call.traceContext call.context with
  | none =>
      constructor
      · rintro ⟨read, hobject, hperm⟩
        exact absurd hperm (not_isObject hp hobject)
      · intro h
        have hsome := h.priority
        rw [hp] at hsome
        cases hsome
  | some p =>
      have hsome : (effectivePriority call.traceContext call.context).isSome := by
        rw [hp]
        rfl
      rw [writtenHeaders_eq hsome, isObject_render_iff hne, allPlain_headersSet_iff]
      exact ⟨fun h => ⟨hsome, h⟩, fun h => h.origin⟩

/-! ## Messages -/

theorem count_insert_le (attributes : MessageAttributes) (key : String)
    (value : MessageAttributeValue) :
    count (attributes.insert key value) ≤ count attributes + 1 := by
  unfold count
  rw [AList.entries_insert, List.length_cons]
  have hle := (List.kerase_sublist key attributes.entries).length_le
  omega

/-- **The attribute of a message.** For every message with at most ten attributes and every context,
an injection leaves a message whose tracer's attribute can be decoded exactly if, where there is
room, the context is formattable and, where there is none, the attribute is not there or happens to
hold the headers of the context already. -/
theorem decodable_iff (attributes : Option MessageAttributes) (call : InjectCall)
    (hcount : count (attributes.getD ∅) ≤ 10) :
    Decodable (attributes.getD ∅) call (injectHeadersIntoMessage attributes call) ↔
      (count (attributes.getD ∅) < 10 → Formattable call) ∧
      (count (attributes.getD ∅) = 10 → sqsKey ∈ attributes.getD ∅ →
        Holds (attributes.getD ∅) (headersSet call)) := by
  unfold injectHeadersIntoMessage
  generalize attributes.getD ∅ = before at hcount ⊢
  by_cases hroom : count before < 10
  · rw [if_pos hroom, inject_eq]
    constructor
    · intro h
      refine ⟨fun _ => ?_, fun hfull => absurd hfull hroom.ne⟩
      exact (holds_insert_iff call before).mp (h.holds _ rfl (.inl hroom))
    · rintro ⟨hformattable, -⟩
      have hle := count_insert_le before sqsKey (createMessageAttributeValue
        (String.ofList (render (members (writtenHeaders call)))))
      refine ⟨rfl, ?_, ?_, ?_⟩
      · rintro after ⟨rfl⟩
        exact hle.trans hroom
      · rintro after ⟨rfl⟩ key hkey
        exact AList.lookup_insert_ne hkey
      · rintro after ⟨rfl⟩ -
        exact (holds_insert_iff call before).mpr (hformattable hroom)
  · rw [if_neg hroom]
    constructor
    · intro h
      exact ⟨fun hlt => absurd hlt hroom, fun _ hmem => h.holds before rfl (.inr hmem)⟩
    · rintro ⟨-, hfull⟩
      refine ⟨rfl, ?_, ?_, ?_⟩
      · rintro after ⟨rfl⟩
        exact hcount
      · rintro after ⟨rfl⟩ key -
        rfl
      · rintro after ⟨rfl⟩ hor
        exact hfull (by omega) (hor.resolve_left hroom)

/-- A context with an origin and a priority. -/
def rumCall : InjectCall where
  traceContext := none
  context := { traceId := 7, spanId := 8, samplingPriority := some .userReject, origin := some "rum" }

/-- It is injected into a message without attributes. -/
theorem decodable_iff_rum : Decodable ∅ rumCall (injectHeadersIntoMessage none rumCall) := by
  have hcount : count (Option.getD none ∅) ≤ 10 := by decide
  refine (decodable_iff none rumCall hcount).mpr ⟨fun _ => ⟨rfl, ?_⟩, fun hfull => ?_⟩
  · rintro origin ⟨rfl⟩
    have hall : "rum".toList.all isPlain := by decide
    exact List.all_eq_true.mp hall
  · cases hfull

/-- A context without a priority, injected into a message without attributes: the object has a
member for the priority, with the empty text. -/
theorem not_decodable_noPriority :
    ¬Decodable ∅ ⟨none, ⟨1, 2, none, none, none⟩⟩
      (injectHeadersIntoMessage none ⟨none, ⟨1, 2, none, none, none⟩⟩) := by
  intro h
  have hholds := h.holds _ (inject_eq _ _) (.inl (by decide))
  have hsome := ((holds_insert_iff _ _).mp hholds).priority
  cases hsome

end DdTrace.Propagation.Sqs
