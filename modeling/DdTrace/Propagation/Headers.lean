import Mathlib.Data.List.Nodup
import Mathlib.Tactic.Common

/-!
# Collections of headers

* `IHeadersCollection`: the interface the propagator writes to and reads from. A value may be null
  (`none`), and setting a header may throw (the result is `none`).
* `StoresHeaders`: what the documentation of the interface promises, for the headers of the tracer
  and carriers that do not hold the header yet.
* `DictionaryHeadersCollection`: the collection over a dictionary, which keeps that promise under
  every comparer of keys that tells the tracer's header names apart
  (`DictionaryHeadersCollection.storesHeaders`).

Sources: `HttpHeaderNames.cs`; `Headers/IHeadersCollection.cs`;
`Headers/DictionaryHeadersCollection.cs`.
-/

namespace DdTrace.Propagation

/-! ## Names -/

namespace HttpHeaderNames

def traceId : String := "x-datadog-trace-id"
def parentId : String := "x-datadog-parent-id"
def samplingPriority : String := "x-datadog-sampling-priority"
def origin : String := "x-datadog-origin"

/-- The headers that carry a trace context. -/
def datadog : List String := [traceId, parentId, samplingPriority, origin]

end HttpHeaderNames

/-! ## The interface -/

/-- `IEnumerable<string> GetValues(string name)`, or a function that gets the values of a header
from a carrier. -/
abbrev Getter (T : Type) : Type := T → String → List (Option String)

/-- `void Set(string name, string value)`, or an action that sets a header of a carrier. -/
abbrev Setter (T : Type) : Type := T → String → Option String → Option T

/-- A collection of headers.
Source: `IHeadersCollection.cs`, the members the propagator uses -/
structure IHeadersCollection (T : Type) where
  /-- `GetValues`. -/
  getValues : Getter T
  /-- `Set`. -/
  set : Setter T

/-- The carrier holds none of the tracer's headers. -/
def HoldsNone {T : Type} (getter : Getter T) (carrier : T) : Prop :=
  ∀ name ∈ HttpHeaderNames.datadog, getter carrier name = []

/-- A store of headers: what is set for a header that is not there is what is returned, and other
headers keep their values. A null value is kept as null, as an empty string or not at all.
Source: `IHeadersCollection.cs`, the documentation of `GetValues` and `Set` -/
structure StoresHeaders {T : Type} (getter : Getter T) (setter : Setter T) : Prop where
  /-- A value that is set is the header's only value. -/
  set_some : ∀ carrier, ∀ name ∈ HttpHeaderNames.datadog, getter carrier name = [] →
    ∀ value, ∃ carrier', setter carrier name (some value) = some carrier' ∧
      getter carrier' name = [some value]
  /-- A null value leaves no text. -/
  set_null : ∀ carrier, ∀ name ∈ HttpHeaderNames.datadog, getter carrier name = [] →
    ∃ carrier', setter carrier name none = some carrier' ∧
      ∀ value ∈ getter carrier' name, value = none ∨ value = some ""
  /-- Other headers are left alone. -/
  set_other : ∀ carrier carrier' name value, setter carrier name value = some carrier' →
    name ∈ HttpHeaderNames.datadog → ∀ other ∈ HttpHeaderNames.datadog, other ≠ name →
      getter carrier' other = getter carrier other

/-! ## The collection over a dictionary -/

/-- An equality of keys, by the form in which they are compared. -/
structure StringComparer where
  /-- Two keys are equal if this is. -/
  fold : String → String

/-- `StringComparer.Ordinal`. -/
def StringComparer.ordinal : StringComparer := ⟨id⟩

/-- `StringComparer.OrdinalIgnoreCase`, on ASCII keys. -/
def StringComparer.ordinalIgnoreCase : StringComparer :=
  ⟨fun s => String.ofList (s.toList.map Char.toUpper)⟩

/-- `IDictionary<string, IList<string>>`: entries whose keys differ under the comparer. -/
structure HeaderDictionary (comparer : StringComparer) where
  /-- The entries. -/
  entries : List (String × List (Option String))
  /-- No key is there twice. -/
  distinct : (entries.map fun e => comparer.fold e.1).Nodup

namespace HeaderDictionary

variable {comparer : StringComparer}

/-- The dictionary without entries. -/
def empty : HeaderDictionary comparer := ⟨[], List.nodup_nil⟩

/-- `TryGetValue`. -/
def tryGetValue (d : HeaderDictionary comparer) (key : String) : Option (List (Option String)) :=
  (d.entries.find? fun e => comparer.fold e.1 == comparer.fold key).map Prod.snd

/-- `Remove`. -/
def remove (d : HeaderDictionary comparer) (key : String) : HeaderDictionary comparer where
  entries := d.entries.filter fun e => comparer.fold e.1 != comparer.fold key
  distinct := d.distinct.sublist (List.filter_sublist.map _)

/-- `Add`; it throws if the key is there. -/
def add (d : HeaderDictionary comparer) (key : String) (values : List (Option String)) :
    Option (HeaderDictionary comparer) :=
  if h : comparer.fold key ∈ d.entries.map fun e => comparer.fold e.1 then none
  else some ⟨d.entries ++ [(key, values)], by
    rw [List.map_append]
    refine List.nodup_append.mpr ⟨d.distinct, by simp, ?_⟩
    intro a ha b hb hab
    simp only [List.map_cons, List.map_nil, List.mem_singleton] at hb
    exact h (hb ▸ hab ▸ ha)⟩

/-- A key that was removed can be added. -/
theorem add_remove (d : HeaderDictionary comparer) (key : String)
    (values : List (Option String)) :
    ∃ d', (d.remove key).add key values = some d' ∧
      d'.entries = (d.remove key).entries ++ [(key, values)] := by
  have hnot : comparer.fold key ∉ (d.remove key).entries.map fun e => comparer.fold e.1 := by
    intro hmem
    obtain ⟨e, he, heq⟩ := List.mem_map.mp hmem
    have := (List.mem_filter.mp he).2
    simp [heq] at this
  refine ⟨_, dif_neg hnot, rfl⟩

end HeaderDictionary

/-- The collection of headers over a dictionary.
Source: `DictionaryHeadersCollection.cs` -/
def DictionaryHeadersCollection (comparer : StringComparer) :
    IHeadersCollection (HeaderDictionary comparer) where
  getValues headers name := (headers.tryGetValue name).getD []
  set headers name value := (headers.remove name).add name [value]

namespace DictionaryHeadersCollection

variable {comparer : StringComparer}

/-- `Set` succeeds, the header has the value, and so on for every other key. -/
theorem set_spec (headers : HeaderDictionary comparer) (name : String) (value : Option String) :
    ∃ headers', (DictionaryHeadersCollection comparer).set headers name value = some headers' ∧
      (DictionaryHeadersCollection comparer).getValues headers' name = [value] ∧
      ∀ other, comparer.fold other ≠ comparer.fold name →
        (DictionaryHeadersCollection comparer).getValues headers' other =
          (DictionaryHeadersCollection comparer).getValues headers other := by
  obtain ⟨headers', hadd, hentries⟩ := headers.add_remove name [value]
  refine ⟨headers', hadd, ?_, fun other hother => ?_⟩
  · have hnone : (headers.remove name).entries.find?
        (fun e => comparer.fold e.1 == comparer.fold name) = none := by
      rw [List.find?_eq_none]
      intro e he
      have := (List.mem_filter.mp he).2
      simpa using this
    simp [DictionaryHeadersCollection, HeaderDictionary.tryGetValue, hentries, hnone]
  · have hskip : (headers.remove name).entries.find?
        (fun e => comparer.fold e.1 == comparer.fold other) =
        headers.entries.find? fun e => comparer.fold e.1 == comparer.fold other := by
      unfold HeaderDictionary.remove
      rw [List.find?_filter]
      congr 1
      funext e
      by_cases he : comparer.fold e.1 = comparer.fold other
      · simp [he, hother]
      · simp [he]
    simp [DictionaryHeadersCollection, HeaderDictionary.tryGetValue, hentries, hskip,
      Ne.symm hother]

/-- **The collection over a dictionary stores headers**, under every comparer that tells the names
of the tracer's headers apart. -/
theorem storesHeaders
    (hnames : (HttpHeaderNames.datadog.map comparer.fold).Nodup) :
    StoresHeaders (DictionaryHeadersCollection comparer).getValues
      (DictionaryHeadersCollection comparer).set := by
  refine ⟨fun carrier name _ _ value => ?_, fun carrier name _ _ => ?_,
    fun carrier carrier' name value hset hname other hother hne => ?_⟩
  · obtain ⟨carrier', hset, hget, -⟩ := set_spec carrier name (some value)
    exact ⟨carrier', hset, hget⟩
  · obtain ⟨carrier', hset, hget, -⟩ := set_spec carrier name none
    refine ⟨carrier', hset, ?_⟩
    rw [hget]
    simp
  · obtain ⟨carrier'', hset', -, hkeep⟩ := set_spec carrier name value
    obtain rfl : carrier'' = carrier' := Option.some.inj (hset'.symm.trans hset)
    exact hkeep other fun heq => hne (List.inj_on_of_nodup_map hnames hother hname heq)

end DictionaryHeadersCollection

end DdTrace.Propagation
