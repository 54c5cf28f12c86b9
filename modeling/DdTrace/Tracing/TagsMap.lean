import Mathlib.Data.List.Induction
import DdTrace.Tracing.TagsTypes

/-!
# Tags as a map

The tags and the metrics of an object of any tags class, with the property tables as parameters.

* `Entries`: one of the two, with `get` and `set`; `TagsObject`: both.
* `Entries.get_set`: `get` is a map of which `set` replaces one value, if its key is not that of a
  read-only property.
* `TagsObject.run_is_map`: after any calls a key has the last value it was given.
* `TagsList.object_setTag`, `TagsList.object_setMetric`: the objects of the tracer's own classes
  are such objects.

Sources: `Tagging/TagsList.cs`, `GetTag` to `SetMetric`; `Tagging/Property.cs`,
`Tagging/ReadOnlyProperty.cs`.
-/

namespace DdTrace.Tracing

/-! ## The two places of an entry -/

/-- A property table: what `GetAdditionalTags` or `GetAdditionalMetrics` returns. -/
structure PropertyTable where
  properties : List Property
  nodup : (properties.map Property.key).Nodup

/-- The key is that of a read-only property. -/
def PropertyTable.isReadOnly (table : PropertyTable) (key : Option String) : Bool :=
  table.properties.any fun p => p.key == key && p.isReadOnly

/-- The tags or the metrics of an object: the values of the properties and the custom entries. -/
structure Entries (α : Type) where
  table : PropertyTable
  values : String → Option α
  custom : List (Option String × α)

namespace Entries

variable {α : Type}

/-- The entries of a new object, whose read-only properties have their values. -/
def new (table : PropertyTable) (fixed : String → Option α) : Entries α where
  table := table
  values key := if table.isReadOnly key then fixed key else none
  custom := []

/-- Source: `TagsList.cs`, `GetTag` and `GetMetric` -/
def get (e : Entries α) (key : Option String) : Option α :=
  getEntry e.table.properties e.values e.custom key

/-- Source: `TagsList.cs`, `SetTag` and `SetMetric` -/
def set (e : Entries α) (key : Option String) (value : Option α) : Entries α :=
  match e.table.properties.find? fun p => p.key == key with
  | some p =>
      if p.isReadOnly then e
      else { e with values := Function.update e.values p.key value }
  | none => { e with custom := setEntry key value e.custom }

end Entries

/-- A tags object of any class. -/
structure TagsObject where
  tags : Entries String
  metrics : Entries Float

/-- A call of `SetTag` or `SetMetric`. -/
inductive TagsCall
  | setTag (key value : Option String)
  | setMetric (key : Option String) (value : Option Float)

namespace TagsObject

/-- A new object. -/
def new (tagTable metricTable : PropertyTable) (fixedTags : String → Option String)
    (fixedMetrics : String → Option Float) : TagsObject where
  tags := Entries.new tagTable fixedTags
  metrics := Entries.new metricTable fixedMetrics

def getTag (t : TagsObject) (key : Option String) : Option String := t.tags.get key

def getMetric (t : TagsObject) (key : Option String) : Option Float := t.metrics.get key

/-- What one call makes of an object. -/
def step (t : TagsObject) : TagsCall → TagsObject
  | .setTag key value => { t with tags := t.tags.set key value }
  | .setMetric key value => { t with metrics := t.metrics.set key value }

/-- What calls one after another make of an object. -/
def run (t : TagsObject) (calls : List TagsCall) : TagsObject := calls.foldl step t

end TagsObject

/-! ## What was set -/

/-- The last value that a key was given, if it was given one: null takes the value away. -/
def lastSet {α : Type} (sets : List (Option String × Option α)) (key : Option String) : Option α :=
  (sets.reverse.lookup key).join

/-- The key and the value of a `SetTag`. -/
def TagsCall.tag? : TagsCall → Option (Option String × Option String)
  | .setTag key value => some (key, value)
  | .setMetric _ _ => none

/-- The key and the value of a `SetMetric`. -/
def TagsCall.metric? : TagsCall → Option (Option String × Option Float)
  | .setTag _ _ => none
  | .setMetric key value => some (key, value)

/-- The value that a map with fixed entries has for a key. -/
def valueOf {α : Type} (table : PropertyTable) (fixed : String → Option α)
    (sets : List (Option String × Option α)) (key : Option String) : Option α :=
  if table.isReadOnly key then key.bind fixed else lastSet sets key

theorem lastSet_concat {α : Type} (sets : List (Option String × Option α))
    (key : Option String) (value : Option α) :
    lastSet (sets ++ [(key, value)]) = Function.update (lastSet sets) key value := by
  funext other
  unfold lastSet
  rw [List.reverse_concat, List.lookup_cons]
  by_cases hother : other = key
  · rw [hother, beq_self_eq_true, Function.update_self]
    rfl
  · rw [Function.update_of_ne hother, beq_false_of_ne hother]

/-! ## One call -/

section Set

variable {α : Type} {key : Option String} {value : Option α}

/-- The loops of `SetTag` and `SetMetric`, on entries with distinct keys. -/
theorem lookup_setEntry {entries : List (Option String × α)}
    (hnodup : (entries.map Prod.fst).Nodup) (other : Option String) :
    (setEntry key value entries).lookup other =
      if other = key then value else entries.lookup other := by
  apply Option.ext
  intro v
  by_cases hother : other = key
  · subst hother
    rw [if_pos rfl]
    cases value with
    | some w => rw [TagsList.lookup_setEntry_some]
    | none =>
        have hnotin : other ∉ (setEntry other (none : Option α) entries).map Prod.fst := by
          rw [mem_keys_setEntry hnodup, if_pos rfl]
          simp
        rw [Lib.lookup_eq_some_iff_mem (nodup_setEntry hnodup)]
        constructor
        · intro hmem
          exact absurd (List.mem_map_of_mem hmem) hnotin
        · intro h
          cases h
  · rw [if_neg hother]
    clear hnodup
    induction entries with
    | nil =>
        cases value with
        | none => rfl
        | some w => simp [setEntry, List.lookup_cons, beq_false_of_ne hother]
    | cons entry entries ih =>
        obtain ⟨k, w⟩ := entry
        unfold setEntry
        by_cases hk : k = key
        · subst hk
          rw [if_pos rfl, List.lookup_cons, beq_false_of_ne hother]
          cases value with
          | none => rfl
          | some w' => rw [List.lookup_cons, beq_false_of_ne hother]
        · rw [if_neg hk, List.lookup_cons, List.lookup_cons]
          cases other == k with
          | true => rfl
          | false => exact ih

/-- The property that a key selects says whether the key is read-only. -/
theorem PropertyTable.isReadOnly_of_find? {table : PropertyTable} {p : Property}
    (hfind : (table.properties.find? fun p => p.key == key) = some p) :
    table.isReadOnly key = p.isReadOnly := by
  have hkey : some p.key = key := by simpa using List.find?_some hfind
  have hmem := List.mem_of_find?_eq_some hfind
  rw [Bool.eq_iff_iff]
  simp only [isReadOnly, List.any_eq_true, Bool.and_eq_true, beq_iff_eq]
  constructor
  · rintro ⟨q, hq, hqkey, hqread⟩
    have hfindq := find?_key_of_mem table.nodup hq
    rw [hqkey, hfind] at hfindq
    rwa [Option.some.inj hfindq]
  · intro hread
    exact ⟨p, hmem, hkey, hread⟩

/-- A key that selects no property is not read-only. -/
theorem PropertyTable.isReadOnly_of_find?_none {table : PropertyTable}
    (hfind : (table.properties.find? fun p => p.key == key) = none) :
    table.isReadOnly key = false := by
  rw [isReadOnly, List.any_eq_false]
  intro p hp
  have hne := find?_key_eq_none.mp hfind p hp
  simp [hne]

namespace Entries

@[simp] theorem set_table (e : Entries α) : (e.set key value).table = e.table := by
  unfold set
  split
  · split
    · rfl
    · rfl
  · rfl

/-- The custom keys stay distinct. -/
theorem nodup_set {e : Entries α} (hnodup : (e.custom.map Prod.fst).Nodup) :
    ((e.set key value).custom.map Prod.fst).Nodup := by
  unfold set
  split
  · split
    · exact hnodup
    · exact hnodup
  · exact nodup_setEntry hnodup

/-- **One call replaces one value of the map**, or none if the key is read-only. -/
theorem get_set {e : Entries α} (hnodup : (e.custom.map Prod.fst).Nodup) :
    (e.set key value).get =
      if e.table.isReadOnly key then e.get else Function.update e.get key value := by
  unfold set
  cases hfind : e.table.properties.find? fun p => p.key == key with
  | some p =>
      have hkey : some p.key = key := by simpa using List.find?_some hfind
      rw [PropertyTable.isReadOnly_of_find? hfind]
      dsimp only
      split
      · rfl
      · funext other
        by_cases hother : other = key
        · subst hother
          rw [Function.update_self, get, getEntry, hfind]
          exact Function.update_self ..
        · rw [Function.update_of_ne hother]
          unfold get getEntry
          -- Another key selects another property, or none.
          cases hfind' : e.table.properties.find? fun p => p.key == other with
          | none => rfl
          | some q =>
              have hkey' : some q.key = other := by simpa using List.find?_some hfind'
              have hne : q.key ≠ p.key := by
                intro heq
                apply hother
                rw [← hkey', heq, hkey]
              exact Function.update_of_ne hne ..
  | none =>
      rw [PropertyTable.isReadOnly_of_find?_none hfind, if_neg Bool.false_ne_true]
      funext other
      unfold get getEntry
      by_cases hother : other = key
      · subst hother
        rw [Function.update_self]
        dsimp only
        rw [hfind]
        dsimp only
        rw [lookup_setEntry hnodup, if_pos rfl]
      · rw [Function.update_of_ne hother]
        dsimp only
        cases e.table.properties.find? fun p => p.key == other with
        | some q => rfl
        | none => exact (lookup_setEntry hnodup other).trans (if_neg hother)

/-- A new object has the fixed values and no others. -/
theorem get_new (table : PropertyTable) (fixed : String → Option α) :
    (Entries.new table fixed).get = valueOf table fixed [] := by
  funext key
  unfold get getEntry valueOf new
  dsimp only
  cases hfind : table.properties.find? fun p => p.key == key with
  | some p =>
      have hkey : some p.key = key := by simpa using List.find?_some hfind
      subst hkey
      rfl
  | none =>
      rw [PropertyTable.isReadOnly_of_find?_none hfind]
      rfl

end Entries

/-- A value of a map with fixed entries, after one more was set. -/
theorem valueOf_concat (table : PropertyTable) (fixed : String → Option α)
    (sets : List (Option String × Option α)) :
    valueOf table fixed (sets ++ [(key, value)]) =
      if table.isReadOnly key then valueOf table fixed sets
      else Function.update (valueOf table fixed sets) key value := by
  funext other
  by_cases hother : other = key
  · subst hother
    unfold valueOf
    cases hread : table.isReadOnly other with
    | true => simp [hread]
    | false => simp [lastSet_concat]
  · have hsame : valueOf table fixed (sets ++ [(key, value)]) other =
        valueOf table fixed sets other := by
      rw [valueOf, lastSet_concat, Function.update_of_ne hother, valueOf]
    rw [hsame]
    split
    · rfl
    · rw [Function.update_of_ne hother]

end Set

/-! ## Any calls -/

/-- The entries are those of a map to which the sets were made. -/
structure Entries.Holds {α : Type} (table : PropertyTable) (fixed : String → Option α)
    (sets : List (Option String × Option α)) (e : Entries α) : Prop where
  table_eq : e.table = table
  get_eq : e.get = valueOf table fixed sets
  nodup : (e.custom.map Prod.fst).Nodup

variable {α : Type} {table : PropertyTable} {fixed : String → Option α}

theorem Entries.holds_new : (Entries.new table fixed).Holds table fixed [] :=
  ⟨rfl, Entries.get_new table fixed, List.nodup_nil⟩

theorem Entries.Holds.set {sets : List (Option String × Option α)} {e : Entries α}
    (h : e.Holds table fixed sets) (key : Option String) (value : Option α) :
    (e.set key value).Holds table fixed (sets ++ [(key, value)]) := by
  refine ⟨?_, ?_, Entries.nodup_set h.nodup⟩
  · rw [Entries.set_table, h.table_eq]
  · rw [Entries.get_set h.nodup, h.table_eq, h.get_eq, valueOf_concat]

namespace TagsObject

variable {tagTable metricTable : PropertyTable} {fixedTags : String → Option String}
  {fixedMetrics : String → Option Float}

theorem holds_run (calls : List TagsCall) :
    let t := (new tagTable metricTable fixedTags fixedMetrics).run calls
    t.tags.Holds tagTable fixedTags (calls.filterMap TagsCall.tag?) ∧
      t.metrics.Holds metricTable fixedMetrics (calls.filterMap TagsCall.metric?) := by
  induction calls using List.reverseRecOn with
  | nil => exact ⟨Entries.holds_new, Entries.holds_new⟩
  | append_singleton calls call ih =>
      obtain ⟨htags, hmetrics⟩ := ih
      simp only [run, List.foldl_concat, List.filterMap_append]
      cases call with
      | setTag key value =>
          have hnone : [TagsCall.setTag key value].filterMap TagsCall.metric? = [] := rfl
          refine ⟨htags.set key value, ?_⟩
          rw [hnone, List.append_nil]
          exact hmetrics
      | setMetric key value =>
          have hnone : [TagsCall.setMetric key value].filterMap TagsCall.tag? = [] := rfl
          refine ⟨?_, hmetrics.set key value⟩
          rw [hnone, List.append_nil]
          exact htags

/-- **Tags behave as one map**: after any calls every key has the last value it was given, unless
it is that of a read-only property, and no custom key is there twice. -/
theorem run_is_map (tagTable metricTable : PropertyTable) (fixedTags : String → Option String)
    (fixedMetrics : String → Option Float) (calls : List TagsCall) :
    let t := (new tagTable metricTable fixedTags fixedMetrics).run calls
    (∀ key, t.getTag key =
      valueOf tagTable fixedTags (calls.filterMap TagsCall.tag?) key) ∧
    (∀ key, t.getMetric key =
      valueOf metricTable fixedMetrics (calls.filterMap TagsCall.metric?) key) ∧
    (t.tags.custom.map Prod.fst).Nodup ∧ (t.metrics.custom.map Prod.fst).Nodup := by
  obtain ⟨htags, hmetrics⟩ := holds_run calls
  exact ⟨congrFun htags.get_eq, congrFun hmetrics.get_eq, htags.nodup, hmetrics.nodup⟩

end TagsObject

/-! ## The tracer's own classes -/

namespace TagsList

/-- An object of a class of the tracer, as an object of any class. -/
def object (t : TagsList) (htags : (t.type.additionalTags.map Property.key).Nodup)
    (hmetrics : (t.type.additionalMetrics.map Property.key).Nodup) : TagsObject where
  tags := ⟨⟨t.type.additionalTags, htags⟩, t.tagValues, t.tags⟩
  metrics := ⟨⟨t.type.additionalMetrics, hmetrics⟩, t.metricValues, t.metrics⟩

variable {t : TagsList} (htags : (t.type.additionalTags.map Property.key).Nodup)
  (hmetrics : (t.type.additionalMetrics.map Property.key).Nodup)

theorem getTag_object (key : Option String) :
    (t.object htags hmetrics).getTag key = t.getTag key := rfl

theorem getMetric_object (key : Option String) :
    (t.object htags hmetrics).getMetric key = t.getMetric key := rfl

/-- `SetTag` of the tracer's objects is that of the objects of any class. -/
theorem object_setTag (key value : Option String)
    (htags' : ((t.setTag key value).type.additionalTags.map Property.key).Nodup)
    (hmetrics' : ((t.setTag key value).type.additionalMetrics.map Property.key).Nodup) :
    (t.setTag key value).object htags' hmetrics' =
      (t.object htags hmetrics).step (.setTag key value) := by
  unfold object TagsObject.step Entries.set
  dsimp only
  cases hfind : t.type.additionalTags.find? fun p => p.key == key with
  | none => simp [setTag, hfind]
  | some p => cases hread : p.isReadOnly <;> simp [setTag, hfind, hread]

/-- `SetMetric` of the tracer's objects is that of the objects of any class. -/
theorem object_setMetric (key : Option String) (value : Option Float)
    (htags' : ((t.setMetric key value).type.additionalTags.map Property.key).Nodup)
    (hmetrics' : ((t.setMetric key value).type.additionalMetrics.map Property.key).Nodup) :
    (t.setMetric key value).object htags' hmetrics' =
      (t.object htags hmetrics).step (.setMetric key value) := by
  unfold object TagsObject.step Entries.set
  dsimp only
  cases hfind : t.type.additionalMetrics.find? fun p => p.key == key with
  | none => simp [setMetric, hfind]
  | some p => cases hread : p.isReadOnly <;> simp [setMetric, hfind, hread]

end TagsList

end DdTrace.Tracing
