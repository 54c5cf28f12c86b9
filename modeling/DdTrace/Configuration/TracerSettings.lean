import DdTrace.ExtensionMethods.StringExtensions
import DdTrace.Lib.Dictionaries

/-!
# The dictionaries of the tracer settings

* `parseCustomKeyValues`: a configuration string is read into a dictionary.
* `TracerSettings.new`: the dictionaries of the settings, under trimmed keys; `none` if a key is
  added twice.
* `keyValues`: the well-formed entries of a string; of those with one key the last one stays.
* `new_spec`: what the dictionaries hold, if no two keys become the same by trimming.

Sources: `Configuration/StringConfigurationSource.cs`, `ParseCustomKeyValues`;
`Configuration/TracerSettings.cs`, the constructor and `InitializeHeaderTags`;
`Configuration/ServiceNames.cs`; `Configuration/ConfigurationKeys.cs`.
-/

namespace DdTrace.Configuration

open DdTrace.Lib DdTrace.Lib.Utf16 DdTrace.ExtensionMethods.StringExtensions

/-- A string. -/
abbrev Text := List CodeUnit

/-! ## Reading -/

/-- The key and the value of an entry, if it is well formed. -/
def readKeyValue (allowOptionalMappings : Bool) (e : Text) : Option (Text × Text) :=
  match e.splitOn (unit ':') with
  | [key] => if allowOptionalMappings then some (key, []) else none
  | [key, value] => some (key, value)
  | _ => none

/-- The well-formed entries of a string. -/
def keyValues (allowOptionalMappings : Bool) (data : Text) : List (Text × Text) :=
  (data.splitOn (unit ',')).filterMap (readKeyValue allowOptionalMappings)

/-- Source: `StringConfigurationSource.cs`, `ParseCustomKeyValues` -/
def parseCustomKeyValues (data : Option Text) (allowOptionalMappings : Bool) :
    Option (Dictionary Text Text) :=
  match data with
  | none => none
  | some data =>
      if isBlank data then some ∅
      else some (Dictionary.setAll ∅ (keyValues allowOptionalMappings data))

/-- The entries with a key and a value, both trimmed; `none` if two of them have one key.
Source: `TracerSettings.cs`, the constructor, `Where` and `ToDictionary` -/
def toTrimmedDictionary (tags : List (Text × Text)) : Option (Dictionary Text Text) :=
  Dictionary.addAll ∅ ((tags.filter fun kvp => !isBlank kvp.1 && !isBlank kvp.2).map fun kvp =>
    (trim kvp.1, trim kvp.2))

/-- The loop of `InitializeHeaderTags`. -/
def addHeaderTags (casing : Casing) (headerTags : Dictionary Text Text) :
    List (Text × Text) → Option (Dictionary Text Text)
  | [] => some headerTags
  | (key, value) :: rest =>
      if !isBlank key && isBlank value then
        (headerTags.add (trim key) []).bind fun headerTags => addHeaderTags casing headerTags rest
      else if !isBlank key then
        match tryConvertToNormalizedHeaderTagName casing (some value) with
        | none => addHeaderTags casing headerTags rest
        | some result =>
            (headerTags.add (trim key) result).bind fun headerTags =>
              addHeaderTags casing headerTags rest
      else addHeaderTags casing headerTags rest

/-- Source: `TracerSettings.cs`, `InitializeHeaderTags` -/
def initializeHeaderTags (casing : Casing) (configuration : List (Text × Text)) :
    Option (Dictionary Text Text) := addHeaderTags casing ∅ configuration

/-- The dictionaries of the settings. -/
structure TracerSettings where
  globalTags : Dictionary Text Text
  headerTags : Dictionary Text Text
  /-- `_mappings` of `ServiceNames`. -/
  serviceNameMappings : Option (Dictionary Text Text)

/-- Source: `ServiceNames.cs`, the constructor -/
def serviceNames (mappings : Option (Dictionary Text Text)) : Option (Dictionary Text Text) :=
  mappings.filter fun d => 0 < d.entries.length

/-- The dictionaries of the settings from what the source gives for the keys, if there is a source.
Source: `TracerSettings.cs`, the constructor -/
def TracerSettings.new (casing : Casing) (order : Dictionary.Enumeration Text Text)
    (getString : Option (String → Option Text)) : Option TracerSettings := do
  let getDictionary (key : String) (allowOptionalMappings : Bool) :=
    getString.bind fun getString => parseCustomKeyValues (getString key) allowOptionalMappings
  let globalTags := ((getDictionary "DD_TAGS" false).or
    (getDictionary "DD_TRACE_GLOBAL_TAGS" false)).getD ∅
  let globalTags ← toTrimmedDictionary (order.entries globalTags)
  let inputHeaderTags := (getDictionary "DD_TRACE_HEADER_TAGS" true).getD ∅
  let headerTags ← initializeHeaderTags casing (order.entries inputHeaderTags)
  match getDictionary "DD_TRACE_SERVICE_MAPPING" false with
  | none => return ⟨globalTags, headerTags, serviceNames none⟩
  | some mappings =>
      let mappings ← toTrimmedDictionary (order.entries mappings)
      return ⟨globalTags, headerTags, serviceNames (some mappings)⟩

/-! ## What is kept of an entry -/

/-- What is kept of a tag or a mapping. -/
def keptTag (kvp : Text × Text) : Option (Text × Text) :=
  if isBlank kvp.1 || isBlank kvp.2 then none else some (trim kvp.1, trim kvp.2)

/-- What is kept of the tag of a header. -/
def keptHeaderTag (casing : Casing) (kvp : Text × Text) : Option (Text × Text) :=
  if isBlank kvp.1 then none
  else if isBlank kvp.2 then some (trim kvp.1, [])
  else (tryConvertToNormalizedHeaderTagName casing (some kvp.2)).map fun result =>
    (trim kvp.1, result)

theorem toTrimmedDictionary_eq (tags : List (Text × Text)) :
    toTrimmedDictionary tags = Dictionary.addAll ∅ (tags.filterMap keptTag) := by
  rw [toTrimmedDictionary, ← List.filterMap_eq_map, List.filterMap_filter]
  refine congrArg _ (List.filterMap_congr fun kvp _ => ?_)
  rw [keptTag]
  cases isBlank kvp.1 with
  | true => rfl
  | false =>
      cases isBlank kvp.2 with
      | true => rfl
      | false => rfl

theorem addHeaderTags_eq (casing : Casing) (headerTags : Dictionary Text Text)
    (configuration : List (Text × Text)) :
    addHeaderTags casing headerTags configuration =
      headerTags.addAll (configuration.filterMap (keptHeaderTag casing)) := by
  induction configuration generalizing headerTags with
  | nil => rfl
  | cons kvp rest ih =>
      obtain ⟨key, value⟩ := kvp
      rw [addHeaderTags, List.filterMap_cons, keptHeaderTag]
      cases hkey : isBlank key with
      | true =>
          simp only [Bool.not_true, Bool.false_and, Bool.false_eq_true, if_false, if_true]
          exact ih headerTags
      | false =>
          cases hvalue : isBlank value with
          | true =>
              simp only [Bool.not_false, Bool.true_and, Bool.false_eq_true, if_false,
                if_true, Dictionary.addAll]
              exact Option.bind_congr fun headerTags _ => ih headerTags
          | false =>
              simp only [Bool.not_false, Bool.true_and, Bool.false_eq_true, if_false,
                if_true]
              cases tryConvertToNormalizedHeaderTagName casing (some value) with
              | none => exact ih headerTags
              | some result => exact Option.bind_congr fun headerTags _ => ih headerTags

/-- Of an entry with a blank key nothing is kept. -/
theorem keptTag_of_blank {key : Text} (h : isBlank key = true) (value : Text) :
    keptTag (key, value) = none := by
  rw [keptTag, h, Bool.true_or, if_pos rfl]

theorem keptHeaderTag_of_blank (casing : Casing) {key : Text} (h : isBlank key = true)
    (value : Text) : keptHeaderTag casing (key, value) = none := if_pos h

/-! ## The dictionary of a string -/

/-- What is found for a string. -/
def dictionaryOf (data : Option Text) (allowOptionalMappings : Bool) : Dictionary Text Text :=
  (parseCustomKeyValues data allowOptionalMappings).getD ∅

/-- The entry is well formed, and the last one with its key. -/
def Given (data : Option Text) (allowOptionalMappings : Bool) (key value : Text) : Prop :=
  ∃ text, data = some text ∧ Dictionary.IsLast (keyValues allowOptionalMappings text) key value

theorem parseCustomKeyValues_some (text : Text) (allowOptionalMappings : Bool) :
    parseCustomKeyValues (some text) allowOptionalMappings =
      some (dictionaryOf (some text) allowOptionalMappings) := by
  rw [dictionaryOf, parseCustomKeyValues]
  cases isBlank text with
  | true => rfl
  | false => rfl

/-- In a blank string there is no entry, or one with a blank key. -/
theorem keyValues_of_blank {text : Text} (h : isBlank text = true) (allowOptionalMappings : Bool) :
    ∀ e ∈ keyValues allowOptionalMappings text, isBlank e.1 = true := by
  have hwhite : ∀ c ∈ text, isWhiteSpace c = true := List.all_eq_true.mp h
  have hcomma : unit ',' ∉ text := by
    intro hmem
    have hcomma := hwhite _ hmem
    revert hcomma
    decide
  have hcolon : unit ':' ∉ text := by
    intro hmem
    have hcolon := hwhite _ hmem
    revert hcolon
    decide
  intro e he
  rw [keyValues, List.splitOn_eq_singleton hcomma, List.mem_filterMap] at he
  obtain ⟨part, hpart, he⟩ := he
  rw [List.mem_singleton.mp hpart, readKeyValue, List.splitOn_eq_singleton hcolon] at he
  cases allowOptionalMappings with
  | true =>
      obtain rfl := Option.some.inj he
      exact h
  | false => cases he

theorem mem_dictionaryOf_iff {data : Option Text} {allowOptionalMappings : Bool} {key value : Text}
    (hkey : isBlank key = false) :
    (key, value) ∈ (dictionaryOf data allowOptionalMappings).pairs ↔
      Given data allowOptionalMappings key value := by
  have hempty : (key, value) ∉ (∅ : Dictionary Text Text).pairs := List.not_mem_nil
  rw [dictionaryOf]
  cases data with
  | none => exact iff_of_false hempty fun ⟨text, htext, _⟩ => by cases htext
  | some text =>
      rw [parseCustomKeyValues]
      cases hblank : isBlank text with
      | true =>
          rw [if_pos rfl]
          refine iff_of_false hempty ?_
          rintro ⟨text', htext, before, after, hentries, -⟩
          rw [← Option.some.inj htext] at hentries
          have hmem : (key, value) ∈ keyValues allowOptionalMappings text := by
            rw [hentries]
            exact List.mem_append_right _ List.mem_cons_self
          exact Bool.false_ne_true (hkey.symm.trans (keyValues_of_blank hblank _ _ hmem))
      | false =>
          rw [if_neg Bool.false_ne_true, Option.getD_some, Dictionary.mem_pairs_setAll_iff]
          constructor
          · intro hlast
            exact ⟨text, rfl, hlast⟩
          · rintro ⟨text', htext, hlast⟩
            obtain rfl := Option.some.inj htext
            exact hlast

/-- No two keys of which something is kept become the same. -/
def KeptApart (data : Option Text) (allowOptionalMappings : Bool)
    (kept : Text × Text → Option (Text × Text)) : Prop :=
  ∀ a va b vb k v v', Given data allowOptionalMappings a va → Given data allowOptionalMappings b vb →
    kept (a, va) = some (k, v) → kept (b, vb) = some (k, v') → a = b

/-- The dictionary holds what is kept of the entries, and nothing else. -/
def Holds (d : Dictionary Text Text) (data : Option Text) (allowOptionalMappings : Bool)
    (kept : Text × Text → Option (Text × Text)) : Prop :=
  ∀ k v, d.lookup k = some v ↔
    ∃ key value, Given data allowOptionalMappings key value ∧ kept (key, value) = some (k, v)

/-- Where nothing is configured, nothing is held. -/
theorem holds_empty (allowOptionalMappings : Bool) (kept : Text × Text → Option (Text × Text)) :
    Holds ∅ none allowOptionalMappings kept := by
  intro k v
  rw [AList.lookup_empty]
  refine iff_of_false (Option.some_ne_none v).symm ?_
  rintro ⟨key, value, ⟨text, htext, -⟩, -⟩
  cases htext

/-- **A dictionary under trimmed keys** holds what is kept, if the keys stay apart. -/
theorem exists_holds {data : Option Text} {allowOptionalMappings : Bool}
    {kept : Text × Text → Option (Text × Text)}
    (hkept : ∀ key value, isBlank key = true → kept (key, value) = none)
    (order : Dictionary.Enumeration Text Text)
    (hapart : KeptApart data allowOptionalMappings kept) :
    ∃ d, Dictionary.addAll ∅
        ((order.entries (dictionaryOf data allowOptionalMappings)).filterMap kept) = some d ∧
      Holds d data allowOptionalMappings kept := by
  have hgiven {key value k v : Text} (h : kept (key, value) = some (k, v)) :
      (key, value) ∈ order.entries (dictionaryOf data allowOptionalMappings) ↔
        Given data allowOptionalMappings key value := by
    have hkey : isBlank key = false := by
      rw [← Bool.not_eq_true]
      intro hblank
      rw [hkept key value hblank] at h
      cases h
    rw [(order.perm _).mem_iff, mem_dictionaryOf_iff hkey]
  have hsome : (Dictionary.addAll ∅
      ((order.entries (dictionaryOf data allowOptionalMappings)).filterMap kept)).isSome := by
    rw [addAll_filterMap_isSome_iff (order.nodup _)]
    rintro ⟨a, va⟩ ha ⟨b, vb⟩ hb k v v' hkeptA hkeptB
    exact hapart a va b vb k v v' ((hgiven hkeptA).mp ha) ((hgiven hkeptB).mp hb) hkeptA hkeptB
  obtain ⟨d, hd⟩ := Option.isSome_iff_exists.mp hsome
  refine ⟨d, hd, fun k v => ?_⟩
  rw [lookup_addAll_filterMap hd]
  constructor
  · rintro ⟨⟨key, value⟩, hmem, h⟩
    exact ⟨key, value, (hgiven h).mp hmem, h⟩
  · rintro ⟨key, value, hmem, h⟩
    exact ⟨(key, value), (hgiven h).mpr hmem, h⟩

/-! ## The settings -/

namespace TracerSettings

/-- The string for a key. -/
def configured (getString : Option (String → Option Text)) (key : String) : Option Text :=
  getString.bind fun getString => getString key

/-- The string for the global tags; there are two keys for it. -/
def globalTagsData (getString : Option (String → Option Text)) : Option Text :=
  (configured getString "DD_TAGS").or (configured getString "DD_TRACE_GLOBAL_TAGS")

theorem or_parseCustomKeyValues (data data' : Option Text) (allowOptionalMappings : Bool) :
    (parseCustomKeyValues data allowOptionalMappings).or
        (parseCustomKeyValues data' allowOptionalMappings) =
      parseCustomKeyValues (data.or data') allowOptionalMappings := by
  cases data with
  | none => rfl
  | some text =>
      rw [parseCustomKeyValues_some]
      exact (parseCustomKeyValues_some text allowOptionalMappings).symm

/-- The mappings that are asked for are those that were read. -/
theorem getD_serviceNames (mappings : Dictionary Text Text) :
    (serviceNames (some mappings)).getD ∅ = mappings := by
  rw [serviceNames, Option.filter_some]
  split
  case isTrue => rfl
  case isFalse h =>
    rw [decide_eq_true_eq, Nat.not_lt, Nat.le_zero, List.length_eq_zero_iff] at h
    exact AList.ext h.symm

theorem bind_parseCustomKeyValues (getString : Option (String → Option Text)) (key : String)
    (allowOptionalMappings : Bool) :
    (getString.bind fun getString => parseCustomKeyValues (getString key) allowOptionalMappings) =
      parseCustomKeyValues (configured getString key) allowOptionalMappings := by
  cases getString with
  | none => rfl
  | some getString => rfl

/-- **The dictionaries of the settings** hold what is kept of the entries, if no two keys become the
same by trimming. -/
theorem new_spec (casing : Casing) (order : Dictionary.Enumeration Text Text)
    (getString : Option (String → Option Text))
    (hglobal : KeptApart (globalTagsData getString) false keptTag)
    (hheader : KeptApart (configured getString "DD_TRACE_HEADER_TAGS") true (keptHeaderTag casing))
    (hmapping : KeptApart (configured getString "DD_TRACE_SERVICE_MAPPING") false keptTag) :
    ∃ settings, new casing order getString = some settings ∧
      Holds settings.globalTags (globalTagsData getString) false keptTag ∧
      Holds settings.headerTags (configured getString "DD_TRACE_HEADER_TAGS") true
        (keptHeaderTag casing) ∧
      Holds (settings.serviceNameMappings.getD ∅)
        (configured getString "DD_TRACE_SERVICE_MAPPING") false keptTag := by
  obtain ⟨globalTags, hglobalTags, hholds⟩ :=
    exists_holds (fun key value h => keptTag_of_blank h value) order hglobal
  obtain ⟨headerTags, hheaderTags, hholds'⟩ :=
    exists_holds (fun key value h => keptHeaderTag_of_blank casing h value) order hheader
  obtain ⟨mappings, hmappings, hholds''⟩ :=
    exists_holds (fun key value h => keptTag_of_blank h value) order hmapping
  rw [← toTrimmedDictionary_eq] at hglobalTags hmappings
  rw [← addHeaderTags_eq] at hheaderTags
  have hglobalTags' : toTrimmedDictionary (order.entries
      ((parseCustomKeyValues (globalTagsData getString) false).getD ∅)) = some globalTags :=
    hglobalTags
  have hheaderTags' : initializeHeaderTags casing (order.entries
      ((parseCustomKeyValues (configured getString "DD_TRACE_HEADER_TAGS") true).getD ∅)) =
        some headerTags := hheaderTags
  unfold new
  simp only [bind_parseCustomKeyValues, or_parseCustomKeyValues, Option.bind_eq_bind]
  rw [← globalTagsData, hglobalTags', Option.bind_some, hheaderTags', Option.bind_some]
  cases hdata : configured getString "DD_TRACE_SERVICE_MAPPING" with
  | none => exact ⟨_, rfl, hholds, hholds', holds_empty false keptTag⟩
  | some text =>
      rw [hdata] at hmappings hholds''
      simp only [parseCustomKeyValues_some, hmappings, Option.bind_some]
      refine ⟨_, rfl, hholds, hholds', ?_⟩
      rw [getD_serviceNames]
      exact hholds''

/-- One string for each dictionary. -/
def oneEntryEach (key : String) : Option Text :=
  if key = "DD_TAGS" then some (ascii " a : 1 ")
  else if key = "DD_TRACE_HEADER_TAGS" then some (ascii "h:My.Tag")
  else if key = "DD_TRACE_SERVICE_MAPPING" then some (ascii "db:mine")
  else none

/-- A single entry stays apart. -/
theorem keptApart_single {text : Text} {allowOptionalMappings : Bool} {e : Text × Text}
    (h : keyValues allowOptionalMappings text = [e])
    (kept : Text × Text → Option (Text × Text)) :
    KeptApart (some text) allowOptionalMappings kept := by
  have honly {key value : Text} (hgiven : Given (some text) allowOptionalMappings key value) :
      key = e.1 := by
    obtain ⟨text', htext, before, after, hentries, -⟩ := hgiven
    rw [← Option.some.inj htext, h] at hentries
    have hmem : (key, value) ∈ [e] := by
      rw [hentries]
      exact List.mem_append_right _ List.mem_cons_self
    rw [← List.mem_singleton.mp hmem]
  intro a va b vb k v v' ha hb _ _
  rw [honly ha, honly hb]

theorem new_oneEntryEach :
    ∃ settings, new .latin .inOrder (some oneEntryEach) = some settings ∧
      Holds settings.globalTags (some (ascii " a : 1 ")) false keptTag ∧
      Holds settings.headerTags (some (ascii "h:My.Tag")) true (keptHeaderTag .latin) ∧
      Holds (settings.serviceNameMappings.getD ∅) (some (ascii "db:mine")) false keptTag := by
  have hglobal : keyValues false (ascii " a : 1 ") = [(ascii " a ", ascii " 1 ")] := by decide
  have hheader : keyValues true (ascii "h:My.Tag") = [(ascii "h", ascii "My.Tag")] := by decide
  have hmapping : keyValues false (ascii "db:mine") = [(ascii "db", ascii "mine")] := by decide
  exact new_spec .latin .inOrder (some oneEntryEach) (keptApart_single hglobal keptTag)
    (keptApart_single hheader (keptHeaderTag .latin)) (keptApart_single hmapping keptTag)

/-- A tag that is given without a value again, and the tag of a header. -/
def blankAgain (key : String) : Option Text :=
  if key = "DD_TAGS" then some (ascii "a:1,a:")
  else if key = "DD_TRACE_HEADER_TAGS" then some (ascii "h:My.Tag")
  else none

/-- A later entry takes the place of an earlier one, also if it is dropped then, and the tag of a
header is not its trimmed value. -/
theorem new_blankAgain :
    ∃ settings, new .latin .inOrder (some blankAgain) = some settings ∧
      settings.globalTags.lookup (ascii "a") = none ∧
      settings.headerTags.lookup (ascii "h") = some (ascii "my_tag") :=
  ⟨_, rfl, by decide, by decide⟩

end TracerSettings

end DdTrace.Configuration
