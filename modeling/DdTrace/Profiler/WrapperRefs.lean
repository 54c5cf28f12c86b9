import DdTrace.Lib.Dictionaries
import DdTrace.Lib.Run
import DdTrace.Profiler.AssemblyReferences
import DdTrace.Profiler.CompressedData

/-!
# The references to wrapper methods

The metadata of a module is asked once for the reference to a wrapper method and to its type; both
are kept under texts that are made of the names and the version range of the wrapper.

* `StoreWrapperMethodRef`: the code. The metadata is a parameter: `Rows` are the rows that its
  tokens stand for, and `Calls` the results of the calls, which may fail.
* `Own`: the reference of a wrapper.
* `store_cases`: what one call can do.
* `transparent_run_iff`: the sequences of replacements after which every wrapper has a reference of
  its own.

Sources: `metadata_builder.cpp`, `module_metadata.h`, `integration.h`
-/

namespace DdTrace.Profiler.Integration

open DdTrace.Lib

/-! ## The metadata of a module -/

/-- A code of a call that has failed. -/
abbrev HRESULT := UInt32

/-- `E_FAIL`. -/
def E_FAIL : HRESULT := 0x80004005

/-- The record is not found on lookup. -/
def recordNotFound : HRESULT := 0x80131130

/-- `mdAssemblyRefNil`. -/
def mdAssemblyRefNil : mdToken := 0x23000000

/-- `mdMemberRefNil`. -/
def mdMemberRefNil : mdToken := 0x0a000000

/-- The rows that tokens stand for. Rows are added and never changed, so that these are the rows at
the end. -/
structure Rows where
  /-- The name of a referenced assembly. -/
  assemblyRef : mdToken → Option WSTRING
  /-- The scope and the name of a referenced type. -/
  typeRef : mdToken → Option (mdToken × WSTRING)
  /-- The parent, the name and the signature of a referenced member. -/
  memberRef : mdToken → Option (mdToken × WSTRING × List UInt8)
  /-- The token of the module. -/
  module : mdToken
  module_ne : assemblyRef module = none
  nil_ne : memberRef mdMemberRefNil = none

/-- The results of the calls while one wrapper is stored. A token that is returned stands for the
row that was asked for. -/
structure Calls (rows : Rows) where
  /-- The tokens of the referenced assemblies, with their names. -/
  assemblyRefs : List (mdToken × WSTRING)
  /-- `IMetaDataImport::FindTypeRef`. -/
  findTypeRef : mdToken → WSTRING → Except HRESULT mdToken
  /-- `IMetaDataEmit::DefineTypeRefByName`. -/
  defineTypeRefByName : mdToken → WSTRING → Except HRESULT mdToken
  /-- `IMetaDataImport::FindMemberRef`. -/
  findMemberRef : mdToken → WSTRING → List UInt8 → Except HRESULT mdToken
  /-- `IMetaDataEmit::DefineMemberRef`. -/
  defineMemberRef : mdToken → WSTRING → List UInt8 → Except HRESULT mdToken
  assemblyRefs_row : ∀ entry ∈ assemblyRefs, rows.assemblyRef entry.1 = some entry.2
  findTypeRef_row : ∀ scope name t, findTypeRef scope name = .ok t →
    rows.typeRef t = some (scope, name)
  defineTypeRefByName_row : ∀ scope name t, defineTypeRefByName scope name = .ok t →
    rows.typeRef t = some (scope, name)
  findMemberRef_row : ∀ parent name signature t, findMemberRef parent name signature = .ok t →
    rows.memberRef t = some (parent, name, signature)
  defineMemberRef_row : ∀ parent name signature t, defineMemberRef parent name signature = .ok t →
    rows.memberRef t = some (parent, name, signature)

/-! ## The code -/

/-- Source: `integration.h`, `MethodReference` -/
structure MethodReference where
  assembly : AssemblyReference
  type_name : WSTRING
  method_name : WSTRING
  method_signature : List UInt8
  min_version : Version
  max_version : Version

/-- Source: `integration.h`, `MethodReference::get_type_cache_key` -/
def MethodReference.get_type_cache_key (w : MethodReference) : WSTRING :=
  "[".toList ++ w.assembly.name ++ "]".toList ++ w.type_name ++ "_vMin_".toList ++
    w.min_version.str ++ "_vMax_".toList ++ w.max_version.str

/-- Source: `integration.h`, `MethodReference::get_method_cache_key` -/
def MethodReference.get_method_cache_key (w : MethodReference) : WSTRING :=
  "[".toList ++ w.assembly.name ++ "]".toList ++ w.type_name ++ ".".toList ++ w.method_name ++
    "_vMin_".toList ++ w.min_version.str ++ "_vMax_".toList ++ w.max_version.str

/-- Source: `module_metadata.h`, `ModuleMetadata` -/
structure ModuleMetadata where
  wrapper_refs : Dictionary WSTRING mdToken := ∅
  wrapper_parent_type : Dictionary WSTRING mdToken := ∅
  failed_wrapper_keys : List WSTRING := []
  assemblyName : WSTRING

namespace ModuleMetadata

/-- Source: `module_metadata.h`, `TryGetWrapperMemberRef` -/
def TryGetWrapperMemberRef (s : ModuleMetadata) (keyIn : WSTRING) : Option mdToken :=
  s.wrapper_refs.lookup keyIn

/-- Source: `module_metadata.h`, `TryGetWrapperParentTypeRef` -/
def TryGetWrapperParentTypeRef (s : ModuleMetadata) (keyIn : WSTRING) : Option mdToken :=
  s.wrapper_parent_type.lookup keyIn

/-- Source: `module_metadata.h`, `SetWrapperMemberRef` -/
def SetWrapperMemberRef (s : ModuleMetadata) (keyIn : WSTRING) (valueIn : mdToken) :
    ModuleMetadata :=
  { s with wrapper_refs := s.wrapper_refs.insert keyIn valueIn }

/-- Source: `module_metadata.h`, `SetWrapperParentTypeRef` -/
def SetWrapperParentTypeRef (s : ModuleMetadata) (keyIn : WSTRING) (valueIn : mdToken) :
    ModuleMetadata :=
  { s with wrapper_parent_type := s.wrapper_parent_type.insert keyIn valueIn }

/-- Source: `module_metadata.h`, `SetFailedWrapperMemberKey` -/
def SetFailedWrapperMemberKey (s : ModuleMetadata) (key : WSTRING) : ModuleMetadata :=
  { s with failed_wrapper_keys := key :: s.failed_wrapper_keys }

end ModuleMetadata

section code

variable {rows : Rows} (calls : Calls rows)

/-- Source: `clr_helpers.cpp`, `FindAssemblyRef` -/
def FindAssemblyRef (assembly_name : WSTRING) : mdToken :=
  ((calls.assemblyRefs.find? fun entry => entry.2 = assembly_name).map Prod.fst).getD
    mdAssemblyRefNil

/-- The type is looked up, and defined if it is not found.
Source: `metadata_builder.cpp`, `MetadataBuilder::FindWrapperTypeRef`, behind the cache -/
def resolveTypeRef (assemblyName : WSTRING) (w : MethodReference) : Except HRESULT mdToken :=
  if assemblyName = w.assembly.name then calls.defineTypeRefByName rows.module w.type_name
  else
    let assembly_ref := FindAssemblyRef calls w.assembly.name
    if assembly_ref = mdAssemblyRefNil then .error E_FAIL
    else
      match calls.findTypeRef assembly_ref w.type_name with
      | .ok type_ref => .ok type_ref
      | .error hr =>
          if hr = recordNotFound then calls.defineTypeRefByName assembly_ref w.type_name
          else .error hr

/-- Source: `metadata_builder.cpp`, `MetadataBuilder::FindWrapperTypeRef` -/
def FindWrapperTypeRef (s : ModuleMetadata) (w : MethodReference) :
    Except HRESULT mdToken × ModuleMetadata :=
  match s.TryGetWrapperParentTypeRef w.get_type_cache_key with
  | some type_ref => (.ok type_ref, s)
  | none =>
      match resolveTypeRef calls s.assemblyName w with
      | .ok type_ref => (.ok type_ref, s.SetWrapperParentTypeRef w.get_type_cache_key type_ref)
      | .error hr => (.error hr, s)

/-- The member is looked up, and defined if it is not found; without a signature there is none.
Source: `metadata_builder.cpp`, `MetadataBuilder::StoreWrapperMethodRef`, behind the caches -/
def resolveMemberRef (type_ref : mdToken) (w : MethodReference) : Except HRESULT mdToken :=
  if w.method_signature.length > 0 then
    match calls.findMemberRef type_ref w.method_name w.method_signature with
    | .ok member_ref => .ok member_ref
    | .error hr =>
        if hr = recordNotFound then
          calls.defineMemberRef type_ref w.method_name w.method_signature
        else .error hr
  else .ok mdMemberRefNil

/-- Source: `metadata_builder.cpp`, `MetadataBuilder::StoreWrapperMethodRef` -/
def StoreWrapperMethodRef (s : ModuleMetadata) (w : MethodReference) :
    Except HRESULT Unit × ModuleMetadata :=
  match s.TryGetWrapperMemberRef w.get_method_cache_key with
  | some _ => (.ok (), s)
  | none =>
      match FindWrapperTypeRef calls s w with
      | (.error hr, s) => (.error hr, s.SetFailedWrapperMemberKey w.get_method_cache_key)
      | (.ok type_ref, s) =>
          match resolveMemberRef calls type_ref w with
          | .error hr => (.error hr, s.SetFailedWrapperMemberKey w.get_method_cache_key)
          | .ok member_ref =>
              (.ok (), s.SetWrapperMemberRef w.get_method_cache_key member_ref)

end code

/-! ## The reference of a wrapper -/

/-- The scope of a type of the wrapper's assembly: the module itself, or a referenced assembly. -/
def ScopeOf (rows : Rows) (assemblyName : WSTRING) (w : MethodReference) (scope : mdToken) : Prop :=
  if assemblyName = w.assembly.name then scope = rows.module
  else rows.assemblyRef scope = some w.assembly.name

/-- A reference to the type of the wrapper. -/
def TypeOf (rows : Rows) (assemblyName : WSTRING) (w : MethodReference) (type_ref : mdToken) :
    Prop :=
  ∃ scope, rows.typeRef type_ref = some (scope, w.type_name) ∧ ScopeOf rows assemblyName w scope

/-- A reference of the wrapper: parent type, name and signature are its own. There is none for a
wrapper without a signature. -/
def Own (rows : Rows) (assemblyName : WSTRING) (w : MethodReference) (member_ref : mdToken) :
    Prop :=
  if w.method_signature = [] then member_ref = mdMemberRefNil
  else ∃ parent, TypeOf rows assemblyName w parent ∧
    rows.memberRef member_ref = some (parent, w.method_name, w.method_signature)

/-- The type of the wrapper `v` is the type of `w`. -/
def SameType (v w : MethodReference) : Prop :=
  v.assembly.name = w.assembly.name ∧ v.type_name = w.type_name

/-- The member of the wrapper `v` is the member of `w`. -/
def SameMember (v w : MethodReference) : Prop :=
  v.method_signature = w.method_signature ∧
    (v.method_signature ≠ [] → SameType v w ∧ v.method_name = w.method_name)

section spec

variable {rows : Rows} {assemblyName : WSTRING} {v w : MethodReference} {t : mdToken}

theorem own_of_empty (hempty : w.method_signature = []) :
    Own rows assemblyName w t ↔ t = mdMemberRefNil := by
  rw [Own, if_pos hempty]

theorem own_of_nonempty (hsignature : w.method_signature ≠ []) :
    Own rows assemblyName w t ↔ ∃ parent, TypeOf rows assemblyName w parent ∧
      rows.memberRef t = some (parent, w.method_name, w.method_signature) := by
  rw [Own, if_neg hsignature]

/-- A scope belongs to one assembly. -/
theorem ScopeOf.name_eq {scope : mdToken} (hv : ScopeOf rows assemblyName v scope)
    (hw : ScopeOf rows assemblyName w scope) : v.assembly.name = w.assembly.name := by
  unfold ScopeOf at hv hw
  split at hv
  case isTrue hown =>
    split at hw
    case isTrue hown' => exact hown.symm.trans hown'
    case isFalse =>
      rw [hv, rows.module_ne] at hw
      cases hw
  case isFalse =>
    split at hw
    case isTrue =>
      rw [hw, rows.module_ne] at hv
      cases hv
    case isFalse => exact Option.some.inj (hv.symm.trans hw)

/-- A reference to a type is one to a single type. -/
theorem TypeOf.sameType (hv : TypeOf rows assemblyName v t) (hw : TypeOf rows assemblyName w t) :
    SameType v w := by
  obtain ⟨scope, hrow, hscope⟩ := hv
  obtain ⟨scope', hrow', hscope'⟩ := hw
  have heq : (scope, v.type_name) = (scope', w.type_name) :=
    Option.some.inj (hrow.symm.trans hrow')
  obtain ⟨rfl, hname⟩ := Prod.mk.inj heq
  exact ⟨hscope.name_eq hscope', hname⟩

theorem SameType.typeOf (h : SameType v w) (hv : TypeOf rows assemblyName v t) :
    TypeOf rows assemblyName w t := by
  unfold TypeOf ScopeOf at hv ⊢
  rw [← h.1, ← h.2]
  exact hv

/-- A reference to the type of one wrapper is one to the type of another one exactly if their types
are the same. -/
theorem TypeOf.iff_sameType (hv : TypeOf rows assemblyName v t) :
    TypeOf rows assemblyName w t ↔ SameType v w :=
  ⟨fun hw => hv.sameType hw, fun h => h.typeOf hv⟩

/-- **A reference of one wrapper** is a reference of another one exactly if their members are the
same. -/
theorem own_iff_sameMember (hv : Own rows assemblyName v t) :
    Own rows assemblyName w t ↔ SameMember v w := by
  by_cases hempty : v.method_signature = []
  · rw [own_of_empty hempty] at hv
    constructor
    · intro hw
      by_cases hempty' : w.method_signature = []
      · exact ⟨hempty.trans hempty'.symm, fun hne => absurd hempty hne⟩
      · obtain ⟨parent, -, hrow⟩ := (own_of_nonempty hempty').mp hw
        rw [hv, rows.nil_ne] at hrow
        cases hrow
    · intro hsame
      exact (own_of_empty (hsame.1.symm.trans hempty)).mpr hv
  · obtain ⟨parent, htype, hrow⟩ := (own_of_nonempty hempty).mp hv
    constructor
    · intro hw
      by_cases hempty' : w.method_signature = []
      · rw [own_of_empty hempty'] at hw
        rw [hw, rows.nil_ne] at hrow
        cases hrow
      · obtain ⟨parent', htype', hrow'⟩ := (own_of_nonempty hempty').mp hw
        have heq : (parent, v.method_name, v.method_signature) =
            (parent', w.method_name, w.method_signature) :=
          Option.some.inj (hrow.symm.trans hrow')
        obtain ⟨rfl, hrest⟩ := Prod.mk.inj heq
        obtain ⟨hname, hsignature⟩ := Prod.mk.inj hrest
        exact ⟨hsignature, fun _ => ⟨htype.sameType htype', hname⟩⟩
    · intro hsame
      obtain ⟨htypes, hname⟩ := hsame.2 hempty
      refine (own_of_nonempty (hsame.1 ▸ hempty)).mpr ⟨parent, htypes.typeOf htype, ?_⟩
      rw [← hname, ← hsame.1]
      exact hrow

end spec

/-! ## One call -/

section step

variable {rows : Rows} (calls : Calls rows) {w : MethodReference}

/-- An assembly that is found is one with the name that was asked for. -/
theorem assemblyRef_of_FindAssemblyRef {assembly_name : WSTRING}
    (hfound : FindAssemblyRef calls assembly_name ≠ mdAssemblyRefNil) :
    rows.assemblyRef (FindAssemblyRef calls assembly_name) = some assembly_name := by
  unfold FindAssemblyRef at hfound ⊢
  cases hfind : calls.assemblyRefs.find? fun entry => entry.2 = assembly_name with
  | none =>
      rw [hfind] at hfound
      exact absurd rfl hfound
  | some entry =>
      have hname := List.find?_some hfind
      rw [decide_eq_true_eq] at hname
      rw [Option.map_some, Option.getD_some, ← hname]
      exact calls.assemblyRefs_row entry (List.mem_of_find?_eq_some hfind)

/-- A resolved type is the type of the wrapper. -/
theorem typeOf_of_resolveTypeRef {assemblyName : WSTRING} {type_ref : mdToken}
    (h : resolveTypeRef calls assemblyName w = .ok type_ref) :
    TypeOf rows assemblyName w type_ref := by
  unfold resolveTypeRef at h
  by_cases hown : assemblyName = w.assembly.name
  · rw [if_pos hown] at h
    refine ⟨rows.module, calls.defineTypeRefByName_row _ _ _ h, ?_⟩
    rw [ScopeOf, if_pos hown]
  · simp only [if_neg hown] at h
    by_cases hfound : FindAssemblyRef calls w.assembly.name = mdAssemblyRefNil
    · rw [if_pos hfound] at h
      cases h
    · rw [if_neg hfound] at h
      refine ⟨FindAssemblyRef calls w.assembly.name, ?_, ?_⟩
      · cases hfind : calls.findTypeRef (FindAssemblyRef calls w.assembly.name) w.type_name with
        | ok type_ref' =>
            rw [hfind] at h
            obtain rfl := Except.ok.inj h
            exact calls.findTypeRef_row _ _ _ hfind
        | error hr =>
            simp only [hfind] at h
            split at h
            case isTrue => exact calls.defineTypeRefByName_row _ _ _ h
            case isFalse => cases h
      · rw [ScopeOf, if_neg hown]
        exact assemblyRef_of_FindAssemblyRef calls hfound

/-- A resolved member has the parent that was asked for, and the name and the signature of the
wrapper. -/
theorem memberOf_of_resolveMemberRef {type_ref member_ref : mdToken}
    (h : resolveMemberRef calls type_ref w = .ok member_ref) :
    (w.method_signature = [] ∧ member_ref = mdMemberRefNil) ∨ (w.method_signature ≠ [] ∧
      rows.memberRef member_ref = some (type_ref, w.method_name, w.method_signature)) := by
  unfold resolveMemberRef at h
  split at h
  case isTrue hpos =>
    refine Or.inr ⟨List.length_pos_iff.mp hpos, ?_⟩
    split at h
    case h_1 member_ref' hfind =>
      obtain rfl := Except.ok.inj h
      exact calls.findMemberRef_row _ _ _ _ hfind
    case h_2 =>
      split at h
      case isTrue => exact calls.defineMemberRef_row _ _ _ _ h
      case isFalse => cases h
  case isFalse hzero =>
    exact Or.inl ⟨by_contra fun hne => hzero (List.length_pos_iff.mpr hne),
      (Except.ok.inj h).symm⟩

/-- A resolved member is the wrapper's own, exactly if it needs no parent or has the wrapper's. -/
theorem own_iff_of_resolveMemberRef {assemblyName : WSTRING} {type_ref member_ref : mdToken}
    (h : resolveMemberRef calls type_ref w = .ok member_ref) :
    Own rows assemblyName w member_ref ↔
      (w.method_signature ≠ [] → TypeOf rows assemblyName w type_ref) := by
  rcases memberOf_of_resolveMemberRef calls h with ⟨hempty, hnil⟩ | ⟨hsignature, hrow⟩
  · exact iff_of_true ((own_of_empty hempty).mpr hnil) fun hne => absurd hempty hne
  · rw [own_of_nonempty hsignature]
    constructor
    · rintro ⟨parent, htype, hrow'⟩ -
      have heq := Option.some.inj (hrow.symm.trans hrow')
      rw [(Prod.mk.inj heq).1]
      exact htype
    · intro htype
      exact ⟨type_ref, htype hsignature, hrow⟩

/-- What looking for the type of a wrapper can do: a cached type is taken, or one is resolved and
cached, or the calls fail. -/
theorem FindWrapperTypeRef_cases (s : ModuleMetadata) (w : MethodReference) :
    (∃ t, s.TryGetWrapperParentTypeRef w.get_type_cache_key = some t ∧
      FindWrapperTypeRef calls s w = (.ok t, s)) ∨
    (s.TryGetWrapperParentTypeRef w.get_type_cache_key = none ∧
      ((∃ t, TypeOf rows s.assemblyName w t ∧ FindWrapperTypeRef calls s w =
        (.ok t, s.SetWrapperParentTypeRef w.get_type_cache_key t)) ∨
      ∃ hr, FindWrapperTypeRef calls s w = (.error hr, s))) := by
  unfold FindWrapperTypeRef
  cases hcached : s.TryGetWrapperParentTypeRef w.get_type_cache_key with
  | some t => exact Or.inl ⟨t, rfl, rfl⟩
  | none =>
      refine Or.inr ⟨rfl, ?_⟩
      cases hresolved : resolveTypeRef calls s.assemblyName w with
      | ok t => exact Or.inl ⟨t, typeOf_of_resolveTypeRef calls hresolved, rfl⟩
      | error hr => exact Or.inr ⟨hr, rfl⟩

/-- **What one call can do**: nothing where there is a member already; else the type is looked for,
and a member of it resolved and cached, or one of the two fails and the key is recorded. -/
theorem store_cases (s : ModuleMetadata) (w : MethodReference) :
    (∃ t, s.TryGetWrapperMemberRef w.get_method_cache_key = some t ∧
      StoreWrapperMethodRef calls s w = (.ok (), s)) ∨
    (s.TryGetWrapperMemberRef w.get_method_cache_key = none ∧
      ((∃ t u member_ref, FindWrapperTypeRef calls s w = (.ok t, u) ∧
          resolveMemberRef calls t w = .ok member_ref ∧ StoreWrapperMethodRef calls s w =
            (.ok (), u.SetWrapperMemberRef w.get_method_cache_key member_ref)) ∨
        ∃ result u hr, FindWrapperTypeRef calls s w = (result, u) ∧
          (∀ t member_ref, result = .ok t → resolveMemberRef calls t w ≠ .ok member_ref) ∧
          StoreWrapperMethodRef calls s w =
            (.error hr, u.SetFailedWrapperMemberKey w.get_method_cache_key))) := by
  unfold StoreWrapperMethodRef
  cases hcached : s.TryGetWrapperMemberRef w.get_method_cache_key with
  | some t => exact Or.inl ⟨t, rfl, rfl⟩
  | none =>
      refine Or.inr ⟨rfl, ?_⟩
      obtain ⟨result, u⟩ := FindWrapperTypeRef calls s w
      cases result with
      | error hr =>
          refine Or.inr ⟨.error hr, u, hr, rfl, ?_, rfl⟩
          intro t member_ref heq
          cases heq
      | ok t =>
          cases hresolved : resolveMemberRef calls t w with
          | ok member_ref =>
              exact Or.inl ⟨t, u, member_ref, rfl, hresolved, by simp only [hresolved]⟩
          | error hr =>
              refine Or.inr ⟨.ok t, u, hr, rfl, ?_, by simp only [hresolved]⟩
              intro t' member_ref heq hmember
              obtain rfl := Except.ok.inj heq
              rw [hresolved] at hmember
              cases hmember

end step

/-! ## Sequences of replacements -/

/-- The metadata of a module, and what has become of it: the wrappers for which the cached types and
members were resolved, and the wrappers that were stored. -/
structure Traced where
  metadata : ModuleMetadata
  typeOwners : Dictionary WSTRING MethodReference := ∅
  memberOwners : Dictionary WSTRING MethodReference := ∅
  stored : List MethodReference := []

/-- The owners of the entries of a cache, after a wrapper was stored: the wrapper is the owner of an
entry that was not there before. -/
def ownersAfter (before after : Dictionary WSTRING mdToken) (key : WSTRING) (w : MethodReference)
    (owners : Dictionary WSTRING MethodReference) : Dictionary WSTRING MethodReference :=
  if before.lookup key = none ∧ after.lookup key ≠ none then owners.insert key w else owners

namespace Traced

/-- A wrapper is stored. -/
def step {rows : Rows} (o : Traced) (op : MethodReference × Calls rows) : Traced :=
  let after := StoreWrapperMethodRef op.2 o.metadata op.1
  { metadata := after.2
    typeOwners := ownersAfter o.metadata.wrapper_parent_type after.2.wrapper_parent_type
      op.1.get_type_cache_key op.1 o.typeOwners
    memberOwners := ownersAfter o.metadata.wrapper_refs after.2.wrapper_refs
      op.1.get_method_cache_key op.1 o.memberOwners
    stored := if after.1 = .ok () then op.1 :: o.stored else o.stored }

/-- Nothing has been stored. -/
def start (assemblyName : WSTRING) : Traced where
  metadata := { assemblyName := assemblyName }

/-- The wrappers that were stored have references of their own. -/
def Transparent (rows : Rows) (o : Traced) : Prop :=
  ∀ v ∈ o.stored, ∃ t, o.metadata.TryGetWrapperMemberRef v.get_method_cache_key = some t ∧
    Own rows o.metadata.assemblyName v t

/-- A cached member was resolved for the member of the wrapper. Where there is none, the wrapper has
a signature and a member of a cached type can be resolved, that type was resolved for the type of
the wrapper. -/
def Fitting {rows : Rows} (o : Traced) (op : MethodReference × Calls rows) : Prop :=
  match o.memberOwners.lookup op.1.get_method_cache_key with
  | some v => SameMember v op.1
  | none => op.1.method_signature ≠ [] → ∀ v t member_ref,
      o.typeOwners.lookup op.1.get_type_cache_key = some v →
      o.metadata.TryGetWrapperParentTypeRef op.1.get_type_cache_key = some t →
      resolveMemberRef op.2 t op.1 = .ok member_ref → SameType v op.1

/-- The entries of the caches are the types and the members of their owners. -/
structure Owned (rows : Rows) (assemblyName : WSTRING) (o : Traced) : Prop where
  assembly : o.metadata.assemblyName = assemblyName
  types : ∀ key, Option.Rel (TypeOf rows assemblyName) (o.typeOwners.lookup key)
    (o.metadata.wrapper_parent_type.lookup key)
  members : ∀ key, Option.Rel (Own rows assemblyName) (o.memberOwners.lookup key)
    (o.metadata.wrapper_refs.lookup key)

end Traced

section owners

variable {before owners : Dictionary WSTRING _} {key : WSTRING} {w : MethodReference}
  {P : MethodReference → mdToken → Prop}

@[simp] theorem ownersAfter_self : ownersAfter before before key w owners = owners :=
  if_neg fun h => h.2 h.1

theorem ownersAfter_insert (hnew : before.lookup key = none) (t : mdToken) :
    ownersAfter before (before.insert key t) key w owners = owners.insert key w := by
  refine if_pos ⟨hnew, ?_⟩
  rw [AList.lookup_insert]
  exact Option.some_ne_none t

/-- An entry and its owner are added. -/
theorem rel_insert (h : ∀ k, Option.Rel P (owners.lookup k) (before.lookup k)) {t : mdToken}
    (hnew : P w t) (k : WSTRING) :
    Option.Rel P ((owners.insert key w).lookup k) ((before.insert key t).lookup k) := by
  by_cases hk : k = key
  · rw [hk, AList.lookup_insert, AList.lookup_insert]
    exact Option.Rel.some hnew
  · rw [AList.lookup_insert_ne hk, AList.lookup_insert_ne hk]
    exact h k

/-- An entry has an owner. -/
theorem exists_owner {owner : Option MethodReference} {t : mdToken}
    (h : Option.Rel P owner (some t)) : ∃ v, owner = some v ∧ P v t := by
  cases h with
  | some hown => exact ⟨_, rfl, hown⟩

theorem no_owner {owner : Option MethodReference} (h : Option.Rel P owner none) : owner = none := by
  cases h
  rfl

end owners

namespace Traced

variable {rows : Rows} {assemblyName : WSTRING} {o : Traced} {calls : Calls rows}
  {w : MethodReference}

theorem step_of_cached {t : mdToken}
    (hcached : o.metadata.TryGetWrapperMemberRef w.get_method_cache_key = some t) :
    o.step (w, calls) = { o with stored := w :: o.stored } := by
  have hstore : StoreWrapperMethodRef calls o.metadata w = (.ok (), o.metadata) := by
    rw [StoreWrapperMethodRef, hcached]
  simp only [step, hstore, ownersAfter_self, if_true]

/-- Looking for the type of a wrapper keeps the types with their owners, and the rest of the
metadata. -/
theorem Owned.find (h : o.Owned rows assemblyName) {result : Except HRESULT mdToken}
    {u : ModuleMetadata} (hfind : FindWrapperTypeRef calls o.metadata w = (result, u)) :
    u.assemblyName = o.metadata.assemblyName ∧ u.wrapper_refs = o.metadata.wrapper_refs ∧
      ∀ key, Option.Rel (TypeOf rows assemblyName)
        ((ownersAfter o.metadata.wrapper_parent_type u.wrapper_parent_type w.get_type_cache_key w
          o.typeOwners).lookup key) (u.wrapper_parent_type.lookup key) := by
  rcases FindWrapperTypeRef_cases calls o.metadata w with
    ⟨t, -, heq⟩ | ⟨hnone, ⟨t, htype, heq⟩ | ⟨hr, heq⟩⟩
  · obtain rfl := (Prod.mk.inj (hfind.symm.trans heq)).2
    refine ⟨rfl, rfl, fun key => ?_⟩
    rw [ownersAfter_self]
    exact h.types key
  · obtain rfl := (Prod.mk.inj (hfind.symm.trans heq)).2
    refine ⟨rfl, rfl, fun key => ?_⟩
    rw [ModuleMetadata.SetWrapperParentTypeRef, ownersAfter_insert hnone]
    rw [h.assembly] at htype
    exact rel_insert h.types htype key
  · obtain rfl := (Prod.mk.inj (hfind.symm.trans heq)).2
    refine ⟨rfl, rfl, fun key => ?_⟩
    rw [ownersAfter_self]
    exact h.types key

/-- The type that is found is the wrapper's, exactly if the owner of a cached one has that type. -/
theorem Owned.find_ok (h : o.Owned rows assemblyName) {t member_ref : mdToken} {u : ModuleMetadata}
    (hfind : FindWrapperTypeRef calls o.metadata w = (.ok t, u))
    (hmember : resolveMemberRef calls t w = .ok member_ref) :
    TypeOf rows assemblyName w t ↔ ∀ v t' member_ref',
      o.typeOwners.lookup w.get_type_cache_key = some v →
      o.metadata.TryGetWrapperParentTypeRef w.get_type_cache_key = some t' →
      resolveMemberRef calls t' w = .ok member_ref' → SameType v w := by
  rcases FindWrapperTypeRef_cases calls o.metadata w with
    ⟨t', hcached, heq⟩ | ⟨hnone, ⟨t', htype, heq⟩ | ⟨hr, heq⟩⟩
  · obtain rfl := Except.ok.inj (Prod.mk.inj (hfind.symm.trans heq)).1
    have hrel := h.types w.get_type_cache_key
    rw [← ModuleMetadata.TryGetWrapperParentTypeRef, hcached] at hrel
    obtain ⟨v, howner, htype⟩ := exists_owner hrel
    rw [htype.iff_sameType]
    constructor
    · intro hsame v' t' member_ref' howner' _ _
      obtain rfl := Option.some.inj (howner.symm.trans howner')
      exact hsame
    · intro hfit
      exact hfit v t member_ref howner hcached hmember
  · obtain rfl := Except.ok.inj (Prod.mk.inj (hfind.symm.trans heq)).1
    rw [h.assembly] at htype
    refine iff_of_true htype fun v t' member_ref' _ hcached => ?_
    rw [hnone] at hcached
    cases hcached
  · cases (Prod.mk.inj (hfind.symm.trans heq)).1

/-- What a call does to the trace where there is no member yet: the type that was looked for is
kept with its owner, and a member is cached, or none could be resolved. -/
theorem Owned.step_cases (h : o.Owned rows assemblyName) (calls : Calls rows)
    (hnone : o.metadata.TryGetWrapperMemberRef w.get_method_cache_key = none) :
    ∃ (u : ModuleMetadata) (typeOwners : Dictionary WSTRING MethodReference),
      u.assemblyName = assemblyName ∧ u.wrapper_refs = o.metadata.wrapper_refs ∧
      (∀ key, Option.Rel (TypeOf rows assemblyName) (typeOwners.lookup key)
        (u.wrapper_parent_type.lookup key)) ∧
      ((∃ member_ref, (Own rows assemblyName w member_ref ↔ o.Fitting (w, calls)) ∧
          o.step (w, calls) = ⟨u.SetWrapperMemberRef w.get_method_cache_key member_ref, typeOwners,
            o.memberOwners.insert w.get_method_cache_key w, w :: o.stored⟩) ∨
        (o.Fitting (w, calls) ∧ o.step (w, calls) =
          ⟨u.SetFailedWrapperMemberKey w.get_method_cache_key, typeOwners, o.memberOwners,
            o.stored⟩)) := by
  have hunowned : o.memberOwners.lookup w.get_method_cache_key = none := by
    have hrel := h.members w.get_method_cache_key
    rw [← ModuleMetadata.TryGetWrapperMemberRef, hnone] at hrel
    exact no_owner hrel
  rcases store_cases calls o.metadata w with
    ⟨t, hcached, -⟩ | ⟨-, ⟨t, u, member_ref, hfind, hmember, hstore⟩ |
      ⟨result, u, hr, hfind, hfails, hstore⟩⟩
  · rw [hnone] at hcached
    cases hcached
  · obtain ⟨hassembly, hrefs, htypes⟩ := h.find hfind
    refine ⟨u, _, hassembly.trans h.assembly, hrefs, htypes, Or.inl ⟨member_ref, ?_, ?_⟩⟩
    · simp only [Fitting, hunowned]
      rw [own_iff_of_resolveMemberRef calls hmember]
      exact imp_congr_right fun _ => h.find_ok hfind hmember
    · simp only [step, hstore, if_true, ModuleMetadata.SetWrapperMemberRef, hrefs,
        ownersAfter_insert hnone]
  · obtain ⟨hassembly, hrefs, htypes⟩ := h.find hfind
    refine ⟨u, _, hassembly.trans h.assembly, hrefs, htypes, Or.inr ⟨?_, ?_⟩⟩
    · simp only [Fitting, hunowned]
      intro _ v t member_ref _ hcached hmember
      rcases FindWrapperTypeRef_cases calls o.metadata w with
        ⟨t', hcached', heq⟩ | ⟨hnotype, -⟩
      · obtain rfl := Option.some.inj (hcached.symm.trans hcached')
        exact absurd hmember (hfails t member_ref (Prod.mk.inj (hfind.symm.trans heq)).1)
      · rw [hnotype] at hcached
        cases hcached
    · simp only [step, hstore, ModuleMetadata.SetFailedWrapperMemberKey, hrefs, ownersAfter_self]
      rw [if_neg fun heq => by cases heq]

/-- Adding a wrapper whose key has the entry `t` keeps the trace transparent exactly if `t` is its
own, provided that no entry has changed. -/
theorem Transparent.cons_iff (h : o.Transparent rows) {o' : Traced} {t : mdToken}
    (hstored : o'.stored = w :: o.stored)
    (hassembly : o'.metadata.assemblyName = o.metadata.assemblyName)
    (hentry : o'.metadata.TryGetWrapperMemberRef w.get_method_cache_key = some t)
    (hkept : ∀ key t, o.metadata.TryGetWrapperMemberRef key = some t →
      o'.metadata.TryGetWrapperMemberRef key = some t) :
    o'.Transparent rows ↔ Own rows o.metadata.assemblyName w t := by
  unfold Transparent
  rw [hstored, hassembly, List.forall_mem_cons]
  constructor
  · rintro ⟨⟨t', hentry', hown⟩, -⟩
    obtain rfl := Option.some.inj (hentry.symm.trans hentry')
    exact hown
  · intro hown
    refine ⟨⟨t, hentry, hown⟩, fun v hv => ?_⟩
    obtain ⟨t', hentry', hown'⟩ := h v hv
    exact ⟨t', hkept _ _ hentry', hown'⟩

/-- **One call keeps the trace transparent** exactly if it is fitting. -/
theorem Owned.transparent_step_iff (h : o.Owned rows assemblyName)
    (htransparent : o.Transparent rows) (op : MethodReference × Calls rows) :
    (o.step op).Transparent rows ↔ o.Fitting op := by
  obtain ⟨w, calls⟩ := op
  cases hcached : o.metadata.TryGetWrapperMemberRef w.get_method_cache_key with
  | some t =>
      have hrel := h.members w.get_method_cache_key
      rw [← ModuleMetadata.TryGetWrapperMemberRef, hcached] at hrel
      obtain ⟨v, howner, hown⟩ := exists_owner hrel
      have hfitting : o.Fitting (w, calls) ↔ SameMember v w := by simp only [Fitting, howner]
      rw [step_of_cached hcached, hfitting, ← own_iff_sameMember hown, ← h.assembly]
      exact htransparent.cons_iff rfl rfl hcached fun _ _ hkey => hkey
  | none =>
      obtain ⟨u, typeOwners, hassembly, hrefs, -, ⟨member_ref, hown, hstep⟩ | ⟨hfitting, hstep⟩⟩ :=
        h.step_cases calls hcached
      · rw [hstep, ← hown, ← h.assembly]
        refine htransparent.cons_iff rfl (hassembly.trans h.assembly.symm) ?_ fun key t hkey => ?_
        · exact AList.lookup_insert _
        · have hne : key ≠ w.get_method_cache_key := by
            rintro rfl
            rw [hcached] at hkey
            cases hkey
          show AList.lookup key (u.wrapper_refs.insert _ member_ref) = some t
          rw [AList.lookup_insert_ne hne, hrefs]
          exact hkey
      · rw [hstep]
        refine iff_of_true (fun v hv => ?_) hfitting
        obtain ⟨t, hentry, hown⟩ := htransparent v hv
        refine ⟨t, ?_, ?_⟩
        · show AList.lookup v.get_method_cache_key u.wrapper_refs = some t
          rw [hrefs]
          exact hentry
        · show Own rows u.assemblyName v t
          rw [hassembly, ← h.assembly]
          exact hown

/-- The entries stay those of their owners while the calls are fitting. -/
theorem Owned.step (h : o.Owned rows assemblyName) {op : MethodReference × Calls rows}
    (hfitting : o.Fitting op) : (o.step op).Owned rows assemblyName := by
  obtain ⟨w, calls⟩ := op
  cases hcached : o.metadata.TryGetWrapperMemberRef w.get_method_cache_key with
  | some t =>
      rw [step_of_cached hcached]
      exact ⟨h.assembly, h.types, h.members⟩
  | none =>
      obtain ⟨u, typeOwners, hassembly, hrefs, htypes, ⟨member_ref, hown, hstep⟩ | ⟨-, hstep⟩⟩ :=
        h.step_cases calls hcached
      · rw [hstep]
        refine ⟨hassembly, htypes, ?_⟩
        show ∀ key, Option.Rel (Own rows assemblyName)
          ((o.memberOwners.insert w.get_method_cache_key w).lookup key)
          ((u.wrapper_refs.insert w.get_method_cache_key member_ref).lookup key)
        rw [hrefs]
        exact rel_insert h.members (hown.mpr hfitting)
      · rw [hstep]
        refine ⟨hassembly, htypes, ?_⟩
        show ∀ key, Option.Rel (Own rows assemblyName) (o.memberOwners.lookup key)
          (u.wrapper_refs.lookup key)
        rw [hrefs]
        exact h.members

theorem owned_start (rows : Rows) (assemblyName : WSTRING) :
    (start assemblyName).Owned rows assemblyName :=
  ⟨rfl, fun _ => Option.Rel.none, fun _ => Option.Rel.none⟩

/-- **The cache is transparent** all along a sequence of replacements, exactly if every replacement
is fitting. -/
theorem transparent_run_iff (rows : Rows) (assemblyName : WSTRING)
    (ops : List (MethodReference × Calls rows)) :
    (∀ pre, pre <+: ops → (pre.foldl step (start assemblyName)).Transparent rows) ↔
      ∀ pre op, pre ++ [op] <+: ops → (pre.foldl step (start assemblyName)).Fitting op :=
  foldl_exact_iff_along (owned_start rows assemblyName) (fun _ hv => by cases hv)
    (fun _ _ h _ hfitting => h.step hfitting)
    (fun _ op h htransparent => h.transparent_step_iff htransparent op) ops

/-- With empty caches the call that succeeds gives the wrapper a reference of its own. -/
theorem transparent_of_start (assemblyName : WSTRING) (op : MethodReference × Calls rows) :
    ((start assemblyName).step op).Transparent rows := by
  refine ((owned_start rows assemblyName).transparent_step_iff (fun _ hv => by cases hv) op).mpr ?_
  intro _ v _ _ howner
  cases howner

/-- An overload of the method `M` of the type `T`. -/
def overload (signature : List UInt8) : MethodReference where
  assembly := ⟨['A'], ⟨0, 0, 0, 0⟩, [], PublicKey.none⟩
  type_name := ['T']
  method_name := ['M']
  method_signature := signature
  min_version := ⟨0, 0, 0, 0⟩
  max_version := ⟨65535, 65535, 65535, 65535⟩

/-- Two overloads are in the metadata: one without parameters, and one with a number. -/
def overloadRows : Rows where
  assemblyRef t := if t = 0x23000001 then some ['A'] else none
  typeRef t := if t = 0x01000001 then some (0x23000001, ['T']) else none
  memberRef t :=
    if t = 0x0a000001 then some (0x01000001, ['M'], [0, 0, 1])
    else if t = 0x0a000002 then some (0x01000001, ['M'], [0, 1, 1, 8])
    else none
  module := 0x00000001
  module_ne := by decide
  nil_ne := by decide

/-- Nothing is defined, and everything is found. -/
def overloadCalls : Calls overloadRows where
  assemblyRefs := [(0x23000001, ['A'])]
  findTypeRef scope name :=
    if overloadRows.typeRef 0x01000001 = some (scope, name) then .ok 0x01000001
    else .error recordNotFound
  defineTypeRefByName _ _ := .error E_FAIL
  findMemberRef parent name signature :=
    if overloadRows.memberRef 0x0a000001 = some (parent, name, signature) then .ok 0x0a000001
    else if overloadRows.memberRef 0x0a000002 = some (parent, name, signature) then .ok 0x0a000002
    else .error recordNotFound
  defineMemberRef _ _ _ := .error E_FAIL
  assemblyRefs_row := by decide
  findTypeRef_row scope name t h := by
    split at h
    case isTrue hrow => exact Except.ok.inj h ▸ hrow
    case isFalse => cases h
  defineTypeRefByName_row _ _ _ h := by cases h
  findMemberRef_row parent name signature t h := by
    split at h
    case isTrue hrow => exact Except.ok.inj h ▸ hrow
    case isFalse =>
      split at h
      case isTrue hrow => exact Except.ok.inj h ▸ hrow
      case isFalse => cases h
  defineMemberRef_row _ _ _ _ h := by cases h

/-- The two of them, one after the other. -/
def overloadRun : Traced :=
  [(overload [0, 0, 1], overloadCalls), (overload [0, 1, 1, 8], overloadCalls)].foldl step
    (start [])

/-- **A second overload** is stored and given the reference of the first one. -/
theorem not_transparent_overload :
    overload [0, 1, 1, 8] ∈ overloadRun.stored ∧
      overloadRun.metadata.TryGetWrapperMemberRef (overload [0, 1, 1, 8]).get_method_cache_key =
        some 0x0a000001 ∧
      ¬Own overloadRows [] (overload [0, 1, 1, 8]) 0x0a000001 ∧
      ¬overloadRun.Transparent overloadRows := by
  have hcached :
      ((start []).step (overload [0, 0, 1], overloadCalls)).metadata.TryGetWrapperMemberRef
        (overload [0, 1, 1, 8]).get_method_cache_key = some 0x0a000001 :=
    AList.lookup_insert ∅
  have hrun : overloadRun = { (start []).step (overload [0, 0, 1], overloadCalls) with
      stored := [overload [0, 1, 1, 8], overload [0, 0, 1]] } := step_of_cached hcached
  have hother : ¬Own overloadRows [] (overload [0, 1, 1, 8]) 0x0a000001 := by
    rintro hown
    obtain ⟨parent, -, hrow⟩ := (own_of_nonempty (List.cons_ne_nil _ _)).mp hown
    cases hrow
  rw [hrun]
  refine ⟨List.mem_cons_self, hcached, hother, fun h => ?_⟩
  obtain ⟨t, hentry, hown⟩ := h (overload [0, 1, 1, 8]) List.mem_cons_self
  obtain rfl := Option.some.inj (hcached.symm.trans hentry)
  exact hother hown

end Traced

end DdTrace.Profiler.Integration
