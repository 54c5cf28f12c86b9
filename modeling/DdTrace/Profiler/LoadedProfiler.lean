import Mathlib.Data.Fintype.EquivFin
import Mathlib.Logic.Function.Basic
import DdTrace.Lib.Run

/-!
# Where the managed profiler is loaded

The native profiler learns from the runtime's callbacks which app domains the managed profiler
assembly `Datadog.Trace.ClrProfiler.Managed` is loaded into, and skips the rewriting of a method
when it is not loaded into the app domain of the method's module.

* `AssemblyLoadFinished`, `ModuleLoadFinished`, `ModuleUnloadStarted`: the callbacks, which run
  one at a time under `module_id_to_info_map_lock_`.
* `loadedInto`: where the managed profiler is loaded according to the callbacks themselves.
* `Tracks`: the condition on a callback under which the native profiler learns what happened.
* `tracking_exact_iff`: the native profiler is right along a whole run exactly if every callback
  of the run meets that condition.

Sources: `cor_profiler.cpp`, `clr_helpers.cpp`, `clr_helpers.h`, `dd_profiler_constants.h`,
`integration.h`, `version.h`.
-/

namespace DdTrace.Profiler

open DdTrace.Lib

/-! ## What the runtime reports -/

abbrev AppDomainID := Nat
abbrev AssemblyID := Nat
abbrev ModuleID := Nat

/-- Source: `integration.h`, `Version` -/
structure Version where
  major : Nat := 0
  minor : Nat := 0
  build : Nat := 0
  revision : Nat := 0
  deriving DecidableEq, Repr

namespace Version

/-- Source: `integration.h`, `Version::operator<` -/
def lt (v other : Version) : Bool :=
  v.major < other.major || v.major = other.major && v.minor < other.minor ||
    v.major = other.major && v.minor = other.minor && v.build < other.build

/-- Source: `integration.h`, `Version::operator>` -/
def gt (v other : Version) : Bool :=
  v.major > other.major || v.major = other.major && v.minor > other.minor ||
    v.major = other.major && v.minor = other.minor && v.build > other.build

end Version

/-- Source: `clr_helpers.h`, `AssemblyMetadata` -/
structure AssemblyMetadata where
  name : String := ""
  version : Version := {}
  deriving DecidableEq, Repr

/-- An assembly that the runtime loads, with the assemblies it references. -/
structure Assembly where
  id : AssemblyID
  metadata : AssemblyMetadata
  manifest_module_id : ModuleID
  app_domain_id : AppDomainID
  references : List AssemblyMetadata := []
  deriving DecidableEq, Repr

/-- A module that the runtime loads. -/
structure Module where
  id : ModuleID
  assembly : Assembly
  windowsRuntime : Bool := false
  deriving DecidableEq, Repr

/-- Which of the profiler's questions the runtime answers during a callback. -/
structure Answers where
  /-- `ICorProfilerInfo4::GetModuleInfo2`. -/
  moduleInfo : Bool := true
  /-- `ICorProfilerInfo4::GetAssemblyInfo` and `GetAppDomainInfo`. -/
  assemblyInfo : Bool := true
  /-- `ICorProfilerInfo4::GetModuleMetaData`. -/
  moduleMetaData : Bool := true
  /-- `IMetaDataAssemblyImport::GetAssemblyFromScope` and `GetAssemblyProps`. -/
  assemblyProps : Bool := true
  /-- `IMetaDataImport2::GetModuleFromScope`. -/
  moduleFromScope : Bool := true
  /-- `IMetaDataImport2::GetScopeProps`. -/
  scopeProps : Bool := true
  deriving DecidableEq, Repr

/-- A callback of the runtime; `hr_status` says that the load succeeded. -/
inductive Callback where
  | assemblyLoadFinished (assembly : Assembly) (hr_status : Bool) (answers : Answers)
  | moduleLoadFinished (loaded : Module) (hr_status : Bool) (answers : Answers)
  | moduleUnloadStarted (module_id : ModuleID)
  deriving DecidableEq, Repr

/-- Source: `clr_helpers.h`, `AssemblyInfo` -/
structure AssemblyInfo where
  id : AssemblyID := 0
  name : String := ""
  manifest_module_id : ModuleID := 0
  app_domain_id : AppDomainID := 0

/-- Source: `clr_helpers.h`, `AssemblyInfo::IsValid` -/
def AssemblyInfo.IsValid (info : AssemblyInfo) : Bool := info.id != 0

/-- Source: `clr_helpers.h`, `ModuleInfo` -/
structure ModuleInfo where
  id : ModuleID := 0
  assembly : AssemblyInfo := {}
  windowsRuntime : Bool := false

/-- Source: `clr_helpers.h`, `ModuleInfo::IsValid` -/
def ModuleInfo.IsValid (info : ModuleInfo) : Bool := info.id != 0

/-- Source: `clr_helpers.cpp`, `GetAssemblyInfo` -/
def GetAssemblyInfo (answers : Answers) (assembly : Assembly) : AssemblyInfo :=
  if answers.assemblyInfo then
    ⟨assembly.id, assembly.metadata.name, assembly.manifest_module_id, assembly.app_domain_id⟩
  else {}

/-- Source: `clr_helpers.cpp`, `GetModuleInfo` -/
def GetModuleInfo (answers : Answers) (loaded : Module) : ModuleInfo :=
  if answers.moduleInfo then
    ⟨loaded.id, GetAssemblyInfo answers loaded.assembly, loaded.windowsRuntime⟩
  else {}

/-- Source: `clr_helpers.cpp`, `GetAssemblyImportMetadata` -/
def GetAssemblyImportMetadata (answers : Answers) (assembly : Assembly) : AssemblyMetadata :=
  if answers.assemblyProps then assembly.metadata else {}

/-! ## The integrations of a module -/

/-- An integration, by the fields of its method replacement that the filters read.
Source: `integration.h`, `IntegrationMethod` -/
structure IntegrationMethod where
  /-- `replacement.caller_method.assembly.name`. -/
  caller_assembly : String
  /-- `replacement.target_method.assembly.name`. -/
  target_assembly : String
  /-- `replacement.target_method.min_version`. -/
  min_version : Version
  /-- `replacement.target_method.max_version`. -/
  max_version : Version
  deriving DecidableEq, Repr

/-- Source: `clr_helpers.cpp`, `FilterIntegrationsByCaller` -/
def FilterIntegrationsByCaller (integration_methods : List IntegrationMethod)
    (assembly : AssemblyInfo) : List IntegrationMethod :=
  integration_methods.filter fun i =>
    i.caller_assembly.isEmpty || i.caller_assembly == assembly.name

/-- Source: `clr_helpers.cpp`, `AssemblyMeetsIntegrationRequirements` -/
def AssemblyMeetsIntegrationRequirements (metadata : AssemblyMetadata) (i : IntegrationMethod) :
    Bool :=
  if i.target_assembly != metadata.name then false
  else if i.min_version.gt metadata.version then false
  else if i.max_version.lt metadata.version then false
  else true

/-- Source: `clr_helpers.cpp`, `FilterIntegrationsByTarget` -/
def FilterIntegrationsByTarget (integration_methods : List IntegrationMethod) (answers : Answers)
    (assembly : Assembly) : List IntegrationMethod :=
  integration_methods.filter fun i =>
    AssemblyMeetsIntegrationRequirements (GetAssemblyImportMetadata answers assembly) i ||
      assembly.references.any fun metadata_ref =>
        AssemblyMeetsIntegrationRequirements metadata_ref i

/-! ## The native profiler -/

/-- Source: `dd_profiler_constants.h`, `managed_profiler_name` -/
def managed_profiler_name : String := "Datadog.Trace.ClrProfiler.Managed"

/-- Source: `version.h`, `PROFILER_VERSION` -/
def PROFILER_VERSION : String := "1.28.1"

/-- Source: `dd_profiler_constants.h`, `skip_assembly_prefixes` -/
def skip_assembly_prefixes : List String :=
  ["Microsoft.AI", "Microsoft.ApplicationInsights", "Microsoft.Build", "Microsoft.CSharp",
    "Microsoft.Extensions", "Microsoft.Web.Compilation.Snapshots", "System.Core", "System.Console",
    "System.Collections", "System.ComponentModel", "System.Diagnostics", "System.Drawing",
    "System.EnterpriseServices", "System.IO", "System.Runtime", "System.Text", "System.Threading",
    "System.Xml"]

/-- Source: `dd_profiler_constants.h`, `skip_assemblies` -/
def skip_assemblies : List String :=
  ["mscorlib", "netstandard", "System.Configuration", "Microsoft.AspNetCore.Razor.Language",
    "Microsoft.AspNetCore.Mvc.RazorPages", "Anonymously Hosted DynamicMethods Assembly",
    "ISymWrapper"]

/-- The loop of `ModuleLoadFinished` over `skip_assembly_prefixes`. -/
def skipsByPattern (name : String) : Bool :=
  skip_assembly_prefixes.any fun pattern => pattern.toList.isPrefixOf name.toList

/-- The loop of `ModuleLoadFinished` over `skip_assemblies`. -/
def skipsByName (name : String) : Bool :=
  skip_assemblies.any fun skip_assembly => name == skip_assembly

/-- What does not change while the profiler is attached. -/
structure Environment where
  /-- `runtime_information_.is_desktop()`. -/
  is_desktop : Bool
  /-- `IsCallTargetEnabled`. -/
  is_calltarget_enabled : Bool
  debug_logging_enabled : Bool
  integration_methods : List IntegrationMethod
  /-- The app domain of the assemblies that the desktop runtime loads domain-neutral. -/
  sharedDomain : AppDomainID

/-- Source: `module_metadata.h`, `ModuleMetadata` -/
structure ModuleMetadata where
  assemblyName : String
  app_domain_id : AppDomainID
  deriving DecidableEq, Repr

/-- The members of the profiler that the callbacks use.
Source: `cor_profiler.h`, `CorProfiler` -/
structure CorProfiler where
  is_attached_ : Bool := true
  corlib_module_loaded : Bool := false
  corlib_app_domain_id : AppDomainID := 0
  managed_profiler_loaded_domain_neutral : Bool := false
  managed_profiler_loaded_app_domains : List AppDomainID := []
  module_id_to_info_map_ : ModuleID → Option ModuleMetadata := fun _ => none

namespace CorProfiler

/-- The version by which an assembly is compared with the profiler: `Major.Minor.Build`. -/
def comparedVersion (version : Version) : String :=
  toString version.major ++ "." ++ toString version.minor ++ "." ++ toString version.build

/-- Source: `cor_profiler.cpp`, `CorProfiler::AssemblyLoadFinished` -/
def AssemblyLoadFinished (env : Environment) (s : CorProfiler) (assembly : Assembly)
    (hr_status : Bool) (answers : Answers) : CorProfiler :=
  if !hr_status then s
  else if !s.is_attached_ then s
  else
    let assembly_info := GetAssemblyInfo answers assembly
    if !assembly_info.IsValid then s
    else
      let is_instrumentation_assembly := assembly_info.name == managed_profiler_name
      if is_instrumentation_assembly || env.debug_logging_enabled then
        if !answers.moduleMetaData then s
        else
          let assembly_metadata := GetAssemblyImportMetadata answers assembly
          if is_instrumentation_assembly then
            if comparedVersion assembly_metadata.version == PROFILER_VERSION then
              let s := { s with
                managed_profiler_loaded_app_domains :=
                  s.managed_profiler_loaded_app_domains.insert assembly_info.app_domain_id }
              if env.is_desktop && s.corlib_module_loaded then
                if assembly_info.app_domain_id == s.corlib_app_domain_id then
                  { s with managed_profiler_loaded_domain_neutral := true }
                else s
              else s
            else s
          else s
      else s

/-- Remember a module unless it is one of those that are skipped: the core library, which is
remembered apart, the loader, Windows Runtime modules, the lists of known names, and modules
without integrations.
Source: `cor_profiler.cpp`, `CorProfiler::ModuleLoadFinished` -/
def ModuleLoadFinished (env : Environment) (s : CorProfiler) (loaded : Module)
    (hr_status : Bool) (answers : Answers) : CorProfiler :=
  if !hr_status then s
  else if !s.is_attached_ then s
  else
    let module_info := GetModuleInfo answers loaded
    if !module_info.IsValid then s
    else
      let name := module_info.assembly.name
      let app_domain_id := module_info.assembly.app_domain_id
      if !s.corlib_module_loaded && (name == "mscorlib" || name == "System.Private.CoreLib") then
        { s with corlib_module_loaded := true, corlib_app_domain_id := app_domain_id }
      else if name == "Datadog.Trace.ClrProfiler.Managed.Loader" then s
      else if module_info.windowsRuntime then s
      else if skipsByPattern name then s
      else if skipsByName name then s
      else
        let filtered_integrations :=
          if env.is_calltarget_enabled then env.integration_methods
          else FilterIntegrationsByCaller env.integration_methods module_info.assembly
        if filtered_integrations.isEmpty then s
        else if !answers.moduleMetaData then s
        else
          let filtered_integrations :=
            if name != "Microsoft.AspNetCore.Hosting" && name != "Dapper" &&
                !env.is_calltarget_enabled then
              FilterIntegrationsByTarget filtered_integrations answers loaded.assembly
            else filtered_integrations
          if filtered_integrations.isEmpty then s
          else if !answers.moduleFromScope then s
          else if !answers.scopeProps then s
          else
            { s with module_id_to_info_map_ :=
              Function.update s.module_id_to_info_map_ loaded.id (some ⟨name, app_domain_id⟩) }

/-- Source: `cor_profiler.cpp`, `CorProfiler::ModuleUnloadStarted` -/
def ModuleUnloadStarted (s : CorProfiler) (module_id : ModuleID) : CorProfiler :=
  if !s.is_attached_ then s
  else
    match s.module_id_to_info_map_ module_id with
    | none => s
    | some metadata =>
        { s with
          managed_profiler_loaded_app_domains :=
            s.managed_profiler_loaded_app_domains.filter (· != metadata.app_domain_id)
          module_id_to_info_map_ := Function.update s.module_id_to_info_map_ module_id none }

/-- Source: `cor_profiler.cpp`, `CorProfiler::ProfilerAssemblyIsLoadedIntoAppDomain` -/
def ProfilerAssemblyIsLoadedIntoAppDomain (s : CorProfiler) (app_domain_id : AppDomainID) : Bool :=
  s.managed_profiler_loaded_domain_neutral ||
    s.managed_profiler_loaded_app_domains.contains app_domain_id

/-- The first check of the rewriting of a method: it is skipped while the managed profiler has not
been loaded.
Source: `cor_profiler.cpp`, `CorProfiler::CallTarget_RewriterCallback` -/
def skipsRewriting (s : CorProfiler) (module_metadata : ModuleMetadata) : Bool :=
  !s.ProfilerAssemblyIsLoadedIntoAppDomain module_metadata.app_domain_id

/-- Execute a callback. -/
def exec (env : Environment) (s : CorProfiler) : Callback → CorProfiler
  | .assemblyLoadFinished assembly hr_status answers =>
      s.AssemblyLoadFinished env assembly hr_status answers
  | .moduleLoadFinished loaded hr_status answers =>
      s.ModuleLoadFinished env loaded hr_status answers
  | .moduleUnloadStarted module_id => s.ModuleUnloadStarted module_id

end CorProfiler

/-! ## Where the managed profiler is loaded -/

/-- The managed profiler, of the native profiler's version. -/
def isManagedProfiler (assembly : Assembly) : Bool :=
  assembly.metadata.name == managed_profiler_name &&
    CorProfiler.comparedVersion assembly.metadata.version == PROFILER_VERSION

/-- A native profiler with, as history, the managed profilers that have finished loading and have
not been unloaded since: their manifest modules and app domains. -/
structure Tracked where
  profiler : CorProfiler := {}
  instances : List (ModuleID × AppDomainID) := []

namespace Tracked

/-- Execute a callback. -/
def exec (env : Environment) (t : Tracked) (callback : Callback) : Tracked where
  profiler := t.profiler.exec env callback
  instances :=
    match callback with
    | .assemblyLoadFinished assembly hr_status _ =>
        if hr_status && isManagedProfiler assembly then
          (assembly.manifest_module_id, assembly.app_domain_id) :: t.instances
        else t.instances
    | .moduleLoadFinished .. => t.instances
    | .moduleUnloadStarted module_id => t.instances.filter (·.1 != module_id)

/-- Execute callbacks from the attachment of the profiler on. -/
def run (env : Environment) (callbacks : List Callback) : Tracked :=
  callbacks.foldl (exec env) {}

end Tracked

/-- The managed profiler is loaded domain-neutral. -/
def loadedNeutral (env : Environment) (instances : List (ModuleID × AppDomainID)) : Prop :=
  env.is_desktop = true ∧ ∃ i ∈ instances, i.2 = env.sharedDomain

/-- The managed profiler is loaded into an app domain, or domain-neutral. -/
def loadedInto (env : Environment) (instances : List (ModuleID × AppDomainID))
    (app_domain_id : AppDomainID) : Prop :=
  loadedNeutral env instances ∨ ∃ i ∈ instances, i.2 = app_domain_id

/-- The native profiler knows where the managed profiler is loaded. -/
def Exact (env : Environment) (t : Tracked) : Prop :=
  ∀ app_domain_id, t.profiler.ProfilerAssemblyIsLoadedIntoAppDomain app_domain_id = true ↔
    loadedInto env t.instances app_domain_id

/-! ## The condition on a callback -/

/-- The runtime answers what `AssemblyLoadFinished` asks of an assembly. -/
def Answered (assembly : Assembly) (answers : Answers) : Prop :=
  (GetAssemblyInfo answers assembly).IsValid = true ∧ answers.moduleMetaData = true ∧
    answers.assemblyProps = true

/-- The native profiler takes the app domain for the shared one: it is the one of the core library,
whose module has been loaded before, on the desktop runtime. -/
def TakenForShared (env : Environment) (s : CorProfiler) (app_domain_id : AppDomainID) : Prop :=
  env.is_desktop = true ∧ s.corlib_module_loaded = true ∧ app_domain_id = s.corlib_app_domain_id

/-- The condition on the load of an assembly. When it is the managed profiler, and this is not
loaded domain-neutral already, the runtime answers the questions about it, and the native profiler
takes its app domain for the shared one exactly if it is. -/
def LoadTracked (env : Environment) (t : Tracked) (assembly : Assembly) (answers : Answers) :
    Prop :=
  isManagedProfiler assembly = true → ¬loadedNeutral env t.instances →
    (Answered assembly answers ∨ ∃ i ∈ t.instances, i.2 = assembly.app_domain_id) ∧
    (Answered assembly answers ∧ TakenForShared env t.profiler assembly.app_domain_id ↔
      env.is_desktop = true ∧ assembly.app_domain_id = env.sharedDomain)

/-- The condition on the unload of a module. If the managed profiler is loaded domain-neutral it
stays so. Otherwise, for every app domain that the managed profiler is loaded into, the module is a
tracked one of that app domain exactly if it is the last one of the managed profiler there. -/
def UnloadTracked (env : Environment) (t : Tracked) (module_id : ModuleID) : Prop :=
  (loadedNeutral env t.instances → loadedNeutral env (t.instances.filter (·.1 != module_id))) ∧
  (¬loadedNeutral env t.instances → ∀ app_domain_id, (∃ i ∈ t.instances, i.2 = app_domain_id) →
    ((t.profiler.module_id_to_info_map_ module_id).map (·.app_domain_id) = some app_domain_id ↔
      ∀ i ∈ t.instances, i.2 = app_domain_id → i.1 = module_id))

/-- The condition on a callback. -/
def Tracks (env : Environment) (t : Tracked) : Callback → Prop
  | .assemblyLoadFinished assembly hr_status answers =>
      hr_status = true → LoadTracked env t assembly answers
  | .moduleLoadFinished .. => True
  | .moduleUnloadStarted module_id => UnloadTracked env t module_id

/-! ## What the callbacks do -/

namespace CorProfiler

variable {env : Environment} {s : CorProfiler}

/-- A version that the runtime does not tell is not the profiler's. -/
theorem comparedVersion_default : comparedVersion {} ≠ PROFILER_VERSION := by decide

/-- The load of the managed profiler, if the runtime answers. -/
theorem AssemblyLoadFinished_answered (env : Environment) (hattached : s.is_attached_ = true)
    {assembly : Assembly}
    {answers : Answers} (hmanaged : isManagedProfiler assembly = true)
    (hanswered : Answered assembly answers) :
    (s.AssemblyLoadFinished env assembly true answers).managed_profiler_loaded_app_domains =
        s.managed_profiler_loaded_app_domains.insert assembly.app_domain_id ∧
      ((s.AssemblyLoadFinished env assembly true answers).managed_profiler_loaded_domain_neutral =
          true ↔
        s.managed_profiler_loaded_domain_neutral = true ∨
          TakenForShared env s assembly.app_domain_id) := by
  obtain ⟨hvalid, hmetadata, hprops⟩ := hanswered
  obtain ⟨hname, hversion⟩ := (Bool.and_eq_true _ _).mp hmanaged
  have hasked : answers.assemblyInfo = true := by
    by_contra hno
    simp [GetAssemblyInfo, hno, AssemblyInfo.IsValid] at hvalid
  have hinfo : GetAssemblyInfo answers assembly = ⟨assembly.id, assembly.metadata.name,
      assembly.manifest_module_id, assembly.app_domain_id⟩ := if_pos hasked
  have himport : GetAssemblyImportMetadata answers assembly = assembly.metadata := if_pos hprops
  rw [hinfo] at hvalid
  simp only [AssemblyLoadFinished, hinfo, himport, hattached, hvalid, hmetadata, hname, hversion,
    Bool.not_true, Bool.false_eq_true, if_false, if_true, Bool.true_or, TakenForShared]
  by_cases hcorlib : (env.is_desktop && s.corlib_module_loaded) = true
  · rw [if_pos hcorlib]
    obtain ⟨hdesktop, hloaded⟩ := (Bool.and_eq_true _ _).mp hcorlib
    by_cases hsame : (assembly.app_domain_id == s.corlib_app_domain_id) = true
    · rw [if_pos hsame]
      simp [hdesktop, hloaded, beq_iff_eq.mp hsame]
    · rw [if_neg hsame]
      simp [beq_iff_eq.not.mp hsame]
  · rw [if_neg hcorlib]
    refine ⟨rfl, ?_⟩
    rw [Bool.and_eq_true] at hcorlib
    exact (or_iff_left fun h => hcorlib ⟨h.1, h.2.1⟩).symm

/-- Any other load of an assembly changes nothing. -/
theorem AssemblyLoadFinished_other {assembly : Assembly} {hr_status : Bool} {answers : Answers}
    (h : ¬(hr_status = true ∧ isManagedProfiler assembly = true ∧ Answered assembly answers)) :
    s.AssemblyLoadFinished env assembly hr_status answers = s := by
  unfold AssemblyLoadFinished
  dsimp only
  refine iteInduction (motive := (· = s)) (fun _ => rfl) fun hstatus => ?_
  refine iteInduction (motive := (· = s)) (fun _ => rfl) fun _ => ?_
  refine iteInduction (motive := (· = s)) (fun _ => rfl) fun hvalid => ?_
  refine iteInduction (motive := (· = s)) (fun _ => ?_) fun _ => rfl
  refine iteInduction (motive := (· = s)) (fun _ => rfl) fun hmetadata => ?_
  refine iteInduction (motive := (· = s)) (fun hname => ?_) fun _ => rfl
  refine iteInduction (motive := (· = s)) (fun hversion => ?_) fun _ => rfl
  -- the branch that remembers the app domain is the one excluded
  exfalso
  apply h
  simp only [Bool.not_eq_true', Bool.not_eq_false] at hstatus hvalid hmetadata
  have hasked : answers.assemblyInfo = true := by
    by_contra hno
    simp [GetAssemblyInfo, hno, AssemblyInfo.IsValid] at hvalid
  have hprops : answers.assemblyProps = true := by
    by_contra hno
    simp only [GetAssemblyImportMetadata, hno, if_false] at hversion
    exact comparedVersion_default (beq_iff_eq.mp hversion)
  simp only [GetAssemblyInfo, hasked, if_true] at hname
  simp only [GetAssemblyImportMetadata, hprops, if_true] at hversion
  refine ⟨hstatus, ?_, hvalid, hmetadata, hprops⟩
  rw [isManagedProfiler, hname, hversion, Bool.and_self]

/-- What is known of the managed profiler is the same. -/
structure SameTracking (s s' : CorProfiler) : Prop where
  app_domains :
    s'.managed_profiler_loaded_app_domains = s.managed_profiler_loaded_app_domains
  domain_neutral :
    s'.managed_profiler_loaded_domain_neutral = s.managed_profiler_loaded_domain_neutral
  is_attached : s'.is_attached_ = s.is_attached_

/-- The load of a module changes only what is known of the core library and the tracked modules. -/
theorem ModuleLoadFinished_sameTracking (env : Environment) (s : CorProfiler) (loaded : Module)
    (hr_status : Bool) (answers : Answers) :
    SameTracking s (s.ModuleLoadFinished env loaded hr_status answers) := by
  unfold ModuleLoadFinished
  dsimp only
  repeat' refine iteInduction (motive := SameTracking s) (fun _ => ?_) fun _ => ?_
  all_goals exact ⟨rfl, rfl, rfl⟩

/-- The unload of a module forgets the app domain of a tracked module. -/
theorem mem_ModuleUnloadStarted (hattached : s.is_attached_ = true) {module_id : ModuleID}
    {app_domain_id : AppDomainID} :
    app_domain_id ∈ (s.ModuleUnloadStarted module_id).managed_profiler_loaded_app_domains ↔
      app_domain_id ∈ s.managed_profiler_loaded_app_domains ∧
        (s.module_id_to_info_map_ module_id).map (·.app_domain_id) ≠ some app_domain_id := by
  rw [ModuleUnloadStarted, hattached]
  cases s.module_id_to_info_map_ module_id with
  | none => simp
  | some metadata =>
      simp only [Bool.not_true, Bool.false_eq_true, if_false, List.mem_filter, bne_iff_ne,
        Option.map_some, ne_eq, Option.some.injEq]
      exact and_congr_right fun _ => not_congr eq_comm

/-- The unload of a module leaves the flag alone. -/
theorem ModuleUnloadStarted_neutral {module_id : ModuleID} :
    (s.ModuleUnloadStarted module_id).managed_profiler_loaded_domain_neutral =
        s.managed_profiler_loaded_domain_neutral ∧
      (s.ModuleUnloadStarted module_id).is_attached_ = s.is_attached_ := by
  unfold ModuleUnloadStarted
  split
  · exact ⟨rfl, rfl⟩
  · split
    · exact ⟨rfl, rfl⟩
    · exact ⟨rfl, rfl⟩

/-- The profiler stays attached. -/
theorem is_attached_exec (hattached : s.is_attached_ = true) (callback : Callback) :
    (s.exec env callback).is_attached_ = true := by
  cases callback with
  | assemblyLoadFinished assembly hr_status answers =>
      have hbranch : ∀ (c : Prop) [Decidable c] (a b : CorProfiler), a.is_attached_ = true →
          b.is_attached_ = true → (if c then a else b).is_attached_ = true := by
        intro c _ a b ha hb
        exact iteInduction (motive := fun s' => is_attached_ s' = true) (fun _ => ha) fun _ => hb
      show (s.AssemblyLoadFinished env assembly hr_status answers).is_attached_ = true
      unfold AssemblyLoadFinished
      dsimp only
      repeat' apply hbranch
      all_goals exact hattached
  | moduleLoadFinished loaded hr_status answers =>
      exact (ModuleLoadFinished_sameTracking env s loaded hr_status answers).is_attached.trans
        hattached
  | moduleUnloadStarted module_id => exact ModuleUnloadStarted_neutral.2.trans hattached

end CorProfiler

/-! ## One callback -/

section step

variable {env : Environment} {t : Tracked}

/-- The answers are right exactly if the flag says whether the managed profiler is loaded
domain-neutral, and otherwise the set has the app domains it is loaded into. -/
theorem exact_iff :
    Exact env t ↔
      (t.profiler.managed_profiler_loaded_domain_neutral = true ↔ loadedNeutral env t.instances) ∧
      (¬loadedNeutral env t.instances → ∀ app_domain_id,
        app_domain_id ∈ t.profiler.managed_profiler_loaded_app_domains ↔
          ∃ i ∈ t.instances, i.2 = app_domain_id) := by
  simp only [Exact, CorProfiler.ProfilerAssemblyIsLoadedIntoAppDomain, loadedInto, Bool.or_eq_true,
    List.contains_iff_mem]
  constructor
  · intro h
    -- an app domain that neither the set nor the history has heard of tells the flag
    obtain ⟨fresh, hfresh⟩ := Infinite.exists_notMem_finset
      (t.profiler.managed_profiler_loaded_app_domains ++ t.instances.map (·.2)).toFinset
    rw [List.mem_toFinset, List.mem_append, not_or] at hfresh
    have hnot : ¬∃ i ∈ t.instances, i.2 = fresh := by
      rw [List.mem_map] at hfresh
      exact hfresh.2
    have hflag := h fresh
    simp only [hfresh.1, hnot, or_false] at hflag
    refine ⟨hflag, fun hneutral app_domain_id => ?_⟩
    have hset := h app_domain_id
    simpa only [hflag, hneutral, false_or] using hset
  · rintro ⟨hflag, hset⟩ app_domain_id
    by_cases hneutral : loadedNeutral env t.instances
    · simp only [hflag.mpr hneutral, hneutral, true_or]
    · simp only [hflag, hneutral, false_or, hset hneutral app_domain_id]

/-- The load of the managed profiler makes it loaded domain-neutral in the shared app domain. -/
theorem loadedNeutral_cons {instances : List (ModuleID × AppDomainID)}
    (h : ¬loadedNeutral env instances) (i : ModuleID × AppDomainID) :
    loadedNeutral env (i :: instances) ↔ env.is_desktop = true ∧ i.2 = env.sharedDomain := by
  simp only [loadedNeutral, List.mem_cons, exists_eq_or_imp, not_and] at h ⊢
  exact and_congr_right fun hdesktop => or_iff_left (h hdesktop)

/-- A load of the managed profiler. -/
theorem exact_load_iff (hattached : t.profiler.is_attached_ = true) (hexact : Exact env t)
    {assembly : Assembly} {answers : Answers} (hmanaged : isManagedProfiler assembly = true) :
    Exact env (t.exec env (.assemblyLoadFinished assembly true answers)) ↔
      LoadTracked env t assembly answers := by
  obtain ⟨hflag, hset⟩ := exact_iff.mp hexact
  have hinstances : (t.exec env (.assemblyLoadFinished assembly true answers)).instances =
      (assembly.manifest_module_id, assembly.app_domain_id) :: t.instances := by
    simp [Tracked.exec, hmanaged]
  have hprofiler : (t.exec env (.assemblyLoadFinished assembly true answers)).profiler =
      t.profiler.AssemblyLoadFinished env assembly true answers := rfl
  rw [exact_iff, hinstances, hprofiler, LoadTracked]
  by_cases hneutral : loadedNeutral env t.instances
  · -- loaded domain-neutral before and after, and the flag stays
    have hneutral' : loadedNeutral env
        ((assembly.manifest_module_id, assembly.app_domain_id) :: t.instances) :=
      ⟨hneutral.1, hneutral.2.imp fun i hi => ⟨List.mem_cons_of_mem _ hi.1, hi.2⟩⟩
    have hflag' : (t.profiler.AssemblyLoadFinished env assembly true
        answers).managed_profiler_loaded_domain_neutral = true := by
      by_cases hanswered : Answered assembly answers
      · exact (CorProfiler.AssemblyLoadFinished_answered env hattached hmanaged hanswered).2.mpr
          (Or.inl (hflag.mpr hneutral))
      · rw [CorProfiler.AssemblyLoadFinished_other fun h => hanswered h.2.2]
        exact hflag.mpr hneutral
    simp only [hflag', hneutral, hneutral', not_true, false_imp_iff, implies_true, and_self]
  have hdomains := hset hneutral
  rw [loadedNeutral_cons hneutral]
  by_cases hanswered : Answered assembly answers
  · obtain ⟨hset', hflag'⟩ :=
      CorProfiler.AssemblyLoadFinished_answered env hattached hmanaged hanswered
    have hmem : ∀ app_domain_id,
        app_domain_id ∈ t.profiler.managed_profiler_loaded_app_domains.insert
            assembly.app_domain_id ↔
          ∃ i ∈ (assembly.manifest_module_id, assembly.app_domain_id) :: t.instances,
            i.2 = app_domain_id := by
      intro app_domain_id
      rw [List.mem_insert_iff, hdomains]
      simp only [List.mem_cons, exists_eq_or_imp]
      exact or_congr eq_comm Iff.rfl
    rw [hset', hflag', hflag]
    simp only [hmem, hanswered, hmanaged, hneutral, false_or, true_or, true_and, not_false_iff,
      forall_const, implies_true, and_true, iff_self]
  · rw [CorProfiler.AssemblyLoadFinished_other fun h => hanswered h.2.2, hflag]
    simp only [hanswered, hmanaged, hneutral, false_or, false_and, not_false_iff, forall_const,
      hdomains, false_iff, List.mem_cons, exists_eq_or_imp]
    constructor
    · rintro ⟨hshared, h⟩
      exact ⟨(h hshared assembly.app_domain_id).mpr (Or.inl rfl), hshared⟩
    · rintro ⟨hlive, hshared⟩
      refine ⟨hshared, fun _ app_domain_id => ?_⟩
      constructor
      · exact Or.inr
      · rintro (rfl | h)
        · exact hlive
        · exact h

/-- The unload of a module. -/
theorem exact_unload_iff (hattached : t.profiler.is_attached_ = true) (hexact : Exact env t)
    (module_id : ModuleID) :
    Exact env (t.exec env (.moduleUnloadStarted module_id)) ↔ UnloadTracked env t module_id := by
  obtain ⟨hflag, hset⟩ := exact_iff.mp hexact
  have hinstances : (t.exec env (.moduleUnloadStarted module_id)).instances =
      t.instances.filter (·.1 != module_id) := rfl
  have hprofiler : (t.exec env (.moduleUnloadStarted module_id)).profiler =
      t.profiler.ModuleUnloadStarted module_id := rfl
  rw [exact_iff, hinstances, hprofiler, CorProfiler.ModuleUnloadStarted_neutral.1, hflag,
    UnloadTracked]
  have hmono : loadedNeutral env (t.instances.filter (·.1 != module_id)) →
      loadedNeutral env t.instances := fun h =>
    ⟨h.1, h.2.imp fun i hi => ⟨(List.mem_filter.mp hi.1).1, hi.2⟩⟩
  by_cases hneutral : loadedNeutral env t.instances
  · simp only [hneutral, true_iff, not_true, false_imp_iff, and_true, true_imp_iff]
    exact and_iff_left_of_imp fun h hno => absurd h hno
  · have hneutral' := mt hmono hneutral
    simp only [hneutral, hneutral', not_false_iff, forall_const, false_imp_iff, iff_self, true_and,
      CorProfiler.mem_ModuleUnloadStarted hattached, hset hneutral, List.mem_filter, bne_iff_ne]
    refine forall_congr' fun app_domain_id => ?_
    have hother : (∃ i, (i ∈ t.instances ∧ i.1 ≠ module_id) ∧ i.2 = app_domain_id) ↔
        ¬∀ i ∈ t.instances, i.2 = app_domain_id → i.1 = module_id := by
      push Not
      exact exists_congr fun i => ⟨fun h => ⟨h.1.1, h.2, h.1.2⟩, fun h => ⟨⟨h.1, h.2.2⟩, h.2.1⟩⟩
    by_cases hlive : ∃ i ∈ t.instances, i.2 = app_domain_id
    · simp only [hlive, true_and, hother, forall_const]
      exact not_iff_not
    · have hnone : ¬∃ i, (i ∈ t.instances ∧ i.1 ≠ module_id) ∧ i.2 = app_domain_id :=
        fun ⟨i, hi, hd⟩ => hlive ⟨i, hi.1, hd⟩
      simp only [hlive, hnone, false_and, iff_self, false_imp_iff]

/-- **One callback.** The answers stay right exactly if the callback meets its condition. -/
theorem exact_exec_iff (hattached : t.profiler.is_attached_ = true) (hexact : Exact env t)
    (callback : Callback) : Exact env (t.exec env callback) ↔ Tracks env t callback := by
  cases callback with
  | assemblyLoadFinished assembly hr_status answers =>
      by_cases hload : hr_status = true ∧ isManagedProfiler assembly = true
      · obtain ⟨rfl, hmanaged⟩ := hload
        rw [exact_load_iff hattached hexact hmanaged]
        exact ⟨fun h _ => h, fun h => h rfl⟩
      · have hsame : t.exec env (.assemblyLoadFinished assembly hr_status answers) = t := by
          have hprofiler :
              t.profiler.AssemblyLoadFinished env assembly hr_status answers = t.profiler :=
            CorProfiler.AssemblyLoadFinished_other fun h => hload ⟨h.1, h.2.1⟩
          rw [← Bool.and_eq_true] at hload
          simp only [Tracked.exec, CorProfiler.exec, hprofiler, if_neg hload]
        rw [hsame]
        exact iff_of_true hexact fun hstatus hmanaged => absurd ⟨hstatus, hmanaged⟩ hload
  | moduleLoadFinished loaded hr_status answers =>
      have hsame := CorProfiler.ModuleLoadFinished_sameTracking env t.profiler loaded hr_status answers
      refine iff_of_true (fun app_domain_id => ?_) trivial
      refine Iff.trans ?_ (hexact app_domain_id)
      simp only [CorProfiler.ProfilerAssemblyIsLoadedIntoAppDomain, Tracked.exec, CorProfiler.exec,
        hsame.app_domains, hsame.domain_neutral]
  | moduleUnloadStarted module_id => exact exact_unload_iff hattached hexact module_id

end step

/-! ## Runs -/

/-- **Tracking.** Along a run of callbacks the native profiler always knows where the managed
profiler is loaded, exactly if every callback of the run meets its condition. -/
theorem tracking_exact_iff (env : Environment) (callbacks : List Callback) :
    (∀ done, done <+: callbacks → Exact env (Tracked.run env done)) ↔
      ∀ done callback, done ++ [callback] <+: callbacks →
        Tracks env (Tracked.run env done) callback := by
  have hstart : Exact env {} := by
    intro app_domain_id
    simp [CorProfiler.ProfilerAssemblyIsLoadedIntoAppDomain, loadedInto, loadedNeutral]
  have hattached : ({} : Tracked).profiler.is_attached_ = true := rfl
  exact foldl_exact_iff (I := fun t : Tracked => t.profiler.is_attached_ = true) hattached hstart
    (fun t callback h => CorProfiler.is_attached_exec h callback)
    (fun t callback h hexact => exact_exec_iff h hexact callback) callbacks

/-- A runtime without app domains of its own, with CallTarget instrumentation of one method. -/
def coreEnvironment : Environment where
  is_desktop := false
  is_calltarget_enabled := true
  debug_logging_enabled := false
  integration_methods := [⟨"", "System.Net.Http", { major := 4 }, { major := 5 }⟩]
  sharedDomain := 0

/-- An assembly of app domain 1 whose only module has the same number. -/
def assemblyNamed (id : AssemblyID) (name : String) (version : Version) : Assembly :=
  ⟨id, ⟨name, version⟩, id, 1, []⟩

/-- An application that loads the managed profiler, itself and a plugin, and unloads the plugin. -/
def pluginRun : List Callback :=
  let corlib := assemblyNamed 1 "System.Private.CoreLib" { major := 5 }
  let managed := assemblyNamed 2 managed_profiler_name { major := 1, minor := 28, build := 1 }
  let application := assemblyNamed 3 "Application" { major := 1 }
  let plugin := assemblyNamed 4 "Plugin" { major := 1 }
  [.moduleLoadFinished ⟨1, corlib, false⟩ true {}, .assemblyLoadFinished corlib true {},
    .moduleLoadFinished ⟨2, managed, false⟩ true {}, .assemblyLoadFinished managed true {},
    .moduleLoadFinished ⟨3, application, false⟩ true {}, .assemblyLoadFinished application true {},
    .moduleLoadFinished ⟨4, plugin, false⟩ true {}, .assemblyLoadFinished plugin true {},
    .moduleUnloadStarted 4]

/-- The unload of the plugin makes the native profiler forget the managed profiler, and the methods
of the application are not rewritten any more. -/
theorem tracking_lost_pluginUnload :
    let t := Tracked.run coreEnvironment pluginRun
    loadedInto coreEnvironment t.instances 1 ∧
      t.profiler.ProfilerAssemblyIsLoadedIntoAppDomain 1 = false ∧
      (t.profiler.module_id_to_info_map_ 3).map t.profiler.skipsRewriting = some true := by
  refine ⟨Or.inr ⟨(2, 1), ?_, rfl⟩, ?_, ?_⟩
  · decide +kernel
  · decide +kernel
  · decide +kernel

end DdTrace.Profiler
