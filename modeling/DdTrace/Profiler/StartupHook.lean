import Mathlib.Data.List.Induction
import DdTrace.Profiler.LoadedProfiler

/-!
# The startup hook

The native profiler inserts a call of the startup hook, which loads
`Datadog.Trace.ClrProfiler.Managed.Loader`, into the first method that is compiled in an app domain.

* `JITCompilationStarted`, `ModuleLoadFinished`: the two callbacks that write
  `first_jit_compilation_app_domains`.
* `callSite?`: the app domain of a method that may take the hook.
* `InjectsOnce`: at most one insertion in an app domain succeeds, and until one does, or the loader
  is there, every call site gets an attempt.
* `injectsOnce_iff`: so it is exactly if no app domain needs a second attempt.

Sources: `cor_profiler.cpp`, `ModuleLoadFinished`, `JITCompilationStarted`, `RunILStartupHook`;
`clr_helpers.h`, `FunctionInfo`.
-/

namespace DdTrace.Profiler

open DdTrace.Lib

/-! ## The callbacks -/

/-- What does not change while the profiler is attached, with the name of the process. -/
structure StartupEnvironment extends Environment where
  process_name : String

/-- Source: `cor_profiler.cpp`, `CorProfiler::Initialize` -/
def StartupEnvironment.is_desktop_iis (env : StartupEnvironment) : Bool :=
  (env.process_name == "w3wp.exe" || env.process_name == "iisexpress.exe") && env.is_desktop

/-- Source: `clr_helpers.h`, `FunctionInfo`, with the name of its `TypeInfo` -/
structure FunctionInfo where
  id : Nat := 0
  name : String := ""
  type_name : String := ""
  deriving DecidableEq, Repr

/-- Source: `clr_helpers.h`, `FunctionInfo::IsValid` -/
def FunctionInfo.IsValid (info : FunctionInfo) : Bool := info.id != 0

/-- Which steps of an insertion succeed. -/
structure HookAnswers where
  /-- `GenerateVoidILStartupMethod`. -/
  startupMethod : Bool := true
  /-- `ILRewriter::Import`. -/
  imported : Bool := true
  /-- `ILRewriter::Export`. -/
  exported : Bool := true
  deriving DecidableEq, Repr

/-- A method whose compilation starts, with what the profiler is told about it. -/
structure JITCompilation where
  module_id : ModuleID
  is_safe_to_block : Bool := true
  /-- `ICorProfilerInfo4::GetFunctionInfo`. -/
  functionInfo : Bool := true
  /-- What `GetFunctionInfo` of `clr_helpers.cpp` returns. -/
  caller : FunctionInfo
  hook : HookAnswers := {}
  deriving DecidableEq, Repr

/-- A callback of the runtime, with the compilations of methods. -/
inductive StartupCallback where
  | other (callback : Callback)
  | jitCompilationStarted (method : JITCompilation)
  deriving DecidableEq, Repr

/-- A try to insert the startup hook. -/
structure Attempt where
  app_domain_id : AppDomainID
  method : JITCompilation
  inserted : Bool
  deriving DecidableEq, Repr

/-- The profiler, with the app domains that it does not insert the hook into any more, and what it
has tried. -/
structure StartupProfiler where
  profiler : CorProfiler := {}
  first_jit_compilation_app_domains : List AppDomainID := []
  attempts : List Attempt := []

/-- Source: `cor_profiler.cpp`, `ModuleLoadFinished` -/
def loader_name : String := "Datadog.Trace.ClrProfiler.Managed.Loader"

/-- Source: `cor_profiler.cpp`, `CorProfiler::RunILStartupHook` -/
def RunILStartupHook (answers : HookAnswers) : Bool :=
  if !answers.startupMethod then false
  else if !answers.imported then false
  else if !answers.exported then false
  else true

/-- Source: `cor_profiler.cpp`, `CorProfiler::JITCompilationStarted`, `valid_startup_hook_callsite` -/
def valid_startup_hook_callsite (env : StartupEnvironment) (module_metadata : ModuleMetadata)
    (caller : FunctionInfo) : Bool :=
  if env.is_desktop_iis then
    module_metadata.assemblyName == "System.Web" &&
      caller.type_name == "System.Web.Compilation.BuildManager" &&
      caller.name == "InvokePreStartInitMethods"
  else if module_metadata.assemblyName == "System" ||
      module_metadata.assemblyName == "System.Net.Http" then false
  else true

namespace StartupProfiler

/-- The load of a module, of which the loader's takes an app domain off those that need a hook.
Source: `cor_profiler.cpp`, `CorProfiler::ModuleLoadFinished` -/
def ModuleLoadFinished (env : StartupEnvironment) (s : StartupProfiler) (loaded : Module)
    (hr_status : Bool) (answers : Answers) : StartupProfiler :=
  let s' := { s with
    profiler := s.profiler.ModuleLoadFinished env.toEnvironment loaded hr_status answers }
  if !hr_status then s'
  else if !s.profiler.is_attached_ then s'
  else
    let module_info := GetModuleInfo answers loaded
    if !module_info.IsValid then s'
    else
      let name := module_info.assembly.name
      if !s.profiler.corlib_module_loaded &&
          (name == "mscorlib" || name == "System.Private.CoreLib") then s'
      else if name == loader_name then
        { s' with
          first_jit_compilation_app_domains :=
            s.first_jit_compilation_app_domains.insert module_info.assembly.app_domain_id }
      else s'

/-- The insertion of the startup hook. The app domain is taken off before the method is rewritten;
what follows a failed or a successful insertion does not change any of the state.
Source: `cor_profiler.cpp`, `CorProfiler::JITCompilationStarted` -/
def JITCompilationStarted (env : StartupEnvironment) (s : StartupProfiler)
    (method : JITCompilation) : StartupProfiler :=
  if !s.profiler.is_attached_ || !method.is_safe_to_block then s
  else if !method.functionInfo then s
  else
    match s.profiler.module_id_to_info_map_ method.module_id with
    | none => s
    | some module_metadata =>
        let has_loader_injected_in_appdomain :=
          s.first_jit_compilation_app_domains.contains module_metadata.app_domain_id
        if env.is_calltarget_enabled && has_loader_injected_in_appdomain then s
        else if !method.caller.IsValid then s
        else if valid_startup_hook_callsite env module_metadata method.caller &&
            !has_loader_injected_in_appdomain then
          { s with
            first_jit_compilation_app_domains :=
              s.first_jit_compilation_app_domains.insert module_metadata.app_domain_id
            attempts := s.attempts ++
              [⟨module_metadata.app_domain_id, method, RunILStartupHook method.hook⟩] }
        else s

/-- Execute a callback. -/
def exec (env : StartupEnvironment) (s : StartupProfiler) : StartupCallback → StartupProfiler
  | .other (.moduleLoadFinished loaded hr_status answers) =>
      s.ModuleLoadFinished env loaded hr_status answers
  | .other callback => { s with profiler := s.profiler.exec env.toEnvironment callback }
  | .jitCompilationStarted method => s.JITCompilationStarted env method

/-- Execute callbacks from the attachment of the profiler on. -/
def run (env : StartupEnvironment) (callbacks : List StartupCallback) : StartupProfiler :=
  callbacks.foldl (exec env) {}

end StartupProfiler

/-! ## Call sites and the loader -/

/-- The app domain of a method that may take the startup hook: its module is a tracked one, it is
known, and it is a valid call site. -/
def callSite? (env : StartupEnvironment) (s : CorProfiler) (method : JITCompilation) :
    Option AppDomainID :=
  if s.is_attached_ && method.is_safe_to_block && method.functionInfo && method.caller.IsValid then
    (s.module_id_to_info_map_ method.module_id).bind fun module_metadata =>
      if valid_startup_hook_callsite env module_metadata method.caller then
        some module_metadata.app_domain_id
      else none
  else none

/-- A callback reports that the loader has been loaded into an app domain. -/
def LoadsLoader (app_domain_id : AppDomainID) : StartupCallback → Prop
  | .other (.moduleLoadFinished loaded hr_status _) =>
      hr_status = true ∧ loaded.assembly.metadata.name = loader_name ∧
        loaded.assembly.app_domain_id = app_domain_id
  | .other _ => False
  | .jitCompilationStarted _ => False

/-- The loader has been loaded into an app domain. -/
def LoaderLoaded (done : List StartupCallback) (app_domain_id : AppDomainID) : Prop :=
  ∃ callback ∈ done, LoadsLoader app_domain_id callback

/-- The call site that a callback is. -/
def StartupCallback.site? (env : StartupEnvironment) (s : CorProfiler) :
    StartupCallback → Option (AppDomainID × JITCompilation)
  | .other _ => none
  | .jitCompilationStarted method => (callSite? env s method).map fun d => (d, method)

/-- The profiler after a callback, without the startup hook. -/
def StartupCallback.track (env : StartupEnvironment) (s : CorProfiler) :
    StartupCallback → CorProfiler
  | .other callback => s.exec env.toEnvironment callback
  | .jitCompilationStarted _ => s

/-- The profiler after callbacks, without the startup hook. -/
def tracked (env : StartupEnvironment) (callbacks : List StartupCallback) : CorProfiler :=
  callbacks.foldl (StartupCallback.track env) {}

/-- The call sites of callbacks, in order. -/
def callSites (env : StartupEnvironment) (s : CorProfiler) :
    List StartupCallback → List (AppDomainID × JITCompilation)
  | [] => []
  | callback :: callbacks =>
      (callback.site? env s).toList ++ callSites env (callback.track env s) callbacks

/-- The first call site of an app domain. -/
def firstSite (env : StartupEnvironment) (done : List StartupCallback)
    (app_domain_id : AppDomainID) : Option (AppDomainID × JITCompilation) :=
  (callSites env {} done).find? fun site => site.1 == app_domain_id

/-! ## What is asked of a run -/

/-- The loader is injected once: no app domain has two successful insertions, and a call site of an
app domain that has none, and no loader, gets an attempt. -/
def InjectsOnce (env : StartupEnvironment) (callbacks : List StartupCallback) : Prop :=
  (∀ app_domain_id, ((StartupProfiler.run env callbacks).attempts.filter fun a =>
    a.app_domain_id == app_domain_id && a.inserted).length ≤ 1) ∧
  ∀ done method, done ++ [.jitCompilationStarted method] <+: callbacks →
    ∀ app_domain_id, callSite? env (tracked env done) method = some app_domain_id →
      (∀ a ∈ (StartupProfiler.run env done).attempts, a.app_domain_id = app_domain_id →
        a.inserted = false) →
      ¬LoaderLoaded done app_domain_id →
      (StartupProfiler.run env (done ++ [.jitCompilationStarted method])).attempts =
        (StartupProfiler.run env done).attempts ++
          [⟨app_domain_id, method, RunILStartupHook method.hook⟩]

/-- No app domain needs a second attempt: where a call site follows another one, with the loader
still absent, the hook can be inserted into the first of the app domain. -/
def FirstSuffices (env : StartupEnvironment) (callbacks : List StartupCallback) : Prop :=
  ∀ done method, done ++ [.jitCompilationStarted method] <+: callbacks →
    ∀ app_domain_id, callSite? env (tracked env done) method = some app_domain_id →
      ¬LoaderLoaded done app_domain_id →
      ∀ site, firstSite env done app_domain_id = some site → RunILStartupHook site.2.hook = true

/-! ## What the callbacks do -/

theorem loader_named : "" ≠ loader_name := by decide

namespace StartupProfiler

variable {env : StartupEnvironment} {s : StartupProfiler}

/-- A compilation is a try exactly at a call site of an app domain that may still need the hook. -/
theorem JITCompilationStarted_eq (method : JITCompilation) :
    s.JITCompilationStarted env method =
      match callSite? env s.profiler method with
      | none => s
      | some app_domain_id =>
          if app_domain_id ∈ s.first_jit_compilation_app_domains then s
          else
            { s with
              first_jit_compilation_app_domains :=
                s.first_jit_compilation_app_domains.insert app_domain_id
              attempts := s.attempts ++
                [⟨app_domain_id, method, RunILStartupHook method.hook⟩] } := by
  unfold JITCompilationStarted callSite?
  cases s.profiler.is_attached_ with
  | false => rfl
  | true =>
  cases method.is_safe_to_block with
  | false => rfl
  | true =>
  cases method.functionInfo with
  | false => rfl
  | true =>
  cases s.profiler.module_id_to_info_map_ method.module_id with
  | none => cases method.caller.IsValid <;> rfl
  | some module_metadata =>
      cases hvalid : method.caller.IsValid with
      | false => simp
      | true =>
      cases hsite : valid_startup_hook_callsite env module_metadata method.caller with
      | false => simp [hsite]
      | true =>
          -- In an app domain that is taken off nothing is inserted, whatever the mode.
          by_cases hmem : module_metadata.app_domain_id ∈ s.first_jit_compilation_app_domains
          · simp [hsite, hmem]
          · simp [hsite, hmem]

/-- The load of a module takes off the app domains that get the loader, and no others. -/
theorem ModuleLoadFinished_spec (loaded : Module) (hr_status : Bool) (answers : Answers) :
    let callback := .other (.moduleLoadFinished loaded hr_status answers)
    let s' := s.ModuleLoadFinished env loaded hr_status answers
    s'.profiler = s.profiler.ModuleLoadFinished env.toEnvironment loaded hr_status answers ∧
      s'.attempts = s.attempts ∧
      s.first_jit_compilation_app_domains ⊆ s'.first_jit_compilation_app_domains ∧
      ∀ app_domain_id ∈ s'.first_jit_compilation_app_domains,
        app_domain_id ∈ s.first_jit_compilation_app_domains ∨ LoadsLoader app_domain_id callback := by
  unfold ModuleLoadFinished
  dsimp only
  have hsame : ∀ s' : StartupProfiler,
      s'.first_jit_compilation_app_domains = s.first_jit_compilation_app_domains →
      s.first_jit_compilation_app_domains ⊆ s'.first_jit_compilation_app_domains ∧
      ∀ app_domain_id ∈ s'.first_jit_compilation_app_domains,
        app_domain_id ∈ s.first_jit_compilation_app_domains ∨
          LoadsLoader app_domain_id (.other (.moduleLoadFinished loaded hr_status answers)) := by
    rintro s' h
    rw [h]
    exact ⟨List.Subset.refl _, fun _ hmem => Or.inl hmem⟩
  split
  · exact ⟨rfl, rfl, hsame _ rfl⟩
  split
  · exact ⟨rfl, rfl, hsame _ rfl⟩
  split
  · exact ⟨rfl, rfl, hsame _ rfl⟩
  split
  · exact ⟨rfl, rfl, hsame _ rfl⟩
  split
  · rename_i hstatus _ _ _ hname
    refine ⟨rfl, rfl, fun _ hmem => List.mem_insert_of_mem hmem, fun app_domain_id hmem => ?_⟩
    rcases List.mem_insert_iff.mp hmem with rfl | hmem
    · refine Or.inr ⟨by simpa using hstatus, ?_⟩
      rw [beq_iff_eq] at hname
      -- The runtime has told the name, so it has told the app domain too.
      unfold GetModuleInfo GetAssemblyInfo at hname ⊢
      revert hname
      cases answers.moduleInfo with
      | false => exact fun hname => absurd hname loader_named
      | true =>
          cases answers.assemblyInfo with
          | false => exact fun hname => absurd hname loader_named
          | true => exact fun hname => ⟨hname, rfl⟩
    · exact Or.inl hmem
  · exact ⟨rfl, rfl, hsame _ rfl⟩

theorem exec_profiler (callback : StartupCallback) :
    (s.exec env callback).profiler = callback.track env s.profiler := by
  cases callback with
  | other callback =>
      cases callback with
      | assemblyLoadFinished assembly hr_status answers => rfl
      | moduleLoadFinished loaded hr_status answers =>
          exact (ModuleLoadFinished_spec loaded hr_status answers).1
      | moduleUnloadStarted module_id => rfl
  | jitCompilationStarted method =>
      rw [exec, JITCompilationStarted_eq, StartupCallback.track]
      split
      · rfl
      · split <;> rfl

/-- A callback that is no compilation. -/
theorem exec_other (s : StartupProfiler) (env : StartupEnvironment) (callback : Callback) :
    (s.exec env (.other callback)).attempts = s.attempts ∧
      s.first_jit_compilation_app_domains ⊆
        (s.exec env (.other callback)).first_jit_compilation_app_domains ∧
      ∀ app_domain_id ∈ (s.exec env (.other callback)).first_jit_compilation_app_domains,
        app_domain_id ∈ s.first_jit_compilation_app_domains ∨
          LoadsLoader app_domain_id (.other callback) := by
  cases callback with
  | assemblyLoadFinished assembly hr_status answers =>
      exact ⟨rfl, List.Subset.refl _, fun _ hmem => Or.inl hmem⟩
  | moduleLoadFinished loaded hr_status answers =>
      exact (ModuleLoadFinished_spec loaded hr_status answers).2
  | moduleUnloadStarted module_id =>
      exact ⟨rfl, List.Subset.refl _, fun _ hmem => Or.inl hmem⟩

theorem run_concat (done : List StartupCallback) (callback : StartupCallback) :
    run env (done ++ [callback]) = (run env done).exec env callback :=
  List.foldl_concat ..

end StartupProfiler

section sites

variable {env : StartupEnvironment}

theorem tracked_concat (done : List StartupCallback) (callback : StartupCallback) :
    tracked env (done ++ [callback]) = callback.track env (tracked env done) :=
  List.foldl_concat ..

theorem loaderLoaded_concat {done : List StartupCallback} {callback : StartupCallback}
    {app_domain_id : AppDomainID} :
    LoaderLoaded (done ++ [callback]) app_domain_id ↔
      LoaderLoaded done app_domain_id ∨ LoadsLoader app_domain_id callback := by
  simp [LoaderLoaded, or_and_right, exists_or]

theorem callSites_concat (s : CorProfiler) (done : List StartupCallback)
    (callback : StartupCallback) :
    callSites env s (done ++ [callback]) =
      callSites env s done ++
        (callback.site? env (done.foldl (StartupCallback.track env) s)).toList := by
  induction done generalizing s with
  | nil => simp [callSites]
  | cons first done ih =>
      rw [List.cons_append, callSites, callSites, ih, List.append_assoc, List.foldl_cons]

/-- A callback is the first call site of an app domain if there was none before it. -/
theorem firstSite_concat (done : List StartupCallback) (callback : StartupCallback)
    (app_domain_id : AppDomainID) :
    firstSite env (done ++ [callback]) app_domain_id =
      (firstSite env done app_domain_id).or
        ((callback.site? env (tracked env done)).filter fun site => site.1 == app_domain_id) := by
  rw [firstSite, callSites_concat, List.find?_append, firstSite, tracked]
  cases callback.site? env (done.foldl (StartupCallback.track env) {}) with
  | none => rfl
  | some site => cases hsite : site.1 == app_domain_id <;> simp [Option.filter, hsite]

end sites

/-! ## The invariant -/

/-- What holds after callbacks: an app domain has at most one attempt, and as long as it has no
loader, the attempt is at its first call site and takes it off. -/
structure Tried (env : StartupEnvironment) (done : List StartupCallback) (s : StartupProfiler) :
    Prop where
  profiler : s.profiler = tracked env done
  taken : ∀ a ∈ s.attempts, a.app_domain_id ∈ s.first_jit_compilation_app_domains
  nodup : (s.attempts.map Attempt.app_domain_id).Nodup
  none_of_none : ∀ app_domain_id, ¬LoaderLoaded done app_domain_id →
    firstSite env done app_domain_id = none →
    app_domain_id ∉ s.first_jit_compilation_app_domains
  of_some : ∀ app_domain_id, ¬LoaderLoaded done app_domain_id →
    ∀ site, firstSite env done app_domain_id = some site →
    ⟨app_domain_id, site.2, RunILStartupHook site.2.hook⟩ ∈ s.attempts

section run

variable {env : StartupEnvironment} {done : List StartupCallback} {s : StartupProfiler}

theorem Tried.other (h : Tried env done s) (callback : Callback) :
    Tried env (done ++ [.other callback]) (s.exec env (.other callback)) := by
  obtain ⟨hattempts, hsubset, hmem⟩ := s.exec_other env callback
  have hfirst : ∀ app_domain_id, firstSite env (done ++ [.other callback]) app_domain_id =
      firstSite env done app_domain_id := by
    intro app_domain_id
    rw [firstSite_concat]
    exact Option.or_none
  refine ⟨?_, ?_, ?_, ?_, ?_⟩
  · rw [StartupProfiler.exec_profiler, tracked_concat, h.profiler]
  · rw [hattempts]
    exact fun a ha => hsubset (h.taken a ha)
  · rw [hattempts]
    exact h.nodup
  · intro app_domain_id hloader hnone htaken
    rw [loaderLoaded_concat, not_or] at hloader
    rw [hfirst] at hnone
    rcases hmem app_domain_id htaken with htaken | hloads
    · exact h.none_of_none app_domain_id hloader.1 hnone htaken
    · exact hloader.2 hloads
  · intro app_domain_id hloader site hsome
    rw [loaderLoaded_concat, not_or] at hloader
    rw [hfirst] at hsome
    rw [hattempts]
    exact h.of_some app_domain_id hloader.1 site hsome

theorem Tried.jitCompilationStarted (h : Tried env done s) (method : JITCompilation) :
    Tried env (done ++ [.jitCompilationStarted method])
      (s.exec env (.jitCompilationStarted method)) := by
  have hloader : ∀ app_domain_id,
      LoaderLoaded (done ++ [.jitCompilationStarted method]) app_domain_id ↔
        LoaderLoaded done app_domain_id := by
    intro app_domain_id
    rw [loaderLoaded_concat]
    exact or_iff_left id
  have hprofiler : (s.exec env (.jitCompilationStarted method)).profiler =
      tracked env (done ++ [.jitCompilationStarted method]) := by
    rw [StartupProfiler.exec_profiler, tracked_concat, h.profiler]
  have hfirst : ∀ app_domain_id,
      firstSite env (done ++ [.jitCompilationStarted method]) app_domain_id =
        (firstSite env done app_domain_id).or
          (((callSite? env s.profiler method).map fun d => (d, method)).filter
            fun site => site.1 == app_domain_id) := by
    intro app_domain_id
    rw [firstSite_concat, ← h.profiler]
    rfl
  rw [StartupProfiler.exec, StartupProfiler.JITCompilationStarted_eq] at *
  cases hsite : callSite? env s.profiler method with
  | none =>
      rw [hsite] at hprofiler hfirst
      have hfirst : ∀ app_domain_id,
          firstSite env (done ++ [.jitCompilationStarted method]) app_domain_id =
            firstSite env done app_domain_id := fun d => (hfirst d).trans Option.or_none
      refine ⟨hprofiler, h.taken, h.nodup, ?_, ?_⟩
      · intro app_domain_id
        rw [hloader, hfirst]
        exact h.none_of_none app_domain_id
      · intro app_domain_id
        rw [hloader, hfirst]
        exact h.of_some app_domain_id
  | some d =>
      rw [hsite] at hprofiler hfirst
      have hother : ∀ app_domain_id, app_domain_id ≠ d →
          firstSite env (done ++ [.jitCompilationStarted method]) app_domain_id =
            firstSite env done app_domain_id := by
        intro app_domain_id hne
        rw [hfirst, Option.map_some, Option.filter_some, beq_false_of_ne hne.symm]
        exact Option.or_none
      have hsame : firstSite env (done ++ [.jitCompilationStarted method]) d =
          (firstSite env done d).or (some (d, method)) := by
        rw [hfirst, Option.map_some, Option.filter_some, beq_self_eq_true]
        rfl
      dsimp only at hprofiler ⊢
      split
      · -- The app domain has been taken off, by the loader or at its first call site.
        rename_i htaken
        rw [if_pos htaken] at hprofiler
        refine ⟨hprofiler, h.taken, h.nodup, ?_, ?_⟩
        · intro app_domain_id hnot hnone
          rw [hloader] at hnot
          by_cases hd : app_domain_id = d
          · subst hd
            rw [hsame] at hnone
            simp at hnone
          · rw [hother app_domain_id hd] at hnone
            exact h.none_of_none app_domain_id hnot hnone
        · intro app_domain_id hnot site hsome
          rw [hloader] at hnot
          by_cases hd : app_domain_id = d
          · subst hd
            cases hdone : firstSite env done app_domain_id with
            | none => exact absurd htaken (h.none_of_none app_domain_id hnot hdone)
            | some site' =>
                rw [hsame, hdone, Option.some_or] at hsome
                exact h.of_some app_domain_id hnot site (hdone.trans hsome)
          · rw [hother app_domain_id hd] at hsome
            exact h.of_some app_domain_id hnot site hsome
      · rename_i htaken
        rw [if_neg htaken] at hprofiler
        have hfresh : d ∉ s.attempts.map Attempt.app_domain_id := by
          intro hmem
          obtain ⟨a, ha, rfl⟩ := List.mem_map.mp hmem
          exact htaken (h.taken a ha)
        refine ⟨hprofiler, ?_, ?_, ?_, ?_⟩
        · intro a ha
          rcases List.mem_append.mp ha with ha | ha
          · exact List.mem_insert_of_mem (h.taken a ha)
          · rw [List.mem_singleton.mp ha]
            exact List.mem_insert_self
        · rw [List.map_append, List.map_singleton, List.nodup_append]
          refine ⟨h.nodup, List.nodup_singleton _, ?_⟩
          rintro a ha b hb rfl
          rw [List.mem_singleton.mp hb] at ha
          exact hfresh ha
        · intro app_domain_id hnot hnone
          rw [hloader] at hnot
          by_cases hd : app_domain_id = d
          · subst hd
            rw [hsame] at hnone
            simp at hnone
          · rw [hother app_domain_id hd] at hnone
            intro hmem
            rcases List.mem_insert_iff.mp hmem with rfl | hmem
            · exact hd rfl
            · exact h.none_of_none app_domain_id hnot hnone hmem
        · intro app_domain_id hnot site hsome
          rw [hloader] at hnot
          apply List.mem_append.mpr
          by_cases hd : app_domain_id = d
          · subst hd
            cases hdone : firstSite env done app_domain_id with
            | none =>
                rw [hsame, hdone, Option.none_or, Option.some.injEq] at hsome
                subst hsome
                exact Or.inr (List.mem_singleton_self _)
            | some site' =>
                have hmem := h.of_some app_domain_id hnot site' hdone
                exact absurd (List.mem_map_of_mem hmem) hfresh
          · rw [hother app_domain_id hd] at hsome
            exact Or.inl (h.of_some app_domain_id hnot site hsome)

theorem tried_run (done : List StartupCallback) :
    Tried env done (StartupProfiler.run env done) := by
  induction done using List.reverseRecOn with
  | nil =>
      refine ⟨rfl, ?_, List.nodup_nil, ?_, ?_⟩
      · intro a ha
        cases ha
      · intro _ _ _ hmem
        cases hmem
      · intro _ _ _ hsome
        cases hsome
  | append_singleton done callback ih =>
      rw [StartupProfiler.run_concat]
      cases callback with
      | other callback => exact ih.other callback
      | jitCompilationStarted method => exact ih.jitCompilationStarted method

/-- An app domain has at most one successful insertion. -/
theorem Tried.inserted_le_one (h : Tried env done s) (app_domain_id : AppDomainID) :
    (s.attempts.filter fun a => a.app_domain_id == app_domain_id && a.inserted).length ≤ 1 := by
  have hsub := (List.filter_sublist (l := s.attempts)
    (p := fun a => a.app_domain_id == app_domain_id && a.inserted)).map Attempt.app_domain_id
  have hnodup := h.nodup.sublist hsub
  have hsame : (s.attempts.filter fun a => a.app_domain_id == app_domain_id && a.inserted).map
      Attempt.app_domain_id = List.replicate (s.attempts.filter fun a =>
        a.app_domain_id == app_domain_id && a.inserted).length app_domain_id := by
    refine List.eq_replicate_iff.mpr ⟨List.length_map _, ?_⟩
    intro d hd
    obtain ⟨a, ha, rfl⟩ := List.mem_map.mp hd
    have hmatch := (List.mem_filter.mp ha).2
    rw [Bool.and_eq_true, beq_iff_eq] at hmatch
    exact hmatch.1
  rw [hsame] at hnodup
  exact List.nodup_replicate.mp hnodup

/-- The attempts of an app domain without the loader, after its first call site. -/
theorem Tried.inserted_eq (h : Tried env done s) {app_domain_id : AppDomainID}
    (hloader : ¬LoaderLoaded done app_domain_id) {site : AppDomainID × JITCompilation}
    (hsite : firstSite env done app_domain_id = some site) :
    (∀ a ∈ s.attempts, a.app_domain_id = app_domain_id → a.inserted = false) ↔
      RunILStartupHook site.2.hook = false := by
  have hmem := h.of_some app_domain_id hloader site hsite
  constructor
  · intro hall
    exact hall _ hmem rfl
  · intro hfails a ha heq
    have hsame := List.inj_on_of_nodup_map h.nodup ha hmem heq
    rw [hsame]
    exact hfails

/-- What a call site adds to the attempts. -/
theorem run_site (done : List StartupCallback) {method : JITCompilation}
    {app_domain_id : AppDomainID}
    (hsite : callSite? env (tracked env done) method = some app_domain_id) :
    (StartupProfiler.run env (done ++ [.jitCompilationStarted method])).attempts =
      (StartupProfiler.run env done).attempts ++
        if app_domain_id ∈ (StartupProfiler.run env done).first_jit_compilation_app_domains then []
        else [⟨app_domain_id, method, RunILStartupHook method.hook⟩] := by
  rw [StartupProfiler.run_concat, StartupProfiler.exec, StartupProfiler.JITCompilationStarted_eq,
    (tried_run done).profiler, hsite]
  dsimp only
  split
  · exact (List.append_nil _).symm
  · rfl

end run

/-! ## Runs -/

/-- **The loader is injected once** in a run, exactly if no app domain needs a second attempt. -/
theorem injectsOnce_iff (env : StartupEnvironment) (callbacks : List StartupCallback) :
    InjectsOnce env callbacks ↔ FirstSuffices env callbacks := by
  constructor
  · rintro ⟨-, hattempt⟩ done method hprefix app_domain_id hsite hloader site hfirst
    have htried : Tried env done (StartupProfiler.run env done) := tried_run done
    by_contra hfails
    rw [Bool.not_eq_true] at hfails
    have hall := (htried.inserted_eq hloader hfirst).mpr hfails
    have hmore := hattempt done method hprefix app_domain_id hsite hall hloader
    have htaken := htried.taken _ (htried.of_some app_domain_id hloader site hfirst)
    rw [run_site done hsite, if_pos htaken, List.append_nil] at hmore
    simpa using congrArg List.length hmore
  · intro hsuffices
    refine ⟨(tried_run callbacks).inserted_le_one, ?_⟩
    intro done method hprefix app_domain_id hsite hall hloader
    have htried : Tried env done (StartupProfiler.run env done) := tried_run done
    cases hfirst : firstSite env done app_domain_id with
    | none =>
        have htaken := htried.none_of_none app_domain_id hloader hfirst
        rw [run_site done hsite, if_neg htaken]
    | some site =>
        have hsucceeds := hsuffices done method hprefix app_domain_id hsite hloader site hfirst
        rw [(htried.inserted_eq hloader hfirst).mp hall] at hsucceeds
        cases hsucceeds

/-- A core runtime in a process of its own. -/
def coreStartup : StartupEnvironment where
  toEnvironment := coreEnvironment
  process_name := "application"

/-- The modules of an application, and a method of it that cannot be imported. -/
def failedRun : List StartupCallback :=
  let corlib := assemblyNamed 1 "System.Private.CoreLib" { major := 5 }
  let application := assemblyNamed 3 "Application" { major := 1 }
  [.other (.moduleLoadFinished ⟨1, corlib, false⟩ true {}),
    .other (.moduleLoadFinished ⟨3, application, false⟩ true {}),
    .jitCompilationStarted
      { module_id := 3
        caller := ⟨1, "Main", "Program"⟩
        hook := { imported := false } }]

/-- The next method of the application. -/
def nextMethod : JITCompilation where
  module_id := 3
  caller := ⟨2, "Run", "Program"⟩

/-- After a method that cannot be imported no other method gets the hook. -/
theorem not_injectsOnce_failedRun :
    ¬InjectsOnce coreStartup (failedRun ++ [.jitCompilationStarted nextMethod]) := by
  rintro ⟨-, hattempt⟩
  have hsite : callSite? coreStartup (tracked coreStartup failedRun) nextMethod = some 1 := by
    decide +kernel
  have hfailed : ∀ a ∈ (StartupProfiler.run coreStartup failedRun).attempts,
      a.app_domain_id = 1 → a.inserted = false := by
    decide +kernel
  have hloader : ¬LoaderLoaded failedRun 1 := by
    simp [LoaderLoaded, LoadsLoader, failedRun, assemblyNamed, loader_name]
  have hmore := hattempt failedRun nextMethod (List.prefix_refl _) 1 hsite hfailed hloader
  exact absurd hmore (by decide +kernel)

end DdTrace.Profiler
