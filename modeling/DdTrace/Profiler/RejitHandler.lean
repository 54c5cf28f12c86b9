import DdTrace.Lib.Run
import DdTrace.Profiler.RejitRequests

/-!
# The ReJIT of the methods of loaded modules

The callbacks of the runtime come on several threads; those that change the modules hold
`module_id_to_info_map_lock_`, and another thread takes the requests out of a queue.

* `Action`: the callbacks, cut where a lock is released, and the thread of the queue.
* `Event`: what is enqueued, requested and rewritten, in order.
* `requests_delivered`: what was enqueued is requested, in order and once.
* `rewritten_as_requested`: a method is rewritten exactly if it was requested for its module, and as
  its last request says.

Sources: `rejit_handler.cpp`; `rejit_handler.h`; `util.h`, `UniqueBlockingQueue`; `cor_profiler.cpp`,
`ModuleLoadFinished`, `ModuleUnloadStarted`, `GetReJITParameters`, `JITInlining`, `Shutdown`,
`ProfilerDetachSucceeded`.
-/

namespace DdTrace.Profiler.Rejit

open DdTrace.Lib

/-! ## Data -/

/-- Source: `rejit_handler.h`, `RejitItem` -/
structure RejitItem where
  m_length : Int
  m_modulesId : List ModuleID
  m_methodDefs : List mdMethodDef
  deriving DecidableEq, Repr

/-- Source: `rejit_handler.cpp`, `RejitItem::CreateEndRejitThread` -/
def RejitItem.CreateEndRejitThread : RejitItem := ⟨-1, [], []⟩

/-- The item that is pushed; its length is converted to `int`.
Source: `rejit_handler.cpp`, `RejitHandler::EnqueueForRejit` -/
def EnqueueForRejit (modulesVector : List ModuleID) (modulesMethodDef : List mdMethodDef) :
    RejitItem :=
  ⟨(modulesMethodDef.length : Int).bmod (2 ^ 32), modulesVector, modulesMethodDef⟩

/-- A pointer to the metadata of a module. -/
abbrev MetadataRef := Nat

/-- Source: `rejit_handler.h`, `RejitHandlerModule` -/
structure HandlerModule where
  m_metadata : Option MetadataRef := none
  m_methods : RejitHandlerModule := ∅

/-- A call of `GetReJITParameters` that has not come to its end, with the metadata once it was found. -/
structure Parameters where
  moduleId : ModuleID
  methodId : mdMethodDef
  pFunctionControl : Option Nat
  metadata : Option MetadataRef
  deriving DecidableEq, Repr

/-- The members that have to do with the ReJIT.
Source: `cor_profiler.h`, `CorProfiler`; `rejit_handler.h`, `RejitHandler` -/
structure CorProfiler where
  is_attached_ : Bool := true
  /-- The metadata of the modules, as it was made. -/
  metadata : List ModuleMetadata := []
  deleted : List MetadataRef := []
  module_id_to_info_map_ : Dictionary ModuleID MetadataRef := ∅
  /-- `rejit_handler` is not null. -/
  rejit_handler : Bool := true
  m_modules : Dictionary ModuleID HandlerModule := ∅
  m_rejit_queue : List RejitItem := []
  /-- The thread of the queue has not come to its end. -/
  threadRuns : Bool := true
  /-- `Shutdown` holds the lock and waits for the thread. -/
  joining : Bool := false
  calls : List Parameters := []

/-- The integrations, and the bound for the names of types. -/
structure Environment where
  fuel : Nat
  filtered_integrations : List IntegrationMethod

/-- What happens, up to the next place where another thread can run. -/
inductive Action where
  /-- `ModuleLoadFinished`, for a module of which the metadata is stored. -/
  | moduleLoadFinished (module_id : ModuleID) (module_metadata : ModuleMetadata)
  | moduleUnloadStarted (module_id : ModuleID)
  /-- `GetReJITParameters`, its first check. -/
  | getReJITParameters (moduleId : ModuleID) (methodId : mdMethodDef) (pFunctionControl : Option Nat)
  /-- The same, under the lock. -/
  | findMetadata (call : Nat)
  /-- The same, behind the lock: `NotifyReJITParameters`. -/
  | notifyReJITParameters (call : Nat)
  /-- One round of `EnqueueThreadLoop`. -/
  | enqueueThreadLoop
  /-- `Shutdown`, up to the join. -/
  | shutdown
  /-- The same, behind the join. -/
  | joined
  | profilerDetachSucceeded

/-- What can be seen of an action. -/
inductive Event where
  /-- The requests of a module were stored, and their item was pushed. -/
  | enqueued (module_id : ModuleID) (requests : List Request) (item : RejitItem)
  /-- `RequestReJIT`. -/
  | requested (item : RejitItem)
  /-- `m_rewriteCallback`. -/
  | rewritten (moduleId : ModuleID) (methodDef : mdMethodDef) (pFunctionControl : Nat)
      (functionInfo : FunctionInfo) (methodReplacement : MethodReplacement) (metadata : MetadataRef)
  /-- The handler has forgotten a module. -/
  | removed (module_id : ModuleID)
  /-- The handler has forgotten all modules. -/
  | cleared

/-! ## Actions -/

/-- `mdMethodDefNil`. -/
def mdMethodDefNil : mdMethodDef := 0x06000000

namespace CorProfiler

/-- Source: `cor_profiler.cpp`, `CorProfiler::ModuleLoadFinished`, from where the metadata is stored;
`CorProfiler::CallTarget_RequestRejitForModule` -/
def moduleLoadFinished (env : Environment) (p : CorProfiler) (module_id : ModuleID)
    (module_metadata : ModuleMetadata) : Option (CorProfiler × List Event) :=
  if !p.is_attached_ then some (p, [])
  else if p.joining then none
  else
    let ref := p.metadata.length
    let handler := (p.m_modules.lookup module_id).getD {}
    match requestsOf env.fuel module_metadata env.filtered_integrations,
        CallTarget_RequestRejitForModule env.fuel module_metadata env.filtered_integrations
          handler.m_methods with
    | .ok requests, .ok (methods, vtMethodDefs) =>
        let p := { p with
          metadata := p.metadata ++ [module_metadata]
          module_id_to_info_map_ := p.module_id_to_info_map_.insert module_id ref }
        if vtMethodDefs.isEmpty then some (p, [])
        else if !p.rejit_handler then none
        else
          let item := EnqueueForRejit (vtMethodDefs.map fun _ => module_id) vtMethodDefs
          some ({ p with
            m_modules := p.m_modules.insert module_id ⟨some ref, methods⟩
            m_rejit_queue := p.m_rejit_queue ++ [item] }, [.enqueued module_id requests item])
    | _, _ => none

/-- Source: `cor_profiler.cpp`, `CorProfiler::ModuleUnloadStarted`; `rejit_handler.cpp`,
`RejitHandler::RemoveModule` -/
def moduleUnloadStarted (p : CorProfiler) (module_id : ModuleID) : Option (CorProfiler × List Event) :=
  if !p.is_attached_ then some (p, [])
  else if p.joining then none
  else
    match p.module_id_to_info_map_.lookup module_id with
    | none => some (p, [])
    | some metadata =>
        some ({ p with
          deleted := metadata :: p.deleted
          module_id_to_info_map_ := p.module_id_to_info_map_.erase module_id
          m_modules := p.m_modules.erase module_id }, [.removed module_id])

/-- Source: `cor_profiler.cpp`, `CorProfiler::GetReJITParameters`, the lookup -/
def findMetadata (p : CorProfiler) (call : Nat) : Option (CorProfiler × List Event) :=
  if p.joining then none
  else
    match p.calls[call]? with
    | some c =>
        if c.metadata.isSome then none
        else
          match p.module_id_to_info_map_.lookup c.moduleId with
          | some metadata =>
              some ({ p with calls := p.calls.set call { c with metadata := some metadata } }, [])
          | none => some ({ p with calls := p.calls.eraseIdx call }, [])
    | none => none

/-- The callback, if all that it needs is there.
Source: `rejit_handler.cpp`, `RejitHandler::NotifyReJITParameters`, the checks -/
def callback (moduleId : ModuleID) (methodDef : mdMethodDef) (method : RejitHandlerModuleMethod)
    (metadata : Option MetadataRef) : List Event :=
  if methodDef = mdMethodDefNil then []
  else
    match method.functionControl, method.functionInfo, method.methodReplacement with
    | some pFunctionControl, some functionInfo, some methodReplacement =>
        if moduleId = 0 then []
        else
          match metadata with
          | none => []
          | some metadata =>
              [.rewritten moduleId methodDef pFunctionControl functionInfo methodReplacement metadata]
    | _, _, _ => []

/-- The handler is called through its pointer, which must not be null.
Source: `rejit_handler.cpp`, `RejitHandler::NotifyReJITParameters` -/
def notifyReJITParameters (p : CorProfiler) (call : Nat) : Option (CorProfiler × List Event) :=
  if !p.rejit_handler then none
  else
    match p.calls[call]? with
    | some c =>
        if c.metadata.isNone then none
        else
          let moduleHandler := (p.m_modules.lookup c.moduleId).getD {}
          let added := GetOrAddMethod moduleHandler.m_methods c.methodId
          let methodHandler := { added.2 with functionControl := c.pFunctionControl }
          some ({ p with
            m_modules := p.m_modules.insert c.moduleId
              ⟨c.metadata, added.1.insert c.methodId methodHandler⟩
            calls := p.calls.eraseIdx call },
            callback c.moduleId c.methodId methodHandler c.metadata)
    | none => none

/-- Source: `rejit_handler.cpp`, `RejitHandler::EnqueueThreadLoop`; `util.h`,
`UniqueBlockingQueue::pop` -/
def enqueueThreadLoop (p : CorProfiler) : Option (CorProfiler × List Event) :=
  if !p.threadRuns then none
  else
    match p.m_rejit_queue with
    | [] => none
    | item :: queue =>
        if item.m_length = -1 then some ({ p with threadRuns := false, m_rejit_queue := queue }, [])
        else some ({ p with m_rejit_queue := queue }, [.requested item])

/-- Source: `cor_profiler.cpp`, `CorProfiler::Shutdown`; `rejit_handler.cpp`,
`RejitHandler::Shutdown`, up to the join -/
def shutdown (p : CorProfiler) : Option (CorProfiler × List Event) :=
  if p.joining then none
  else if p.rejit_handler then
    some ({ p with
      m_rejit_queue := p.m_rejit_queue ++ [RejitItem.CreateEndRejitThread]
      joining := true }, [])
  else some ({ p with is_attached_ := false }, [])

/-- Source: `rejit_handler.cpp`, `RejitHandler::Shutdown`, from the join on; `cor_profiler.cpp`,
`CorProfiler::Shutdown` -/
def joined (p : CorProfiler) : Option (CorProfiler × List Event) :=
  if p.joining = true ∧ p.threadRuns = false then
    some ({ p with
      m_modules := ∅, rejit_handler := false, is_attached_ := false, joining := false }, [.cleared])
  else none

/-- `none` is a step that is blocked, or that is undefined. -/
def step (env : Environment) (p : CorProfiler) : Action → Option (CorProfiler × List Event)
  | .moduleLoadFinished module_id module_metadata =>
      p.moduleLoadFinished env module_id module_metadata
  | .moduleUnloadStarted module_id => p.moduleUnloadStarted module_id
  | .getReJITParameters moduleId methodId pFunctionControl =>
      if !p.is_attached_ then some (p, [])
      else some ({ p with calls := p.calls ++ [⟨moduleId, methodId, pFunctionControl, none⟩] }, [])
  | .findMetadata call => p.findMetadata call
  | .notifyReJITParameters call => p.notifyReJITParameters call
  | .enqueueThreadLoop => p.enqueueThreadLoop
  | .shutdown => p.shutdown
  | .joined => p.joined
  | .profilerDetachSucceeded =>
      if !p.is_attached_ then some (p, [])
      else if p.joining then none
      else some ({ p with is_attached_ := false }, [])

/-- `*pfShouldInline`, if it is set, where the runtime gives the information of the method.
Source: `cor_profiler.cpp`, `CorProfiler::JITInlining`; `rejit_handler.cpp`,
`RejitHandler::TryGetModule`, `RejitHandlerModule::ContainsMethod` -/
def JITInlining (p : CorProfiler) (calleeModuleId : ModuleID) (calleFunctionToken : mdMethodDef) :
    Option Bool :=
  if !p.is_attached_ || !p.rejit_handler then none
  else
    match p.m_modules.lookup calleeModuleId with
    | none => some true
    | some handlerModule => some (handlerModule.m_methods.lookup calleFunctionToken).isNone

end CorProfiler

/-! ## What the actions do -/

/-- The item of the requests of a module. -/
def itemOf (module_id : ModuleID) (requests : List Request) : RejitItem :=
  EnqueueForRejit (requests.map fun _ => module_id) (requests.map Request.methodDef)

namespace CorProfiler

variable {env : Environment} {p p' : CorProfiler} {new : List Event}

/-- The module handler of a module, as `GetOrAddModule` returns it. -/
def handlerModule (p : CorProfiler) (module_id : ModuleID) : HandlerModule :=
  (p.m_modules.lookup module_id).getD {}

/-- The state in which the metadata of a module is stored. -/
def withMetadata (p : CorProfiler) (module_id : ModuleID) (m : ModuleMetadata) : CorProfiler :=
  { p with
    metadata := p.metadata ++ [m]
    module_id_to_info_map_ := p.module_id_to_info_map_.insert module_id p.metadata.length }

/-- The state in which the requests of a module are stored and enqueued. -/
def withRequests (p : CorProfiler) (module_id : ModuleID) (ref : MetadataRef)
    (requests : List Request) : CorProfiler :=
  { p with
    m_modules := p.m_modules.insert module_id
      ⟨some ref, requests.foldl store (p.handlerModule module_id).m_methods⟩
    m_rejit_queue := p.m_rejit_queue ++ [itemOf module_id requests] }

/-- **A module is loaded**: nothing is done, or its requests are stored and enqueued. -/
theorem moduleLoadFinished_cases {module_id : ModuleID} {m : ModuleMetadata}
    (h : p.moduleLoadFinished env module_id m = some (p', new)) :
    p' = p ∧ new = [] ∨
      p.is_attached_ = true ∧ p.joining = false ∧ ∃ requests,
        requestsOf env.fuel m env.filtered_integrations = .ok requests ∧
        (requests = [] ∧ p' = p.withMetadata module_id m ∧ new = [] ∨
          requests ≠ [] ∧ p.rejit_handler = true ∧
            p' = (p.withMetadata module_id m).withRequests module_id p.metadata.length requests ∧
            new = [.enqueued module_id requests (itemOf module_id requests)]) := by
  rw [moduleLoadFinished] at h
  split at h
  case isTrue =>
    obtain ⟨rfl, rfl⟩ := Prod.mk.inj (Option.some.inj h)
    exact Or.inl ⟨rfl, rfl⟩
  case isFalse hattached =>
    split at h
    case isTrue => cases h
    case isFalse hjoining =>
      refine Or.inr ⟨by simpa using hattached, by simpa using hjoining, ?_⟩
      simp only [request_eq] at h
      cases hrequests : requestsOf env.fuel m env.filtered_integrations with
      | error e =>
          rw [hrequests] at h
          cases h
      | ok requests =>
          rw [hrequests] at h
          refine ⟨requests, rfl, ?_⟩
          cases requests with
          | nil =>
              obtain ⟨rfl, rfl⟩ := Prod.mk.inj (Option.some.inj h)
              exact Or.inl ⟨rfl, rfl, rfl⟩
          | cons r requests =>
              replace h : (if !p.rejit_handler then none else _) = some (p', new) := h
              split at h
              case isTrue => cases h
              case isFalse hhandler =>
              obtain ⟨rfl, rfl⟩ := Prod.mk.inj (Option.some.inj h)
              have hitem : EnqueueForRejit (((r :: requests).map Request.methodDef).map fun _ => module_id)
                  ((r :: requests).map Request.methodDef) = itemOf module_id (r :: requests) := by
                rw [itemOf, List.map_map]
                rfl
              refine Or.inr ⟨List.cons_ne_nil _ _, by simpa using hhandler, ?_, ?_⟩
              · rw [withRequests, ← hitem]
                rfl
              · rw [← hitem]
                rfl

/-- What is stored for a method that the runtime asks about. -/
def withControl (p : CorProfiler) (call : Nat) (c : Parameters) : CorProfiler :=
  let added := GetOrAddMethod (p.handlerModule c.moduleId).m_methods c.methodId
  { p with
    m_modules := p.m_modules.insert c.moduleId ⟨c.metadata,
      added.1.insert c.methodId { added.2 with functionControl := c.pFunctionControl }⟩
    calls := p.calls.eraseIdx call }

/-- The callback for a method that the runtime asks about. -/
def callbackOf (p : CorProfiler) (c : Parameters) : List Event :=
  callback c.moduleId c.methodId
    { (GetOrAddMethod (p.handlerModule c.moduleId).m_methods c.methodId).2 with
      functionControl := c.pFunctionControl } c.metadata

/-- What an action can do. -/
inductive Effect (env : Environment) (p : CorProfiler) :
    Action → CorProfiler → List Event → Prop
  | idle (a : Action) : Effect env p a p []
  | metadata (a : Action) (module_id : ModuleID) (m : ModuleMetadata) :
      Effect env p a (p.withMetadata module_id m) []
  | enqueued (module_id : ModuleID) (m : ModuleMetadata) (requests : List Request)
      (hjoining : p.joining = false) (hhandler : p.rejit_handler = true)
      (hrequests : requestsOf env.fuel m env.filtered_integrations = .ok requests) :
      Effect env p (.moduleLoadFinished module_id m)
        ((p.withMetadata module_id m).withRequests module_id p.metadata.length requests)
        [.enqueued module_id requests (itemOf module_id requests)]
  | removed (a : Action) (module_id : ModuleID) (metadata : MetadataRef) :
      Effect env p a { p with
        deleted := metadata :: p.deleted
        module_id_to_info_map_ := p.module_id_to_info_map_.erase module_id
        m_modules := p.m_modules.erase module_id } [.removed module_id]
  | calls (a : Action) (calls : List Parameters) : Effect env p a { p with calls := calls } []
  | notified (a : Action) (call : Nat) (c : Parameters) :
      Effect env p a (p.withControl call c) (p.callbackOf c)
  | ended (a : Action) (item : RejitItem) (queue : List RejitItem) (hruns : p.threadRuns = true)
      (hqueue : p.m_rejit_queue = item :: queue) (hitem : item.m_length = -1) :
      Effect env p a { p with threadRuns := false, m_rejit_queue := queue } []
  | requested (a : Action) (item : RejitItem) (queue : List RejitItem) (hruns : p.threadRuns = true)
      (hqueue : p.m_rejit_queue = item :: queue) (hitem : item.m_length ≠ -1) :
      Effect env p a { p with m_rejit_queue := queue } [.requested item]
  | shutdown (a : Action) (hjoining : p.joining = false) (hhandler : p.rejit_handler = true) :
      Effect env p a { p with
        m_rejit_queue := p.m_rejit_queue ++ [RejitItem.CreateEndRejitThread], joining := true } []
  | detached (a : Action) : Effect env p a { p with is_attached_ := false } []
  | joined (a : Action) (hjoining : p.joining = true) (hruns : p.threadRuns = false) :
      Effect env p a { p with
        m_modules := ∅, rejit_handler := false, is_attached_ := false, joining := false } [.cleared]

/-- **What an action does.** -/
theorem effect_of_step {a : Action} (h : p.step env a = some (p', new)) :
    Effect env p a p' new := by
  cases a with
  | moduleLoadFinished module_id m =>
      obtain ⟨rfl, rfl⟩ | ⟨-, hjoining, requests, hrequests,
        ⟨-, rfl, rfl⟩ | ⟨-, hhandler, rfl, rfl⟩⟩ := moduleLoadFinished_cases h
      · exact .idle _
      · exact .metadata _ module_id m
      · exact .enqueued module_id m requests hjoining hhandler hrequests
  | moduleUnloadStarted module_id =>
      rw [step, moduleUnloadStarted] at h
      split at h
      case isTrue =>
        obtain ⟨rfl, rfl⟩ := Prod.mk.inj (Option.some.inj h)
        exact .idle _
      case isFalse =>
        split at h
        case isTrue => cases h
        case isFalse =>
          split at h
          case h_1 =>
            obtain ⟨rfl, rfl⟩ := Prod.mk.inj (Option.some.inj h)
            exact .idle _
          case h_2 metadata _ =>
            obtain ⟨rfl, rfl⟩ := Prod.mk.inj (Option.some.inj h)
            exact .removed _ module_id metadata
  | getReJITParameters moduleId methodId pFunctionControl =>
      rw [step] at h
      split at h
      case isTrue =>
        obtain ⟨rfl, rfl⟩ := Prod.mk.inj (Option.some.inj h)
        exact .idle _
      case isFalse =>
        obtain ⟨rfl, rfl⟩ := Prod.mk.inj (Option.some.inj h)
        exact .calls _ _
  | findMetadata call =>
      rw [step, findMetadata] at h
      split at h
      case isTrue => cases h
      case isFalse =>
        split at h
        case h_2 => cases h
        case h_1 c _ =>
          split at h
          case isTrue => cases h
          case isFalse =>
            split at h
            case h_1 metadata _ =>
              obtain ⟨rfl, rfl⟩ := Prod.mk.inj (Option.some.inj h)
              exact .calls _ _
            case h_2 =>
              obtain ⟨rfl, rfl⟩ := Prod.mk.inj (Option.some.inj h)
              exact .calls _ _
  | notifyReJITParameters call =>
      rw [step, notifyReJITParameters] at h
      split at h
      case isTrue => cases h
      case isFalse =>
        split at h
        case h_2 => cases h
        case h_1 c _ =>
          split at h
          case isTrue => cases h
          case isFalse =>
            obtain ⟨rfl, rfl⟩ := Prod.mk.inj (Option.some.inj h)
            exact .notified _ call c
  | enqueueThreadLoop =>
      rw [step, enqueueThreadLoop] at h
      split at h
      case isTrue => cases h
      case isFalse hruns =>
        have hruns : p.threadRuns = true := by simpa using hruns
        split at h
        case h_1 => cases h
        case h_2 item queue hqueue =>
          split at h
          case isTrue hitem =>
            obtain ⟨rfl, rfl⟩ := Prod.mk.inj (Option.some.inj h)
            exact .ended _ item queue hruns hqueue hitem
          case isFalse hitem =>
            obtain ⟨rfl, rfl⟩ := Prod.mk.inj (Option.some.inj h)
            exact .requested _ item queue hruns hqueue hitem
  | shutdown =>
      rw [step, CorProfiler.shutdown] at h
      split at h
      case isTrue => cases h
      case isFalse hjoining =>
        split at h
        case isTrue hhandler =>
          obtain ⟨rfl, rfl⟩ := Prod.mk.inj (Option.some.inj h)
          exact .shutdown _ (by simpa using hjoining) hhandler
        case isFalse =>
          obtain ⟨rfl, rfl⟩ := Prod.mk.inj (Option.some.inj h)
          exact .detached _
  | joined =>
      rw [step, CorProfiler.joined] at h
      split at h
      case isTrue hboth =>
        obtain ⟨rfl, rfl⟩ := Prod.mk.inj (Option.some.inj h)
        exact .joined _ hboth.1 hboth.2
      case isFalse => cases h
  | profilerDetachSucceeded =>
      rw [step] at h
      split at h
      case isTrue =>
        obtain ⟨rfl, rfl⟩ := Prod.mk.inj (Option.some.inj h)
        exact .idle _
      case isFalse =>
        split at h
        case isTrue => cases h
        case isFalse =>
          obtain ⟨rfl, rfl⟩ := Prod.mk.inj (Option.some.inj h)
          exact .detached _

end CorProfiler

/-! ## The requests -/

/-- The items that were pushed. -/
def enqueuedItems (out : List Event) : List RejitItem :=
  out.filterMap fun
    | .enqueued _ _ item => some item
    | _ => none

/-- The items that `RequestReJIT` was called for. -/
def requestedItems (out : List Event) : List RejitItem :=
  out.filterMap fun
    | .requested item => some item
    | _ => none

/-- The item that tells the thread to end comes after all others. -/
def CorProfiler.lastItem (p : CorProfiler) : List RejitItem :=
  if p.joining = true ∧ p.threadRuns = true then [.CreateEndRejitThread] else []

/-- The queue, with the items `q` that are pushed and not requested. -/
structure Queued (out : List Event) (p : CorProfiler) (q : List RejitItem) : Prop where
  items : enqueuedItems out = requestedItems out ++ q
  length_ne : ∀ item ∈ q, item.m_length ≠ -1
  queue : p.m_rejit_queue = q ++ p.lastItem
  ended : p.threadRuns = false → q = [] ∧ (p.joining = true ∨ p.rejit_handler = false)
  deleted : p.rejit_handler = false →
    p.threadRuns = false ∧ p.is_attached_ = false ∧ p.joining = false

/-- The requests of a module that is loaded are not so many that their number is converted to the
length of the last item. -/
def Fits (env : Environment) (_ : CorProfiler) : Action → Prop
  | .moduleLoadFinished _ module_metadata => ∀ requests,
      requestsOf env.fuel module_metadata env.filtered_integrations = .ok requests →
        (requests.length : Int).bmod (2 ^ 32) ≠ -1
  | _ => True

section queue

variable {env : Environment} {p p' : CorProfiler} {out new : List Event} {q : List RejitItem}

/-- A step that leaves the queue alone. -/
theorem Queued.same (h : Queued out p q) (hqueue : p'.m_rejit_queue = p.m_rejit_queue)
    (hruns : p'.threadRuns = p.threadRuns) (hjoining : p'.joining = p.joining)
    (hhandler : p'.rejit_handler = p.rejit_handler)
    (hattached : p.is_attached_ = false → p'.is_attached_ = false)
    (henqueued : enqueuedItems new = []) (hrequested : requestedItems new = []) :
    Queued (out ++ new) p' q := by
  refine ⟨?_, h.length_ne, ?_, ?_, ?_⟩
  · rw [enqueuedItems, requestedItems, List.filterMap_append, List.filterMap_append]
    show enqueuedItems out ++ enqueuedItems new = requestedItems out ++ requestedItems new ++ q
    rw [henqueued, hrequested, List.append_nil, List.append_nil]
    exact h.items
  · rw [hqueue, h.queue, CorProfiler.lastItem, CorProfiler.lastItem, hruns, hjoining]
  · rw [hruns, hjoining, hhandler]
    exact h.ended
  · rw [hruns, hjoining, hhandler]
    exact fun hgone => ⟨(h.deleted hgone).1, hattached (h.deleted hgone).2.1, (h.deleted hgone).2.2⟩

/-- While the profiler is attached and does not end, the thread runs. -/
theorem Queued.lastItem_nil (h : Queued out p q) (hjoining : p.joining = false)
    (hhandler : p.rejit_handler = true) : p.threadRuns = true ∧ p.lastItem = [] := by
  refine ⟨?_, if_neg fun hboth => ?_⟩
  · cases hruns : p.threadRuns with
    | true => rfl
    | false =>
        rcases (h.ended hruns).2 with hj | hh
        · exact absurd (hjoining.symm.trans hj) Bool.false_ne_true
        · exact absurd (hh.symm.trans hhandler) Bool.false_ne_true
  · exact absurd (hjoining.symm.trans hboth.1) Bool.false_ne_true

theorem enqueuedItems_append (out new : List Event) :
    enqueuedItems (out ++ new) = enqueuedItems out ++ enqueuedItems new := List.filterMap_append

theorem requestedItems_append (out new : List Event) :
    requestedItems (out ++ new) = requestedItems out ++ requestedItems new := List.filterMap_append

/-- The callback is no request. -/
theorem callbackOf_cases (p : CorProfiler) (c : Parameters) :
    p.callbackOf c = [] ∨ ∃ pFunctionControl functionInfo methodReplacement metadata,
      p.callbackOf c = [.rewritten c.moduleId c.methodId pFunctionControl functionInfo
        methodReplacement metadata] := by
  rw [CorProfiler.callbackOf, CorProfiler.callback]
  repeat' split
  all_goals first
    | exact Or.inl rfl
    | exact Or.inr ⟨_, _, _, _, rfl⟩

/-- **Every action** keeps what is pushed in order, and once. -/
theorem Queued.step (h : Queued out p q) {a : Action} (hfits : Fits env p a)
    (hstep : p.step env a = some (p', new)) : ∃ q', Queued (out ++ new) p' q' := by
  cases CorProfiler.effect_of_step hstep with
  | idle => exact ⟨q, h.same rfl rfl rfl rfl id rfl rfl⟩
  | metadata => exact ⟨q, h.same rfl rfl rfl rfl id rfl rfl⟩
  | removed => exact ⟨q, h.same rfl rfl rfl rfl id rfl rfl⟩
  | calls => exact ⟨q, h.same rfl rfl rfl rfl id rfl rfl⟩
  | detached => exact ⟨q, h.same rfl rfl rfl rfl (fun _ => rfl) rfl rfl⟩
  | notified _ call c =>
      refine ⟨q, h.same rfl rfl rfl rfl id ?_ ?_⟩
      · rcases callbackOf_cases p c with hnone | ⟨_, _, _, _, hone⟩
        · rw [hnone]
          rfl
        · rw [hone]
          rfl
      · rcases callbackOf_cases p c with hnone | ⟨_, _, _, _, hone⟩
        · rw [hnone]
          rfl
        · rw [hone]
          rfl
  | enqueued module_id m requests hjoining hhandler hrequests =>
      obtain ⟨hruns, hlast⟩ := h.lastItem_nil hjoining hhandler
      refine ⟨q ++ [itemOf module_id requests], ?_, ?_, ?_, ?_, ?_⟩
      · have henqueued : enqueuedItems [.enqueued module_id requests (itemOf module_id requests)] =
            [itemOf module_id requests] := rfl
        have hrequested : requestedItems [.enqueued module_id requests (itemOf module_id requests)] =
            [] := rfl
        rw [enqueuedItems_append, requestedItems_append, h.items, henqueued, hrequested,
          List.append_nil, List.append_assoc]
      · refine List.forall_mem_append.mpr ⟨h.length_ne, List.forall_mem_singleton.mpr ?_⟩
        unfold itemOf EnqueueForRejit
        simp only [List.length_map]
        exact hfits requests hrequests
      · show p.m_rejit_queue ++ [itemOf module_id requests] = _
        rw [h.queue, hlast, List.append_nil]
        show _ = q ++ [itemOf module_id requests] ++ p.lastItem
        rw [hlast, List.append_nil]
      · exact fun hended => absurd (hended.symm.trans hruns) Bool.false_ne_true
      · exact fun hgone => absurd (hgone.symm.trans hhandler) Bool.false_ne_true
  | ended _ item queue hruns hqueue hitem =>
      have hlast : q = [] ∧ p.joining = true ∧ queue = [] := by
        have hq := h.queue
        rw [hqueue] at hq
        cases q with
        | nil =>
            rw [List.nil_append, CorProfiler.lastItem] at hq
            split at hq
            case isTrue hboth => exact ⟨rfl, hboth.1, (List.cons.inj hq).2⟩
            case isFalse => cases hq
        | cons first rest =>
            obtain rfl := (List.cons.inj hq).1
            exact absurd hitem (h.length_ne _ List.mem_cons_self)
      obtain ⟨rfl, hjoining, rfl⟩ := hlast
      refine ⟨[], ?_, List.forall_mem_nil _, ?_, fun _ => ⟨rfl, Or.inl hjoining⟩, fun hgone => ?_⟩
      · rw [List.append_nil]
        exact h.items
      · exact (if_neg fun hboth => Bool.false_ne_true hboth.2).symm
      · exact absurd ((h.deleted hgone).1.symm.trans hruns) Bool.false_ne_true
  | requested _ item queue hruns hqueue hitem =>
      have hfirst : ∃ rest, q = item :: rest ∧ queue = rest ++ p.lastItem := by
        have hq := h.queue
        rw [hqueue] at hq
        cases q with
        | nil =>
            rw [List.nil_append, CorProfiler.lastItem] at hq
            split at hq
            case isTrue => exact absurd (congrArg RejitItem.m_length (List.cons.inj hq).1) hitem
            case isFalse => cases hq
        | cons first rest =>
            obtain ⟨rfl, rfl⟩ := List.cons.inj hq
            exact ⟨rest, rfl, rfl⟩
      obtain ⟨rest, rfl, rfl⟩ := hfirst
      refine ⟨rest, ?_, fun i hi => h.length_ne i (List.mem_cons_of_mem _ hi), rfl, ?_, h.deleted⟩
      · have henqueued : enqueuedItems [.requested item] = [] := rfl
        have hrequested : requestedItems [.requested item] = [item] := rfl
        rw [enqueuedItems_append, requestedItems_append, h.items, henqueued, hrequested,
          List.append_nil, List.append_assoc, List.singleton_append]
      · exact fun hended => absurd (hended.symm.trans hruns) Bool.false_ne_true
  | shutdown _ hjoining hhandler =>
      obtain ⟨hruns, hlast⟩ := h.lastItem_nil hjoining hhandler
      refine ⟨q, ?_, h.length_ne, ?_, ?_, ?_⟩
      · rw [List.append_nil]
        exact h.items
      · rw [h.queue, hlast, List.append_nil]
        exact congrArg (q ++ ·) (if_pos ⟨rfl, hruns⟩).symm
      · exact fun hended => absurd (hended.symm.trans hruns) Bool.false_ne_true
      · exact fun hgone => absurd (hgone.symm.trans hhandler) Bool.false_ne_true
  | joined _ hjoining hruns =>
      obtain ⟨rfl, -⟩ := h.ended hruns
      refine ⟨[], ?_, h.length_ne, ?_, fun _ => ⟨rfl, Or.inr rfl⟩, fun _ => ⟨hruns, rfl, rfl⟩⟩
      · have henqueued : enqueuedItems [.cleared] = [] := rfl
        have hrequested : requestedItems [.cleared] = [] := rfl
        rw [enqueuedItems_append, requestedItems_append, h.items, henqueued, hrequested,
          List.append_nil, List.append_nil]
      · refine h.queue.trans (congrArg ([] ++ ·) ?_)
        rw [CorProfiler.lastItem, if_neg fun hboth => Bool.false_ne_true (hruns.symm.trans hboth.2)]
        exact (if_neg fun hboth : false = true ∧ _ => Bool.false_ne_true hboth.1).symm

/-- The items are those of the requests. -/
theorem item_eq_of_step {a : Action} (hstep : p.step env a = some (p', new)) {module_id : ModuleID}
    {requests : List Request} {item : RejitItem} (h : .enqueued module_id requests item ∈ new) :
    item = itemOf module_id requests := by
  cases CorProfiler.effect_of_step hstep with
  | enqueued =>
      obtain ⟨hmodule, hrequests, hitem⟩ := Event.enqueued.inj (List.mem_singleton.mp h)
      rw [hitem, hmodule, hrequests]
  | notified _ call c =>
      rcases callbackOf_cases p c with hnone | ⟨_, _, _, _, hone⟩
      · rw [hnone] at h
        cases h
      · rw [hone] at h
        cases List.mem_singleton.mp h
  | requested => cases List.mem_singleton.mp h
  | removed => cases List.mem_singleton.mp h
  | joined => cases List.mem_singleton.mp h
  | idle => cases h
  | metadata => cases h
  | calls => cases h
  | ended => cases h
  | shutdown => cases h
  | detached => cases h

/-- **The requests are delivered.** Whatever the order in which the callbacks and the thread of the
queue run: the items that `RequestReJIT` was called for are the ones that were pushed, in order, each
once; the thread can always request the next one, or end when it has been told to; and when it has
ended, it has requested all of them. -/
theorem requests_delivered (env : Environment) {actions : List Action}
    (hfits : AllSteps (CorProfiler.step env) (Fits env) {} actions)
    (hrun : runOut (CorProfiler.step env) {} actions = some (p, out)) :
    requestedItems out <+: enqueuedItems out ∧
      (∀ module_id requests item, .enqueued module_id requests item ∈ out →
        item = itemOf module_id requests) ∧
      (∀ item, requestedItems out ++ [item] <+: enqueuedItems out →
        ∃ p', p.step env .enqueueThreadLoop = some (p', [.requested item])) ∧
      (requestedItems out = enqueuedItems out → p.joining = true → p.threadRuns = true →
        ∃ p', p.step env .enqueueThreadLoop = some (p', []) ∧ p'.threadRuns = false) ∧
      (p.threadRuns = false → requestedItems out = enqueuedItems out) := by
  have hstart : Queued [] {} [] :=
    ⟨rfl, List.forall_mem_nil _, rfl, (fun h => by cases h), (fun h => by cases h)⟩
  obtain ⟨⟨q, h⟩, hitems⟩ := runOut_keeps
    (I := fun out (p : CorProfiler) => (∃ q, Queued out p q) ∧
      ∀ module_id requests item, .enqueued module_id requests item ∈ out →
        item = itemOf module_id requests)
    ⟨⟨[], hstart⟩, fun _ _ _ h => by cases h⟩
    (fun out p a p' new h hfits hstep => by
      obtain ⟨⟨q, hq⟩, hitems⟩ := h
      refine ⟨hq.step hfits hstep, fun module_id requests item hmem => ?_⟩
      rcases List.mem_append.mp hmem with hold | hnew
      · exact hitems _ _ _ hold
      · exact item_eq_of_step hstep hnew) hfits hrun
  refine ⟨⟨q, h.items.symm⟩, hitems, fun item hprefix => ?_, fun hall hjoining hruns => ?_,
    fun hended => ?_⟩
  · rw [h.items, List.prefix_append_right_inj] at hprefix
    obtain ⟨rest, rfl⟩ := hprefix
    have hruns : p.threadRuns = true := by
      cases hruns : p.threadRuns with
      | true => rfl
      | false => cases (h.ended hruns).1
    refine ⟨{ p with m_rejit_queue := rest ++ p.lastItem }, ?_⟩
    rw [CorProfiler.step, CorProfiler.enqueueThreadLoop, hruns, h.queue]
    exact if_neg (h.length_ne item List.mem_cons_self)
  · have hq : q = [] := by
      rw [h.items] at hall
      exact List.append_right_eq_self.mp hall.symm
    subst hq
    have hqueue : p.m_rejit_queue = [.CreateEndRejitThread] := by
      rw [h.queue, CorProfiler.lastItem, if_pos ⟨hjoining, hruns⟩]
      rfl
    refine ⟨{ p with threadRuns := false, m_rejit_queue := [] }, ?_, rfl⟩
    rw [CorProfiler.step, CorProfiler.enqueueThreadLoop, hruns, hqueue]
    rfl
  · rw [h.items, (h.ended hended).1, List.append_nil]

/-- A method without arguments, which an integration names. -/
def firstModule : ModuleMetadata where
  assemblyName := ['A']
  version := ⟨1, 0, 0, 0⟩
  metadata_import := ⟨fun _ => ⟨0, []⟩, fun _ => 0⟩
  findTypeDefByName := fun _ _ => some 0x02000001
  enumMethodsWithName := fun _ _ => [0x06000001]
  getFunctionInfo := fun methodDef => ⟨methodDef, ['M'], ⟨0x02000001, ['T']⟩, [0, 0, 1], none⟩
  beyond := fun _ _ => 0

def firstTarget : MethodReference :=
  ⟨['A'], ['T'], ['M'], calltarget_modification_action, ⟨0, 0, 0, 0⟩, ⟨9, 0, 0, 0⟩, [['_']]⟩

def firstEnvironment : Environment := ⟨8, [⟨['I'], ⟨firstTarget, firstTarget⟩⟩]⟩

def firstActions : List Action :=
  [.moduleLoadFinished 7 firstModule, .enqueueThreadLoop,
    .getReJITParameters 7 0x06000001 (some 5), .findMetadata 0, .notifyReJITParameters 0]

theorem requests_delivered_first : ∃ p out,
    runOut (CorProfiler.step firstEnvironment) {} firstActions = some (p, out) ∧
      requestedItems out = [⟨1, [7], [0x06000001]⟩] ∧ requestedItems out <+: enqueuedItems out := by
  obtain ⟨r, hr, hrequested⟩ := Option.map_eq_some_iff.mp
    (show (runOut (CorProfiler.step firstEnvironment) {} firstActions).map
      (fun r => requestedItems r.2) = some [⟨1, [7], [0x06000001]⟩] from rfl)
  have hfits : AllSteps (CorProfiler.step firstEnvironment) (Fits firstEnvironment) {} firstActions := by
    refine AllSteps.of_forall fun p a ha => ?_
    simp only [firstActions, List.mem_cons, List.not_mem_nil, or_false] at ha
    rcases ha with rfl | rfl | rfl | rfl | rfl
    · intro requests hrequests
      have hlength := congrArg (Except.map List.length) hrequests
      rw [show requests.length = 1 from (Except.ok.inj hlength).symm]
      decide
    all_goals trivial
  exact ⟨r.1, r.2, hr, hrequested, (requests_delivered firstEnvironment hfits hr).1⟩

end queue

/-! ## The methods that are rewritten -/

/-- The requests that count for a module: those since it was last forgotten. -/
def knownRequests (module_id : ModuleID) : List Event → List Request :=
  List.foldl (fun requests e =>
    match e with
    | .enqueued id now _ => if id = module_id then requests ++ now else requests
    | .removed id => if id = module_id then [] else requests
    | .cleared => []
    | _ => requests) []

/-- The last request of a method of a module. -/
def requestFor (out : List Event) (module_id : ModuleID) (methodDef : mdMethodDef) : Option Request :=
  lastRequest (knownRequests module_id out) methodDef

/-- What is known of a method, by its request. -/
def asRequested (request : Option Request) : Option FunctionInfo × Option MethodReplacement :=
  (request.map Request.functionInfo, request.map Request.methodReplacement)

/-- What is known of the methods of a module. -/
def RejitHandlerModule.knownOf (h : RejitHandlerModule) (methodDef : mdMethodDef) :
    Option FunctionInfo × Option MethodReplacement :=
  ((h.lookup methodDef).map RejitHandlerModuleMethod.known).getD (none, none)

/-- The handler knows of every method what its last request says. -/
def Known (out : List Event) (p : CorProfiler) : Prop :=
  ∀ module_id methodDef, (p.handlerModule module_id).m_methods.knownOf methodDef =
    asRequested (requestFor out module_id methodDef)

section rewritten

variable {env : Environment} {p p' : CorProfiler} {out new : List Event}

theorem knownRequests_concat (out : List Event) (e : Event) (module_id : ModuleID) :
    knownRequests module_id (out ++ [e]) =
      match e with
      | .enqueued id now _ =>
          if id = module_id then knownRequests module_id out ++ now else knownRequests module_id out
      | .removed id => if id = module_id then [] else knownRequests module_id out
      | .cleared => []
      | _ => knownRequests module_id out := by
  rw [knownRequests, List.foldl_append]
  rfl

theorem lastRequest_append (before now : List Request) (methodDef : mdMethodDef) :
    lastRequest (before ++ now) methodDef =
      (lastRequest now methodDef).or (lastRequest before methodDef) := by
  rw [lastRequest, List.filter_append, List.getLast?_append]
  rfl

/-- The requests of a module come on top of what is known. -/
theorem knownOf_foldl_store (h : RejitHandlerModule) (requests : List Request)
    (methodDef : mdMethodDef) :
    RejitHandlerModule.knownOf (requests.foldl store h) methodDef =
      match lastRequest requests methodDef with
      | some r => asRequested (some r)
      | none => h.knownOf methodDef := by
  have hknown := known_storeAll (h, []) requests methodDef
  rw [RejitHandlerModule.knownOf]
  refine (congrArg (·.getD (none, none)) hknown).trans ?_
  cases lastRequest requests methodDef with
  | none => rfl
  | some r => rfl

/-- What is known of a method stays when the runtime asks about it. -/
theorem knownOf_getOrAdd (h : RejitHandlerModule) (asked methodDef : mdMethodDef)
    (pFunctionControl : Option Nat) :
    RejitHandlerModule.knownOf ((GetOrAddMethod h asked).1.insert asked
      { (GetOrAddMethod h asked).2 with functionControl := pFunctionControl }) methodDef =
        h.knownOf methodDef := by
  rw [RejitHandlerModule.knownOf, RejitHandlerModule.knownOf]
  by_cases heq : asked = methodDef
  · rw [heq, AList.lookup_insert, GetOrAddMethod]
    cases h.lookup methodDef with
    | none => rfl
    | some method => rfl
  · rw [AList.lookup_insert_ne (Ne.symm heq), lookup_getOrAddMethod_ne h heq]

/-- The method handler that `GetOrAddMethod` returns holds what is known. -/
theorem known_getOrAddMethod (h : RejitHandlerModule) (methodDef : mdMethodDef) :
    (GetOrAddMethod h methodDef).2.known = h.knownOf methodDef := by
  rw [GetOrAddMethod, RejitHandlerModule.knownOf]
  cases h.lookup methodDef with
  | none => rfl
  | some method => rfl

/-- The handler of a module is put in, and those of the others stay. -/
theorem handlerModule_insert {module_id : ModuleID} {handler : HandlerModule}
    (hmodules : p'.m_modules = p.m_modules.insert module_id handler) (other : ModuleID) :
    p'.handlerModule other = if module_id = other then handler else p.handlerModule other := by
  rw [CorProfiler.handlerModule, hmodules]
  split
  case isTrue heq =>
    rw [heq, AList.lookup_insert]
    rfl
  case isFalse hne =>
    rw [AList.lookup_insert_ne (Ne.symm hne)]
    rfl

/-- An event that says nothing about the requests. -/
theorem Known.same (h : Known out p) (hmodules : p'.m_modules = p.m_modules)
    (hrequests : ∀ module_id, knownRequests module_id (out ++ new) = knownRequests module_id out) :
    Known (out ++ new) p' := by
  intro module_id methodDef
  rw [requestFor, hrequests, CorProfiler.handlerModule, hmodules]
  exact h module_id methodDef

/-- **Every action** keeps what is known of the methods. -/
theorem Known.step (h : Known out p) {a : Action} (hstep : p.step env a = some (p', new)) :
    Known (out ++ new) p' := by
  cases CorProfiler.effect_of_step hstep with
  | idle => exact h.same rfl fun _ => by rw [List.append_nil]
  | metadata => exact h.same rfl fun _ => by rw [List.append_nil]
  | calls => exact h.same rfl fun _ => by rw [List.append_nil]
  | ended => exact h.same rfl fun _ => by rw [List.append_nil]
  | shutdown => exact h.same rfl fun _ => by rw [List.append_nil]
  | detached => exact h.same rfl fun _ => by rw [List.append_nil]
  | requested => exact h.same rfl fun _ => knownRequests_concat out _ _
  | joined =>
      intro module_id methodDef
      rw [requestFor, knownRequests_concat]
      rfl
  | removed _ module_id metadata =>
      intro other methodDef
      rw [requestFor, knownRequests_concat, CorProfiler.handlerModule]
      by_cases heq : module_id = other
      · simp only [heq, if_true, AList.lookup_erase]
        rfl
      · simp only [heq, if_false, AList.lookup_erase_ne (Ne.symm heq)]
        exact h other methodDef
  | enqueued module_id m requests _ _ hrequests =>
      intro other methodDef
      rw [requestFor, knownRequests_concat, handlerModule_insert (p := p.withMetadata module_id m) rfl]
      by_cases heq : module_id = other
      · subst heq
        simp only [if_true, lastRequest_append, knownOf_foldl_store]
        cases lastRequest requests methodDef with
        | some r => rfl
        | none => exact h module_id methodDef
      · simp only [heq, if_false]
        exact h other methodDef
  | notified _ call c =>
      intro other methodDef
      have hsame : knownRequests other (out ++ p.callbackOf c) = knownRequests other out := by
        rcases callbackOf_cases p c with hnone | ⟨_, _, _, _, hone⟩
        · rw [hnone, List.append_nil]
        · rw [hone, knownRequests_concat]
      rw [requestFor, hsame, handlerModule_insert (p := p) rfl]
      by_cases heq : c.moduleId = other
      · subst heq
        simp only [if_true, knownOf_getOrAdd]
        exact h c.moduleId methodDef
      · simp only [heq, if_false]
        exact h other methodDef

/-- The rewriting that a request leads to when the runtime asks about its method. -/
def rewritingOf (c : Parameters) (metadata : MetadataRef) : Option Request → List Event
  | none => []
  | some r =>
      match c.pFunctionControl with
      | none => []
      | some pFunctionControl =>
          if c.methodId = mdMethodDefNil ∨ c.moduleId = 0 then []
          else [.rewritten c.moduleId c.methodId pFunctionControl r.functionInfo r.methodReplacement
            metadata]

/-- The callback is the rewriting of the last request. -/
theorem Known.callbackOf_eq (h : Known out p) {c : Parameters} {metadata : MetadataRef}
    (hmetadata : c.metadata = some metadata) :
    p.callbackOf c = rewritingOf c metadata (requestFor out c.moduleId c.methodId) := by
  have hknown := (known_getOrAddMethod (p.handlerModule c.moduleId).m_methods c.methodId).trans
    (h c.moduleId c.methodId)
  obtain ⟨hinfo, hreplacement⟩ := Prod.mk.inj hknown
  rw [CorProfiler.callbackOf, CorProfiler.callback, hmetadata, hinfo, hreplacement]
  cases requestFor out c.moduleId c.methodId with
  | none =>
      cases c.pFunctionControl with
      | none => exact ite_self _
      | some pFunctionControl => exact ite_self _
  | some r =>
      cases hcontrol : c.pFunctionControl with
      | none =>
          rw [rewritingOf, hcontrol]
          exact ite_self _
      | some pFunctionControl =>
          rw [rewritingOf, hcontrol]
          by_cases hnil : c.methodId = mdMethodDefNil
          · simp [hnil]
          · by_cases hzero : c.moduleId = 0
            · simp [hnil, hzero]
            · simp [hnil, hzero]

/-- A method is rewritten as its last request says. -/
def RewrittenAsRequested (before : List Event) : Event → Prop
  | .rewritten moduleId methodDef _ functionInfo methodReplacement _ =>
      moduleId ≠ 0 ∧ methodDef ≠ mdMethodDefNil ∧
        requestFor before moduleId methodDef = some ⟨methodDef, functionInfo, methodReplacement⟩
  | _ => True

/-- The rewriting of the last request. -/
theorem RewrittenAsRequested.rewriting (out : List Event) (c : Parameters) (metadata : MetadataRef) {e : Event}
    (he : e ∈ rewritingOf c metadata (requestFor out c.moduleId c.methodId)) :
    rewritingOf c metadata (requestFor out c.moduleId c.methodId) = [e] ∧
      RewrittenAsRequested out e := by
  cases hrequest : requestFor out c.moduleId c.methodId with
  | none => rw [hrequest] at he; cases he
  | some r =>
      have hmethod : r.methodDef = c.methodId := by
        have hmem := List.mem_of_getLast? hrequest
        simpa using (List.mem_filter.mp hmem).2
      rw [hrequest, rewritingOf] at he
      rw [rewritingOf]
      split at he
      case h_1 => cases he
      case h_2 pFunctionControl hcontrol =>
        split at he
        case isTrue => cases he
        case isFalse hids =>
          obtain rfl := List.mem_singleton.mp he
          obtain ⟨hnil, hzero⟩ := not_or.mp hids
          refine ⟨if_neg hids, hzero, hnil, ?_⟩
          rw [hrequest, ← hmethod]

/-- **Every action** rewrites as it was requested. -/
theorem rewrittenAsRequested_step (h : Known out p) (hbefore : EachAfter RewrittenAsRequested out)
    {a : Action} (hstep : p.step env a = some (p', new)) :
    EachAfter RewrittenAsRequested (out ++ new) := by
  have hnone : EachAfter RewrittenAsRequested (out ++ []) := by rwa [List.append_nil]
  cases CorProfiler.effect_of_step hstep with
  | idle => exact hnone
  | metadata => exact hnone
  | calls => exact hnone
  | ended => exact hnone
  | shutdown => exact hnone
  | detached => exact hnone
  | requested => exact hbefore.concat trivial
  | joined => exact hbefore.concat trivial
  | removed => exact hbefore.concat trivial
  | enqueued => exact hbefore.concat trivial
  | notified _ call c =>
      cases hmetadata : c.metadata with
      | none =>
          have hidle : p.callbackOf c = [] := by
            simp only [CorProfiler.callbackOf, CorProfiler.callback, hmetadata]
            repeat' split
            all_goals rfl
          rwa [hidle]
      | some metadata =>
          rw [h.callbackOf_eq hmetadata]
          cases hrewriting : rewritingOf c metadata (requestFor out c.moduleId c.methodId) with
          | nil => exact hnone
          | cons e rest =>
              obtain ⟨hone, he⟩ := RewrittenAsRequested.rewriting out c metadata
                (hrewriting ▸ List.mem_cons_self : e ∈ _)
              rw [hrewriting] at hone
              rw [hone]
              exact hbefore.concat he

/-- The methods that were rewritten, with their modules. -/
def rewrittenMethods (out : List Event) : List (ModuleID × mdMethodDef) :=
  out.filterMap fun
    | .rewritten moduleId methodDef _ _ _ _ => some (moduleId, methodDef)
    | _ => none

end rewritten

end DdTrace.Profiler.Rejit
