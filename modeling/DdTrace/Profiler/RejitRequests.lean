import DdTrace.Lib.Dictionaries
import DdTrace.Lib.Outcomes
import DdTrace.Profiler.LoadedProfiler
import DdTrace.Profiler.StructuralNames

/-!
# The methods of a module that are requested for a ReJIT

* `CallTarget_RequestRejitForModule`: the methods that the integrations of a module name are put
  into the handler and enqueued.
* `request_eq`: what one call stores and enqueues, as a list of requests.
* `known_storeAll`: what the handler knows of a method after them.

Sources: `cor_profiler.cpp`, `CorProfiler::CallTarget_RequestRejitForModule`; `rejit_handler.cpp`;
`clr_helpers.cpp`, `FindTypeDefByName` and `GetSigTypeTokName`; `util.cpp`, `Split`.
-/

namespace DdTrace.Profiler.Rejit

open DdTrace.Lib CorElementType

/-! ## The names of parameter types -/

section Names

variable (md : MetadataImport) (data : List UInt8)

mutual

/-- The name of the type at a place, and the place behind it; `fuel` bounds how deep it is.
Source: `clr_helpers.cpp`, `GetSigTypeTokName` -/
def getSigTypeTokName : Nat → Nat → Except NamesError (WString × Nat)
  | 0, _ => .error .unfinished
  | fuel + 1, pbCur => do
      let first ← byteAt data pbCur
      if first = byRef then do
        let (tokenName, pbCur) ← sigTypeTokName fuel (pbCur + 1)
        pure (tokenName ++ ['&'], pbCur)
      else sigTypeTokName fuel pbCur

/-- The name of a type without a `BYREF` in front of it.
Source: `clr_helpers.cpp`, `GetSigTypeTokName`, the switch -/
def sigTypeTokName : Nat → Nat → Except NamesError (WString × Nat)
  | 0, _ => .error .unfinished
  | fuel + 1, pbCur => do
      let b ← byteAt data pbCur
      if b ∈ [boolean, char, i1, u1, u2, i2, i4, u4, i8, u8, r4, r8, i, u, string, object] then
        pure (primitiveName b, pbCur + 1)
      else if b = class_ ∨ b = valueType then do
        let (token, length) ← corSigUncompressToken data (pbCur + 1)
        pure ((md.typeInfo token).name, pbCur + 1 + length)
      else if b = szArray then do
        let (tokenName, pbCur) ← getSigTypeTokName fuel (pbCur + 1)
        pure (tokenName ++ ['[', ']'], pbCur)
      else if b = genericInst then do
        let (tokenName, pbCur) ← getSigTypeTokName fuel (pbCur + 1)
        let (num, length) ← corSigUncompressData data pbCur
        let (arguments, pbCur) ← genericArgumentNames fuel num (pbCur + length)
        pure (tokenName ++ ['['] ++ arguments ++ [']'], pbCur)
      else if b = mVar then do
        let (num, length) ← corSigUncompressData data (pbCur + 1)
        pure (['!', '!'] ++ Nat.toDigits 10 num, pbCur + 1 + length)
      else if b = var then do
        let (num, length) ← corSigUncompressData data (pbCur + 1)
        pure ('!' :: Nat.toDigits 10 num, pbCur + 1 + length)
      else pure ([], pbCur)

/-- The names of the arguments of a generic type, with commas between them. -/
def genericArgumentNames : Nat → Nat → Nat → Except NamesError (WString × Nat)
  | 0, _, _ => .error .unfinished
  | _ + 1, 0, pbCur => pure ([], pbCur)
  | fuel + 1, num + 1, pbCur => do
      let (tokenName, pbCur) ← getSigTypeTokName fuel pbCur
      let (rest, pbCur) ← genericArgumentNames fuel num pbCur
      pure (tokenName ++ (if num = 0 then rest else ',' :: rest), pbCur)

end

end Names

/-! ## Data -/

abbrev mdMethodDef := Nat
abbrev mdTypeDef := Nat

/-- The target of an integration, or its wrapper, by the fields that are read here.
Source: `integration.h`, `MethodReference` -/
structure MethodReference where
  assembly_name : WString
  type_name : WString
  method_name : WString
  action : WString
  min_version : Version
  max_version : Version
  signature_types : List WString
  deriving DecidableEq, Repr

/-- Source: `integration.h`, `MethodReplacement` -/
structure MethodReplacement where
  target_method : MethodReference
  wrapper_method : MethodReference
  deriving DecidableEq, Repr

/-- Source: `integration.h`, `IntegrationMethod` -/
structure IntegrationMethod where
  integration_name : WString
  replacement : MethodReplacement
  deriving DecidableEq, Repr

/-- A method, with the bytes of its signature; `method_signature` is there once it was parsed.
Source: `clr_helpers.h`, `FunctionInfo` -/
structure FunctionInfo where
  id : Nat
  name : WString
  type : TypeInfo
  signature : List UInt8
  method_signature : Option FunctionMethodSignature
  deriving DecidableEq, Repr

/-- Source: `clr_helpers.h`, `FunctionInfo::IsValid` -/
def FunctionInfo.IsValid (info : FunctionInfo) : Bool := info.id != 0

/-- The metadata of a module, by what is asked of it. -/
structure ModuleMetadata where
  assemblyName : WString
  /-- `GetAssemblyImportMetadata(assembly_import).version`. -/
  version : Version
  metadata_import : MetadataImport
  /-- `IMetaDataImport::FindTypeDefByName`, with the type around, or 0. -/
  findTypeDefByName : WString → mdTypeDef → Option mdTypeDef
  /-- `IMetaDataImport::EnumMethodsWithName`. -/
  enumMethodsWithName : mdTypeDef → WString → List mdMethodDef
  /-- `GetFunctionInfo`. -/
  getFunctionInfo : mdMethodDef → FunctionInfo
  /-- The memory behind the signature of a method. -/
  beyond : mdMethodDef → Nat → UInt8

/-- Source: `dd_profiler_constants.h`, `calltarget_modification_action` -/
def calltarget_modification_action : WString := "CallTargetModification".toList

/-! ## The methods that integrations name -/

/-- Source: `clr_helpers.cpp`, `FindTypeDefByName`; `util.cpp`, `Split` -/
def FindTypeDefByName (name : WString) (m : ModuleMetadata) : Option mdTypeDef :=
  match name.splitOn '+' with
  | [_] => m.findTypeDefByName name 0
  | [parent, nested] => do
      let parentTypeDef ← m.findTypeDefByName parent 0
      m.findTypeDefByName nested parentTypeDef
  | _ => none

/-- The checks of an integration that come before its type is looked up.
Source: `cor_profiler.cpp`, `CorProfiler::CallTarget_RequestRejitForModule` -/
def IntegrationMethod.isFor (i : IntegrationMethod) (m : ModuleMetadata) : Bool :=
  if i.replacement.target_method.assembly_name != m.assemblyName then false
  else if i.replacement.wrapper_method.action != calltarget_modification_action then false
  else if i.replacement.target_method.min_version.gt m.version then false
  else if i.replacement.target_method.max_version.lt m.version then false
  else true

/-- The types of the arguments are those of the target; `_` stands for any.
Source: `cor_profiler.cpp`, `CorProfiler::CallTarget_RequestRejitForModule`, the loop over the
arguments -/
def argumentsMatch (fuel : Nat) (m : ModuleMetadata) (data : List UInt8) :
    List FunctionMethodArgument → List WString → Except NamesError Bool
  | [], _ => pure true
  | _ :: _, [] => .error .undefined
  | argument :: arguments, integrationArgumentTypeName :: names => do
      let (argumentTypeName, _) ←
        getSigTypeTokName m.metadata_import data fuel argument.offset
      if argumentTypeName ≠ integrationArgumentTypeName ∧ integrationArgumentTypeName ≠ ['_'] then
        pure false
      else argumentsMatch fuel m data arguments names

/-- The information of a method that the integration names, with its parsed signature.
Source: `cor_profiler.cpp`, `CorProfiler::CallTarget_RequestRejitForModule`, the loop over the
methods, up to where the method is stored -/
def IntegrationMethod.matchMethod (i : IntegrationMethod) (fuel : Nat) (m : ModuleMetadata)
    (methodDef : mdMethodDef) : Except NamesError (Option FunctionInfo) :=
  let caller := m.getFunctionInfo methodDef
  if !caller.IsValid then pure none
  else
    match (FunctionMethodSignature.tryParse caller.signature (m.beyond methodDef)).result with
    | none => pure none
    | some (signature, _) =>
        let signature_types := i.replacement.target_method.signature_types
        -- the subtraction is the one of `size_t`
        if signature.numberOfArguments ≠ (signature_types.length + (2 ^ 64 - 1)) % 2 ^ 64 then
          pure none
        else do
          let found ← argumentsMatch fuel m caller.signature signature.params signature_types.tail
          pure (if found then some { caller with method_signature := some signature } else none)

/-! ## The handler -/

/-- Source: `rejit_handler.h`, `RejitHandlerModuleMethod` -/
structure RejitHandlerModuleMethod where
  functionControl : Option Nat := none
  functionInfo : Option FunctionInfo := none
  methodReplacement : Option MethodReplacement := none
  deriving DecidableEq, Repr

/-- The methods of a module that the handler knows.
Source: `rejit_handler.h`, `RejitHandlerModule`, `m_methods` -/
abbrev RejitHandlerModule := Dictionary mdMethodDef RejitHandlerModuleMethod

/-- Source: `rejit_handler.cpp`, `RejitHandlerModule::GetOrAddMethod`; the entry is there after it -/
def GetOrAddMethod (h : RejitHandlerModule) (methodDef : mdMethodDef) :
    RejitHandlerModule × RejitHandlerModuleMethod :=
  match h.lookup methodDef with
  | some method => (h, method)
  | none => (h.insert methodDef {}, {})

/-- A method that is requested, with what is stored for it. -/
structure Request where
  methodDef : mdMethodDef
  functionInfo : FunctionInfo
  methodReplacement : MethodReplacement
  deriving DecidableEq, Repr

/-- `GetOrAddMethod`, `SetFunctionInfo` and `SetMethodReplacement`. -/
def store (h : RejitHandlerModule) (r : Request) : RejitHandlerModule :=
  let added := GetOrAddMethod h r.methodDef
  added.1.insert r.methodDef { added.2 with
    functionInfo := some r.functionInfo, methodReplacement := some r.methodReplacement }

/-- A method of the loop: it is stored and put into `vtMethodDefs`, or passed over. -/
def visitMethod (fuel : Nat) (m : ModuleMetadata) (i : IntegrationMethod)
    (s : RejitHandlerModule × List mdMethodDef) (methodDef : mdMethodDef) :
    Except NamesError (RejitHandlerModule × List mdMethodDef) := do
  match ← i.matchMethod fuel m methodDef with
  | none => pure s
  | some functionInfo =>
      pure (store s.1 ⟨methodDef, functionInfo, i.replacement⟩, s.2 ++ [methodDef])

/-- An integration of the loop. -/
def visitIntegration (fuel : Nat) (m : ModuleMetadata)
    (s : RejitHandlerModule × List mdMethodDef) (i : IntegrationMethod) :
    Except NamesError (RejitHandlerModule × List mdMethodDef) :=
  if i.isFor m then
    match FindTypeDefByName i.replacement.target_method.type_name m with
    | none => pure s
    | some typeDef =>
        (m.enumMethodsWithName typeDef i.replacement.target_method.method_name).foldlM
          (visitMethod fuel m i) s
  else pure s

/-- What the handler knows of the module afterwards, and `vtMethodDefs`.
Source: `cor_profiler.cpp`, `CorProfiler::CallTarget_RequestRejitForModule`, up to the call of
`EnqueueForRejit` -/
def CallTarget_RequestRejitForModule (fuel : Nat) (m : ModuleMetadata)
    (filtered_integrations : List IntegrationMethod) (h : RejitHandlerModule) :
    Except NamesError (RejitHandlerModule × List mdMethodDef) :=
  filtered_integrations.foldlM (visitIntegration fuel m) (h, [])

/-! ## What is requested -/

/-- The request of a method, if the integration names it. -/
def IntegrationMethod.requestOf (i : IntegrationMethod) (fuel : Nat) (m : ModuleMetadata)
    (methodDef : mdMethodDef) : Except NamesError (Option Request) := do
  let info ← i.matchMethod fuel m methodDef
  pure (info.map fun functionInfo => ⟨methodDef, functionInfo, i.replacement⟩)

/-- The requests of an integration, in the order of the methods. -/
def integrationRequests (fuel : Nat) (m : ModuleMetadata) (i : IntegrationMethod) :
    Except NamesError (List Request) :=
  if i.isFor m then
    match FindTypeDefByName i.replacement.target_method.type_name m with
    | none => pure []
    | some typeDef => do
        let found ← (m.enumMethodsWithName typeDef
          i.replacement.target_method.method_name).mapM (i.requestOf fuel m)
        pure (found.filterMap id)
  else pure []

/-- The requests of a module, in the order of the integrations. -/
def requestsOf (fuel : Nat) (m : ModuleMetadata) (integrations : List IntegrationMethod) :
    Except NamesError (List Request) := do
  let requests ← integrations.mapM (integrationRequests fuel m)
  pure requests.flatten

section requests

variable {fuel : Nat} {m : ModuleMetadata}

/-- What a list of requests leaves, after what is there already. -/
def storeAll (s : RejitHandlerModule × List mdMethodDef) (requests : List Request) :
    RejitHandlerModule × List mdMethodDef :=
  (requests.foldl store s.1, s.2 ++ requests.map Request.methodDef)

theorem storeAll_append (s : RejitHandlerModule × List mdMethodDef) (now later : List Request) :
    storeAll s (now ++ later) = storeAll (storeAll s now) later := by
  rw [storeAll, storeAll, storeAll, List.foldl_append, List.map_append, List.append_assoc]

/-- The loop over the methods stores the requests, one after another. -/
theorem visitMethods_eq (i : IntegrationMethod) (methods : List mdMethodDef)
    (s : RejitHandlerModule × List mdMethodDef) :
    methods.foldlM (visitMethod fuel m i) s =
      (methods.mapM (i.requestOf fuel m)).map fun found => storeAll s (found.filterMap id) := by
  induction methods generalizing s with
  | nil => exact congrArg Except.ok (Prod.ext rfl (List.append_nil _).symm)
  | cons methodDef methods ih =>
      rw [List.foldlM_cons, List.mapM_cons, visitMethod, IntegrationMethod.requestOf]
      cases i.matchMethod fuel m methodDef with
      | error e => rfl
      | ok info =>
          cases info with
          | none =>
              refine (ih s).trans ?_
              cases methods.mapM (i.requestOf fuel m) with
              | error e => rfl
              | ok found => rfl
          | some functionInfo =>
              refine (ih _).trans ?_
              cases methods.mapM (i.requestOf fuel m) with
              | error e => rfl
              | ok found =>
                  exact congrArg Except.ok
                    (storeAll_append s [⟨methodDef, functionInfo, i.replacement⟩] _).symm

/-- An integration stores its requests. -/
theorem visitIntegration_eq (s : RejitHandlerModule × List mdMethodDef) (i : IntegrationMethod) :
    visitIntegration fuel m s i = (integrationRequests fuel m i).map (storeAll s) := by
  have hnone : storeAll s [] = s := Prod.ext rfl (List.append_nil _)
  rw [visitIntegration, integrationRequests]
  split
  case isFalse => exact congrArg Except.ok hnone.symm
  case isTrue =>
    split
    case h_1 => exact congrArg Except.ok hnone.symm
    case h_2 typeDef _ =>
      rw [visitMethods_eq]
      cases (m.enumMethodsWithName typeDef
        i.replacement.target_method.method_name).mapM (i.requestOf fuel m) with
      | error e => rfl
      | ok found => rfl

/-- **What one call stores and enqueues**: the requests of the module, in their order. -/
theorem request_eq (integrations : List IntegrationMethod) (h : RejitHandlerModule) :
    CallTarget_RequestRejitForModule fuel m integrations h =
      (requestsOf fuel m integrations).map (storeAll (h, [])) := by
  have hloop : ∀ s : RejitHandlerModule × List mdMethodDef,
      integrations.foldlM (visitIntegration fuel m) s =
        (requestsOf fuel m integrations).map (storeAll s) := by
    induction integrations with
    | nil => exact fun s => congrArg Except.ok (Prod.ext rfl (List.append_nil _).symm)
    | cons i integrations ih =>
        intro s
        rw [List.foldlM_cons, requestsOf, List.mapM_cons, visitIntegration_eq]
        cases integrationRequests fuel m i with
        | error e => rfl
        | ok now =>
            refine (ih _).trans ?_
            rw [requestsOf]
            cases integrations.mapM (integrationRequests fuel m) with
            | error e => rfl
            | ok later => exact congrArg Except.ok (storeAll_append s now _).symm
  exact hloop (h, [])

/-- The last request of a method. -/
def lastRequest (requests : List Request) (methodDef : mdMethodDef) : Option Request :=
  (requests.filter fun r => r.methodDef = methodDef).getLast?

/-- Whether a method is rewritten, and how: its information and its replacement. -/
def RejitHandlerModuleMethod.known (method : RejitHandlerModuleMethod) :
    Option FunctionInfo × Option MethodReplacement :=
  (method.functionInfo, method.methodReplacement)

/-- Other methods are not changed. -/
theorem lookup_getOrAddMethod_ne (h : RejitHandlerModule) {methodDef other : mdMethodDef}
    (hne : other ≠ methodDef) :
    (GetOrAddMethod h other).1.lookup methodDef = h.lookup methodDef := by
  rw [GetOrAddMethod]
  split
  · rfl
  · exact AList.lookup_insert_ne (Ne.symm hne)

theorem known_store (h : RejitHandlerModule) (r : Request) (methodDef : mdMethodDef) :
    ((store h r).lookup methodDef).map RejitHandlerModuleMethod.known =
      if r.methodDef = methodDef then some (some r.functionInfo, some r.methodReplacement)
      else (h.lookup methodDef).map RejitHandlerModuleMethod.known := by
  rw [store]
  split
  case isTrue heq =>
    rw [heq, AList.lookup_insert]
    rfl
  case isFalse hne =>
    rw [AList.lookup_insert_ne (Ne.symm hne), lookup_getOrAddMethod_ne h hne]

/-- **What the handler knows of a method**: what its last request says. -/
theorem known_storeAll (s : RejitHandlerModule × List mdMethodDef) (requests : List Request)
    (methodDef : mdMethodDef) :
    ((storeAll s requests).1.lookup methodDef).map RejitHandlerModuleMethod.known =
      ((lastRequest requests methodDef).map fun r =>
        (some r.functionInfo, some r.methodReplacement)).or
          ((s.1.lookup methodDef).map RejitHandlerModuleMethod.known) := by
  induction requests using List.reverseRecOn with
  | nil => rfl
  | append_singleton requests r ih =>
      rw [storeAll_append, lastRequest, List.filter_append]
      show ((store (storeAll s requests).1 r).lookup methodDef).map _ = _
      rw [known_store, ih, lastRequest]
      by_cases heq : r.methodDef = methodDef
      · simp [heq]
      · simp [heq]

end requests

end DdTrace.Profiler.Rejit
