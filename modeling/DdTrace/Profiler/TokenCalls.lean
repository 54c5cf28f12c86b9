import DdTrace.Lib.Programs
import DdTrace.Profiler.CallTargetTokens
import DdTrace.Profiler.ILRewriter
import DdTrace.Profiler.SignatureNames

/-!
# The metadata calls of a rewrite

The functions of `CallTargetTokens` with every metadata call they make. A call may succeed or fail,
whatever was called before; a function returns what the calls let it return.

* `Call`: a metadata call, with the function of the rewriter it is made for and the variable its
  token is kept in.
* `Session`: the variables of `CallTargetTokens` and the rewriter. Two of its fields are no part of
  the program: `results` and `operands` say which functions have failed, and where the operands of
  the inserted instructions come from.
* `ModifyLocalSigAndInitialize`, `WriteBeginMethod`, `WriteEndVoidReturnMemberRef`,
  `WriteEndReturnMemberRef`, `WriteLogException`: the functions that the rewriter calls.

The arrays for signatures are taken to be large enough. A call that fails leaves its
out-parameter as it is.

Sources: `calltarget_tokens.h`; `calltarget_tokens.cpp`; `il_rewriter_wrapper.cpp`;
`clr_helpers.cpp`, `FunctionMethodArgument::GetTypeTok`.
-/

namespace DdTrace.Profiler.Rewriting

open DdTrace.Lib CorElementType

/-! ## Calls -/

/-- The result of a call that has failed. -/
abbrev HRESULT := UInt32

/-- `E_FAIL`. -/
abbrev E_FAIL : HRESULT := 0x80004005

/-- `mdTokenNil`. -/
abbrev mdTokenNil : mdToken := 0
/-- `mdTypeRefNil`. -/
abbrev mdTypeRefNil : mdToken := 0x01000000
/-- `mdMemberRefNil`. -/
abbrev mdMemberRefNil : mdToken := 0x0A000000
/-- `mdAssemblyRefNil`. -/
abbrev mdAssemblyRefNil : mdToken := 0x23000000
/-- `mdMethodSpecNil`. -/
abbrev mdMethodSpecNil : mdToken := 0x2B000000

/-- A token that a call hands out. It has a row in its table. -/
abbrev Token := { tk : mdToken // tk &&& 0x00FFFFFF ≠ 0 }

/-- A local signature that a call hands out. It has at most 65534 locals. -/
abbrev StoredSig := { sig : LocalVarSig // sig.locals.length ≤ 0xFFFE }

/-- The variables that keep a token from one rewrite to the next.
Source: `calltarget_tokens.h`, `CallTargetTokens` -/
inductive Slot where
  | corLibAssemblyRef
  | objectTypeRef
  | exTypeRef
  | typeRef
  | runtimeTypeHandleRef
  | getTypeFromHandleToken
  | runtimeMethodHandleRef
  | profilerAssemblyRef
  | callTargetTypeRef
  | callTargetStateTypeRef
  | callTargetReturnVoidTypeRef
  | callTargetReturnTypeRef
  | beginArrayMemberRef
  | beginMethodFastPathRefs (numArguments : Nat)
  | endVoidMemberRef
  | logExceptionRef
  | callTargetStateTypeGetDefault
  | callTargetReturnVoidTypeGetDefault
  | getDefaultMemberRef
  deriving DecidableEq, Repr

/-- What a variable holds before a token is kept in it. -/
def Slot.nil : Slot → mdToken
  | corLibAssemblyRef | profilerAssemblyRef => mdAssemblyRefNil
  | getTypeFromHandleToken => mdTokenNil
  | beginArrayMemberRef | beginMethodFastPathRefs _ | endVoidMemberRef | logExceptionRef
  | callTargetStateTypeGetDefault | callTargetReturnVoidTypeGetDefault
  | getDefaultMemberRef => mdMemberRefNil
  | _ => mdTypeRefNil

/-- The assemblies that are referred to. -/
inductive AssemblyName where
  /-- The core library. -/
  | corLib
  /-- `managed_profiler_full_assembly_version`. -/
  | managedProfiler
  deriving DecidableEq, Repr

/-- A call that hands out a token. -/
inductive Definition where
  | DefineAssemblyRef (assembly : AssemblyName)
  | DefineTypeRefByName (resolutionScope : mdToken) (name : String)
  | DefineMemberRef (parent : mdToken) (name : String) (signature : List UInt8)
  | DefineMethodSpec (parent : mdToken) (signature : List UInt8)
  | GetTokenFromTypeSpec (signature : List UInt8)
  | GetTokenFromSig (signature : List UInt8)
  deriving DecidableEq, Repr

/-- A metadata call. -/
inductive Request where
  | token (d : Definition)
  /-- With the call, the type reference that the last local of the signature is compared with. -/
  | GetSigFromToken (localVarSig : Nat) (comparedWith : mdToken)
  | GetTypeSpecFromToken (typeSpec : mdToken)
  deriving DecidableEq, Repr

/-- What a call hands out if it succeeds. -/
def Request.Reply : Request → Type
  | token _ => Token
  | GetSigFromToken _ _ => StoredSig
  | GetTypeSpecFromToken _ => List UInt8

/-- What a call is made for: a function that `CallTarget_RewriterCallback` calls. -/
inductive Caller where
  | ModifyLocalSigAndInitialize
  | GetTypeTok
  | WriteBeginMethod
  | WriteLogException
  | WriteEndReturnMemberRef
  | WriteCallTargetReturnGetReturnValue
  deriving DecidableEq, Repr

/-- A metadata call, what it is made for, and the variable its token is kept in. -/
structure Call where
  caller : Caller
  slot : Option Slot := none
  request : Request
  deriving DecidableEq, Repr

/-! ## The state -/

/-- An out-parameter, and whether a call that succeeded has assigned it. -/
structure Out (α : Type) where
  value : α
  assigned : Bool
  deriving DecidableEq, Repr

/-- An operand that the rewriter gives to an instruction or a clause. -/
inductive Operand where
  | localIndex (index : Out UInt32)
  | memberRef (token : Out mdToken)
  | target (instr : Out InstrRef)
  deriving DecidableEq, Repr

/-- A call that succeeded has assigned the operand. -/
def Operand.assigned : Operand → Bool
  | localIndex index => index.assigned
  | memberRef token => token.assigned
  | target instr => instr.assigned

/-- The functions whose failure must not be overlooked. -/
inductive Vital where
  | ModifyLocalSigAndInitialize
  | DefaultValue
  | WriteBeginMethod
  | WriteLogException
  | WriteEndReturnMemberRef
  deriving DecidableEq, Repr

/-- What the rewrite of a method works on. -/
structure Session where
  tokens : Slot → Option Token
  rewriter : ILRewriter := {}
  /-- `m_ILInstr`. -/
  position : InstrRef := sentinel
  /-- Whether the functions that were called have succeeded. -/
  results : List (Vital × Bool) := []
  /-- The operands that were used. -/
  operands : List Operand := []

namespace Session

/-- No function has failed, and calls that succeeded have assigned what is used. -/
structure Sound (s : Session) : Prop where
  results : ∀ r ∈ s.results, r.2 = true
  operands : ∀ o ∈ s.operands, o.assigned = true

/-- What a variable holds. -/
def value (s : Session) (slot : Slot) : mdToken := ((s.tokens slot).map Subtype.val).getD slot.nil

/-- The type references, as the signatures refer to them. -/
def refs (s : Session) : CallTargetTokens where
  objectTypeRef := s.value .objectTypeRef
  exTypeRef := s.value .exTypeRef
  typeRef := s.value .typeRef
  runtimeTypeHandleRef := s.value .runtimeTypeHandleRef
  callTargetStateTypeRef := s.value .callTargetStateTypeRef
  callTargetReturnVoidTypeRef := s.value .callTargetReturnVoidTypeRef
  callTargetReturnTypeRef := s.value .callTargetReturnTypeRef

/-- Keep a token. -/
def keep (s : Session) (slot : Slot) (token : Token) : Session :=
  { s with tokens := Function.update s.tokens slot (some token) }

theorem keep_self (s : Session) (slot : Slot) (token : Token) :
    (s.keep slot token).tokens slot = some token := Function.update_self _ _ _

theorem isSome_keep (s : Session) (slot : Slot) (token : Token) :
    ((s.keep slot token).tokens slot).isSome = true := by
  rw [keep_self]
  rfl

theorem keep_of_ne (s : Session) {slot other : Slot} (token : Token) (h : other ≠ slot) :
    (s.keep slot token).tokens other = s.tokens other := Function.update_of_ne h _ _

/-- Note whether a function has succeeded. -/
def note (s : Session) (f : Vital) (succeeded : Bool) : Session :=
  { s with results := s.results ++ [(f, succeeded)] }

/-- Insert a new instruction before `m_ILInstr`, which is always in the list. -/
def insert (s : Session) (opcode arg : Nat) (operands : List Operand) : Session :=
  { s with
    rewriter := (Edit.exec s.rewriter (.insertBefore s.position opcode arg sentinel)).getD s.rewriter
    operands := s.operands ++ operands }

end Session

/-- What the rewriter does. -/
abbrev Rewrite := Procedure Session Call HRESULT fun c => c.request.Reply

/-- A function that returns an `HRESULT`, which says whether its out-parameters are assigned. -/
abbrev Fallible := ExceptT HRESULT Rewrite

/-- A metadata call for a token. -/
def define (caller : Caller) (slot : Option Slot) (d : Definition) : Fallible Token :=
  Procedure.ask (⟨caller, slot, .token d⟩ : Call)

/-! ## Instructions -/

/-- Source: `il_rewriter_wrapper.cpp`, `ILRewriterWrapper::CreateInstr` -/
def CreateInstr (opcode : Nat) (arg : Nat := 0) (operands : List Operand := []) :
    Rewrite InstrRef :=
  modifyGet fun s => (s.rewriter.nInstrs + 1, s.insert opcode arg operands)

/-- The short forms of an instruction with an index of 16 bits: four without an operand, one with an
operand of 8 bits. -/
def indexed (opcode0 opcodeS opcode index : Nat) : Nat × Nat :=
  if index ≤ 3 then (opcode0 + index, 0)
  else if index ≤ 255 then (opcodeS, index)
  else (opcode, index % 2 ^ 16)

/-- Source: `il_rewriter_wrapper.cpp`, `ILRewriterWrapper::LoadNull` -/
def LoadNull : Rewrite InstrRef := CreateInstr 0x14

/-- Source: `il_rewriter_wrapper.cpp`, `ILRewriterWrapper::LoadInt32`, for a value that is not
negative -/
def LoadInt32 (value : Nat) : Rewrite InstrRef :=
  if value ≤ 8 then CreateInstr (0x16 + value)
  else if value ≤ 127 then CreateInstr 0x1F value
  else CreateInstr 0x20 value

/-- Source: `il_rewriter_wrapper.cpp`, `ILRewriterWrapper::LoadArgument` -/
def LoadArgument (index : Nat) : Rewrite InstrRef :=
  let (opcode, arg) := indexed 0x02 0x0E 0x109 index
  CreateInstr opcode arg

/-- Source: `il_rewriter_wrapper.cpp`, `ILRewriterWrapper::Box` -/
def Box (type_ref : mdToken) : Rewrite InstrRef := CreateInstr 0x8C type_ref.toNat

/-- Source: `il_rewriter_wrapper.cpp`, `ILRewriterWrapper::CreateArray` -/
def CreateArray (type_ref : mdToken) (size : Nat) : Rewrite InstrRef := do
  let _ ← LoadInt32 size
  CreateInstr 0x8D type_ref.toNat

/-- Source: `il_rewriter_wrapper.cpp`, `ILRewriterWrapper::CallMember`, of a method that is not
virtual -/
def CallMember (member_ref : Out mdToken) : Rewrite InstrRef :=
  CreateInstr 0x28 member_ref.value.toNat [.memberRef member_ref]

/-- Source: `il_rewriter_wrapper.cpp`, `ILRewriterWrapper::BeginLoadValueIntoArray` -/
def BeginLoadValueIntoArray (arrayIndex : Nat) : Rewrite InstrRef := do
  let _ ← CreateInstr 0x25
  LoadInt32 arrayIndex

/-- Source: `il_rewriter_wrapper.cpp`, `ILRewriterWrapper::EndLoadValueIntoArray` -/
def EndLoadValueIntoArray : Rewrite InstrRef := CreateInstr 0xA2

/-- Source: `il_rewriter_wrapper.cpp`, `ILRewriterWrapper::LoadObj` -/
def LoadObj (token : mdToken) : Rewrite InstrRef := CreateInstr 0x71 token.toNat

/-- Source: `il_rewriter_wrapper.cpp`, `ILRewriterWrapper::StLocal` -/
def StLocal (index : Out UInt32) : Rewrite InstrRef :=
  let (opcode, arg) := indexed 0x0A 0x13 0x10E index.value.toNat
  CreateInstr opcode arg [.localIndex index]

/-- Source: `il_rewriter_wrapper.cpp`, `ILRewriterWrapper::LoadLocal` -/
def LoadLocal (index : Out UInt32) : Rewrite InstrRef :=
  let (opcode, arg) := indexed 0x06 0x11 0x10C index.value.toNat
  CreateInstr opcode arg [.localIndex index]

/-- Source: `il_rewriter_wrapper.cpp`, `ILRewriterWrapper::LoadLocalAddress` -/
def LoadLocalAddress (index : Out UInt32) : Rewrite InstrRef :=
  if index.value.toNat ≤ 255 then CreateInstr 0x12 index.value.toNat [.localIndex index]
  else CreateInstr 0x10D (index.value.toNat % 2 ^ 16) [.localIndex index]

/-- Source: `il_rewriter_wrapper.cpp`, `ILRewriterWrapper::Rethrow` -/
def Rethrow : Rewrite InstrRef := CreateInstr 0x11A

/-- Source: `il_rewriter_wrapper.cpp`, `ILRewriterWrapper::EndFinally` -/
def EndFinally : Rewrite InstrRef := CreateInstr 0xDC

/-! ## The method -/

/-- A method that is rewritten, and what the rewriter is given for it. -/
structure CallTargetMethod where
  /-- `ProfilerAssemblyIsLoadedIntoAppDomain`. -/
  profilerLoaded : Bool
  /-- The body of the method. -/
  body : List UInt8
  isStatic : Bool
  ret : ReturnType
  methodArguments : List ParamType
  /-- `wrapper_type_ref`, as `GetWrapperMethodRef` leaves it; its result is not looked at. -/
  wrapper_type_ref : mdToken
  type : CurrentTypeInfo
  /-- The parent type of the type, its parent type and so on. -/
  parents : List CurrentTypeInfo
  /-- What a comparison with memory outside a signature gives. -/
  outside : Bool := false
  /-- What a pointer holds that was never assigned. -/
  uninitialized : InstrRef := sentinel
  /-- What the buffers of `Export` hold before they are written to. -/
  fill : Nat → UInt8 := fun _ => 0

namespace CallTargetMethod

/-- The method, as the signatures describe it. -/
def described (m : CallTargetMethod) : RewrittenMethod where
  localVarSig := none
  ret := m.ret
  methodArguments := m.methodArguments
  integrationTypeRef := m.wrapper_type_ref
  currentType := m.type
  parents := m.parents

/-- `isVoid`. -/
def isVoid (m : CallTargetMethod) : Bool := (GetTypeFlags m.ret.bytes).1 &&& TypeFlagVoid ≠ 0

/-- `numArgs`. -/
def numArgs (m : CallTargetMethod) : Nat := m.methodArguments.length

end CallTargetMethod

/-- A signature, as it is handed over. -/
def signature (b : Builder) : List UInt8 := b.chunks.flatten

/-! ## Tokens that are kept -/

/-- The call that defines a token that is kept.
Source: `calltarget_tokens.cpp` -/
def Slot.definition (s : Session) : Slot → Definition
  | corLibAssemblyRef => .DefineAssemblyRef .corLib
  | objectTypeRef => .DefineTypeRefByName (s.value .corLibAssemblyRef) "System.Object"
  | exTypeRef => .DefineTypeRefByName (s.value .corLibAssemblyRef) "System.Exception"
  | typeRef => .DefineTypeRefByName (s.value .corLibAssemblyRef) "System.Type"
  | runtimeTypeHandleRef =>
      .DefineTypeRefByName (s.value .corLibAssemblyRef) "System.RuntimeTypeHandle"
  | getTypeFromHandleToken =>
      .DefineMemberRef (s.value .typeRef) "GetTypeFromHandle" (signature (getTypeFromHandle s.refs))
  | runtimeMethodHandleRef =>
      .DefineTypeRefByName (s.value .corLibAssemblyRef) "System.RuntimeMethodHandle"
  | profilerAssemblyRef => .DefineAssemblyRef .managedProfiler
  | callTargetTypeRef =>
      .DefineTypeRefByName (s.value .profilerAssemblyRef)
        "Datadog.Trace.ClrProfiler.CallTarget.CallTargetInvoker"
  | callTargetStateTypeRef =>
      .DefineTypeRefByName (s.value .profilerAssemblyRef)
        "Datadog.Trace.ClrProfiler.CallTarget.CallTargetState"
  | callTargetReturnVoidTypeRef =>
      .DefineTypeRefByName (s.value .profilerAssemblyRef)
        "Datadog.Trace.ClrProfiler.CallTarget.CallTargetReturn"
  | callTargetReturnTypeRef =>
      .DefineTypeRefByName (s.value .profilerAssemblyRef)
        "Datadog.Trace.ClrProfiler.CallTarget.CallTargetReturn`1"
  | beginArrayMemberRef =>
      .DefineMemberRef (s.value .callTargetTypeRef) "BeginMethod"
        (signature (DdTrace.Profiler.beginArrayMemberRef s.refs))
  | beginMethodFastPathRefs numArguments =>
      .DefineMemberRef (s.value .callTargetTypeRef) "BeginMethod"
        (signature (beginMethodFastPathRef s.refs numArguments))
  | endVoidMemberRef =>
      .DefineMemberRef (s.value .callTargetTypeRef) "EndMethod"
        (signature (DdTrace.Profiler.endVoidMemberRef s.refs))
  | logExceptionRef =>
      .DefineMemberRef (s.value .callTargetTypeRef) "LogException"
        (signature (DdTrace.Profiler.logExceptionRef s.refs))
  | callTargetStateTypeGetDefault =>
      .DefineMemberRef (s.value .callTargetStateTypeRef) "GetDefault"
        (signature (DdTrace.Profiler.callTargetStateTypeGetDefault s.refs))
  | callTargetReturnVoidTypeGetDefault =>
      .DefineMemberRef (s.value .callTargetReturnVoidTypeRef) "GetDefault"
        (signature (DdTrace.Profiler.callTargetReturnVoidTypeGetDefault s.refs))
  | getDefaultMemberRef =>
      .DefineMemberRef (s.value .callTargetTypeRef) "GetDefaultValue"
        (signature DdTrace.Profiler.getDefaultMemberRef)

/-- Define a token, unless there is one.
Source: `calltarget_tokens.cpp`, each paragraph that begins with `*** Ensure` -/
def ensure (caller : Caller) (slot : Slot) : Fallible Unit := do
  let s ← get
  if (s.tokens slot).isSome then pure ()
  else do
    let token ← define caller (some slot) (slot.definition s)
    modify fun s => s.keep slot token

/-- Define tokens in their order. -/
def ensureAll (caller : Caller) : List Slot → Fallible Unit
  | [] => pure ()
  | slot :: slots => do
      ensure caller slot
      ensureAll caller slots

/-- Source: `calltarget_tokens.cpp`, `CallTargetTokens::EnsureCorLibTokens` -/
def EnsureCorLibTokens (caller : Caller) : Fallible Unit :=
  ensureAll caller [.corLibAssemblyRef, .objectTypeRef, .exTypeRef, .typeRef, .runtimeTypeHandleRef,
    .getTypeFromHandleToken, .runtimeMethodHandleRef]

/-- Source: `calltarget_tokens.cpp`, `CallTargetTokens::EnsureBaseCalltargetTokens` -/
def EnsureBaseCalltargetTokens (caller : Caller) : Fallible Unit := do
  EnsureCorLibTokens caller
  ensureAll caller [.profilerAssemblyRef, .callTargetTypeRef, .callTargetStateTypeRef,
    .callTargetStateTypeGetDefault]

/-! ## Tokens for a method -/

/-- What is returned after a failure instead of its `HRESULT`. -/
def failsWith {α : Type} (value : UInt32) (x : Fallible α) : Fallible α :=
  ExceptT.mk do
    match ← x.run with
    | .ok a => pure (.ok a)
    | .error _ => pure (.error value)

/-- A function that returns a token. What it returns after a failure is none. -/
def returned (x : Fallible mdToken) : Rewrite (Out mdToken) := do
  match ← x.run with
  | .ok token => pure ⟨token, true⟩
  | .error value => pure ⟨value, false⟩

/-- Source: `calltarget_tokens.cpp`, `CallTargetTokens::GetTargetVoidReturnTypeRef` -/
def GetTargetVoidReturnTypeRef (caller : Caller) : Rewrite (Out mdToken) :=
  returned <| failsWith mdTypeRefNil do
    EnsureBaseCalltargetTokens caller
    ensure caller .callTargetReturnVoidTypeRef
    return (← get).value .callTargetReturnVoidTypeRef

/-- Source: `calltarget_tokens.cpp`, `CallTargetTokens::GetTargetReturnValueTypeRef` -/
def GetTargetReturnValueTypeRef (caller : Caller) (m : CallTargetMethod) : Rewrite (Out mdToken) :=
  returned <| failsWith mdTypeSpecNil do
    EnsureBaseCalltargetTokens caller
    ensure caller .callTargetReturnTypeRef
    let s ← get
    let typeSpec ← define caller none
      (.GetTokenFromTypeSpec (signature (returnValueTypeSpec s.refs m.described)))
    return typeSpec.val

/-- Source: `calltarget_tokens.cpp`, `CallTargetTokens::GetCallTargetReturnVoidDefaultMemberRef` -/
def GetCallTargetReturnVoidDefaultMemberRef (caller : Caller) : Rewrite (Out mdToken) :=
  returned <| failsWith mdMemberRefNil do
    EnsureBaseCalltargetTokens caller
    ensure caller .callTargetReturnVoidTypeGetDefault
    return (← get).value .callTargetReturnVoidTypeGetDefault

/-- Source: `calltarget_tokens.cpp`, `CallTargetTokens::GetCallTargetReturnValueDefaultMemberRef` -/
def GetCallTargetReturnValueDefaultMemberRef (caller : Caller) (callTargetReturnTypeSpec : mdToken) :
    Rewrite (Out mdToken) :=
  returned <| failsWith mdMemberRefNil do
    EnsureBaseCalltargetTokens caller
    let s ← get
    if (s.tokens .callTargetReturnTypeRef).isNone then throw E_FAIL
    else do
      let memberRef ← define caller none (.DefineMemberRef callTargetReturnTypeSpec "GetDefault"
        (signature (callTargetReturnTypeGetDefault s.refs)))
      return memberRef.val

/-- If the reference to `GetDefaultValue` cannot be defined, the `HRESULT` is returned as a token.
Source: `calltarget_tokens.cpp`, `CallTargetTokens::GetCallTargetDefaultValueMethodSpec` -/
def GetCallTargetDefaultValueMethodSpec (caller : Caller) (m : CallTargetMethod) :
    Rewrite (Out mdToken) :=
  returned do
    failsWith mdMethodSpecNil (EnsureBaseCalltargetTokens caller)
    ensure caller .getDefaultMemberRef
    failsWith mdMethodSpecNil do
      let s ← get
      let methodSpec ← define caller none (.DefineMethodSpec (s.value .getDefaultMemberRef)
        (signature (getDefaultMethodSpec m.described)))
      return methodSpec.val

/-- The names of the types of the core library that are boxed, and of two that are not.
Source: `clr_helpers.cpp`, `FunctionMethodArgument::GetTypeTok` -/
def corLibTypeName (elementType : UInt8) : Option String :=
  [(boolean, "System.Boolean"), (char, "System.Char"), (i1, "System.SByte"), (u1, "System.Byte"),
    (u2, "System.UInt16"), (i2, "System.Int16"), (i4, "System.Int32"), (u4, "System.UInt32"),
    (i8, "System.Int64"), (u8, "System.UInt64"), (r4, "System.Single"), (r8, "System.Double"),
    (i, "System.IntPtr"), (u, "System.UIntPtr"), (string, "System.String"),
    (object, "System.Object")].lookup elementType

/-- The token of a type; the nil token, which is returned after a failure, is an error here.
Source: `clr_helpers.cpp`, `FunctionMethodArgument::GetTypeTok` -/
def GetTypeTok (type : List UInt8) : Fallible mdToken := do
  let pbCur := if type.headD 0 == byRef then type.tail else type
  match corLibTypeName (pbCur.headD 0) with
  | some name => do
      let s ← get
      let typeRef ← define .GetTypeTok none
        (.DefineTypeRefByName (s.value .corLibAssemblyRef) name)
      return typeRef.val
  | none =>
      if pbCur.headD 0 ∈ [genericInst, szArray, mVar, var] then do
        let typeSpec ← define .GetTypeTok none (.GetTokenFromTypeSpec pbCur)
        return typeSpec.val
      else if pbCur.headD 0 ∈ [class_, valueType] then
        match corSigUncompressToken pbCur 1 with
        | .ok (token, _) => return UInt32.ofNat token
        | .error _ => throw mdTokenNil
      else throw mdTokenNil

/-! ## The locals -/

/-- The last local is a `CallTargetState`, which has the reference `ref`. -/
def isRewritten (outside : Bool) (ref : mdToken) (signature : List UInt8) : Bool :=
  match alreadyRewritten
    { objectTypeRef := mdTypeRefNil, exTypeRef := mdTypeRefNil, typeRef := mdTypeRefNil
      runtimeTypeHandleRef := mdTypeRefNil, callTargetStateTypeRef := ref
      callTargetReturnVoidTypeRef := mdTypeRefNil, callTargetReturnTypeRef := mdTypeRefNil }
    signature with
  | .ok rewritten => rewritten
  | .error _ => outside

/-- The signature of the locals that a method has.
Source: `calltarget_tokens.cpp`, `CallTargetTokens::ModifyLocalSig` -/
def originalLocals (m : CallTargetMethod) : Fallible (Option LocalVarSig) := do
  let s ← get
  if s.rewriter.tkLocalVarSig = 0 then pure none
  else do
    let stored ← (Procedure.ask (⟨.ModifyLocalSigAndInitialize, none,
      .GetSigFromToken s.rewriter.tkLocalVarSig (s.value .callTargetStateTypeRef)⟩ : Call) :
        Fallible StoredSig)
    if isRewritten m.outside (s.value .callTargetStateTypeRef) stored.val.bytes then throw E_FAIL
    else pure (some stored.val)

/-- Source: `calltarget_tokens.cpp`, `CallTargetTokens::ModifyLocalSig` -/
def returnLocals (m : CallTargetMethod) : Fallible ReturnLocals :=
  if (GetTypeFlags m.ret.bytes).1 ≠ TypeFlagVoid then do
    let callTargetReturn ← GetTargetReturnValueTypeRef .ModifyLocalSigAndInitialize m
    let callTargetReturnSignature ← failsWith E_FAIL (Procedure.ask (⟨.ModifyLocalSigAndInitialize,
      none, .GetTypeSpecFromToken callTargetReturn.value⟩ : Call) : Fallible (List UInt8))
    pure
      { returnSignatureType := some m.ret.bytes
        callTargetReturn := callTargetReturn.value
        callTargetReturnChunks := [callTargetReturnSignature]
        callTargetReturnSize := UInt32.ofNat callTargetReturnSignature.length
        newLocalsCount := 3 + 1 }
  else do
    let callTargetReturn ← GetTargetVoidReturnTypeRef .ModifyLocalSigAndInitialize
    pure
      { returnSignatureType := none
        callTargetReturn := callTargetReturn.value
        callTargetReturnChunks := [[valueType], tokenBytes callTargetReturn.value]
        callTargetReturnSize := 1 + UInt32.ofNat (tokenBytes callTargetReturn.value).length
        newLocalsCount := 3 }

/-- Source: `calltarget_tokens.cpp`, `CallTargetTokens::ModifyLocalSig` -/
def ModifyLocalSig (m : CallTargetMethod) : Fallible LocalSig := do
  EnsureBaseCalltargetTokens .ModifyLocalSigAndInitialize
  let locals ← originalLocals m
  let r ← returnLocals m
  match oldLocals (signatureOf locals) r.newLocalsCount with
  -- the count of the locals always has an encoding
  | .error _ => throw E_FAIL
  | .ok o => do
      let s ← get
      let chunks := newSignatureChunks s.refs r o
      let size := newSignatureSize s.refs r o (signatureOf locals)
      let newLocalVarSig ← define .ModifyLocalSigAndInitialize none
        (.GetTokenFromSig (chunks.flatten.take size.toNat))
      modify fun s =>
        { s with rewriter := { s.rewriter with tkLocalVarSig := newLocalVarSig.val.toNat } }
      pure
        { newLocalVarSig := newLocalVarSig.val
          newSignature := chunks.flatten.take size.toNat
          newSignatureSize := size
          newSignatureOffset := chunks.flatten.length
          returnValueIndex :=
            if r.returnSignatureType.isSome then o.newLocalsCount - 4 else ULONG_MAX
          exceptionIndex := o.newLocalsCount - 3
          callTargetReturnIndex := o.newLocalsCount - 2
          callTargetStateIndex := o.newLocalsCount - 1
          callTargetStateToken := s.value .callTargetStateTypeRef
          exceptionToken := s.value .exTypeRef
          callTargetReturnToken := r.callTargetReturn }

/-- The out-parameters of `ModifyLocalSigAndInitialize` that are used. -/
structure Locals where
  callTargetStateIndex : Out UInt32
  exceptionIndex : Out UInt32
  callTargetReturnIndex : Out UInt32
  returnValueIndex : Out UInt32
  callTargetReturnToken : Out mdToken
  firstInstruction : Out InstrRef

/-- What the out-parameters hold before.
Source: `cor_profiler.cpp`, `CorProfiler::CallTarget_RewriterCallback` -/
def Locals.initial (m : CallTargetMethod) : Locals where
  callTargetStateIndex := ⟨ULONG_MAX, false⟩
  exceptionIndex := ⟨ULONG_MAX, false⟩
  callTargetReturnIndex := ⟨ULONG_MAX, false⟩
  returnValueIndex := ⟨ULONG_MAX, false⟩
  callTargetReturnToken := ⟨mdTokenNil, false⟩
  firstInstruction := ⟨m.uninitialized, false⟩

/-- A default value, and whether there is one, which is noted. -/
def defaultValue (x : Rewrite (Out mdToken)) : Rewrite InstrRef := do
  let token ← x
  modify fun s => s.note .DefaultValue token.assigned
  CallMember token

/-- The locals of the return value and of the `CallTargetReturn` are initialized.
Source: `calltarget_tokens.cpp`, `CallTargetTokens::ModifyLocalSigAndInitialize` -/
def initializeReturn (m : CallTargetMethod) (sig : LocalSig) : Rewrite InstrRef :=
  if sig.returnValueIndex ≠ ULONG_MAX then do
    let firstInstruction ← defaultValue
      (GetCallTargetDefaultValueMethodSpec .ModifyLocalSigAndInitialize m)
    let _ ← StLocal ⟨sig.returnValueIndex, true⟩
    let _ ← defaultValue (GetCallTargetReturnValueDefaultMemberRef .ModifyLocalSigAndInitialize
      sig.callTargetReturnToken)
    let _ ← StLocal ⟨sig.callTargetReturnIndex, true⟩
    pure firstInstruction
  else do
    let firstInstruction ← defaultValue
      (GetCallTargetReturnVoidDefaultMemberRef .ModifyLocalSigAndInitialize)
    let _ ← StLocal ⟨sig.callTargetReturnIndex, true⟩
    pure firstInstruction

/-- The local of the exception is initialized, and the out-parameters are assigned.
Source: `calltarget_tokens.cpp`, `CallTargetTokens::ModifyLocalSigAndInitialize` -/
def finishLocals (sig : LocalSig) (firstInstruction : InstrRef) : Rewrite Locals := do
  let _ ← LoadNull
  let _ ← StLocal ⟨sig.exceptionIndex, true⟩
  modify fun s => s.note .ModifyLocalSigAndInitialize true
  pure
    { callTargetStateIndex := ⟨sig.callTargetStateIndex, true⟩
      exceptionIndex := ⟨sig.exceptionIndex, true⟩
      callTargetReturnIndex := ⟨sig.callTargetReturnIndex, true⟩
      returnValueIndex := ⟨sig.returnValueIndex, sig.returnValueIndex ≠ ULONG_MAX⟩
      callTargetReturnToken := ⟨sig.callTargetReturnToken, true⟩
      firstInstruction := ⟨firstInstruction, true⟩ }

/-- Source: `calltarget_tokens.cpp`, `CallTargetTokens::ModifyLocalSigAndInitialize` -/
def ModifyLocalSigAndInitialize (m : CallTargetMethod) : Rewrite Locals := do
  match ← (ModifyLocalSig m).run with
  | .error _ => do
      modify fun s => s.note .ModifyLocalSigAndInitialize false
      pure (Locals.initial m)
  | .ok sig => do
      let firstInstruction ← initializeReturn m sig
      finishLocals sig firstInstruction

/-! ## Calls of `CallTargetInvoker` -/

/-- Call an instance of a method of `CallTargetInvoker` whose token is kept. -/
def writeCall (caller : Caller) (slot : Slot) (methodSpec : CallTargetTokens → Builder) :
    Fallible InstrRef := do
  EnsureBaseCalltargetTokens caller
  ensure caller slot
  let s ← get
  let token ← define caller none
    (.DefineMethodSpec (s.value slot) (signature (methodSpec s.refs)))
  CallMember ⟨token.val, true⟩

/-- Source: `calltarget_tokens.cpp`, `CallTargetTokens::WriteBeginMethodWithArgumentsArray` -/
def WriteBeginMethodWithArgumentsArray (m : CallTargetMethod) : Fallible InstrRef :=
  writeCall .WriteBeginMethod .beginArrayMemberRef fun t => beginArrayMethodSpec t m.described

/-- Source: `calltarget_tokens.cpp`, `CallTargetTokens::WriteBeginMethod` -/
def WriteBeginMethod (m : CallTargetMethod) : Fallible InstrRef :=
  if m.numArgs ≥ FASTPATH_COUNT then do
    EnsureBaseCalltargetTokens .WriteBeginMethod
    WriteBeginMethodWithArgumentsArray m
  else
    writeCall .WriteBeginMethod (.beginMethodFastPathRefs m.numArgs) fun t =>
      beginMethodSpec t m.described

/-- Source: `calltarget_tokens.cpp`, `CallTargetTokens::WriteEndVoidReturnMemberRef` -/
def WriteEndVoidReturnMemberRef (m : CallTargetMethod) : Fallible InstrRef :=
  writeCall .WriteEndReturnMemberRef .endVoidMemberRef fun t => endVoidMethodSpec t m.described

/-- Source: `calltarget_tokens.cpp`, `CallTargetTokens::WriteEndReturnMemberRef` -/
def WriteEndReturnMemberRef (m : CallTargetMethod) : Fallible InstrRef := do
  EnsureBaseCalltargetTokens .WriteEndReturnMemberRef
  -- the result is not looked at
  let _ ← GetTargetReturnValueTypeRef .WriteEndReturnMemberRef m
  let s ← get
  let memberRef ← define .WriteEndReturnMemberRef none
    (.DefineMemberRef (s.value .callTargetTypeRef) "EndMethod" (signature (endMethodMemberRef s.refs)))
  let methodSpec ← define .WriteEndReturnMemberRef none
    (.DefineMethodSpec memberRef.val (signature (endMethodSpec s.refs m.described)))
  CallMember ⟨methodSpec.val, true⟩

/-- Source: `calltarget_tokens.cpp`, `CallTargetTokens::WriteLogException` -/
def WriteLogException (m : CallTargetMethod) : Fallible InstrRef :=
  writeCall .WriteLogException .logExceptionRef fun t => logExceptionMethodSpec t m.described

/-- After a failure the nil token is returned as an `HRESULT`.
Source: `calltarget_tokens.cpp`, `CallTargetTokens::WriteCallTargetReturnGetReturnValue` -/
def WriteCallTargetReturnGetReturnValue (callTargetReturnTypeSpec : mdToken) : Fallible InstrRef := do
  let memberRef ← failsWith mdMemberRefNil do
    EnsureBaseCalltargetTokens .WriteCallTargetReturnGetReturnValue
    define .WriteCallTargetReturnGetReturnValue none (.DefineMemberRef callTargetReturnTypeSpec
      "GetReturnValue" (signature callTargetReturnGetValueMemberRef))
  CallMember ⟨memberRef.val, true⟩

end DdTrace.Profiler.Rewriting
