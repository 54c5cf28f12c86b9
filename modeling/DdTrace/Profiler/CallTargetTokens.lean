import DdTrace.Profiler.LocalSignature

/-!
# The signatures that refer to `CallTarget`

The profiler builds the signatures of the methods of `CallTargetInvoker` and of their instances in
arrays of `signatureBufferSize` bytes.

* `Builder`: one such signature, with the length that is stated; one definition for each.
* `builders_stated`: the length of each is that of what is written.
* `rewriteWrites`: the writes that are made for a method that is rewritten.
* `rewriteWrites_inside_iff`: all of them stay inside the arrays exactly if the types of the method
  leave room.

The metadata calls are taken to succeed; one that fails ends the function that makes it.

Source: `calltarget_tokens.cpp`; `calltarget_tokens.h`, `FASTPATH_COUNT`.
-/

namespace DdTrace.Profiler

open DdTrace.Lib CorElementType

/-! ## A method that is rewritten -/

/-- `IMAGE_CEE_CS_CALLCONV_DEFAULT`. -/
abbrev callConvDefault : UInt8 := 0x00
/-- `IMAGE_CEE_CS_CALLCONV_GENERICINST`. -/
abbrev callConvGenericInst : UInt8 := 0x0a
/-- `IMAGE_CEE_CS_CALLCONV_HASTHIS`. -/
abbrev callConvHasThis : UInt8 := 0x20

/-- Source: `calltarget_tokens.h`, `FASTPATH_COUNT` -/
def FASTPATH_COUNT : Nat := 9

/-- Source: `clr_helpers.h`, `TypeInfo`, without its parent type -/
structure CurrentTypeInfo where
  id : mdToken
  type_spec : mdToken
  valueType : Bool
  isGeneric : Bool
  deriving DecidableEq, Repr

/-- A parameter type that the parser accepts. -/
structure ParamType where
  bytes : List UInt8
  parsed : IsByRefType accepted .param bytes

/-- A method that is rewritten, with its integration. -/
structure RewrittenMethod where
  localVarSig : Option LocalVarSig
  ret : ReturnType
  methodArguments : List ParamType
  integrationTypeRef : mdToken
  currentType : CurrentTypeInfo
  /-- The parent type of the type, its parent type and so on. -/
  parents : List CurrentTypeInfo

/-- The loop of `GetCurrentTypeRef`: the token of the outermost type, if none is generic.
Source: `calltarget_tokens.cpp`, `CallTargetTokens::GetCurrentTypeRef` -/
def outermost (t : CallTargetTokens) (isValueType : Bool) (cType : CurrentTypeInfo) :
    List CurrentTypeInfo → mdToken × Bool
  | [] => if cType.isGeneric then (t.objectTypeRef, false) else (cType.id, isValueType)
  | parent :: parents =>
      if cType.isGeneric then (t.objectTypeRef, false) else outermost t isValueType parent parents

/-- The token of the type of a method and whether it is a value type.
Source: `calltarget_tokens.cpp`, `CallTargetTokens::GetCurrentTypeRef` -/
def GetCurrentTypeRef (t : CallTargetTokens) (currentType : CurrentTypeInfo)
    (parents : List CurrentTypeInfo) :
    mdToken × Bool :=
  if currentType.type_spec ≠ mdTypeSpecNil then (currentType.type_spec, currentType.valueType)
  else outermost t currentType.valueType currentType parents

namespace RewrittenMethod

/-- The token of the type of a method. -/
def currentTypeRef (t : CallTargetTokens) (method : RewrittenMethod) : mdToken :=
  (GetCurrentTypeRef t method.currentType method.parents).1

/-- The element type of the type of a method. -/
def currentElementType (t : CallTargetTokens) (method : RewrittenMethod) : UInt8 :=
  if (GetCurrentTypeRef t method.currentType method.parents).2 then valueType else class_

end RewrittenMethod

/-! ## The builders -/

/-- A signature: the tokens that are compressed for it, what is written, and its length. -/
structure Builder where
  compressed : List mdToken
  chunks : List (List UInt8)
  signatureLength : Nat

/-- The writes of a builder: each token into a variable of four bytes, and the signature. -/
def Builder.writes (b : Builder) : List WriteRange :=
  (b.compressed.map fun tk => ⟨4, 0, (tokenBytes tk).length⟩) ++
    ranges signatureBufferSize 0 b.chunks

variable (t : CallTargetTokens) (method : RewrittenMethod)

/-- `Type.GetTypeFromHandle`. Source: `EnsureCorLibTokens` -/
def getTypeFromHandle : Builder where
  compressed := [t.runtimeTypeHandleRef, t.typeRef]
  chunks := [[callConvDefault], [0x01], [class_], tokenBytes t.typeRef, [valueType],
    tokenBytes t.runtimeTypeHandleRef]
  signatureLength :=
    4 + (tokenBytes t.typeRef).length + (tokenBytes t.runtimeTypeHandleRef).length

/-- A method without parameters that returns a value type. -/
def getDefault (tk : mdToken) : Builder where
  compressed := [tk]
  chunks := [[callConvDefault], [0x00], [valueType], tokenBytes tk]
  signatureLength := 3 + (tokenBytes tk).length

/-- `CallTargetState.GetDefault`. Source: `EnsureBaseCalltargetTokens` -/
def callTargetStateTypeGetDefault : Builder := getDefault t.callTargetStateTypeRef

/-- `CallTargetReturn.GetDefault`. Source: `GetCallTargetReturnVoidDefaultMemberRef` -/
def callTargetReturnVoidTypeGetDefault : Builder := getDefault t.callTargetReturnVoidTypeRef

/-- `CallTargetReturn<T>`. Source: `GetTargetReturnValueTypeRef` -/
def returnValueTypeSpec : Builder where
  compressed := [t.callTargetReturnTypeRef]
  chunks := typeSpecChunks t method.ret.bytes
  signatureLength :=
    3 + (tokenBytes t.callTargetReturnTypeRef).length + method.ret.bytes.length

/-- `CallTargetReturn<T>.GetDefault`. Source: `GetCallTargetReturnValueDefaultMemberRef` -/
def callTargetReturnTypeGetDefault : Builder where
  compressed := [t.callTargetReturnTypeRef]
  chunks := [[callConvDefault], [0x00], [genericInst], [valueType],
    tokenBytes t.callTargetReturnTypeRef, [0x01], [var], [0x00]]
  signatureLength := 7 + (tokenBytes t.callTargetReturnTypeRef).length

/-- `GetDefaultValue<T>`. Source: `GetCallTargetDefaultValueMethodSpec` -/
def getDefaultMemberRef : Builder where
  compressed := []
  chunks := [[callConvGeneric], [0x01], [0x00], [mVar], [0x00]]
  signatureLength := 5

/-- An instance of `GetDefaultValue<T>`. Source: `GetCallTargetDefaultValueMethodSpec` -/
def getDefaultMethodSpec : Builder where
  compressed := []
  chunks := [[callConvGenericInst], [0x01], method.ret.bytes]
  signatureLength := 2 + method.ret.bytes.length

/-- `BeginMethod` with an array. Source: `WriteBeginMethodWithArgumentsArray` -/
def beginArrayMemberRef : Builder where
  compressed := [t.callTargetStateTypeRef]
  chunks := [[callConvGeneric], [0x02], [0x02], [valueType], tokenBytes t.callTargetStateTypeRef,
    [mVar], [0x01], [szArray], [object]]
  signatureLength := 8 + (tokenBytes t.callTargetStateTypeRef).length

/-- `BeginMethod` with arguments. Source: `WriteBeginMethod` -/
def beginMethodFastPathRef (numArguments : Nat) : Builder where
  compressed := [t.callTargetStateTypeRef]
  chunks := [[callConvGeneric], [UInt8.ofNat (0x02 + numArguments)],
    [UInt8.ofNat (0x01 + numArguments)], [valueType], tokenBytes t.callTargetStateTypeRef,
    [mVar], [0x01]] ++
    (List.range numArguments).flatMap fun i => [[mVar], [UInt8.ofNat (0x01 + (i + 1))]]
  signatureLength := 6 + numArguments * 2 + (tokenBytes t.callTargetStateTypeRef).length

/-- `EndMethod` of a method that returns nothing. Source: `WriteEndVoidReturnMemberRef` -/
def endVoidMemberRef : Builder where
  compressed := [t.callTargetReturnVoidTypeRef, t.exTypeRef, t.callTargetStateTypeRef]
  chunks := [[callConvGeneric], [0x02], [0x03], [valueType],
    tokenBytes t.callTargetReturnVoidTypeRef, [mVar], [0x01], [class_], tokenBytes t.exTypeRef,
    [valueType], tokenBytes t.callTargetStateTypeRef]
  signatureLength := 8 + (tokenBytes t.callTargetReturnVoidTypeRef).length +
    (tokenBytes t.exTypeRef).length + (tokenBytes t.callTargetStateTypeRef).length

/-- `EndMethod` of a method that returns a value. Source: `WriteEndReturnMemberRef` -/
def endMethodMemberRef : Builder where
  compressed := [t.callTargetReturnTypeRef, t.exTypeRef, t.callTargetStateTypeRef]
  chunks := [[callConvGeneric], [0x03], [0x04], [genericInst], [valueType],
    tokenBytes t.callTargetReturnTypeRef, [0x01], [mVar], [0x02], [mVar], [0x01], [mVar], [0x02],
    [class_], tokenBytes t.exTypeRef, [valueType], tokenBytes t.callTargetStateTypeRef]
  signatureLength := 14 + (tokenBytes t.callTargetReturnTypeRef).length +
    (tokenBytes t.exTypeRef).length + (tokenBytes t.callTargetStateTypeRef).length

/-- `LogException`. Source: `WriteLogException` -/
def logExceptionRef : Builder where
  compressed := [t.exTypeRef]
  chunks := [[callConvGeneric], [0x02], [0x01], [void], [class_], tokenBytes t.exTypeRef]
  signatureLength := 5 + (tokenBytes t.exTypeRef).length

/-- `CallTargetReturn<T>.GetReturnValue`. Source: `WriteCallTargetReturnGetReturnValue` -/
def callTargetReturnGetValueMemberRef : Builder where
  compressed := []
  chunks := [[callConvDefault ||| callConvHasThis], [0x00], [var], [0x00]]
  signatureLength := 4

/-- An instance of a method of `CallTargetInvoker`: the integration, the type of the method, and
further types. -/
def methodSpec (genArgCount : UInt8) (types : List (List UInt8)) : Builder where
  compressed := [method.integrationTypeRef, method.currentTypeRef t]
  chunks := [[callConvGenericInst], [genArgCount], [class_], tokenBytes method.integrationTypeRef,
    [method.currentElementType t], tokenBytes (method.currentTypeRef t)] ++ types
  signatureLength := 4 + (tokenBytes method.integrationTypeRef).length +
    (tokenBytes (method.currentTypeRef t)).length + (types.map List.length).sum

/-- Source: `WriteBeginMethodWithArgumentsArray` -/
def beginArrayMethodSpec : Builder := methodSpec t method 0x02 []

/-- Source: `WriteBeginMethod` -/
def beginMethodSpec : Builder :=
  methodSpec t method (UInt8.ofNat (0x02 + method.methodArguments.length))
    (method.methodArguments.map ParamType.bytes)

/-- Source: `WriteEndVoidReturnMemberRef` -/
def endVoidMethodSpec : Builder := methodSpec t method 0x02 []

/-- Source: `WriteEndReturnMemberRef` -/
def endMethodSpec : Builder := methodSpec t method 0x03 [method.ret.bytes]

/-- Source: `WriteLogException` -/
def logExceptionMethodSpec : Builder := methodSpec t method 0x02 []

/-! ## The writes for a method -/

/-- The builders that are used for every method. -/
def commonBuilders : List Builder :=
  [getTypeFromHandle t, callTargetStateTypeGetDefault t, logExceptionRef t,
    logExceptionMethodSpec t method]

/-- The builders of `WriteBeginMethod`. -/
def beginBuilders : List Builder :=
  if method.methodArguments.length ≥ FASTPATH_COUNT then
    [beginArrayMemberRef t, beginArrayMethodSpec t method]
  else [beginMethodFastPathRef t method.methodArguments.length, beginMethodSpec t method]

/-- The builders that are used by the return type. -/
def returnBuilders : List Builder :=
  if method.ret.bytes = [void] then
    [callTargetReturnVoidTypeGetDefault t, endVoidMemberRef t, endVoidMethodSpec t method]
  else
    [returnValueTypeSpec t method, getDefaultMemberRef, getDefaultMethodSpec method,
      callTargetReturnTypeGetDefault t, endMethodMemberRef t, endMethodSpec t method,
      callTargetReturnGetValueMemberRef]

/-- The writes of `WriteBeginMethod` into its arrays of the arguments, one of each argument. -/
def argumentWrites : List WriteRange :=
  if method.methodArguments.length ≥ FASTPATH_COUNT then []
  else (List.range method.methodArguments.length).flatMap fun i =>
    [⟨FASTPATH_COUNT, i, 1⟩, ⟨FASTPATH_COUNT, i, 1⟩]

/-- The check of the signature of a method, if it has one.
Source: `calltarget_tokens.cpp`, `CallTargetTokens::ModifyLocalSig` -/
def checkRewritten (sig : Option LocalVarSig) : Except Failure Bool :=
  match sig with
  | some s => alreadyRewritten t s.bytes
  | none => .ok false

/-- The writes of `ModifyLocalSig`, which makes none for a signature that it has rewritten. A
signature that is too short for the check is read outside, and the writes follow; of a count that
is too large for a compressed number `(ULONG) -1` bytes are copied. -/
def modifyLocalSigWrites (m : Metadata) : List WriteRange :=
  if checkRewritten t method.localVarSig = .ok true then []
  else
    ([t.callTargetStateTypeRef, t.exTypeRef].map fun tk => ⟨4, 0, (tokenBytes tk).length⟩) ++
      match returnLocals t m method.ret.bytes with
      | .error _ => []
      | .ok r =>
          match oldLocals (signatureOf method.localVarSig) r.newLocalsCount with
          | .error _ => [⟨signatureBufferSize, 1, 2 ^ 32 - 1⟩]
          | .ok o => ranges signatureBufferSize 0 (newSignatureChunks t r o)

/-- The builders that are used for a method. -/
def builders : List Builder :=
  commonBuilders t method ++ beginBuilders t method ++ returnBuilders t method

/-- All writes into fixed-size variables and arrays for a method that is rewritten. -/
def rewriteWrites (m : Metadata) : List WriteRange :=
  (builders t method).flatMap Builder.writes ++ argumentWrites method ++
    modifyLocalSigWrites t method m

/-! ## The room there is -/

/-- The types of a method leave room: the new local signature, if it is written, the type
`CallTargetReturn<T>`, and the instances of `EndMethod` and of `BeginMethod` with arguments. -/
structure RoomFor (m : Metadata) : Prop where
  localSig : (∀ s, method.localVarSig = some s →
      (tokenBytes t.callTargetStateTypeRef).length ≤ s.bytes.length →
      ¬callTargetStateLocal t <:+ s.bytes) →
    (method.ret.bytes ≠ [void] →
      (m.GetTokenFromTypeSpec (typeSpecSignature t method.ret.bytes)).isSome = true) →
    extendedLength t (localsOf method.localVarSig) method.ret.bytes ≤ signatureBufferSize
  typeSpec : method.ret.bytes ≠ [void] →
    3 + (tokenBytes t.callTargetReturnTypeRef).length + method.ret.bytes.length ≤
      signatureBufferSize
  endMethod : method.ret.bytes ≠ [void] →
    4 + (tokenBytes method.integrationTypeRef).length +
      (tokenBytes (method.currentTypeRef t)).length + method.ret.bytes.length ≤ signatureBufferSize
  beginMethod : method.methodArguments.length < FASTPATH_COUNT →
    4 + (tokenBytes method.integrationTypeRef).length +
      (tokenBytes (method.currentTypeRef t)).length +
      (method.methodArguments.map fun a => a.bytes.length).sum ≤ signatureBufferSize

/-! ## The builders write what they state -/

variable {t method}

theorem stated_getDefault (tk : mdToken) :
    (getDefault tk).signatureLength = (getDefault tk).chunks.flatten.length := by
  simp [getDefault]
  omega

theorem stated_methodSpec (genArgCount : UInt8) (types : List (List UInt8)) :
    (methodSpec t method genArgCount types).signatureLength =
      (methodSpec t method genArgCount types).chunks.flatten.length := by
  simp [methodSpec, List.length_flatten]
  omega

/-- The parameters of `BeginMethod` have two bytes each. -/
theorem stated_beginMethodFastPathRef (numArguments : Nat) :
    (beginMethodFastPathRef t numArguments).signatureLength =
      (beginMethodFastPathRef t numArguments).chunks.flatten.length := by
  have hparams : ∀ l : List Nat, (l.flatMap fun i =>
      [[mVar], [UInt8.ofNat (0x01 + (i + 1))]]).flatten.length = 2 * l.length := by
    intro l
    induction l with
    | nil => rfl
    | cons i l ih =>
        rw [List.flatMap_cons, List.flatten_append, List.length_append, ih, List.length_cons]
        simp
        omega
  have h := hparams (List.range numArguments)
  rw [List.length_range] at h
  simp only [beginMethodFastPathRef, List.flatten_append, List.length_append, h]
  simp
  omega

/-- **The length that is stated is that of what is written.** -/
theorem builders_stated :
    ∀ b ∈ builders t method, b.signatureLength = b.chunks.flatten.length := by
  intro b hb
  simp only [builders, List.mem_append] at hb
  rcases hb with (hb | hb) | hb
  · simp only [commonBuilders, List.mem_cons, List.not_mem_nil, or_false] at hb
    rcases hb with rfl | rfl | rfl | rfl
    · simp [getTypeFromHandle]
      omega
    · exact stated_getDefault _
    · simp [logExceptionRef]
      omega
    · exact stated_methodSpec _ _
  · rw [beginBuilders] at hb
    split at hb
    · simp only [List.mem_cons, List.not_mem_nil, or_false] at hb
      rcases hb with rfl | rfl
      · simp [beginArrayMemberRef]
        omega
      · exact stated_methodSpec _ _
    · simp only [List.mem_cons, List.not_mem_nil, or_false] at hb
      rcases hb with rfl | rfl
      · exact stated_beginMethodFastPathRef _
      · exact stated_methodSpec _ _
  · rw [returnBuilders] at hb
    split at hb
    · simp only [List.mem_cons, List.not_mem_nil, or_false] at hb
      rcases hb with rfl | rfl | rfl
      · exact stated_getDefault _
      · simp [endVoidMemberRef]
        omega
      · exact stated_methodSpec _ _
    · simp only [List.mem_cons, List.not_mem_nil, or_false] at hb
      rcases hb with rfl | rfl | rfl | rfl | rfl | rfl | rfl
      · simp [returnValueTypeSpec, typeSpecChunks]
        omega
      · rfl
      · simp [getDefaultMethodSpec]
        omega
      · simp [callTargetReturnTypeGetDefault]
        omega
      · simp [endMethodMemberRef]
        omega
      · exact stated_methodSpec _ _
      · rfl

/-! ## The builders stay inside -/

/-- The variable of a token has room for it. -/
theorem inside_compressed (compressed : List mdToken) :
    ∀ w ∈ compressed.map fun tk => (⟨4, 0, (tokenBytes tk).length⟩ : WriteRange), w.Inside := by
  intro w hw
  obtain ⟨tk, -, rfl⟩ := List.mem_map.mp hw
  show 0 + (tokenBytes tk).length ≤ 4
  rw [Nat.zero_add]
  exact (length_tokenBytes tk).2

/-- A builder stays inside exactly if its signature fits. -/
theorem inside_writes_iff {b : Builder} :
    (∀ w ∈ b.writes, w.Inside) ↔ b.chunks.flatten.length ≤ signatureBufferSize := by
  rw [Builder.writes, List.forall_mem_append, inside_ranges_iff (Nat.zero_le _), Nat.zero_add]
  exact and_iff_right (inside_compressed b.compressed)

/-- The signatures that have only tokens in them are short. -/
theorem length_getDefault_le (tk : mdToken) :
    (getDefault tk).signatureLength ≤ signatureBufferSize := by
  have htk := (length_tokenBytes tk).2
  show 3 + _ ≤ 500
  omega

/-- An instance without further types is short. -/
theorem length_methodSpec_le (genArgCount : UInt8) :
    (methodSpec t method genArgCount []).signatureLength ≤ signatureBufferSize := by
  have hintegration := (length_tokenBytes method.integrationTypeRef).2
  have hcurrent := (length_tokenBytes (method.currentTypeRef t)).2
  show 4 + _ + _ + 0 ≤ 500
  omega

theorem commonBuilders_short :
    ∀ b ∈ commonBuilders t method, b.signatureLength ≤ signatureBufferSize := by
  have htype := (length_tokenBytes t.typeRef).2
  have hhandle := (length_tokenBytes t.runtimeTypeHandleRef).2
  have hex := (length_tokenBytes t.exTypeRef).2
  intro b hb
  simp only [commonBuilders, List.mem_cons, List.not_mem_nil, or_false] at hb
  rcases hb with rfl | rfl | rfl | rfl
  · show 4 + _ + _ ≤ 500
    omega
  · exact length_getDefault_le _
  · show 5 + _ ≤ 500
    omega
  · exact length_methodSpec_le _

/-- `BeginMethod` with an array needs no room for the arguments. -/
theorem beginBuilders_short_iff :
    (∀ b ∈ beginBuilders t method, b.signatureLength ≤ signatureBufferSize) ↔
      (method.methodArguments.length < FASTPATH_COUNT →
        4 + (tokenBytes method.integrationTypeRef).length +
          (tokenBytes (method.currentTypeRef t)).length +
          (method.methodArguments.map fun a => a.bytes.length).sum ≤ signatureBufferSize) := by
  have hstate := (length_tokenBytes t.callTargetStateTypeRef).2
  unfold beginBuilders
  split
  · rename_i hmany
    refine iff_of_true ?_ fun hfew => absurd hfew (Nat.not_lt_of_le hmany)
    intro b hb
    simp only [List.mem_cons, List.not_mem_nil, or_false] at hb
    rcases hb with rfl | rfl
    · show 8 + _ ≤ 500
      omega
    · exact length_methodSpec_le _
  · rename_i hfew
    have hfew := Nat.lt_of_not_le hfew
    have hpath : (beginMethodFastPathRef t method.methodArguments.length).signatureLength ≤
        signatureBufferSize := by
      have hnine : FASTPATH_COUNT = 9 := rfl
      show 6 + method.methodArguments.length * 2 + _ ≤ 500
      omega
    have hspec : (beginMethodSpec t method).signatureLength =
        4 + (tokenBytes method.integrationTypeRef).length +
          (tokenBytes (method.currentTypeRef t)).length +
          (method.methodArguments.map fun a => a.bytes.length).sum := by
      rw [beginMethodSpec, methodSpec, List.map_map]
      rfl
    rw [List.forall_mem_cons, List.forall_mem_singleton, hspec]
    exact ⟨fun h _ => h.2, fun h => ⟨hpath, h hfew⟩⟩

/-- A return value needs room in `CallTargetReturn<T>` and in the instance of `EndMethod`. -/
theorem returnBuilders_short_iff :
    (∀ b ∈ returnBuilders t method, b.signatureLength ≤ signatureBufferSize) ↔
      (method.ret.bytes ≠ [void] →
        3 + (tokenBytes t.callTargetReturnTypeRef).length + method.ret.bytes.length ≤
          signatureBufferSize) ∧
      (method.ret.bytes ≠ [void] →
        4 + (tokenBytes method.integrationTypeRef).length +
          (tokenBytes (method.currentTypeRef t)).length + method.ret.bytes.length ≤
          signatureBufferSize) := by
  have hvoid := (length_tokenBytes t.callTargetReturnVoidTypeRef).2
  have hreturn := (length_tokenBytes t.callTargetReturnTypeRef).2
  have hex := (length_tokenBytes t.exTypeRef).2
  have hstate := (length_tokenBytes t.callTargetStateTypeRef).2
  have hsize : signatureBufferSize = 500 := rfl
  unfold returnBuilders
  split
  · rename_i hret
    refine iff_of_true ?_ ⟨fun hne => absurd hret hne, fun hne => absurd hret hne⟩
    intro b hb
    simp only [List.mem_cons, List.not_mem_nil, or_false] at hb
    rcases hb with rfl | rfl | rfl
    · exact length_getDefault_le _
    · show 8 + _ + _ + _ ≤ 500
      omega
    · exact length_methodSpec_le _
  · rename_i hret
    have hspec : (endMethodSpec t method).signatureLength =
        4 + (tokenBytes method.integrationTypeRef).length +
          (tokenBytes (method.currentTypeRef t)).length + method.ret.bytes.length := rfl
    constructor
    · intro h
      refine ⟨fun _ => ?_, fun _ => ?_⟩
      · exact h (returnValueTypeSpec t method) List.mem_cons_self
      · rw [← hspec]
        exact h (endMethodSpec t method) (by simp)
    · rintro ⟨htypeSpec, hend⟩ b hb
      have htypeSpec := htypeSpec hret
      have hend := hend hret
      simp only [List.mem_cons, List.not_mem_nil, or_false] at hb
      rcases hb with rfl | rfl | rfl | rfl | rfl | rfl | rfl
      · exact htypeSpec
      · show 5 ≤ 500
        decide
      · show 2 + _ ≤ 500
        omega
      · show 7 + _ ≤ 500
        omega
      · show 14 + _ + _ + _ ≤ 500
        omega
      · rw [hspec]
        exact hend
      · show 4 ≤ 500
        decide

/-- The arrays of the arguments have room for as many as are passed without an array. -/
theorem argumentWrites_inside : ∀ w ∈ argumentWrites method, w.Inside := by
  intro w hw
  rw [argumentWrites] at hw
  split at hw
  · cases hw
  · rename_i hfew
    obtain ⟨i, hi, hw⟩ := List.mem_flatMap.mp hw
    rw [List.mem_range] at hi
    simp only [List.mem_cons, List.not_mem_nil, or_false, or_self] at hw
    subst hw
    show i + 1 ≤ FASTPATH_COUNT
    omega

/-! ## `ModifyLocalSig` stays inside -/

/-- The new local signature stays inside exactly if it fits, where it is written. -/
theorem modifyLocalSigWrites_inside_iff {m : Metadata}
    (htypeSpec : method.ret.bytes ≠ [void] →
      (typeSpecSignature t method.ret.bytes).length ≤ signatureBufferSize) :
    (∀ w ∈ modifyLocalSigWrites t method m, w.Inside) ↔
      ((∀ s, method.localVarSig = some s →
          (tokenBytes t.callTargetStateTypeRef).length ≤ s.bytes.length →
          ¬callTargetStateLocal t <:+ s.bytes) →
        (method.ret.bytes ≠ [void] →
          (m.GetTokenFromTypeSpec (typeSpecSignature t method.ret.bytes)).isSome = true) →
        extendedLength t (localsOf method.localVarSig) method.ret.bytes ≤ signatureBufferSize) := by
  have hcheck : checkRewritten t method.localVarSig = .ok true ↔
      ∃ s, method.localVarSig = some s ∧
        (tokenBytes t.callTargetStateTypeRef).length ≤ s.bytes.length ∧
        callTargetStateLocal t <:+ s.bytes := by
    cases method.localVarSig with
    | none => simp [checkRewritten]
    | some s =>
        rw [checkRewritten, alreadyRewritten_eq_ok_iff]
        simp
  have hsize : signatureBufferSize = 500 := rfl
  have hadded : (addedLocals t method.ret.bytes).length ≤ 4 := by
    rw [length_addedLocals]
    exact Nat.add_le_add_right (length_returnLocal_le _) 3
  unfold modifyLocalSigWrites
  split
  · rename_i hrewritten
    obtain ⟨s, hsome, hlong, hsuffix⟩ := hcheck.mp hrewritten
    exact iff_of_true (by simp) fun h => absurd hsuffix (h s hsome hlong)
  rename_i hrewritten
  have huntouched : ∀ s, method.localVarSig = some s →
      (tokenBytes t.callTargetStateTypeRef).length ≤ s.bytes.length →
      ¬callTargetStateLocal t <:+ s.bytes :=
    fun s hsome hlong hsuffix => hrewritten (hcheck.mpr ⟨s, hsome, hlong, hsuffix⟩)
  rw [List.forall_mem_append, and_iff_right (inside_compressed _)]
  cases hr : returnLocals t m method.ret.bytes with
  | error e =>
      refine iff_of_true (by simp) fun _ hserved => ?_
      obtain ⟨r, hok⟩ := returnLocals_of_served htypeSpec hserved
      rw [hok] at hr
      cases hr
  | ok r =>
      obtain ⟨hreads, hserved⟩ := returnLocals_reads hr
      have hcases := oldLocals_eq method.localVarSig hadded
      rw [← hreads.count] at hcases
      cases hcompress : CorSigCompressData
          ((localsOf method.localVarSig).length + (addedLocals t method.ret.bytes).length) with
      | none =>
          rw [hcompress] at hcases
          dsimp only at hcases ⊢
          rw [hcases]
          refine iff_of_false (by simp [WriteRange.Inside, hsize]) fun h => ?_
          -- A signature that fits has a count that can be compressed.
          have hfew := length_localsOf_le (h huntouched hserved)
          have hsome := compress_isSome
            (n := (localsOf method.localVarSig).length + (addedLocals t method.ret.bytes).length)
            (by omega)
          rw [hcompress] at hsome
          cases hsome
      | some w =>
          rw [hcompress] at hcases
          obtain ⟨o, ho, hoReads⟩ := hcases
          dsimp only
          rw [ho]
          dsimp only
          rw [inside_ranges_iff (Nat.zero_le _), Nat.zero_add, length_newSignature hreads hoReads]
          exact ⟨fun h _ _ => h, fun h => h huntouched hserved⟩

/-! ## All writes -/

/-- **The writes stay inside** for a method, exactly if its types leave room. -/
theorem rewriteWrites_inside_iff (t : CallTargetTokens) (m : Metadata) (method : RewrittenMethod) :
    (∀ w ∈ rewriteWrites t method m, w.Inside) ↔ RoomFor t method m := by
  have hbuilders : (∀ w ∈ (builders t method).flatMap Builder.writes, w.Inside) ↔
      ∀ b ∈ builders t method, b.signatureLength ≤ signatureBufferSize := by
    constructor
    · intro h b hb
      rw [builders_stated b hb, ← inside_writes_iff]
      exact fun w hw => h w (List.mem_flatMap.mpr ⟨b, hb, hw⟩)
    · intro h w hw
      obtain ⟨b, hb, hw⟩ := List.mem_flatMap.mp hw
      have hfits := h b hb
      rw [builders_stated b hb, ← inside_writes_iff] at hfits
      exact hfits w hw
  have hlength : (typeSpecSignature t method.ret.bytes).length =
      3 + (tokenBytes t.callTargetReturnTypeRef).length + method.ret.bytes.length := by
    simp only [typeSpecSignature, List.length_cons, List.length_append]
    omega
  rw [rewriteWrites, List.forall_mem_append, List.forall_mem_append, hbuilders,
    and_iff_left argumentWrites_inside, builders, List.forall_mem_append, List.forall_mem_append,
    and_iff_right commonBuilders_short, beginBuilders_short_iff, returnBuilders_short_iff]
  constructor
  · rintro ⟨⟨hbegin, htypeSpec, hend⟩, hlocals⟩
    exact ⟨(modifyLocalSigWrites_inside_iff (by rwa [hlength])).mp hlocals, htypeSpec, hend, hbegin⟩
  · intro h
    refine ⟨⟨h.beginMethod, h.typeSpec, h.endMethod⟩, ?_⟩
    have htypeSpec := h.typeSpec
    rw [← hlength] at htypeSpec
    exact (modifyLocalSigWrites_inside_iff htypeSpec).mpr h.localSig

/-- A method of an application with 500 locals of type `int`. -/
def manyLocalsMethod : RewrittenMethod where
  localVarSig := some manyLocals
  ret := voidReturn
  methodArguments := []
  integrationTypeRef := 0x01000020
  currentType := ⟨0x02000002, mdTypeSpecNil, false, false⟩
  parents := []

/-- The last local, at least, is written behind the end of the array. -/
theorem rewriteWrites_outside_manyLocals :
    ¬∀ w ∈ rewriteWrites plainTokens manyLocalsMethod plainMetadata, w.Inside := by
  intro h
  have hlocals : ∀ w ∈ modifyLocalSigWrites plainTokens manyLocalsMethod plainMetadata,
      w.Inside := by
    intro w hw
    exact h w (List.mem_append_right _ hw)
  have hvoid : manyLocalsMethod.ret.bytes = [void] := rfl
  have hfits := (modifyLocalSigWrites_inside_iff fun hne => absurd hvoid hne).mp hlocals
  have hlast : ¬callTargetStateLocal plainTokens <:+ manyLocals.bytes := by
    decide +kernel
  have hlong := hfits
    (fun s hs _ => by
      obtain rfl := Option.some.inj hs
      exact hlast)
    fun hne => absurd hvoid hne
  exact absurd hlong (Nat.not_le_of_lt extendedLength_manyLocals)

end DdTrace.Profiler
