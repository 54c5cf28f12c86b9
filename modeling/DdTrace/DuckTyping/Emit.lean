import DdTrace.DuckTyping.Reflection

/-!
# The code of duck types

What is emitted for the members of a proxy definition.

* `Instr`, `Body`: instructions and method bodies.
* `writeTypeConversion`, `writeArgument`, `writeOutput`: the pieces.
* `createMethod`, `getPropertyGetMethod`, `getPropertySetMethod`, `getFieldGetMethod`,
  `getFieldSetMethod`: the members.

A label is marked in the piece of code that defines it, and is a number within that piece; a branch
goes to the next mark of its label. The delegate of a dynamic method is loaded before all else.

Source: `DuckType.Methods.cs`, `DuckType.Properties.cs`, `DuckType.Fields.cs` and
`ILHelpersExtensions.cs`.
-/

namespace DdTrace.DuckTyping

/-! ## Instructions -/

/-- An instruction. -/
inductive Instr (τ : Type)
  /-- `ldarg.0` to `ldarg.3`. -/
  | ldarg (i : Nat)
  /-- `ldarg.s`. -/
  | ldargS (i : Nat)
  /-- `ldloc.0` to `ldloc.3`. -/
  | ldloc (i : Nat)
  /-- `ldloc.s`. -/
  | ldlocS (i : Nat)
  /-- `stloc.0` to `stloc.3`. -/
  | stloc (i : Nat)
  /-- `stloc.s`. -/
  | stlocS (i : Nat)
  /-- `ldloca.s`. -/
  | ldlocaS (i : Nat)
  /-- `ldfld` of the field with the instance. -/
  | ldInstance
  /-- `ldflda` of the field with the instance. -/
  | ldInstanceAddress
  /-- `ldfld`. -/
  | ldfld (field : TargetField τ)
  /-- `ldsfld`. -/
  | ldsfld (field : TargetField τ)
  /-- `stfld`. -/
  | stfld (field : TargetField τ)
  /-- `stsfld`. -/
  | stsfld (field : TargetField τ)
  /-- `castclass`. -/
  | castclass (type : τ)
  /-- `isinst`. -/
  | isinst (type : τ)
  /-- `box`. -/
  | box (type : τ)
  /-- `unbox`. -/
  | unbox (type : τ)
  /-- `unbox.any`. -/
  | unboxAny (type : τ)
  /-- `dup`. -/
  | dup
  /-- `pop`. -/
  | pop
  /-- `ldnull`. -/
  | ldnull
  /-- `brtrue.s`. -/
  | brtrueS (label : Nat)
  /-- `br.s`. -/
  | brS (label : Nat)
  /-- The mark of a label. -/
  | markLabel (label : Nat)
  /-- `newobj` of an `InvalidCastException` and `throw`. -/
  | throwInvalidCast
  /-- `call` of the target. -/
  | call (method : Signature τ)
  /-- `callvirt` of the target. -/
  | callvirt (method : Signature τ)
  /-- `ldc.i8` of a function pointer. -/
  | ldcI8
  /-- `conv.i`. -/
  | convI
  /-- `calli` of the target. -/
  | calli (method : Signature τ)
  /-- `callvirt` of `IDuckType.get_Instance`. -/
  | getInstance
  /-- `call` of `CreateCache<T>.Create`. -/
  | create (type : τ)
  /-- `call` of `DelegateCache<T>.GetDelegate` for the delegate of the dynamic method. -/
  | getDelegate
  /-- `callvirt` of its `Invoke`. -/
  | invoke (parameterTypes : List τ) (returnType : τ)
  /-- `ldind.ref`. -/
  | ldindRef
  /-- `stind.ref`. -/
  | stindRef
  /-- `ret`. -/
  | ret
  deriving DecidableEq, Repr

/-- A method body. -/
structure Body (τ : Type) where
  /-- It is a method of the proxy, whose first argument is the proxy. -/
  hasThis : Bool
  /-- The types of the parameters. -/
  parameterTypes : List τ
  /-- The types of the locals. -/
  locals : List τ
  /-- The return type. -/
  returnType : τ
  /-- The code. -/
  code : List (Instr τ)
  deriving DecidableEq, Repr

/-- What is emitted for a member. -/
structure Emitted (τ : Type) where
  /-- The method of the proxy. -/
  method : Body τ
  /-- The dynamic method that it calls, if there is one. -/
  dynamicMethod : Option (Body τ)
  deriving DecidableEq, Repr

/-- The exceptions. -/
inductive DuckError (τ : Type)
  /-- `DuckTypeInvalidTypeConversionException`. -/
  | invalidTypeConversion (actualType expectedType : τ)
  /-- `DuckTypeProxyMethodParameterIsMissingException`. -/
  | proxyMethodParameterIsMissing
  /-- `DuckTypeProxyAndTargetMethodParameterSignatureMismatchException`. -/
  | parameterSignatureMismatch
  /-- `DuckTypeProxyMethodsWithGenericParametersNotSupportedInNonPublicInstancesException`. -/
  | genericParametersNotSupported
  /-- `DuckTypePropertyArgumentsLengthException`. -/
  | propertyArgumentsLength
  /-- `DuckTypeStructMembersCannotBeChangedException`. -/
  | structMembersCannotBeChanged
  /-- `DuckTypeFieldIsReadonlyException`. -/
  | fieldIsReadonly
  /-- `InvalidOperationException` of `MakeGenericMethod`. -/
  | notGeneric
  /-- `ArgumentException` of `MakeGenericType`. -/
  | invalidGenericArgument
  /-- `IndexOutOfRangeException`. -/
  | indexOutOfRange
  /-- `ArgumentNullException` or `NullReferenceException`, for a type without elements. -/
  | nullReference
  deriving DecidableEq, Repr

section Emission

variable {τ : Type} [DecidableEq τ] (r : Reflection τ)

/-! ## Pieces -/

/-- Source: `ILHelpersExtensions.cs`, `WriteLoadArgument` -/
def writeLoadArgument (index : Nat) (isStatic : Bool) : Instr τ :=
  let index := if isStatic then index else index + 1
  if index < 4 then .ldarg index else .ldargS index

/-- Source: `ILHelpersExtensions.cs`, `WriteLoadLocal` -/
def writeLoadLocal (index : Nat) : Instr τ := if index < 4 then .ldloc index else .ldlocS index

/-- Source: `ILHelpersExtensions.cs`, `WriteStoreLocal` -/
def writeStoreLocal (index : Nat) : Instr τ := if index < 4 then .stloc index else .stlocS index

/-- Source: `ILHelpersExtensions.cs`, `WriteTypeConversion` -/
def writeTypeConversion (actualType expectedType : τ) : Except (DuckError τ) (List (Instr τ)) :=
  let actualUnderlyingType := r.underlying actualType
  let expectedUnderlyingType := r.underlying expectedType
  if actualUnderlyingType = expectedUnderlyingType then .ok []
  else if r.isValueType actualUnderlyingType then
    if r.isValueType expectedUnderlyingType then
      .error (.invalidTypeConversion actualType expectedType)
    else if expectedUnderlyingType = r.object then .ok [.box actualType]
    else if r.isAssignableFrom expectedUnderlyingType actualUnderlyingType then
      .ok [.box actualType, .castclass expectedType]
    else .error (.invalidTypeConversion actualType expectedType)
  else if r.isValueType expectedUnderlyingType then
    if actualUnderlyingType = r.object ∨
        r.isAssignableFrom actualUnderlyingType expectedUnderlyingType then
      .ok [.dup, .isinst expectedType, .brtrueS 0, .pop, .throwInvalidCast, .markLabel 0,
        .unboxAny expectedType]
    else .error (.invalidTypeConversion actualType expectedType)
  else if expectedUnderlyingType ≠ r.object then .ok [.castclass expectedUnderlyingType]
  else .ok []

/-- Source: `DuckType.Methods.cs`, `WriteSafeTypeConversion` -/
def writeSafeTypeConversion (actualType expectedType : τ) :
    Except (DuckError τ) (List (Instr τ)) :=
  if r.isGenericParameter actualType ∧ r.isGenericParameter expectedType then .ok []
  else writeTypeConversion r actualType expectedType

/-- Source: `ILHelpersExtensions.cs`, `WriteMethodCalli` -/
def writeMethodCalli (method : Signature τ) : List (Instr τ) := [.ldcI8, .convI, .calli method]

/-- The local that `LoadInstanceArgument` declares. -/
def instanceArgumentLocals (actualType expectedType : τ) : List τ :=
  if actualType = expectedType then []
  else if r.isValueType expectedType then [expectedType] else []

/-- Source: `ILHelpersExtensions.cs`, `LoadInstanceArgument` -/
def loadInstanceArgument (actualType expectedType : τ) : List (Instr τ) :=
  if actualType = expectedType then [.ldarg 0]
  else if r.isValueType expectedType then
    [.ldarg 0, .unboxAny expectedType, .stloc 0, .ldlocaS 0]
  else [.ldarg 0, .castclass expectedType]

/-- The type of the field `_currentInstance`.
Source: `DuckType.cs`, `CreateIDuckTypeImplementation` -/
def instanceFieldType (targetType : τ) : τ :=
  if r.useDirectAccessTo targetType then targetType else r.object

/-- The instance, unless the target is static. -/
def loadInstance (targetType : τ) (isStatic : Bool) : List (Instr τ) :=
  if isStatic then []
  else if r.isValueType (instanceFieldType r targetType) then [.ldarg 0, .ldInstanceAddress]
  else [.ldarg 0, .ldInstance]

/-- The type, or `object` if the type must not be named. -/
def accessibleType (type : τ) : τ := if r.useDirectAccessTo type then type else r.object

/-- The elements of a type, which the code expects to have some. -/
def elementType (type : τ) : Except (DuckError τ) τ :=
  match r.getElementType type with
  | some t => .ok t
  | none => .error .nullReference

/-! ## The arguments of a method -/

/-- An output or `ref` parameter that is written after the call.
Source: `DuckType.Methods.cs`, `OutputAndRefParameterData` -/
structure OutputAndRefParameterData (τ : Type) where
  /-- `LocalIndex`. -/
  localIndex : Nat
  /-- `LocalType`. -/
  localType : τ
  /-- `ProxyArgumentIndex`. -/
  proxyArgumentIndex : Nat
  /-- `ProxyArgumentType`. -/
  proxyArgumentType : τ
  deriving DecidableEq, Repr

/-- What is emitted for one argument or for several. -/
structure Arguments (τ : Type) where
  /-- The code that loads them. -/
  code : List (Instr τ)
  /-- The locals it declares. -/
  locals : List τ
  /-- What is written after the call. -/
  outputs : List (OutputAndRefParameterData τ)
  /-- The types with which they are passed, for a dynamic method. -/
  types : List τ
  deriving DecidableEq, Repr

/-- The value of a duck type is replaced by the instance, unless it is `null`. -/
def unwrapUnlessNull : List (Instr τ) :=
  [.dup, .brtrueS 1, .pop, .ldnull, .brS 2, .markLabel 1, .castclass r.iDuckType, .getInstance,
    .markLabel 2]

/-- An output parameter. -/
def writeOutArgument (idx localIndex : Nat) (proxyParamType targetParamType : τ) :
    Except (DuckError τ) (Arguments τ) :=
  if proxyParamType ≠ targetParamType then do
    let localType ← elementType r targetParamType
    pure ⟨[.ldlocaS localIndex], [localType],
      [⟨localIndex, targetParamType, idx, proxyParamType⟩], [targetParamType]⟩
  else .ok ⟨[writeLoadArgument idx false], [], [], [targetParamType]⟩

/-- A `ref` parameter. -/
def writeRefArgument (idx localIndex : Nat) (proxyParamType targetParamType : τ) :
    Except (DuckError τ) (Arguments τ) :=
  if proxyParamType ≠ targetParamType then do
    let proxyElementType ← elementType r proxyParamType
    let targetElementType ← elementType r targetParamType
    let localElementType := accessibleType r targetElementType
    let localType :=
      if r.useDirectAccessTo targetElementType then targetParamType else r.makeByRefType r.object
    let conversion ← writeSafeTypeConversion r proxyElementType localElementType
    pure ⟨[writeLoadArgument idx false, .ldindRef] ++
        (if r.needsDuckChaining localElementType proxyElementType then unwrapUnlessNull r else []) ++
        conversion ++ [writeStoreLocal localIndex, .ldlocaS localIndex],
      [localElementType], [⟨localIndex, localType, idx, proxyParamType⟩], [targetParamType]⟩
  else .ok ⟨[writeLoadArgument idx false], [], [], [targetParamType]⟩

/-- A parameter by value. -/
def writeValueArgument (idx : Nat) (proxyParamType targetParamType : τ) :
    Except (DuckError τ) (Arguments τ) := do
  let conversion ←
    writeSafeTypeConversion r proxyParamType (accessibleType r targetParamType)
  pure ⟨writeLoadArgument idx false ::
      ((if r.needsDuckChaining targetParamType proxyParamType then
        [.castclass r.iDuckType, .getInstance] else []) ++ conversion),
    [], [], [accessibleType r targetParamType]⟩

/-- A parameter by value of a reverse method. -/
def writeReverseArgument (idx : Nat) (proxyParamType targetParamType : τ) :
    Except (DuckError τ) (Arguments τ) := do
  let conversion ←
    writeSafeTypeConversion r proxyParamType (accessibleType r targetParamType)
  pure ⟨writeLoadArgument idx false ::
      ((if r.needsDuckChaining proxyParamType targetParamType then
        (if r.useDirectAccessTo proxyParamType ∧ r.isValueType proxyParamType then
          [.box proxyParamType] else []) ++ [.create targetParamType] else []) ++ conversion),
    [], [], [accessibleType r targetParamType]⟩

/-- The body of the loop over the parameters, for one that both methods have. -/
def writeArgument (isReverse : Bool) (idx localIndex : Nat)
    (proxyParam targetParam : ParameterInfo τ) : Except (DuckError τ) (Arguments τ) :=
  if proxyParam.isOut ≠ targetParam.isOut ∨ proxyParam.isIn ≠ targetParam.isIn then
    .error .parameterSignatureMismatch
  else if r.isByRef proxyParam.parameterType ≠ r.isByRef targetParam.parameterType then
    .error .parameterSignatureMismatch
  else if proxyParam.isOut then
    writeOutArgument r idx localIndex proxyParam.parameterType targetParam.parameterType
  else if r.isByRef proxyParam.parameterType then
    writeRefArgument r idx localIndex proxyParam.parameterType targetParam.parameterType
  else if isReverse then
    writeReverseArgument r idx proxyParam.parameterType targetParam.parameterType
  else writeValueArgument r idx proxyParam.parameterType targetParam.parameterType

/-- The loop over the parameters. -/
def writeArguments (isReverse : Bool) :
    Nat → Nat → List (ParameterInfo τ) → List (ParameterInfo τ) → Except (DuckError τ) (Arguments τ)
  | _, _, [], [] => .ok ⟨[], [], [], []⟩
  | _, _, _ :: _, [] => .error .indexOutOfRange
  | idx, localIndex, [], targetParam :: targetParams =>
      -- nothing is loaded for an optional parameter
      if targetParam.isOptional then do
        let rest ← writeArguments isReverse (idx + 1) localIndex [] targetParams
        pure { rest with types := targetParam.parameterType :: rest.types }
      else .error .proxyMethodParameterIsMissing
  | idx, localIndex, proxyParam :: proxyParams, targetParam :: targetParams => do
      let first ← writeArgument r isReverse idx localIndex proxyParam targetParam
      let rest ← writeArguments isReverse (idx + 1) (localIndex + first.locals.length) proxyParams
        targetParams
      pure ⟨first.code ++ rest.code, first.locals ++ rest.locals, first.outputs ++ rest.outputs,
        first.types ++ rest.types⟩

/-- The value is wrapped in a duck type. `MakeGenericType` takes no managed pointer. -/
def wrap (isBoxed : Bool) (type proxyType : τ) : Except (DuckError τ) (List (Instr τ)) :=
  if r.isByRef proxyType then .error .invalidGenericArgument
  else .ok ((if isBoxed then [.box type] else []) ++ [.create proxyType])

/-- An output or `ref` parameter is written. -/
def writeOutput (output : OutputAndRefParameterData τ) : Except (DuckError τ) (List (Instr τ)) := do
  let proxyArgumentType ← elementType r output.proxyArgumentType
  let localType ← elementType r output.localType
  let conversion ←
    if r.needsDuckChaining localType proxyArgumentType then
      wrap r (r.isValueType localType) localType proxyArgumentType
    else writeSafeTypeConversion r localType proxyArgumentType
  pure ([writeLoadArgument output.proxyArgumentIndex false, writeLoadLocal output.localIndex] ++
    conversion ++ [.stindRef])

/-- The outputs are written one after the other. -/
def writeOutputs : List (OutputAndRefParameterData τ) → Except (DuckError τ) (List (Instr τ))
  | [] => .ok []
  | output :: outputs => do
      let first ← writeOutput r output
      let rest ← writeOutputs outputs
      pure (first ++ rest)

/-! ## Methods -/

namespace TargetMethod

/-- The method as it was selected. -/
def signature (m : TargetMethod τ) : Signature τ :=
  ⟨m.isStatic, m.declaringType, m.parameters.map (·.parameterType), m.returnType⟩

/-- The method with the generic arguments of the proxy. -/
def made (m : TargetMethod τ) : Signature τ :=
  ⟨m.isStatic, m.declaringType, m.madeParameterTypes, m.madeReturnType⟩

end TargetMethod

/-- `call` or `callvirt`. -/
def emitCall (isCall : Bool) (method : Signature τ) : Instr τ :=
  if isCall then .call method else .callvirt method

/-- The arguments of a dynamic method but the instance, with the conversions to the types of the
target. -/
def loadDynamicArguments (conversion : τ → τ → Except (DuckError τ) (List (Instr τ))) :
    Nat → List τ → List τ → Except (DuckError τ) (List (Instr τ))
  | idx, dynType :: dynTypes, targetType :: targetTypes => do
      let converted ← conversion dynType targetType
      let rest ← loadDynamicArguments conversion (idx + 1) dynTypes targetTypes
      pure (writeLoadArgument idx true :: (converted ++ rest))
  | _, _, _ => .ok []

/-- The dynamic method for a method, a getter or a setter. -/
def dynamicMethod (conversion : τ → τ → Except (DuckError τ) (List (Instr τ)))
    (target : Signature τ) (call : List (Instr τ)) (dynTypes targetTypes : List τ)
    (returnType : τ) (result : List (Instr τ)) : Except (DuckError τ) (Body τ) := do
  let arguments ← loadDynamicArguments conversion (if target.isStatic then 0 else 1) dynTypes
    targetTypes
  pure {
    hasThis := false
    parameterTypes := if target.isStatic then dynTypes else r.object :: dynTypes
    locals := if target.isStatic then []
      else instanceArgumentLocals r r.object target.declaringType
    returnType := returnType
    code := (if target.isStatic then [] else loadInstanceArgument r r.object target.declaringType) ++
      arguments ++ call ++ result ++ [.ret] }

/-- The result of the target becomes the result of the proxy. -/
def writeResult (conversion : τ → τ → Except (DuckError τ) (List (Instr τ)))
    (targetReturnType returnType proxyReturnType : τ) : Except (DuckError τ) (List (Instr τ)) :=
  if r.needsDuckChaining targetReturnType proxyReturnType then
    wrap r (r.useDirectAccessTo targetReturnType && r.isValueType targetReturnType)
      targetReturnType proxyReturnType
  else if returnType ≠ proxyReturnType then conversion returnType proxyReturnType
  else .ok []

/-- The method of the proxy, with the delegate in front if there is a dynamic method. -/
def proxyMethod (parameterTypes locals : List τ) (returnType : τ) (before : List (Instr τ))
    (call : List (Instr τ) ⊕ Body τ) (after : List (Instr τ)) : Emitted τ :=
  match call with
  | .inl direct =>
      ⟨⟨true, parameterTypes, locals, returnType, before ++ direct ++ after ++ [.ret]⟩, none⟩
  | .inr dynamic =>
      ⟨⟨true, parameterTypes, locals, returnType,
        .getDelegate :: (before ++ [.invoke dynamic.parameterTypes dynamic.returnType]) ++ after ++
          [.ret]⟩, some dynamic⟩

/-- The call of the target method, or the dynamic method for it. -/
def methodCall (targetType : τ) (proxy : ProxyMethod τ) (target : TargetMethod τ)
    (types : List τ) : Except (DuckError τ) (List (Instr τ) ⊕ Body τ) :=
  let isCall := target.isStatic || r.isValueType target.declaringType
  if r.useDirectAccessTo targetType then
    if proxy.isGeneric ∧ !target.isGenericMethod then .error .notGeneric
    else
    let called := if proxy.isGeneric then target.made else target.signature
    if target.isPublic || target.isGenericMethod then
      .ok (.inl [emitCall isCall called])
    else .ok (.inl (writeMethodCalli called))
  else if proxy.isGeneric then .error .genericParametersNotSupported
  else do
    let returnType :=
      if r.useDirectAccessTo target.returnType ∧ !r.isGenericParameter target.returnType then
        target.returnType else r.object
    let call := if !target.containsGenericParameters then [emitCall isCall target.signature]
      else writeMethodCalli target.signature
    let result ← writeSafeTypeConversion r target.returnType returnType
    let body ← dynamicMethod r (writeSafeTypeConversion r) target.signature call types
      target.signature.parameterTypes returnType result
    pure (.inr body)

/-- The return type of the target as it is called, and the type of what the call leaves. -/
def returnTypes (targetType : τ) (proxy : ProxyMethod τ) (target : TargetMethod τ) : τ × τ :=
  if r.useDirectAccessTo targetType then
    (if proxy.isGeneric then target.madeReturnType else target.returnType, target.returnType)
  else
    (target.returnType,
      if r.useDirectAccessTo target.returnType ∧ !r.isGenericParameter target.returnType then
        target.returnType else r.object)

/-- The body of the loop over the methods of a proxy definition.
Source: `DuckType.Methods.cs`, `CreateMethods` -/
def createMethod (targetType : τ) (proxy : ProxyMethod τ) (target : TargetMethod τ) :
    Except (DuckError τ) (Emitted τ) := do
  let arguments ← writeArguments r target.isReverse 0 0 proxy.parameters target.parameters
  let call ← methodCall r targetType proxy target arguments.types
  let outputs ← writeOutputs r arguments.outputs
  let (targetReturnType, returnType) := returnTypes r targetType proxy target
  let result ←
    if targetReturnType ≠ r.void then
      writeResult r (writeSafeTypeConversion r) targetReturnType returnType proxy.returnType
    else .ok []
  pure (proxyMethod (proxy.parameters.map (·.parameterType)) arguments.locals proxy.returnType
    (loadInstance r targetType target.isStatic ++ arguments.code) call (outputs ++ result))

/-! ## Properties -/

/-- An index key or the value of a setter. -/
def writeKey (pIndex : Nat) (proxyParamType targetParamType : τ) :
    Except (DuckError τ) (List (Instr τ) × τ) := do
  let isChained := r.needsDuckChaining targetParamType proxyParamType
  let targetParamType := if isChained then r.object else targetParamType
  let targetParamType :=
    if r.useDirectAccessTo targetParamType ∨ r.isByRef targetParamType then targetParamType
    else r.object
  let conversion ← writeTypeConversion r proxyParamType targetParamType
  pure (writeLoadArgument pIndex false ::
    ((if isChained then [.castclass r.iDuckType, .getInstance] else []) ++ conversion),
    targetParamType)

/-- The loop over the keys: the code, and the types with which they are passed. -/
def writeKeys : Nat → List τ → List τ → Except (DuckError τ) (List (Instr τ) × List τ)
  | pIndex, proxyParamType :: proxyParamTypes, targetParamType :: targetParamTypes => do
      let first ← writeKey r pIndex proxyParamType targetParamType
      let rest ← writeKeys (pIndex + 1) proxyParamTypes targetParamTypes
      pure (first.1 ++ rest.1, first.2 :: rest.2)
  | _, _, _ => .ok ([], [])

/-- The call of a getter or a setter, or the dynamic method for it. -/
def propertyCall (targetType : τ) (isPublic isCall : Bool) (target : Signature τ)
    (types : List τ) (result : List (Instr τ)) (returnType : τ) :
    Except (DuckError τ) (List (Instr τ) ⊕ Body τ) :=
  if r.useDirectAccessTo targetType then
    .ok (.inl (if isPublic then [emitCall isCall target] else writeMethodCalli target))
  else do
    let body ← dynamicMethod r (writeTypeConversion r) target [emitCall isCall target] types
      (target.parameterTypes.map (accessibleType r)) returnType result
    pure (.inr body)

/-- The getter of a property. -/
def TargetProperty.getter (p : TargetProperty τ) : Signature τ :=
  ⟨p.isStatic, p.declaringType, p.indexTypes, p.propertyType⟩

/-- The setter of a property. -/
def TargetProperty.setter (p : TargetProperty τ) : Signature τ :=
  ⟨p.isStatic, p.declaringType, p.indexTypes ++ [p.propertyType], r.void⟩

/-- Source: `DuckType.Properties.cs`, `GetPropertyGetMethod` -/
def getPropertyGetMethod (targetType : τ) (proxy : ProxyMember τ) (target : TargetProperty τ) :
    Except (DuckError τ) (Emitted τ) := do
  if proxy.indexTypes.length ≠ target.indexTypes.length then .error .propertyArgumentsLength
  let keys ← writeKeys r 0 proxy.indexTypes target.indexTypes
  let isCall := target.isStatic || r.isValueType (instanceFieldType r targetType)
  let returnType :=
    if r.useDirectAccessTo targetType then target.propertyType
    else accessibleType r target.propertyType
  let dynamicResult ← writeTypeConversion r target.propertyType returnType
  let call ← propertyCall r targetType target.getIsPublic isCall target.getter keys.2 dynamicResult
    returnType
  let result ←
    writeResult r (writeTypeConversion r) target.propertyType returnType proxy.memberType
  pure (proxyMethod proxy.indexTypes [] proxy.memberType
    (loadInstance r targetType target.isStatic ++ keys.1) call result)

/-- Source: `DuckType.Properties.cs`, `GetPropertySetMethod` -/
def getPropertySetMethod (targetType : τ) (proxy : ProxyMember τ) (target : TargetProperty τ) :
    Except (DuckError τ) (Emitted τ) := do
  if proxy.indexTypes.length ≠ target.indexTypes.length then .error .propertyArgumentsLength
  let keys ← writeKeys r 0 (proxy.indexTypes ++ [proxy.memberType])
    (target.indexTypes ++ [target.propertyType])
  let call ← propertyCall r targetType target.setIsPublic target.isStatic (target.setter r) keys.2
    [] r.void
  pure (proxyMethod (proxy.indexTypes ++ [proxy.memberType]) [] r.void
    (loadInstance r targetType target.isStatic ++ keys.1) call [])

/-! ## Fields -/

/-- Source: `DuckType.Fields.cs`, `GetFieldGetMethod` -/
def getFieldGetMethod (targetType : τ) (proxy : ProxyMember τ) (target : TargetField τ) :
    Except (DuckError τ) (Emitted τ) := do
  let load : Instr τ := if target.isStatic then .ldsfld target else .ldfld target
  let isDirect := r.useDirectAccessTo targetType && target.isPublic
  let returnType := if isDirect then target.fieldType else accessibleType r target.fieldType
  let call ←
    if isDirect then .ok (.inl [load])
    else do
      let converted ← writeTypeConversion r target.fieldType returnType
      let instance' : List (Instr τ) :=
        if target.isStatic then []
        else if target.declaringType ≠ r.object then
          [.ldarg 0, if r.isValueType target.declaringType then .unbox target.declaringType
            else .castclass target.declaringType]
        else [.ldarg 0]
      pure (.inr {
        hasThis := false
        parameterTypes := if target.isStatic then [] else [r.object]
        locals := []
        returnType := returnType
        code := instance' ++ [load] ++ converted ++ [.ret] })
  let result ← writeResult r (writeTypeConversion r) target.fieldType returnType proxy.memberType
  pure (proxyMethod [] [] proxy.memberType (loadInstance r targetType target.isStatic) call result)

/-- Source: `DuckType.Fields.cs`, `GetFieldSetMethod` -/
def getFieldSetMethod (targetType : τ) (proxy : ProxyMember τ) (target : TargetField τ) :
    Except (DuckError τ) (Emitted τ) := do
  let store : Instr τ := if target.isStatic then .stsfld target else .stfld target
  let isChained := r.needsDuckChaining target.fieldType proxy.memberType
  let unwrapped ←
    if isChained then do
      let toDuckType ← writeTypeConversion r proxy.memberType r.iDuckType
      pure (toDuckType ++ [.getInstance])
    else .ok []
  let currentValueType := if isChained then r.object else proxy.memberType
  let dynValueType := accessibleType r target.fieldType
  let isDirect := r.useDirectAccessTo targetType && target.isPublic
  let conversion ← writeTypeConversion r currentValueType
    (if isDirect then target.fieldType else dynValueType)
  let call ←
    if isDirect then .ok (.inl [store])
    else do
      let converted ← writeTypeConversion r dynValueType target.fieldType
      let code : List (Instr τ) :=
        if target.isStatic then .ldarg 0 :: converted
        else
          .ldarg 0 :: ((if target.declaringType ≠ r.object then [.castclass target.declaringType]
            else []) ++ .ldarg 1 :: converted)
      pure (.inr {
        hasThis := false
        parameterTypes := if target.isStatic then [dynValueType] else [r.object, dynValueType]
        locals := []
        returnType := r.void
        code := code ++ [store, .ret] })
  pure (proxyMethod [proxy.memberType] [] r.void
    (loadInstance r targetType target.isStatic ++ .ldarg 1 :: (unwrapped ++ conversion)) call [])

/-! ## Proxies -/

/-- A member of a proxy definition, with the member of the target that was selected for it. -/
inductive Member (τ : Type)
  /-- A method. -/
  | method (proxy : ProxyMethod τ) (target : TargetMethod τ)
  /-- A property that is read. -/
  | propertyGet (proxy : ProxyMember τ) (target : TargetProperty τ)
  /-- A property that is written. -/
  | propertySet (proxy : ProxyMember τ) (target : TargetProperty τ)
  /-- A field that is read. -/
  | fieldGet (proxy : ProxyMember τ) (target : TargetField τ)
  /-- A field that is written. -/
  | fieldSet (proxy : ProxyMember τ) (target : TargetField τ)

/-- What is emitted for a member. A member of a structure is not written, and neither is a field
that is read only.
Source: `DuckType.cs`, `CreateProperties`, `CreatePropertiesFromStruct` -/
def createMember (targetType : τ) : Member τ → Except (DuckError τ) (Emitted τ)
  | .method proxy target => createMethod r targetType proxy target
  | .propertyGet proxy target => getPropertyGetMethod r targetType proxy target
  | .propertySet proxy target =>
      if r.isValueType target.declaringType then .error .structMembersCannotBeChanged
      else getPropertySetMethod r targetType proxy target
  | .fieldGet proxy target => getFieldGetMethod r targetType proxy target
  | .fieldSet proxy target =>
      if target.isInitOnly then .error .fieldIsReadonly
      else if r.isValueType target.declaringType then .error .structMembersCannotBeChanged
      else getFieldSetMethod r targetType proxy target

/-- What is emitted for all members of a proxy definition, unless one of them fails.
Source: `DuckType.cs`, `CreateProxyType` -/
def createProxyType (targetType : τ) : List (Member τ) → Except (DuckError τ) (List (Emitted τ))
  | [] => .ok []
  | member :: members => do
      let first ← createMember r targetType member
      let rest ← createProxyType targetType members
      pure (first :: rest)

end Emission

end DdTrace.DuckTyping
