import Mathlib.Algebra.Group.Int.Defs
import Mathlib.Algebra.Ring.Nat
import DdTrace.Lib.MemoTable

/-!
# Delegates for methods

A method builder describes a method of the traced application by its token and, in case the token
does not resolve, by its name, types and generics. `Build` returns a delegate for it, from a cache
that is shared by all builders of one delegate type.

* `Runtime`: what the code asks of reflection.
* `MethodBuilder`, `emitDelegate`: a builder, and the delegate it stands for.
* `Key`, `keyEquals`, `keyHash`: the keys of the cache.
* `buildAll`: the delegates of a sequence of builders.

A builder is a value here: it is not changed any more once its delegate has been built. What is only
logged is left out.

Source: `MethodBuilder.cs`; `OpCodeValue.cs`; `ClrNames.cs`, lines 10 and 43 to 45.
-/

namespace DdTrace.Emit

open DdTrace.Lib

/-! ## Reflection -/

/-- What a token resolves to. -/
inductive MethodBase (μ : Type)
  /-- A method. -/
  | method (info : μ)
  /-- A constructor. -/
  | constructor
  deriving DecidableEq, Repr

/-- The types, methods and modules of the process, as far as the code asks for them. -/
structure Runtime (τ μ m : Type) where
  /-- `Type.IsValueType`. -/
  isValueType : τ → Bool
  /-- `Type.IsGenericParameter`. -/
  isGenericParameter : τ → Bool
  /-- `Type.GenericParameterPosition`. -/
  genericParameterPosition : τ → Nat
  /-- `Type.GetGenericParameterConstraints`. -/
  getGenericParameterConstraints : τ → List τ
  /-- `Type.IsAssignableFrom`, which is `false` for `null`. -/
  isAssignableFrom : τ → Option τ → Bool
  /-- `Type.IsGenericType`. -/
  isGenericType : τ → Bool
  /-- `Type.GenericTypeArguments`. -/
  genericTypeArguments : τ → List τ
  /-- `Type.Namespace`. -/
  typeNamespace : τ → String
  /-- `Type.Name`. -/
  typeName : τ → String
  /-- `Type.GetHashCode`. -/
  getHashCode : τ → Int
  /-- `typeof(object)`. -/
  object : τ
  /-- `typeof(void)`. -/
  void : τ
  /-- `typeof(Task)`. -/
  task : τ
  /-- `Type.GetMethods`, public and not, of the instance and static. -/
  getMethods : τ → List μ
  /-- `MethodInfo.Name`. -/
  name : μ → String
  /-- `MethodInfo.ReturnType`. -/
  returnType : μ → τ
  /-- The types of `MethodInfo.GetParameters`. -/
  parameterTypes : μ → List τ
  /-- `MethodInfo.IsStatic`. -/
  isStatic : μ → Bool
  /-- `MethodInfo.IsGenericMethod`. -/
  isGenericMethod : μ → Bool
  /-- `MethodInfo.IsGenericMethodDefinition`. -/
  isGenericMethodDefinition : μ → Bool
  /-- `MethodInfo.ContainsGenericParameters`. -/
  containsGenericParameters : μ → Bool
  /-- `MethodInfo.GetGenericArguments`. -/
  getGenericArguments : μ → List τ
  /-- `MethodInfo.ReflectedType`. -/
  reflectedType : μ → τ
  /-- `MethodInfo.MakeGenericMethod`, unless it throws. -/
  makeGenericMethod : μ → List (Option τ) → Option μ
  /-- `Module.ResolveMethod`, unless it throws. -/
  resolveMethod : m → Int → Option (MethodBase μ)
  /-- `Module.ResolveMethod` with the generic arguments of the type and of the method. -/
  resolveGenericMethod : m → Int → Option (List (Option τ)) → Option (List (Option τ)) →
    Option (MethodBase μ)
  /-- `Module.MetadataToken`, which is the same for all modules. -/
  metadataToken : Int

/-- The delegate type and the flags that the class reads from the environment. -/
structure Settings (τ : Type) where
  /-- The name of the delegate type. -/
  delegateName : String
  /-- Its generic arguments. -/
  delegateGenericArgs : List τ
  /-- `ForceMdTokenLookup`. -/
  forceMdTokenLookup : Bool
  /-- `ForceFallbackLookup`. -/
  forceFallbackLookup : Bool
  /-- The two flags are not set together. -/
  exclusive : (forceFallbackLookup && forceMdTokenLookup) = false

/-! ## Builders -/

/-- The fields of a builder. `null` is `none`, for a field and for an element of an array.
Source: `MethodBuilder.cs` -/
structure MethodBuilder (τ m : Type) where
  /-- `_resolutionModule`. -/
  resolutionModule : Option m
  /-- `_mdToken`. -/
  mdToken : Int
  /-- `_originalOpCodeValue`. -/
  originalOpCodeValue : Int
  /-- `_methodName`. -/
  methodName : Option String
  /-- `_returnType`. -/
  returnType : Option τ
  /-- `_concreteType`. -/
  concreteType : Option τ
  /-- `_parameters`. -/
  parameters : List (Option τ)
  /-- `_explicitParameterTypes`. -/
  explicitParameterTypes : Option (List (Option τ))
  /-- `_namespaceAndNameFilter`. -/
  namespaceAndNameFilter : Option (List String)
  /-- `_declaringTypeGenerics`. -/
  declaringTypeGenerics : Option (List (Option τ))
  /-- `_methodGenerics`. -/
  methodGenerics : Option (List (Option τ))
  /-- `_forceMethodDefResolve`. -/
  forceMethodDefResolve : Bool
  deriving DecidableEq

/-- `_opCode`, the original value as a `short`. -/
def MethodBuilder.opCode {τ m : Type} (b : MethodBuilder τ m) : Int :=
  Int.bmod b.originalOpCodeValue (2 ^ 16)

/-- `OpCodeValue.Call`. -/
def opCodeCall : Int := 40

/-- `OpCodeValue.Callvirt`. -/
def opCodeCallvirt : Int := 111

/-- The exceptions. -/
inductive BuildError
  /-- `NullReferenceException`. -/
  | nullReference
  /-- `IndexOutOfRangeException`. -/
  | indexOutOfRange
  /-- `{nameof(_concreteType)} must be specified.` -/
  | concreteTypeMissing
  /-- `There must be a {nameof(_methodName)} specified to ensure fallback … is viable.` -/
  | methodNameMissing
  /-- `The length of {nameof(_namespaceAndNameFilter)} must match the length of … + 1 …` -/
  | filterLength
  /-- `The {nameof(_explicitParameterTypes)} must match the {_parameters} count.` -/
  | explicitLength
  /-- `Parameter Index {i}: Explicit type … is not assignable from …` -/
  | explicitNotAssignable (i : Nat)
  /-- `Unable to resolve method … Exiting because ForceMdTokenLookup() is true.` -/
  | forcedTokenLookup
  /-- `Unable to safely resolve method, found {methods.Length} matches …` -/
  | ambiguous (matchCount : Nat)
  /-- `Unable to resolve method, started with {matchesOnNameAndReturn} by name match …` -/
  | notFound (matchesOnNameAndReturn : Nat)
  /-- `Must specify {nameof(_methodGenerics)} for a generic method.` -/
  | methodGenericsMissing
  /-- `MakeGenericMethod` threw. -/
  | makeGenericMethod
  /-- `Only Func<> or Action<> are supported in MethodBuilder.` -/
  | delegateType
  /-- `OpCode {_originalOpCodeValue} not supported when calling a method.` -/
  | opCodeNotSupported (originalOpCodeValue : Int)
  /-- `Cannot convert the target method's return type … (value type) to … (value type)`. -/
  | returnValueTypes
  /-- `Cannot reliably convert the target method's return type … (reference type) to …`. -/
  | returnReferenceToValue
  deriving DecidableEq, Repr

/-! ## The search for the method -/

section Resolution

variable {τ μ m : Type} [DecidableEq τ] (rt : Runtime τ μ m) (settings : Settings τ)
  (b : MethodBuilder τ m)

/-- An element of an array. -/
def elementAt {α : Type} (array : List α) (i : Nat) : Except BuildError α :=
  match array[i]? with
  | some a => .ok a
  | none => .error .indexOutOfRange

/-- Do all elements pass the check? Behind the first that does not, none is looked at. -/
def allChecks {α : Type} (check : α → Except BuildError Bool) : List α → Except BuildError Bool
  | [] => .ok true
  | a :: as => do
      if ← check a then allChecks check as else pure false

/-- `_explicitParameterTypes ?? _parameters`. -/
def MethodBuilder.explicitParams : List (Option τ) := b.explicitParameterTypes.getD b.parameters

/-- Source: `MethodBuilder.cs`, `MeetsGenericArgumentRequirements` -/
def meetsGenericArgumentRequirements (actualGenericArg : τ) (expectedArg : Option τ) : Bool :=
  (rt.getGenericParameterConstraints actualGenericArg).all fun constraint =>
    rt.isAssignableFrom constraint expectedArg

/-- Source: `MethodBuilder.cs`, `ParametersAreViable`, `GetExpectedParameterTypeByIndex` -/
def parametersAreViable (mi : μ) : Except BuildError Bool :=
  if (rt.parameterTypes mi).length ≠ b.parameters.length then .ok false
  else
    allChecks (fun (parameterType, i) => do
      match ← elementAt b.explicitParams i with
      | none => pure true
      | some expected =>
          if rt.isGenericParameter parameterType then
            pure (meetsGenericArgumentRequirements rt parameterType (some expected))
          else pure (rt.isAssignableFrom parameterType (some expected)))
      (rt.parameterTypes mi).zipIdx

/-- Source: `MethodBuilder.cs`, `ParametersAreExact` -/
def parametersAreExact (mi : μ) : Except BuildError Bool :=
  allChecks (fun (parameterType, i) => do
    match ← elementAt b.explicitParams i with
    | none => pure true
    | some actual => pure (parameterType = actual))
    (rt.parameterTypes mi).zipIdx

/-- Source: `MethodBuilder.cs`, `GenericsAreViable` -/
def genericsAreViable (mi : μ) : Except BuildError Bool :=
  match b.methodGenerics with
  | none => .ok (rt.containsGenericParameters mi = false)
  | some methodGenerics =>
      if rt.isGenericMethod mi = false then .ok (methodGenerics.length = 0)
      else if (rt.getGenericArguments mi).length ≠ methodGenerics.length then .ok false
      else
        allChecks (fun actualGenericArg => do
          if rt.isGenericParameter actualGenericArg then
            let expected ← elementAt methodGenerics (rt.genericParameterPosition actualGenericArg)
            pure (meetsGenericArgumentRequirements rt actualGenericArg expected)
          else pure true)
          (rt.getGenericArguments mi)

/-- Source: `MethodBuilder.cs`, `VerifyMethodFromToken` -/
def verifyMethodFromToken (mi : μ) : Except BuildError (Option μ) := do
  if b.methodName ≠ some (rt.name mi) then pure none
  else if !(← genericsAreViable rt b mi) then pure none
  else if !(← parametersAreViable rt b mi) then pure none
  else if !rt.isStatic mi && !rt.isAssignableFrom (rt.reflectedType mi) b.concreteType then
    pure none
  else pure (some mi)

/-- Source: `MethodBuilder.cs`, `MakeGenericMethod` -/
def makeGenericMethod (mi : μ) : Except BuildError μ :=
  match b.methodGenerics with
  | none => .error .methodGenericsMissing
  | some methodGenerics =>
      if methodGenerics.length = 0 then .error .methodGenericsMissing
      else
        match rt.makeGenericMethod mi methodGenerics with
        | some mi => .ok mi
        | none => .error .makeGenericMethod

/-- `ClrNames.Ignore`. -/
def clrIgnore : String := "_"

/-- `ClrNames.GenericTask`. -/
def clrGenericTask : String := "System.Threading.Tasks.Task`1"

/-- `ClrNames.IgnoreGenericTask`. -/
def clrIgnoreGenericTask : String := "System.Threading.Tasks.Task`1<_>"

/-- `ClrNames.GenericParameterTask`. -/
def clrGenericParameterTask : String := "System.Threading.Tasks.Task`1<T>"

/-- `{type.Namespace}.{type.Name}`. -/
def qualifiedName (type : τ) : String := rt.typeNamespace type ++ "." ++ rt.typeName type

/-- The body of the loop over the types of a method, for one of them. -/
def filterType (mi : μ) (filter : List String) (type : τ) (i : Nat) : Except BuildError Bool := do
  let expected ← elementAt filter i
  if expected = clrIgnore then pure true
  -- the return type is a generic task
  else if i = 0 ∧ rt.isGenericType (rt.returnType mi) ∧
      rt.isAssignableFrom rt.task (some (rt.returnType mi)) then
    if expected = clrIgnoreGenericTask then pure true
    else do
      let typeArgument ← elementAt (rt.genericTypeArguments (rt.returnType mi)) 0
      if rt.isGenericParameter typeArgument ∧ clrGenericParameterTask ≠ expected then pure false
      else if ¬ rt.isGenericParameter typeArgument ∧
          clrGenericTask ++ "<" ++ qualifiedName rt typeArgument ++ ">" ≠ expected then pure false
      else pure true
  else pure (qualifiedName rt type = expected)

/-- The filter by the names of the types. -/
def matchesFilter (filter : List String) (mi : μ) : Except BuildError Bool :=
  if (rt.parameterTypes mi).length + 1 ≠ filter.length then .ok false
  else
    allChecks (fun (type, i) => filterType rt mi filter type i)
      (rt.returnType mi :: rt.parameterTypes mi).zipIdx

/-- The last steps of the search: the parameters, the generics, the exact parameters. -/
def narrowDown (matchesOnNameAndReturn : Nat) (methods : List μ) : Except BuildError μ := do
  match ← methods.filterM (parametersAreViable rt b) with
  | [mi] => pure mi
  | methods =>
      match ← methods.filterM (genericsAreViable rt b) with
      | [mi] => pure mi
      | methods =>
          match ← methods.filterM (parametersAreExact rt b) with
          | [mi] => pure mi
          | [] => .error (.notFound matchesOnNameAndReturn)
          | methods => .error (.ambiguous methods.length)

/-- Source: `MethodBuilder.cs`, `TryFindMethod` -/
def tryFindMethod : Except BuildError μ := do
  match b.concreteType with
  | none => .error .nullReference
  | some concreteType =>
      let methods := (rt.getMethods concreteType).filter fun mi =>
        some (rt.name mi) = b.methodName ∧
          (b.returnType = none ∨ b.returnType = some (rt.returnType mi))
      let matchesOnNameAndReturn := methods.length
      match ← (match b.namespaceAndNameFilter with
        | none => pure methods
        | some filter => methods.filterM (matchesFilter rt filter)) with
      | [mi] => pure mi
      | methods => narrowDown rt b matchesOnNameAndReturn methods

/-- What the token stands for, if it does. -/
def resolveToken : Option (MethodBase μ) :=
  match b.resolutionModule with
  | none => none
  | some resolutionModule =>
      if b.forceMethodDefResolve ∨ (b.declaringTypeGenerics = none ∧ b.methodGenerics = none) then
        rt.resolveMethod resolutionModule b.mdToken
      else
        rt.resolveGenericMethod resolutionModule b.mdToken b.declaringTypeGenerics b.methodGenerics

/-- The method that the token stands for, if it is the one that is described. -/
def methodFromToken : Except BuildError (Option μ) :=
  match resolveToken rt b with
  | some (.method info) => do
      let info ← if rt.isGenericMethodDefinition info then makeGenericMethod rt b info else pure info
      verifyMethodFromToken rt b info
  | _ => .ok none

/-- The method that the delegate is for. -/
def resolveTarget : Except BuildError μ := do
  match ← methodFromToken rt b with
  | some mi => if settings.forceFallbackLookup then tryFindMethod rt b else pure mi
  | none => if settings.forceMdTokenLookup then .error .forcedTokenLookup else tryFindMethod rt b

end Resolution

/-! ## The delegate -/

/-- The instructions of a delegate. -/
inductive DelegateInstr (τ μ : Type)
  /-- `ldarg.0` to `ldarg.3`, or `ldarg.s`. -/
  | ldarg (i : Nat)
  /-- `unbox.any`. -/
  | unboxAny (type : τ)
  /-- `castclass`. -/
  | castclass (type : τ)
  /-- `call`. -/
  | call (method : μ)
  /-- `callvirt`. -/
  | callvirt (method : μ)
  /-- `box`. -/
  | box (type : τ)
  /-- `ret`. -/
  | ret
  deriving DecidableEq, Repr

/-- A delegate: the method it calls, and its code. -/
structure EmittedDelegate (τ μ : Type) where
  /-- The method. -/
  target : μ
  /-- The types of its parameters. -/
  parameterTypes : List τ
  /-- The type it returns. -/
  returnType : τ
  /-- The code. -/
  code : List (DelegateInstr τ μ)
  deriving DecidableEq, Repr

section Emission

variable {τ μ m : Type} [DecidableEq τ] (rt : Runtime τ μ m) (settings : Settings τ)
  (b : MethodBuilder τ m)

/-- The parameter types and the return type of the delegate. -/
def delegateSignature : Except BuildError (List τ × τ) :=
  if "Func`".isPrefixOf settings.delegateName then
    match settings.delegateGenericArgs.getLast? with
    | some returnType => .ok (settings.delegateGenericArgs.dropLast, returnType)
    | none => .error .indexOutOfRange
  else if "Action`".isPrefixOf settings.delegateName then
    .ok (settings.delegateGenericArgs, rt.void)
  else .error .delegateType

/-- The types of the arguments of the method, with the instance. -/
def effectiveParameterTypes (mi : μ) : List (Option τ) :=
  if rt.isStatic mi then (rt.parameterTypes mi).map some
  else b.concreteType :: (rt.parameterTypes mi).map some

/-- The conversion of an argument. -/
def convertArgument (delegateParameterType : τ) :
    Option τ → Except BuildError (List (DelegateInstr τ μ))
  | none => .error .nullReference
  | some underlyingParameterType =>
      if rt.isValueType underlyingParameterType ∧ delegateParameterType = rt.object then
        .ok [.unboxAny underlyingParameterType]
      else if underlyingParameterType ≠ delegateParameterType then
        .ok [.castclass underlyingParameterType]
      else .ok []

/-- The loop over the arguments. -/
def loadArguments (effective : List (Option τ)) :
    List (τ × Nat) → Except BuildError (List (DelegateInstr τ μ))
  | [] => .ok []
  | (delegateParameterType, i) :: rest => do
      let underlying ← elementAt effective i
      let conversion ← convertArgument rt delegateParameterType underlying
      let code ← loadArguments effective rest
      pure (.ldarg i :: (conversion ++ code))

/-- The call. -/
def callTarget (mi : μ) : Except BuildError (DelegateInstr τ μ) :=
  if b.opCode = opCodeCall ∨ rt.isStatic mi then .ok (.call mi)
  else if b.opCode = opCodeCallvirt then .ok (.callvirt mi)
  else .error (.opCodeNotSupported b.originalOpCodeValue)

/-- The conversion of the result. -/
def convertResult (target returnType : τ) : Except BuildError (List (DelegateInstr τ μ)) :=
  if rt.isValueType target ∧ ¬ rt.isValueType returnType then .ok [.box target]
  else if rt.isValueType target ∧ rt.isValueType returnType ∧ target ≠ returnType then
    .error .returnValueTypes
  else if ¬ rt.isValueType target ∧ rt.isValueType returnType then .error .returnReferenceToValue
  else if ¬ rt.isValueType target ∧ ¬ rt.isValueType returnType ∧ target ≠ returnType then
    .ok [.castclass returnType]
  else .ok []

/-- The delegate for a method. -/
def emitCall (mi : μ) : Except BuildError (EmittedDelegate τ μ) := do
  let (delegateParameterTypes, returnType) ← delegateSignature rt settings
  let mi ← if rt.isGenericMethodDefinition mi then makeGenericMethod rt b mi else pure mi
  let arguments ← loadArguments rt (effectiveParameterTypes rt b mi) delegateParameterTypes.zipIdx
  let call ← callTarget rt b mi
  let result ← convertResult rt (rt.returnType mi) returnType
  pure ⟨mi, delegateParameterTypes, returnType, arguments ++ call :: (result ++ [.ret])⟩

/-- Source: `MethodBuilder.cs`, `EmitDelegate` -/
def emitDelegate : Except BuildError (EmittedDelegate τ μ) := do
  let mi ← resolveTarget rt settings b
  emitCall rt settings b mi

/-- The loop over the explicit types. -/
def validateExplicit : List (Option τ × Option τ) → Nat → Except BuildError Unit
  | [], _ => .ok ()
  | (_, none) :: rest, i => validateExplicit rest (i + 1)
  | (none, some _) :: _, _ => .error .nullReference
  | (some explicitType, some parameterType) :: rest, i =>
      if rt.isAssignableFrom explicitType (some parameterType) then validateExplicit rest (i + 1)
      else .error (.explicitNotAssignable i)

/-- `char.IsWhiteSpace`. -/
def isWhiteSpace (c : Char) : Bool :=
  (0x09 ≤ c.toNat && c.toNat ≤ 0x0D) || (0x2000 ≤ c.toNat && c.toNat ≤ 0x200A) ||
    [0x20, 0x85, 0xA0, 0x1680, 0x2028, 0x2029, 0x202F, 0x205F, 0x3000].contains c.toNat

/-- `string.IsNullOrWhiteSpace`. -/
def isNullOrWhiteSpace (s : Option String) : Bool :=
  s.elim true fun s => s.toList.all isWhiteSpace

/-- Source: `MethodBuilder.cs`, `ValidateRequirements` -/
def validateRequirements : Except BuildError Unit :=
  if b.concreteType = none then .error .concreteTypeMissing
  else if isNullOrWhiteSpace b.methodName then .error .methodNameMissing
  else if b.namespaceAndNameFilter.any fun filter => filter.length ≠ b.parameters.length + 1 then
    .error .filterLength
  else
    match b.explicitParameterTypes with
    | none => .ok ()
    | some explicitTypes =>
        if explicitTypes.length ≠ b.parameters.length then .error .explicitLength
        else validateExplicit rt (explicitTypes.zip b.parameters) 0

end Emission

/-! ## The cache -/

/-- Source: `MethodBuilder.cs`, `Key` -/
structure Key (τ m : Type) where
  /-- `CallingModuleMetadataToken`. -/
  callingModuleMetadataToken : Int
  /-- `Builder`. -/
  builder : MethodBuilder τ m

section Cache

variable {τ μ m : Type} [DecidableEq τ] (rt : Runtime τ μ m) (settings : Settings τ)

/-- Source: `MethodBuilder.cs`, `ArrayEquals` -/
def arrayEquals (array1 array2 : Option (List (Option τ))) : Bool := array1 = array2

/-- Source: `MethodBuilder.cs`, `KeyComparer.Equals` -/
def keyEquals (x y : Key τ m) : Bool :=
  x.callingModuleMetadataToken = y.callingModuleMetadataToken ∧
    x.builder.mdToken = y.builder.mdToken ∧
    x.builder.opCode = y.builder.opCode ∧
    x.builder.concreteType = y.builder.concreteType ∧
    arrayEquals (some x.builder.explicitParams) (some y.builder.explicitParams) ∧
    arrayEquals x.builder.methodGenerics y.builder.methodGenerics ∧
    arrayEquals x.builder.declaringTypeGenerics y.builder.declaringTypeGenerics

/-- The unchecked arithmetic of `int`. -/
def int32 (n : Int) : Int := Int.bmod n (2 ^ 32)

/-- `KeyComparer.GetHashCode` of an array: an element that is `null` makes the value 0. -/
def arrayHash : Option (List (Option τ)) → Int
  | none => 0
  | some array =>
      array.foldl
        (fun value type => type.elim 0 fun type => int32 (value * 31 + rt.getHashCode type))
        array.length

/-- The hash of a number is the number.
Source: `MethodBuilder.cs`, `KeyComparer.GetHashCode` -/
def keyHash (x : Key τ m) : Except BuildError Int :=
  match x.builder.concreteType with
  | none => .error .nullReference
  | some concreteType =>
      let hash := int32 (17 * 23 + x.callingModuleMetadataToken)
      let hash := int32 (hash * 23 + x.builder.mdToken)
      let hash := int32 (hash * 23 + x.builder.opCode)
      let hash := int32 (hash * 23 + rt.getHashCode concreteType)
      let hash := int32 (hash * 23 + arrayHash rt x.builder.methodGenerics)
      let hash := int32 (hash * 23 + arrayHash rt (some x.builder.explicitParams))
      .ok (int32 (hash * 23 + arrayHash rt x.builder.declaringTypeGenerics))

/-- The key of a builder with its hash: the key looks at the module, and the hash at the concrete
type.
Source: `MethodBuilder.cs`, `Build` -/
def hashedKey (b : MethodBuilder τ m) : Except BuildError (Int × Key τ m) :=
  match b.resolutionModule with
  | none => .error .nullReference
  | some _ => do
      let hash ← keyHash rt ⟨rt.metadataToken, b⟩
      pure (hash, ⟨rt.metadataToken, b⟩)

/-- Do the keys stand for one entry of the dictionary? -/
def sameEntry (x y : Int × Key τ m) : Bool := x.1 = y.1 ∧ keyEquals x.2 y.2

/-- The factory of `Build`. -/
def buildNew (x : Int × Key τ m) : Except BuildError (EmittedDelegate τ μ) := do
  validateRequirements rt x.2.builder
  emitDelegate rt settings x.2.builder

/-- The delegates of a sequence of builders, with an empty cache before the first.
Source: `MethodBuilder.cs`, `Build` -/
def buildAll (builders : List (MethodBuilder τ m)) :
    List (Except BuildError (EmittedDelegate τ μ)) :=
  MemoTable.results (hashedKey rt) sameEntry (buildNew rt settings) [] builders

end Cache

end DdTrace.Emit
