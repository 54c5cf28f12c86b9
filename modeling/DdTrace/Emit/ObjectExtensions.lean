import DdTrace.Emit.MethodBuilder
import DdTrace.Lib.Outcomes

/-!
# Accessors of members

The extension methods that call a method or read a field of an object of the traced application, by
its name, through a delegate that is emitted for it. The delegates are kept in one cache for all of
them.

* `createMethodCallDelegate`, `createFieldDelegate`: the delegates.
* `tryCallMethod`, `tryCallMethodOne`, `tryCallVoidMethod`, `tryGetFieldValue`: what the methods
  look for in the cache, what they put there, and what they take from it.
* `callAll`: a sequence of calls.

What a delegate does when it is called is a parameter. The names of emitted methods are left out.

Sources: `ObjectExtensions.cs`; `DynamicMethodBuilder.cs`, `CreateMethodCallDelegate`.
-/

namespace DdTrace.Emit.ObjectExtensions

open DdTrace.Lib DdTrace.Lib.Outcomes

/-! ## Delegates -/

/-- Reflection, with the fields of types. -/
structure FieldRuntime (τ μ m φ : Type) extends Runtime τ μ m where
  /-- `Type.GetField`, public and not, of the instance. -/
  getField : τ → String → Option φ
  /-- `FieldInfo.FieldType`. -/
  fieldType : φ → τ

/-- `Func<…>` and `Action<…>`. -/
inductive DelegateType (τ : Type)
  /-- A function. -/
  | func (parameters : List τ) (result : τ)
  /-- A procedure. -/
  | action (parameters : List τ)
  deriving DecidableEq, Repr

/-- The instructions that are emitted. -/
inductive Instruction (τ μ φ : Type)
  | ldarg (index : Nat)
  | unboxAny (type : τ)
  | castclass (type : τ)
  | box (type : τ)
  | call (method : μ)
  | callvirt (method : μ)
  | ldfld (field : φ)
  | ret
  deriving DecidableEq, Repr

/-- A delegate, by its type and the instructions of its method. -/
structure Delegate (τ μ φ : Type) where
  type : DelegateType τ
  il : List (Instruction τ μ φ)
  deriving DecidableEq, Repr

/-- The exceptions of a call, but for those of the delegate. -/
inductive CallError
  /-- `NullReferenceException`. -/
  | nullReference
  /-- `ArgumentNullException`. -/
  | argumentNull
  /-- `IndexOutOfRangeException`. -/
  | indexOutOfRange
  /-- `ArgumentException`. -/
  | argument
  /-- `NotSupportedException`. -/
  | notSupported
  deriving DecidableEq, Repr

section Creation

variable {τ μ m φ : Type} [DecidableEq τ] (rt : FieldRuntime τ μ m φ)

/-- The parameters of a method have the names of these types.
Source: `DynamicMethodBuilder.cs`, the filter under `methodParameterTypes != null` -/
def parametersMatch (methodParameterTypes : List τ) (method : μ) : Bool :=
  (rt.parameterTypes method).length == methodParameterTypes.length &&
    ((rt.parameterTypes method).zip methodParameterTypes).all fun (t1, t2) =>
      rt.typeNamespace t1 == rt.typeNamespace t2 && rt.typeName t1 == rt.typeName t2

/-- Load the arguments of the delegate, from one on, as those of the method.
Source: `DynamicMethodBuilder.cs`, the loop over `parameterTypes` -/
def loadArguments (argumentIndex : Nat) (parameterTypes effectiveParameterTypes : List τ) :
    Except CallError (List (Instruction τ μ φ)) :=
  match parameterTypes, effectiveParameterTypes with
  | [], _ => .ok []
  | _ :: _, [] => .error .indexOutOfRange
  | delegateParameterType :: parameterTypes, underlyingParameterType :: effectiveParameterTypes =>
      do
        let rest ← loadArguments (argumentIndex + 1) parameterTypes effectiveParameterTypes
        let conversion :=
          if rt.isValueType underlyingParameterType ∧ delegateParameterType = rt.object then
            [.unboxAny underlyingParameterType]
          else if underlyingParameterType ≠ delegateParameterType then
            [.castclass underlyingParameterType]
          else []
        return .ldarg argumentIndex :: conversion ++ rest

/-- The result of the method as that of the delegate.
Source: `DynamicMethodBuilder.cs`, the conditions behind the call -/
def convertResult (methodReturnType returnType : τ) :
    Except CallError (List (Instruction τ μ φ)) :=
  if rt.isValueType methodReturnType ∧ ¬rt.isValueType returnType then .ok [.box methodReturnType]
  else if rt.isValueType methodReturnType ∧ rt.isValueType returnType ∧
      methodReturnType ≠ returnType then
    .error .argument
  else if ¬rt.isValueType methodReturnType ∧ rt.isValueType returnType then .error .argument
  else if ¬rt.isValueType methodReturnType ∧ ¬rt.isValueType returnType ∧
      methodReturnType ≠ returnType then
    .ok [.castclass returnType]
  else .ok []

/-- A delegate for the first method of this name, with these parameters and generic arguments.
Source: `DynamicMethodBuilder.cs`, `CreateMethodCallDelegate` -/
def createMethodCallDelegate (delegateType : DelegateType τ) (type : τ) (methodName : String)
    (callOpCode : Int) (methodParameterTypes methodGenericArguments : Option (List τ)) :
    Except CallError (Option (Delegate τ μ φ)) :=
  let parameterTypes :=
    match delegateType with
    | .func parameters _ => parameters
    | .action parameters => parameters
  let returnType :=
    match delegateType with
    | .func _ result => result
    | .action _ => rt.void
  let methods := (rt.getMethods type).filter fun m => rt.name m == methodName
  let methods :=
    match methodParameterTypes with
    | some types => methods.filter (parametersMatch rt types)
    | none => methods
  let methods :=
    match methodGenericArguments with
    | some arguments => methods.filter fun m =>
        rt.isGenericMethodDefinition m && (rt.getGenericArguments m).length == arguments.length
    | none => methods
  match methods.head? with
  | none => .ok none
  | some methodInfo => do
      let methodInfo ← (match methodGenericArguments with
        | some arguments =>
            (rt.makeGenericMethod methodInfo (arguments.map some)).elim (.error .argument) .ok
        | none => .ok methodInfo)
      let effectiveParameterTypes :=
        if rt.isStatic methodInfo then rt.parameterTypes methodInfo
        else type :: rt.parameterTypes methodInfo
      let load ← loadArguments rt 0 parameterTypes effectiveParameterTypes
      let call ← (if callOpCode = opCodeCall ∨ rt.isStatic methodInfo then .ok (.call methodInfo)
        else if callOpCode = opCodeCallvirt then .ok (.callvirt methodInfo)
        else .error .notSupported)
      let conversion ← convertResult rt (rt.returnType methodInfo) returnType
      return some ⟨delegateType, load ++ call :: conversion ++ [.ret]⟩

/-- A delegate that reads a field.
Source: `ObjectExtensions.cs`, `CreateFieldDelegate` -/
def createFieldDelegate (result containerType : τ) (fieldName : String) :
    Option (Delegate τ μ φ) :=
  (rt.getField containerType fieldName).map fun fieldInfo =>
    let unwrap :=
      if rt.isValueType containerType then .unboxAny containerType else .castclass containerType
    let conversion :=
      if rt.isValueType (rt.fieldType fieldInfo) ∧ result = rt.object then
        [.box (rt.fieldType fieldInfo)]
      else if rt.fieldType fieldInfo ≠ result then [.castclass result]
      else []
    ⟨.func [rt.object] result, [.ldarg 0, unwrap, .ldfld fieldInfo] ++ conversion ++ [.ret]⟩

/-- A reference of the one type is one of the other. -/
def referenceConvertible (t t' : τ) : Bool :=
  t = t' || (!rt.isValueType t && !rt.isValueType t' && rt.isAssignableFrom t' (some t))

/-- `is`, for delegates: parameters are contravariant and results are covariant. -/
def DelegateType.isInstance : DelegateType τ → DelegateType τ → Bool
  | .func parameters result, .func parameters' result' =>
      parameters.length == parameters'.length &&
        (parameters'.zip parameters).all (fun (t, t') => referenceConvertible rt t t') &&
        referenceConvertible rt result result'
  | .action parameters, .action parameters' =>
      parameters.length == parameters'.length &&
        (parameters'.zip parameters).all fun (t, t') => referenceConvertible rt t t'
  | _, _ => false

/-! ## Accesses -/

/-- The key of an accessor.
Source: `ObjectExtensions.cs`, `PropertyFetcherCacheKey` -/
structure PropertyFetcherCacheKey (τ : Type) where
  type1 : τ
  type2 : τ
  type3 : Option τ
  name : String
  deriving DecidableEq, Repr

/-- What a method does with the cache. -/
structure Access (τ μ φ : Type) where
  /-- The key for a type and a name. -/
  key : τ → String → PropertyFetcherCacheKey τ
  /-- What is put there if there is nothing yet. -/
  valueFactory : PropertyFetcherCacheKey τ → Except CallError (Option (Delegate τ μ φ))
  /-- The type of delegate that is called. -/
  delegateType : DelegateType τ

/-- Source: `ObjectExtensions.cs`, `TryCallMethod<TArg1, TResult>` -/
def tryCallMethodOne (arg1 result : τ) : Access τ μ φ where
  key type methodName := ⟨type, arg1, some result, methodName⟩
  valueFactory key := createMethodCallDelegate rt (.func [rt.object, arg1] result) key.type1 key.name
    opCodeCallvirt (some [key.type2]) none
  delegateType := .func [rt.object, arg1] result

/-- Source: `ObjectExtensions.cs`, `TryCallVoidMethod<TArg1, TArg2>` -/
def tryCallVoidMethod (arg1 arg2 : τ) : Access τ μ φ where
  key type methodName := ⟨type, arg1, some arg2, methodName⟩
  valueFactory key := createMethodCallDelegate rt (.action [rt.object, arg1, arg2]) key.type1
    key.name opCodeCallvirt (some (key.type2 :: key.type3.toList)) none
  delegateType := .action [rt.object, arg1, arg2]

/-- Source: `ObjectExtensions.cs`, `TryCallMethod<TResult>` -/
def tryCallMethod (result : τ) : Access τ μ φ where
  key type methodName := ⟨type, result, none, methodName⟩
  valueFactory key := createMethodCallDelegate rt (.func [rt.object] result) key.type1 key.name
    opCodeCallvirt none none
  delegateType := .func [rt.object] result

/-- Source: `ObjectExtensions.cs`, `TryGetFieldValue<TResult>` and `GetKey<TResult>` -/
def tryGetFieldValue (result : τ) : Access τ μ φ where
  key type fieldName := ⟨type, result, none, fieldName⟩
  valueFactory key := .ok (createFieldDelegate rt result key.type1 key.name)
  delegateType := .func [rt.object] result

/-- The four methods, with their type arguments. -/
inductive Accessor (τ : Type)
  | callMethodOne (arg1 result : τ)
  | callVoidMethod (arg1 arg2 : τ)
  | callMethod (result : τ)
  | getFieldValue (result : τ)
  deriving DecidableEq, Repr

/-- What the method does with the cache. -/
def Accessor.access : Accessor τ → Access τ μ φ
  | .callMethodOne arg1 result => tryCallMethodOne rt arg1 result
  | .callVoidMethod arg1 arg2 => tryCallVoidMethod rt arg1 arg2
  | .callMethod result => tryCallMethod rt result
  | .getFieldValue result => tryGetFieldValue rt result

/-- A call: the method, the type of the source if it is not null, the name, and what the delegate
would be called with and in which state. -/
structure Call (τ ω : Type) where
  accessor : Accessor τ
  sourceType : Option τ
  name : Option String
  arguments : ω
  deriving DecidableEq, Repr

/-- What a call comes to: the flag and the value, which is the default if the flag is `false`. -/
inductive CallResult (V : Type)
  /-- An exception. -/
  | threw (e : CallError)
  /-- The flag is `false`. -/
  | notFound
  /-- The flag is `true`; the value, or the exception, is the delegate's. -/
  | found (value : V)
  deriving DecidableEq, Repr

variable {ω V : Type}

/-- The key of a call; `GetType` throws for null, and so does the constructor of the key. -/
def Call.key (c : Call τ ω) : Except CallError (PropertyFetcherCacheKey τ) :=
  match c.sourceType with
  | none => .error .nullReference
  | some type =>
      match c.name with
      | none => .error .argumentNull
      | some name => .ok ((c.accessor.access rt).key type name)

/-- What a call puts into the cache if there is nothing yet. -/
def Call.create (c : Call τ ω) : Except CallError (Option (Delegate τ μ φ)) :=
  c.key rt >>= (c.accessor.access rt).valueFactory

/-- What a call does with what it has from the cache. -/
def Call.answer (invoke : Delegate τ μ φ → ω → V) (c : Call τ ω) :
    Except CallError (Option (Delegate τ μ φ)) → CallResult V
  | .ok (some cachedItem) =>
      if cachedItem.type.isInstance rt (c.accessor.access rt).delegateType then
        .found (invoke cachedItem c.arguments)
      else .notFound
  | .ok none => .notFound
  | .error e => .threw e

/-- `Cache`. -/
abbrev Cache (τ μ φ : Type) : Type :=
  List (PropertyFetcherCacheKey τ × Option (Delegate τ μ φ))

variable (invoke : Delegate τ μ φ → ω → V)

/-- Calls one after the other. -/
def callAll : Cache τ μ φ → List (Call τ ω) → List (CallResult V)
  | _, [] => []
  | cache, call :: calls =>
      let served := MemoTable.serveOwn (Call.key rt) (Call.create rt) cache call
      call.answer rt invoke served.1 :: callAll served.2 calls

/-- A call with an empty cache. -/
def Call.alone (c : Call τ ω) : CallResult V :=
  c.answer rt invoke (MemoTable.serveOwn (Call.key rt) (Call.create rt) [] c).1

/-! ## What a call finds -/

variable {rt invoke}

/-- The delegate that a method creates is of the type it calls. -/
theorem createMethodCallDelegate_type {delegateType : DelegateType τ} {type : τ}
    {methodName : String} {callOpCode : Int} {types arguments : Option (List τ)}
    {d : Delegate τ μ φ}
    (h : createMethodCallDelegate rt delegateType type methodName callOpCode types arguments =
      .ok (some d)) : d.type = delegateType := by
  unfold createMethodCallDelegate at h
  dsimp only at h
  split at h
  case h_1 => cases h
  case h_2 =>
    obtain ⟨method, -, h⟩ := bind_eq_ok.mp h
    obtain ⟨load, -, h⟩ := bind_eq_ok.mp h
    obtain ⟨call, -, h⟩ := bind_eq_ok.mp h
    obtain ⟨conversion, -, h⟩ := bind_eq_ok.mp h
    cases h
    rfl

theorem valueFactory_type (a : Accessor τ) {key : PropertyFetcherCacheKey τ} {d : Delegate τ μ φ}
    (h : (a.access rt).valueFactory key = .ok (some d)) : d.type = (a.access rt).delegateType := by
  cases a with
  | callMethodOne arg1 result =>
      dsimp only [Accessor.access, tryCallMethodOne] at h ⊢
      exact createMethodCallDelegate_type h
  | callVoidMethod arg1 arg2 =>
      dsimp only [Accessor.access, tryCallVoidMethod] at h ⊢
      exact createMethodCallDelegate_type h
  | callMethod result =>
      dsimp only [Accessor.access, tryCallMethod] at h ⊢
      exact createMethodCallDelegate_type h
  | getFieldValue result =>
      obtain ⟨fieldInfo, -, rfl⟩ := Option.map_eq_some_iff.mp (Except.ok.inj h)
      rfl

theorem referenceConvertible_self (t : τ) : referenceConvertible rt t t = true := by
  simp [referenceConvertible]

theorem all_zip_self (ts : List τ) :
    ((ts.zip ts).all fun (t, t') => referenceConvertible rt t t') = true := by
  induction ts with
  | nil => rfl
  | cons t ts ih =>
      rw [List.zip_cons_cons, List.all_cons, ih]
      simp [referenceConvertible_self]

theorem isInstance_self (d : DelegateType τ) : d.isInstance rt d = true := by
  cases d with
  | func parameters result =>
      simp only [DelegateType.isInstance, all_zip_self, referenceConvertible_self]
      simp
  | action parameters =>
      simp only [DelegateType.isInstance, all_zip_self]
      simp

/-! ## Accessors with the same key -/

/-- The method that is called has arguments. -/
def Accessor.takesArguments : Accessor τ → Bool
  | .callMethodOne _ _ => true
  | .callVoidMethod _ _ => true
  | .callMethod _ => false
  | .getFieldValue _ => false

/-- Different accessors with the same key are a function and a procedure with the same two types, or
a method without arguments and a field of the same type. -/
theorem key_eq {a b : Accessor τ} {type type' : τ} {name name' : String}
    (h : (a.access rt).key type name = (b.access rt).key type' name') :
    type = type' ∧ name = name' ∧
      (a = b ∨
        b.takesArguments = true ∧
          (a.access rt).delegateType.isInstance rt (b.access rt).delegateType = false ∨
        b.takesArguments = false ∧ (a.access rt).delegateType = (b.access rt).delegateType) := by
  cases a with
  | callMethodOne arg1 result =>
      cases b with
      | callMethodOne => cases h; exact ⟨rfl, rfl, .inl rfl⟩
      | callVoidMethod => cases h; exact ⟨rfl, rfl, .inr (.inl ⟨rfl, rfl⟩)⟩
      | callMethod => cases h
      | getFieldValue => cases h
  | callVoidMethod arg1 arg2 =>
      cases b with
      | callMethodOne => cases h; exact ⟨rfl, rfl, .inr (.inl ⟨rfl, rfl⟩)⟩
      | callVoidMethod => cases h; exact ⟨rfl, rfl, .inl rfl⟩
      | callMethod => cases h
      | getFieldValue => cases h
  | callMethod result =>
      cases b with
      | callMethodOne => cases h
      | callVoidMethod => cases h
      | callMethod => cases h; exact ⟨rfl, rfl, .inl rfl⟩
      | getFieldValue => cases h; exact ⟨rfl, rfl, .inr (.inr ⟨rfl, rfl⟩)⟩
  | getFieldValue result =>
      cases b with
      | callMethodOne => cases h
      | callVoidMethod => cases h
      | callMethod => cases h; exact ⟨rfl, rfl, .inr (.inr ⟨rfl, rfl⟩)⟩
      | getFieldValue => cases h; exact ⟨rfl, rfl, .inl rfl⟩

/-- A call may be answered with what another call of the same key put into the cache. -/
inductive Agrees (rt : FieldRuntime τ μ m φ) (invoke : Delegate τ μ φ → ω → V)
    (maker call : Call τ ω) : Prop
  /-- The calls are of the same method and types. -/
  | sameAccessor : maker.accessor = call.accessor → Agrees rt invoke maker call
  /-- There is no such member, nor one that the other call can have found instead. -/
  | notFound : call.create rt = .ok none →
      maker.create rt = .ok none ∨ call.accessor.takesArguments = true → Agrees rt invoke maker call
  /-- The method and the field have the same value. -/
  | sameValue {d d' : Delegate τ μ φ} : maker.create rt = .ok (some d) →
      call.create rt = .ok (some d') → call.accessor.takesArguments = false →
      invoke d call.arguments = invoke d' call.arguments → Agrees rt invoke maker call

/-- A call has a key if there are a source and a name. -/
theorem Call.key_eq_ok {c : Call τ ω} {k : PropertyFetcherCacheKey τ} (h : c.key rt = .ok k) :
    ∃ type name, k = (c.accessor.access rt).key type name := by
  unfold Call.key at h
  cases htype : c.sourceType with
  | none => rw [htype] at h; cases h
  | some type =>
      cases hname : c.name with
      | none => rw [htype, hname] at h; cases h
      | some name =>
          rw [htype, hname] at h
          exact ⟨type, name, (Except.ok.inj h).symm⟩

theorem Call.create_eq {c : Call τ ω} {k : PropertyFetcherCacheKey τ} (h : c.key rt = .ok k) :
    c.create rt = (c.accessor.access rt).valueFactory k := by
  unfold Call.create
  rw [h]
  rfl

/-- What a call finds on its own is of the type it calls. -/
theorem Call.answer_own {c : Call τ ω} {k : PropertyFetcherCacheKey τ} (hkey : c.key rt = .ok k)
    {d : Delegate τ μ φ} (h : c.create rt = .ok (some d)) :
    c.answer rt invoke (.ok (some d)) = .found (invoke d c.arguments) := by
  rw [Call.create_eq hkey] at h
  have hinstance : d.type.isInstance rt (c.accessor.access rt).delegateType = true := by
    rw [valueFactory_type c.accessor h]
    exact isInstance_self _
  exact if_pos hinstance

/-- A call finds nothing exactly if it creates nothing. -/
theorem Call.answer_eq_notFound_iff {c : Call τ ω} {k : PropertyFetcherCacheKey τ}
    (hkey : c.key rt = .ok k) :
    .notFound = c.answer rt invoke (c.create rt) ↔ c.create rt = .ok none := by
  cases h : c.create rt with
  | error e => constructor <;> intro h' <;> cases h'
  | ok item =>
      cases item with
      | none => exact ⟨fun _ => rfl, fun _ => rfl⟩
      | some d =>
          rw [Call.answer_own hkey h]
          constructor <;> intro h' <;> cases h'

/-- **One answer.** What another call of the same key put into the cache is answered as what the
call would have put there itself exactly if the two calls agree. -/
theorem answer_eq_iff {maker call : Call τ ω} {k : PropertyFetcherCacheKey τ}
    (hmaker : maker.key rt = .ok k) (hcall : call.key rt = .ok k)
    {item : Option (Delegate τ μ φ)} (hitem : maker.create rt = .ok item) :
    call.answer rt invoke (.ok item) = call.answer rt invoke (call.create rt) ↔
      Agrees rt invoke maker call := by
  obtain ⟨type, name, hk⟩ := Call.key_eq_ok hmaker
  obtain ⟨type', name', hk'⟩ := Call.key_eq_ok hcall
  have hown (hsame : maker.accessor = call.accessor) : call.create rt = .ok item := by
    rw [← hitem, Call.create_eq hmaker, Call.create_eq hcall, hsame]
  obtain ⟨-, -, hsame | ⟨htakes, hother⟩ | ⟨htakes, htype⟩⟩ := key_eq (hk.symm.trans hk')
  · rw [hown hsame]
    exact ⟨fun _ => .sameAccessor hsame, fun _ => rfl⟩
  · -- a delegate of the other kind is taken for none
    have hanswer : call.answer rt invoke (.ok item) = .notFound := by
      cases item with
      | none => rfl
      | some d =>
          have hnot : ¬d.type.isInstance rt (call.accessor.access rt).delegateType = true := by
            rw [Call.create_eq hmaker] at hitem
            rw [valueFactory_type maker.accessor hitem, hother]
            exact Bool.false_ne_true
          exact if_neg hnot
    rw [hanswer, Call.answer_eq_notFound_iff hcall]
    constructor
    · exact fun hnone => .notFound hnone (.inr htakes)
    · intro hagree
      cases hagree with
      | sameAccessor hsame =>
          rw [hsame, isInstance_self] at hother
          cases hother
      | notFound hnone _ => exact hnone
      | sameValue _ _ hnot _ => cases htakes.symm.trans hnot
  · cases item with
    | none =>
        show .notFound = call.answer rt invoke (call.create rt) ↔ _
        rw [Call.answer_eq_notFound_iff hcall]
        constructor
        · exact fun hnone => .notFound hnone (.inl hitem)
        · intro hagree
          cases hagree with
          | sameAccessor hsame => exact hown hsame
          | notFound hnone _ => exact hnone
          | sameValue hsome _ _ _ => cases hitem.symm.trans hsome
    | some d =>
        have hanswer : call.answer rt invoke (.ok (some d)) = .found (invoke d call.arguments) := by
          have hinstance : d.type.isInstance rt (call.accessor.access rt).delegateType = true := by
            rw [Call.create_eq hmaker] at hitem
            rw [valueFactory_type maker.accessor hitem, htype]
            exact isInstance_self _
          exact if_pos hinstance
        rw [hanswer]
        constructor
        · intro heq
          cases hcreate : call.create rt with
          | error e => rw [hcreate] at heq; cases heq
          | ok item' =>
              cases item' with
              | none => rw [hcreate] at heq; cases heq
              | some d' =>
                  rw [hcreate, Call.answer_own hcall hcreate] at heq
                  exact .sameValue hitem hcreate htakes (CallResult.found.inj heq)
        · intro hagree
          cases hagree with
          | sameAccessor hsame => rw [hown hsame, hanswer]
          | notFound _ hor =>
              rcases hor with hnone | htrue
              · cases hitem.symm.trans hnone
              · cases htakes.symm.trans htrue
          | sameValue hsome hcreate _ hvalue =>
              cases Option.some.inj (Except.ok.inj (hitem.symm.trans hsome))
              rw [hcreate, Call.answer_own hcall hcreate, hvalue]

/-! ## Sequences of calls -/

/-- A call with an empty cache uses what it creates. -/
theorem Call.alone_eq (c : Call τ ω) :
    c.alone rt invoke = c.answer rt invoke (c.create rt) := by
  unfold Call.alone
  cases hkey : c.key rt with
  | error e =>
      unfold MemoTable.serveOwn Call.create
      rw [hkey]
      rfl
  | ok k =>
      rw [MemoTable.serveOwn_fst hkey]
      rfl

/-- The request that made the entry for a call. -/
theorem maker_spec {earlier : List (Call τ ω)} {k : PropertyFetcherCacheKey τ} {maker : Call τ ω}
    (h : MemoTable.maker (Call.key rt) (Call.create rt) k earlier = some maker) :
    maker.key rt = .ok k ∧ ∃ item, maker.create rt = .ok item ∧
      MemoTable.made (Call.key rt) (Call.create rt) k maker = some item := by
  have hmade := List.find?_some h
  unfold MemoTable.made at hmade ⊢
  cases hkey : maker.key rt with
  | error e => rw [hkey] at hmade; cases hmade
  | ok k' =>
      rw [hkey] at hmade
      by_cases hsame : k' = k
      · subst hsame
        cases hcreate : maker.create rt with
        | error e => rw [hcreate] at hmade; simp [Except.toOption] at hmade
        | ok item => exact ⟨rfl, item, rfl, by simp [Except.toOption]⟩
      · simp [hsame] at hmade

/-- Whoever made the entry for a call after these calls agrees with it. -/
def AgreesWithMaker (rt : FieldRuntime τ μ m φ) (invoke : Delegate τ μ φ → ω → V)
    (earlier : List (Call τ ω)) (call : Call τ ω) : Prop :=
  ∀ k, call.key rt = .ok k →
    ∀ maker, MemoTable.maker (Call.key rt) (Call.create rt) k earlier = some maker →
      Agrees rt invoke maker call

/-- A call after others. -/
theorem answer_after_iff (earlier : List (Call τ ω)) (call : Call τ ω) :
    call.answer rt invoke (MemoTable.serveOwn (Call.key rt) (Call.create rt)
        (MemoTable.tableAfter (Call.key rt) (Call.create rt) [] earlier) call).1 =
      call.alone rt invoke ↔ AgreesWithMaker rt invoke earlier call := by
  rw [Call.alone_eq]
  unfold AgreesWithMaker
  cases hkey : call.key rt with
  | error e =>
      unfold MemoTable.serveOwn Call.create
      rw [hkey]
      constructor
      · intro _ k hk
        cases hk
      · exact fun _ => rfl
  | ok k =>
      rw [MemoTable.serveOwn_fst hkey, MemoTable.lookup_tableAfter]
      cases hmaker : MemoTable.maker (Call.key rt) (Call.create rt) k earlier with
      | none =>
          constructor
          · rintro - k' hk' maker hsome
            cases Except.ok.inj hk'
            cases hmaker.symm.trans hsome
          · exact fun _ => rfl
      | some maker =>
          obtain ⟨hkey', item, hitem, hmade⟩ := maker_spec hmaker
          have hlookup : (MemoTable.lookup ([] : Cache τ μ φ) k).or
              ((some maker).bind (MemoTable.made (Call.key rt) (Call.create rt) k)) = some item :=
            hmade
          rw [hlookup]
          show call.answer rt invoke (.ok item) = call.answer rt invoke (call.create rt) ↔ _
          rw [answer_eq_iff hkey' hkey hitem]
          constructor
          · rintro hagree k' hk' maker' hsome
            cases Except.ok.inj hk'
            cases Option.some.inj (hmaker.symm.trans hsome)
            exact hagree
          · exact fun h => h k rfl maker hmaker

/-- **The cache of accessors.** In a sequence of calls each returns what it would with an empty cache
exactly if each agrees with the call that made the entry under its key. -/
theorem callAll_eq_map_alone_iff (rt : FieldRuntime τ μ m φ) (invoke : Delegate τ μ φ → ω → V)
    (calls : List (Call τ ω)) :
    callAll rt invoke [] calls = calls.map (Call.alone rt invoke) ↔
      ∀ earlier call later, calls = earlier ++ call :: later →
        AgreesWithMaker rt invoke earlier call := by
  suffices h : ∀ done, callAll rt invoke
      (MemoTable.tableAfter (Call.key rt) (Call.create rt) [] done) calls =
        calls.map (Call.alone rt invoke) ↔
      ∀ earlier call later, calls = earlier ++ call :: later →
        AgreesWithMaker rt invoke (done ++ earlier) call from h []
  induction calls with
  | nil =>
      intro done
      constructor
      · intro _ earlier call later heq
        cases earlier <;> cases heq
      · exact fun _ => rfl
  | cons first calls ih =>
      intro done
      have hnext : MemoTable.tableAfter (Call.key rt) (Call.create rt) [] (done ++ [first]) =
          (MemoTable.serveOwn (Call.key rt) (Call.create rt)
            (MemoTable.tableAfter (Call.key rt) (Call.create rt) [] done) first).2 := by
        simp only [MemoTable.tableAfter, List.foldl_append, List.foldl_cons, List.foldl_nil]
      rw [callAll, List.map_cons, List.cons.injEq, answer_after_iff, ← hnext, ih (done ++ [first])]
      constructor
      · rintro ⟨hfirst, hrest⟩ earlier call later heq
        rcases List.cons_eq_append_iff.mp heq with ⟨rfl, hcons⟩ | ⟨earlier', rfl, hcalls⟩
        · cases hcons
          rw [List.append_nil]
          exact hfirst
        · have hagree := hrest earlier' call later hcalls
          rw [List.append_assoc] at hagree
          exact hagree
      · intro h
        refine ⟨?_, fun earlier call later heq => ?_⟩
        · have hagree := h [] first calls rfl
          rw [List.append_nil] at hagree
          exact hagree
        · rw [List.append_assoc]
          exact h (first :: earlier) call later (by rw [heq]; rfl)

end Creation

/-! ## A method that is not found any more -/

/-- The types are `object`, `void`, `Task`, a class and `string`; the class has a method `Text`
without parameters, and no field. -/
def textRuntime : FieldRuntime Nat Nat Nat Nat where
  isValueType := fun type => type = 1
  isGenericParameter := fun _ => false
  genericParameterPosition := fun _ => 0
  getGenericParameterConstraints := fun _ => []
  isAssignableFrom := fun type from? => from?.any fun other => type = other ∨ (type = 0 ∧ other ≠ 1)
  isGenericType := fun _ => false
  genericTypeArguments := fun _ => []
  typeNamespace := fun _ => "N"
  typeName := fun type => if type = 4 then "String" else "T"
  getHashCode := fun type => type
  object := 0
  void := 1
  task := 2
  getMethods := fun type => if type = 3 then [0] else []
  name := fun _ => "Text"
  returnType := fun _ => 4
  parameterTypes := fun _ => []
  isStatic := fun _ => false
  isGenericMethod := fun _ => false
  isGenericMethodDefinition := fun _ => false
  containsGenericParameters := fun _ => false
  getGenericArguments := fun _ => []
  reflectedType := fun _ => 3
  makeGenericMethod := fun _ _ => none
  resolveMethod := fun _ _ => none
  resolveGenericMethod := fun _ _ _ _ => none
  metadataToken := 1
  getField := fun _ _ => none
  fieldType := fun _ => 4

/-- The field `Text` is looked for, in vain, and then the method is called. -/
def textCalls : List (Call Nat Unit) :=
  [⟨.getFieldValue 4, some 3, some "Text", ()⟩, ⟨.callMethod 4, some 3, some "Text", ()⟩]

/-- After the field, the method is not found either; with an empty cache it is called. -/
theorem callAll_hides_method :
    let invoke : Delegate Nat Nat Nat → Unit → String := fun _ _ => "text"
    callAll textRuntime invoke [] textCalls = [.notFound, .notFound] ∧
      textCalls.map (Call.alone textRuntime invoke) = [.notFound, .found "text"] ∧
      callAll textRuntime invoke [] textCalls ≠ textCalls.map (Call.alone textRuntime invoke) := by
  decide +kernel

end DdTrace.Emit.ObjectExtensions
