import DdTrace.Emit.MethodBuilder
import DdTrace.Lib.Outcomes

/-!
# The cache of delegates

When a delegate from the cache is the one that the builder would have got on its own.

* `keyHash_eq_of_keyEquals`: keys that are equal have the same hash.
* `Agrees`: two builders agree on what their keys leave out.
* `emitDelegate_of_agrees`: then they stand for the same delegate.
* `buildAll_transparent`: so in every sequence of builders in which builders with equal keys agree,
  and each has a module, the cache is not noticed.

Source: `MethodBuilder.cs`, lines 202 to 273, 482 to 600 and 740 to 863.
-/

namespace DdTrace.Emit

open DdTrace.Lib DdTrace.Lib.Outcomes

variable {τ μ m : Type} {rt : Runtime τ μ m} {settings : Settings τ}
  {b b' : MethodBuilder τ m}

/-! ## Keys -/

/-- The fields of a builder that its key consists of are the same. -/
structure SameKey (b b' : MethodBuilder τ m) : Prop where
  /-- The token. -/
  mdToken : b.mdToken = b'.mdToken
  /-- The instruction. -/
  opCode : b.opCode = b'.opCode
  /-- The concrete type. -/
  concreteType : b.concreteType = b'.concreteType
  /-- The explicit types, or else the types of the parameters. -/
  explicitParams : b.explicitParams = b'.explicitParams
  /-- The generic arguments of the method. -/
  methodGenerics : b.methodGenerics = b'.methodGenerics
  /-- The generic arguments of its type. -/
  declaringTypeGenerics : b.declaringTypeGenerics = b'.declaringTypeGenerics

/-- As all modules have the same token, the module has no part in the key. -/
theorem keyEquals_iff [DecidableEq τ] (token : Int) :
    keyEquals ⟨token, b⟩ ⟨token, b'⟩ = true ↔ SameKey b b' := by
  simp only [keyEquals, arrayEquals, decide_eq_true_eq, Option.some.injEq, true_and]
  constructor
  · rintro ⟨htoken, hop, htype, hparams, hmethod, hdeclaring⟩
    exact ⟨htoken, hop, htype, hparams, hmethod, hdeclaring⟩
  · intro h
    exact ⟨h.mdToken, h.opCode, h.concreteType, h.explicitParams, h.methodGenerics,
      h.declaringTypeGenerics⟩

/-- Equal keys have the same hash. -/
theorem keyHash_eq_of_keyEquals [DecidableEq τ] {token : Int}
    (h : keyEquals ⟨token, b⟩ ⟨token, b'⟩ = true) :
    keyHash rt ⟨token, b⟩ = keyHash rt ⟨token, b'⟩ := by
  have hsame := (keyEquals_iff token).mp h
  simp only [keyHash, hsame.mdToken, hsame.opCode, hsame.concreteType, hsame.explicitParams,
    hsame.methodGenerics, hsame.declaringTypeGenerics]

/-- A key is built unless the module or the concrete type is missing. -/
theorem hashedKey_eq_ok {k : Int × Key τ m} (h : hashedKey rt b = .ok k) :
    k.2 = ⟨rt.metadataToken, b⟩ := by
  unfold hashedKey at h
  cases hmodule : b.resolutionModule with
  | none => simp [hmodule] at h
  | some resolutionModule =>
      cases hhash : keyHash rt ⟨rt.metadataToken, b⟩ with
      | error e => simp [hmodule, hhash, bind, Except.bind] at h
      | ok hash =>
          simp only [hmodule, hhash] at h
          rw [← Except.ok.inj h]

/-- The key of a builder fails for want of a module or a concrete type. -/
theorem hashedKey_eq_error {e : BuildError} (h : hashedKey rt b = .error e) :
    b.resolutionModule = none ∨ b.concreteType = none := by
  unfold hashedKey at h
  cases hmodule : b.resolutionModule with
  | none => exact .inl rfl
  | some resolutionModule =>
      refine .inr ?_
      cases htype : b.concreteType with
      | none => rfl
      | some concreteType =>
          simp [hmodule, keyHash, htype, bind, Except.bind, pure, Except.pure] at h

/-! ## What the key leaves out -/

/-- The token does not stand for the method that the builder describes. -/
def TokenFails (rt : Runtime τ μ m) (b : MethodBuilder τ m) : Prop :=
  methodFromToken rt b = .ok none

/-- The token stands for a method that the builder describes. -/
def TokenServes (rt : Runtime τ μ m) (b : MethodBuilder τ m) : Prop :=
  ∃ mi, methodFromToken rt b = .ok (some mi)

/-- Two builders agree on what their keys leave out. -/
structure Agrees (rt : Runtime τ μ m) (settings : Settings τ) (b b' : MethodBuilder τ m) :
    Prop where
  /-- The name of the method. -/
  methodName : b.methodName = b'.methodName
  /-- The number of parameters. -/
  parameterCount : b.parameters.length = b'.parameters.length
  /-- The module and the way its token is resolved, unless neither token serves. -/
  token : (b.resolutionModule = b'.resolutionModule ∧
      (b.forceMethodDefResolve = b'.forceMethodDefResolve ∨
        b.declaringTypeGenerics = none ∧ b.methodGenerics = none)) ∨
    (TokenFails rt b ∧ TokenFails rt b')
  /-- The return type and the filter, unless the token serves. -/
  fallback : (TokenServes rt b ∧ settings.forceFallbackLookup = false) ∨
    (b.returnType = b'.returnType ∧ b.namespaceAndNameFilter = b'.namespaceAndNameFilter)

section Agreement

variable (hkey : SameKey b b') (hagree : Agrees rt settings b b')

include hkey hagree

theorem parametersAreViable_eq : parametersAreViable rt b = parametersAreViable rt b' := by
  funext mi
  unfold parametersAreViable
  rw [hagree.parameterCount, hkey.explicitParams]

omit hagree in
theorem genericsAreViable_eq : genericsAreViable rt b = genericsAreViable rt b' := by
  funext mi
  unfold genericsAreViable
  rw [hkey.methodGenerics]

omit hagree in
theorem makeGenericMethod_eq : makeGenericMethod rt b = makeGenericMethod rt b' := by
  funext mi
  unfold makeGenericMethod
  rw [hkey.methodGenerics]

omit hagree in
theorem effectiveParameterTypes_eq :
    effectiveParameterTypes rt b = effectiveParameterTypes rt b' := by
  funext mi
  unfold effectiveParameterTypes
  rw [hkey.concreteType]

omit hagree in
/-- Only the text of an error knows the original instruction. -/
theorem callTarget_of_sameKey {mi : μ} {call : DelegateInstr τ μ}
    (h : callTarget rt b mi = .ok call) : callTarget rt b' mi = .ok call := by
  unfold callTarget at h ⊢
  rw [← hkey.opCode]
  by_cases hcall : b.opCode = opCodeCall ∨ rt.isStatic mi = true
  · rw [if_pos hcall] at h ⊢
    exact h
  · rw [if_neg hcall] at h ⊢
    by_cases hcallvirt : b.opCode = opCodeCallvirt
    · rw [if_pos hcallvirt] at h ⊢
      exact h
    · rw [if_neg hcallvirt] at h
      cases h

theorem verifyMethodFromToken_eq : verifyMethodFromToken rt b = verifyMethodFromToken rt b' := by
  funext mi
  unfold verifyMethodFromToken
  rw [hagree.methodName, hkey.concreteType, parametersAreViable_eq hkey hagree,
    genericsAreViable_eq hkey]

/-- With the same module the tokens resolve to the same. -/
theorem methodFromToken_eq : methodFromToken rt b = methodFromToken rt b' := by
  rcases hagree.token with ⟨hmodule, hforce⟩ | ⟨hfails, hfails'⟩
  · have hresolve : resolveToken rt b = resolveToken rt b' := by
      have hdef : (b.forceMethodDefResolve = true ∨
          (b.declaringTypeGenerics = none ∧ b.methodGenerics = none)) ↔
        (b'.forceMethodDefResolve = true ∨
          (b'.declaringTypeGenerics = none ∧ b'.methodGenerics = none)) := by
        rw [← hkey.declaringTypeGenerics, ← hkey.methodGenerics]
        rcases hforce with hforce | hnone
        · rw [hforce]
        · exact ⟨fun _ => .inr hnone, fun _ => .inr hnone⟩
      unfold resolveToken
      rw [hmodule, hkey.mdToken]
      cases b'.resolutionModule with
      | none => rfl
      | some resolutionModule =>
          refine if_congr hdef rfl ?_
          rw [hkey.declaringTypeGenerics, hkey.methodGenerics]
    unfold methodFromToken
    rw [hresolve, makeGenericMethod_eq hkey, verifyMethodFromToken_eq hkey hagree]
  · exact hfails.trans hfails'.symm

variable [DecidableEq τ]

omit hagree in
theorem parametersAreExact_eq : parametersAreExact rt b = parametersAreExact rt b' := by
  funext mi
  unfold parametersAreExact
  rw [hkey.explicitParams]

theorem tryFindMethod_eq (hreturn : b.returnType = b'.returnType)
    (hfilter : b.namespaceAndNameFilter = b'.namespaceAndNameFilter) :
    tryFindMethod rt b = tryFindMethod rt b' := by
  unfold tryFindMethod narrowDown
  rw [hkey.concreteType, hagree.methodName, hreturn, hfilter, parametersAreViable_eq hkey hagree,
    genericsAreViable_eq hkey, parametersAreExact_eq hkey]

/-- Builders that agree have the same method. -/
theorem resolveTarget_eq : resolveTarget rt settings b = resolveTarget rt settings b' := by
  have htoken := methodFromToken_eq hkey hagree
  unfold resolveTarget
  rw [← htoken]
  rcases hagree.fallback with ⟨⟨mi, hmi⟩, hforce⟩ | ⟨hreturn, hfilter⟩
  · rw [hmi, hforce]
    rfl
  · rw [tryFindMethod_eq hkey hagree hreturn hfilter]

/-- The code of a delegate for a method without open generics. -/
def emitBody (rt : Runtime τ μ m) (b : MethodBuilder τ m) (delegateParameterTypes : List τ)
    (returnType : τ) (mi : μ) : Except BuildError (EmittedDelegate τ μ) := do
  let arguments ← loadArguments rt (effectiveParameterTypes rt b mi) delegateParameterTypes.zipIdx
  let call ← callTarget rt b mi
  let result ← convertResult rt (rt.returnType mi) returnType
  pure ⟨mi, delegateParameterTypes, returnType, arguments ++ call :: (result ++ [.ret])⟩

/-- The method with the generic arguments of the builder. -/
def closeMethod (rt : Runtime τ μ m) (b : MethodBuilder τ m) (mi : μ) : Except BuildError μ :=
  if rt.isGenericMethodDefinition mi then makeGenericMethod rt b mi else .ok mi

omit hkey hagree in
theorem emitCall_eq (mi : μ) :
    emitCall rt settings b mi = (do
      let signature ← delegateSignature rt settings
      let target ← closeMethod rt b mi
      emitBody rt b signature.1 signature.2 target) := by
  unfold emitCall closeMethod emitBody
  cases delegateSignature rt settings with
  | error e => rfl
  | ok signature => cases rt.isGenericMethodDefinition mi <;> rfl

omit hagree in
theorem emitBody_of_sameKey {types : List τ} {returnType : τ} {mi : μ} {d : EmittedDelegate τ μ}
    (h : emitBody rt b types returnType mi = .ok d) : emitBody rt b' types returnType mi = .ok d := by
  unfold emitBody at h ⊢
  rw [← effectiveParameterTypes_eq hkey]
  obtain ⟨arguments, harguments, h⟩ := bind_eq_ok.mp h
  obtain ⟨call, hcall, h⟩ := bind_eq_ok.mp h
  rw [harguments, ok_bind, callTarget_of_sameKey hkey hcall, ok_bind]
  exact h

omit hagree in
theorem emitCall_of_sameKey {mi : μ} {d : EmittedDelegate τ μ}
    (h : emitCall rt settings b mi = .ok d) : emitCall rt settings b' mi = .ok d := by
  rw [emitCall_eq] at h ⊢
  unfold closeMethod at h ⊢
  rw [← makeGenericMethod_eq hkey]
  obtain ⟨signature, hsignature, h⟩ := bind_eq_ok.mp h
  obtain ⟨target, htarget, h⟩ := bind_eq_ok.mp h
  rw [hsignature, ok_bind, htarget, ok_bind]
  exact emitBody_of_sameKey hkey h

/-- **Builders that agree stand for the same delegate.** -/
theorem emitDelegate_of_agrees {d : EmittedDelegate τ μ}
    (h : emitDelegate rt settings b = .ok d) : emitDelegate rt settings b' = .ok d := by
  unfold emitDelegate at h ⊢
  rw [← resolveTarget_eq hkey hagree]
  obtain ⟨mi, htarget, h⟩ := bind_eq_ok.mp h
  rw [htarget, ok_bind]
  exact emitCall_of_sameKey hkey h

end Agreement

/-! ## A sequence of builders -/

/-- Without a concrete type the check fails. -/
theorem validateRequirements_of_concreteType (h : b.concreteType = none) :
    validateRequirements rt b = .error .concreteTypeMissing := by
  unfold validateRequirements
  rw [if_pos h]

variable [DecidableEq τ]

/-- The cache is not noticed: a delegate calls the method that the builder resolves on its own, and
an error is one of the builder's own. -/
def Transparent (rt : Runtime τ μ m) (settings : Settings τ) (b : MethodBuilder τ m) :
    Except BuildError (EmittedDelegate τ μ) → Prop
  | .ok d => ∃ own, emitDelegate rt settings b = .ok own ∧ own.target = d.target
  | .error _ => (∃ e, validateRequirements rt b = .error e) ∨ ∃ e, emitDelegate rt settings b = .error e

/-- A builder whose key can be built, or that fails the check anyway. -/
def HasKey (rt : Runtime τ μ m) (b : MethodBuilder τ m) : Prop :=
  b.resolutionModule ≠ none ∨ ∃ e, validateRequirements rt b = .error e

/-- What the factory returns is what the builder stands for. -/
theorem buildNew_transparent {k : Int × Key τ m} (h : hashedKey rt b = .ok k) :
    Transparent rt settings b (buildNew rt settings k) := by
  unfold buildNew
  rw [hashedKey_eq_ok h]
  cases hvalidate : validateRequirements rt b with
  | error e => exact .inl ⟨e, hvalidate⟩
  | ok u =>
      rw [ok_bind]
      cases hown : emitDelegate rt settings b with
      | error e => exact .inr ⟨e, hown⟩
      | ok own => exact ⟨own, hown, rfl⟩

/-- What the factory returns is what the builder of the key stands for. -/
theorem emitDelegate_of_buildNew {k : Int × Key τ m} {d : EmittedDelegate τ μ}
    (h : buildNew rt settings k = .ok d) : emitDelegate rt settings k.2.builder = .ok d := by
  obtain ⟨u, _, h⟩ := bind_eq_ok.mp h
  exact h

/-- **The cache is transparent** for a sequence of builders that all have a module or fail the
check, and of which any two with equal keys agree on what the keys leave out. -/
theorem buildAll_transparent (rt : Runtime τ μ m) (settings : Settings τ)
    (builders : List (MethodBuilder τ m)) (hkeys : ∀ b ∈ builders, HasKey rt b)
    (hagree : ∀ b ∈ builders, ∀ b' ∈ builders,
      keyEquals ⟨rt.metadataToken, b⟩ ⟨rt.metadataToken, b'⟩ = true → Agrees rt settings b b') :
    List.Forall₂ (Transparent rt settings) builders (buildAll rt settings builders) := by
  -- an entry holds the delegate of the builder in its key
  let Stored : (Int × Key τ m) × EmittedDelegate τ μ → Prop := fun entry =>
    ∃ b ∈ builders, entry.1.2 = ⟨rt.metadataToken, b⟩ ∧ emitDelegate rt settings b = .ok entry.2
  have hempty : ∀ entry ∈ ([] : List ((Int × Key τ m) × EmittedDelegate τ μ)), Stored entry :=
    fun entry hentry => by cases hentry
  refine MemoTable.forall₂_results ?_ ?_ ?_ ?_ hempty
  · intro b hb e hfail
    rcases hashedKey_eq_error hfail with hmodule | htype
    · exact .inl ((hkeys b hb).resolve_left fun hne => hne hmodule)
    · exact .inl ⟨_, validateRequirements_of_concreteType htype⟩
  · intro b _ k hk
    exact buildNew_transparent hk
  · intro b hb k d hk hd
    refine ⟨b, hb, hashedKey_eq_ok hk, ?_⟩
    have hown := emitDelegate_of_buildNew hd
    rw [hashedKey_eq_ok hk] at hown
    exact hown
  · rintro b' hb' k ⟨key, d⟩ hk ⟨b, hb, hkey, hown⟩ hsame
    unfold sameEntry at hsame
    rw [decide_eq_true_eq, hashedKey_eq_ok hk] at hsame
    have hequal : keyEquals ⟨rt.metadataToken, b⟩ ⟨rt.metadataToken, b'⟩ = true := by
      rw [← hkey]
      exact hsame.2
    have hagrees := hagree b hb b' hb' hequal
    exact ⟨d, emitDelegate_of_agrees ((keyEquals_iff _).mp hequal) hagrees hown, rfl⟩

/-! ## A method that is hidden -/

/-- The types are `object`, `void`, `Task`, a class and a class derived from it. Each of the two has
a method `M` without parameters, the second hides the first, and the tokens of two modules stand for
the two methods. -/
def hidingRuntime : Runtime Nat Nat Nat where
  isValueType := fun type => type = 1
  isGenericParameter := fun _ => false
  genericParameterPosition := fun _ => 0
  getGenericParameterConstraints := fun _ => []
  isAssignableFrom := fun type from? =>
    from?.any fun other => type = other ∨ (type = 0 ∧ other ≠ 1) ∨ (type = 3 ∧ other = 4)
  isGenericType := fun _ => false
  genericTypeArguments := fun _ => []
  typeNamespace := fun _ => "N"
  typeName := fun _ => "T"
  getHashCode := fun type => type
  object := 0
  void := 1
  task := 2
  getMethods := fun type => if type = 4 then [0, 1] else if type = 3 then [0] else []
  name := fun _ => "M"
  returnType := fun _ => 1
  parameterTypes := fun _ => []
  isStatic := fun _ => false
  isGenericMethod := fun _ => false
  isGenericMethodDefinition := fun _ => false
  containsGenericParameters := fun _ => false
  getGenericArguments := fun _ => []
  reflectedType := fun mi => mi + 3
  makeGenericMethod := fun _ _ => none
  resolveMethod := fun resolutionModule _ => some (.method resolutionModule)
  resolveGenericMethod := fun resolutionModule _ _ _ => some (.method resolutionModule)
  metadataToken := 1

/-- Builders of `Action<object>`, without flags. -/
def actionSettings : Settings Nat where
  delegateName := "Action`1"
  delegateGenericArgs := [0]
  forceMdTokenLookup := false
  forceFallbackLookup := false
  exclusive := rfl

/-- The builder for a call of `M` in one of the modules. -/
def callToM (resolutionModule : Nat) : MethodBuilder Nat Nat where
  resolutionModule := some resolutionModule
  mdToken := 0x0A000001
  originalOpCodeValue := opCodeCallvirt
  methodName := some "M"
  returnType := none
  concreteType := some 4
  parameters := []
  explicitParameterTypes := none
  namespaceAndNameFilter := none
  declaringTypeGenerics := none
  methodGenerics := none
  forceMethodDefResolve := false

/-- The delegate for one of the methods. -/
def delegateToM (mi : Nat) : EmittedDelegate Nat Nat :=
  ⟨mi, [0], 1, [.ldarg 0, .castclass 4, .callvirt mi, .ret]⟩

/-- A call from the second module calls the method of the first. -/
theorem buildAll_hidden_method :
    ¬ List.Forall₂ (Transparent hidingRuntime actionSettings) [callToM 0, callToM 1]
      (buildAll hidingRuntime actionSettings [callToM 0, callToM 1]) := by
  have hall : buildAll hidingRuntime actionSettings [callToM 0, callToM 1] =
      [.ok (delegateToM 0), .ok (delegateToM 0)] := by decide +kernel
  have hown : emitDelegate hidingRuntime actionSettings (callToM 1) = .ok (delegateToM 1) := by
    decide +kernel
  intro h
  rw [hall] at h
  cases h with
  | cons _ h =>
      cases h with
      | cons h _ =>
          obtain ⟨own, hemit, htarget⟩ := h
          rw [hown] at hemit
          cases Except.ok.inj hemit
          exact absurd htarget (by decide)

/-- The calls from one module. -/
theorem buildAll_transparent_one_module :
    List.Forall₂ (Transparent hidingRuntime actionSettings) [callToM 1, callToM 1]
      (buildAll hidingRuntime actionSettings [callToM 1, callToM 1]) := by
  have hserves : TokenServes hidingRuntime (callToM 1) := ⟨1, by decide +kernel⟩
  refine buildAll_transparent hidingRuntime actionSettings _ ?_ ?_
  · intro b hb
    rw [show b = callToM 1 by simpa using hb]
    exact .inl (by decide)
  · intro b hb b' hb' _
    rw [show b = callToM 1 by simpa using hb, show b' = callToM 1 by simpa using hb']
    exact ⟨rfl, rfl, .inl ⟨rfl, .inl rfl⟩, .inl ⟨hserves, rfl⟩⟩

end DdTrace.Emit
