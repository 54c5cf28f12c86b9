import DdTrace.DuckTyping.Reflection
import DdTrace.Lib.Searches
import DdTrace.Lib.Texts

/-!
# The target method of a proxy method

* `MethodInfo`, `TargetType`: the methods of a target type, in the order of the runtime.
* `examine`: what the search makes of one candidate.
* `selectTargetMethod`: the selection.
* `selects_iff`: the target types whose methods are selected without regard to their order.

Source: `DuckType.Methods.cs`, `SelectTargetMethod`
-/

namespace DdTrace.DuckTyping

open DdTrace.Lib.Searches

/-! ## Types and methods -/

/-- The types with their names, of which a type parameter has no full one. -/
structure NamedReflection (τ : Type) extends Reflection τ where
  /-- `Type.Name`. -/
  name : τ → String
  /-- `Type.FullName`. -/
  fullName : τ → Option String
  /-- `Type.IsClass`. -/
  isClass : τ → Bool
  /-- `Type.IsAbstract`. -/
  isAbstract : τ → Bool

/-- Source: `DuckAttribute.cs` -/
structure DuckAttribute where
  name : Option String
  bindingFlags : Nat
  parameterTypeNames : Option (List (Option String))
  explicitInterfaceTypeName : Option String
  deriving DecidableEq, Repr

/-- Public and not, static and of instances, with the static methods of base types. -/
def DuckAttribute.defaultFlags : Nat := 16 + 32 + 8 + 4 + 64

/-- The attribute of a method that has none. -/
def DuckAttribute.new : DuckAttribute where
  name := none
  bindingFlags := defaultFlags
  parameterTypeNames := none
  explicitInterfaceTypeName := none

/-- Source: `DuckReverseMethodAttribute.cs` -/
structure DuckReverseMethodAttribute where
  arguments : Option (List (Option String))
  deriving DecidableEq, Repr

/-- A method of a proxy definition, as the selection reads it. -/
structure ProxyMethodInfo (τ : Type) where
  name : String
  parameters : List (ParameterInfo τ)
  duckAttribute : Option DuckAttribute
  deriving DecidableEq, Repr

/-- The types of its parameters. -/
def ProxyMethodInfo.parameterTypes {τ : Type} (m : ProxyMethodInfo τ) : List τ :=
  m.parameters.map ParameterInfo.parameterType

/-- A method of a target type, which its token tells from the other ones of its type. -/
structure MethodInfo (τ : Type) where
  declaringType : τ
  metadataToken : Nat
  name : String
  parameters : List (ParameterInfo τ)
  duckReverseMethod : Option DuckReverseMethodAttribute
  deriving DecidableEq, Repr

/-- A target type: what the runtime answers to `GetMethod`, and the methods it lists. -/
structure TargetType (ε τ : Type) where
  /-- `GetMethod` with a name, flags and types, which may find too many methods. -/
  getMethod : String → Nat → List τ → Except ε (Option (MethodInfo τ))
  /-- `GetMethods(DuckAttribute.DefaultFlags)`. -/
  getMethods : List (MethodInfo τ)
  /-- No method is listed twice. -/
  nodup : getMethods.Nodup

/-- How the selection fails; the runtime has its own exceptions. -/
inductive SelectionException (ε τ : Type)
  | runtime (e : ε)
  | targetMethodNotFound (proxyMethod : ProxyMethodInfo τ)
  | targetMethodAmbiguousMatch (proxyMethod : ProxyMethodInfo τ)
      (targetMethod targetMethod2 : MethodInfo τ)
  deriving DecidableEq, Repr

/-- What the selection takes from the process. -/
structure Process (ε τ : Type) where
  types : NamedReflection τ
  /-- `Type.GetType(name, true)`. -/
  getType : Option String → Except ε τ
  /-- `EndsWith`, of the current culture. -/
  endsWith : String → String → Bool

variable {ε τ : Type} [DecidableEq τ]

/-! ## Candidates -/

namespace ProxyMethodInfo

/-- Its attribute, or a new one. -/
def proxyMethodDuckAttribute (m : ProxyMethodInfo τ) : DuckAttribute :=
  m.duckAttribute.getD DuckAttribute.new

/-- The name in the attribute, or that of the method. -/
def targetName (m : ProxyMethodInfo τ) : String := m.proxyMethodDuckAttribute.name.getD m.name

end ProxyMethodInfo

variable (p : Process ε τ)

/-- The name of a candidate is the one that is searched. -/
def nameMatches (proxyMethod : ProxyMethodInfo τ) (candidateName : String) : Bool :=
  let name := proxyMethod.targetName
  match proxyMethod.proxyMethodDuckAttribute.explicitInterfaceTypeName with
  | none => candidateName == name
  | some interfaceTypeName =>
      if interfaceTypeName == "" then candidateName == name
      else if interfaceTypeName == "*" then
        candidateName == name || p.endsWith candidateName ("." ++ name)
      else
        -- Nested types are separated with a dot on explicit implementations.
        candidateName ==
          String.ofList (Lib.Texts.replace interfaceTypeName.toList ['+'] ['.']) ++ "." ++ name

/-- An argument of the attribute names a type. -/
def argumentNames (argument : Option String) (type : τ) : Bool :=
  argument == p.types.fullName type || argument == some (p.types.name type)

/-- The type a reference refers to, or else the type. -/
def unwrapByRef (type : τ) : τ :=
  if p.types.isByRef type then (p.types.getElementType type).getD type else type

/-- A parameter of a candidate can take what the proxy has there. -/
def parameterFits (proxyParam candidateParam : ParameterInfo τ) : Bool :=
  let proxyParamType := unwrapByRef p proxyParam.parameterType
  let candidateParamType := unwrapByRef p candidateParam.parameterType
  if proxyParam.isOut ≠ candidateParam.isOut then false
  else if p.types.isByRef proxyParam.parameterType ≠ p.types.isByRef candidateParam.parameterType
  then false
  -- Type parameters cannot be compared.
  else if p.types.isGenericParameter candidateParamType then true
  else if p.types.isValueType proxyParamType && !p.types.isEnum proxyParamType &&
      proxyParamType ≠ candidateParamType then false
  else if p.types.isClass proxyParamType && !p.types.isAbstract proxyParamType &&
      proxyParamType ≠ p.types.object then
    p.types.isAssignableFrom candidateParamType proxyParamType
  else true

/-- The parameters of a candidate can take those of the proxy, and the rest is optional. -/
def parametersFit : List (ParameterInfo τ) → List (ParameterInfo τ) → Bool
  | [], rest => rest.all ParameterInfo.isOptional
  | _ :: _, [] => false
  | proxyParam :: proxyParams, candidateParam :: candidateParams =>
      parameterFits p proxyParam candidateParam && parametersFit proxyParams candidateParams

/-- The arguments of a reverse mapped method name the types of the parameters of the proxy. -/
def argumentsMatch (proxyMethod : ProxyMethodInfo τ) (arguments : List (Option String)) : Bool :=
  (arguments.zip proxyMethod.parameterTypes).all fun (argument, type) => argumentNames p argument type

/-- What the search makes of a candidate. -/
def examine (proxyMethod : ProxyMethodInfo τ) (candidate : MethodInfo τ) : Verdict :=
  let compared :=
    if parametersFit p proxyMethod.parameters candidate.parameters then Verdict.keep else .skip
  if !nameMatches p proxyMethod candidate.name then .skip
  else
    match candidate.duckReverseMethod.bind DuckReverseMethodAttribute.arguments with
    | none => compared
    | some arguments =>
        if arguments.length ≠ proxyMethod.parameterTypes.length then .skip
        else if argumentsMatch p proxyMethod arguments then .stop
        -- The arguments name other types, and the parameters are compared all the same.
        else compared

/-! ## What matches -/

/-- A candidate of the name with arguments for the proxy's parameters. -/
def reverseMapped (proxyMethod : ProxyMethodInfo τ) (candidate : MethodInfo τ) : Bool :=
  nameMatches p proxyMethod candidate.name &&
    (candidate.duckReverseMethod.bind DuckReverseMethodAttribute.arguments).any fun arguments =>
      arguments.length == proxyMethod.parameterTypes.length && argumentsMatch p proxyMethod arguments

/-- A candidate of the name with parameters for the proxy's, and no arguments in another number. -/
def parametersMatch (proxyMethod : ProxyMethodInfo τ) (candidate : MethodInfo τ) : Bool :=
  nameMatches p proxyMethod candidate.name &&
    (candidate.duckReverseMethod.bind DuckReverseMethodAttribute.arguments).all (fun arguments =>
      arguments.length == proxyMethod.parameterTypes.length) &&
    parametersFit p proxyMethod.parameters candidate.parameters

/-- A candidate that matches. -/
def isMatch (proxyMethod : ProxyMethodInfo τ) (candidate : MethodInfo τ) : Bool :=
  reverseMapped p proxyMethod candidate || parametersMatch p proxyMethod candidate

variable {p}

theorem examine_eq_stop_iff {proxyMethod : ProxyMethodInfo τ} {candidate : MethodInfo τ} :
    examine p proxyMethod candidate = .stop ↔ reverseMapped p proxyMethod candidate = true := by
  unfold examine reverseMapped
  cases candidate.duckReverseMethod.bind DuckReverseMethodAttribute.arguments <;> grind

theorem examine_eq_keep_iff {proxyMethod : ProxyMethodInfo τ} {candidate : MethodInfo τ} :
    examine p proxyMethod candidate = .keep ↔ reverseMapped p proxyMethod candidate = false ∧
      parametersMatch p proxyMethod candidate = true := by
  unfold examine reverseMapped parametersMatch
  cases candidate.duckReverseMethod.bind DuckReverseMethodAttribute.arguments <;> grind

theorem examine_eq_skip_iff {proxyMethod : ProxyMethodInfo τ} {candidate : MethodInfo τ} :
    examine p proxyMethod candidate = .skip ↔ isMatch p proxyMethod candidate = false := by
  have hstop : examine p proxyMethod candidate = .stop ↔ _ := examine_eq_stop_iff
  have hkeep : examine p proxyMethod candidate = .keep ↔ _ := examine_eq_keep_iff
  unfold isMatch
  cases hverdict : examine p proxyMethod candidate <;> grind

variable (p)

/-! ## Selection -/

/-- The search in the methods of the target type. -/
def searchTargetMethod (targetType : TargetType ε τ) (proxyMethod : ProxyMethodInfo τ) :
    Except (SelectionException ε τ) (Option (MethodInfo τ)) :=
  match search (examine p proxyMethod) targetType.getMethods with
  | .nothing => .ok none
  | .found targetMethod => .ok (some targetMethod)
  | .ambiguous targetMethod candidateMethod =>
      .error (.targetMethodAmbiguousMatch proxyMethod targetMethod candidateMethod)

/-- What the runtime answers. -/
def asked (x : Except ε α) : Except (SelectionException ε τ) α := x.mapError .runtime

/-- Source: `DuckType.Methods.cs`, `SelectTargetMethod` -/
def selectTargetMethod (targetType : TargetType ε τ) (proxyMethod : ProxyMethodInfo τ) :
    Except (SelectionException ε τ) (Option (MethodInfo τ)) := do
  let flags := proxyMethod.proxyMethodDuckAttribute.bindingFlags
  match proxyMethod.proxyMethodDuckAttribute.parameterTypeNames with
  | some parameterTypeNames =>
      let parameterTypes ← asked (parameterTypeNames.mapM p.getType)
      match ← asked (targetType.getMethod proxyMethod.targetName flags parameterTypes) with
      | none => throw (.targetMethodNotFound proxyMethod)
      | some targetMethod => return some targetMethod
  | none =>
      match ← asked (targetType.getMethod proxyMethod.targetName flags proxyMethod.parameterTypes) with
      | some targetMethod => return some targetMethod
      | none => searchTargetMethod p targetType proxyMethod

/-! ## Orders -/

/-- The same target type with its methods in another order. -/
def TargetType.listing (targetType : TargetType ε τ) (listed : List (MethodInfo τ))
    (h : listed.Perm targetType.getMethods) : TargetType ε τ where
  getMethod := targetType.getMethod
  getMethods := listed
  nodup := h.nodup_iff.mpr targetType.nodup

/-- The same method, none, or the same error, whichever two methods it is about. -/
def SameOutcome :
    (x y : Except (SelectionException ε τ) (Option (MethodInfo τ))) → Prop
  | .ok targetMethod, .ok targetMethod' => targetMethod = targetMethod'
  | .error (.targetMethodAmbiguousMatch proxyMethod _ _),
      .error (.targetMethodAmbiguousMatch proxyMethod' _ _) => proxyMethod = proxyMethod'
  | .error e, .error e' => e = e'
  | _, _ => False

/-- The methods are searched, since the runtime knows none by the types of the proxy. -/
def Searched (targetType : TargetType ε τ) (proxyMethod : ProxyMethodInfo τ) : Prop :=
  proxyMethod.proxyMethodDuckAttribute.parameterTypeNames = none ∧
    targetType.getMethod proxyMethod.targetName proxyMethod.proxyMethodDuckAttribute.bindingFlags
      proxyMethod.parameterTypes = .ok none

/-- The selection does not depend on the order in which the methods are listed. -/
def SelectsInAnyOrder (targetType : TargetType ε τ) (proxyMethod : ProxyMethodInfo τ) : Prop :=
  ∀ (listed : List (MethodInfo τ)) (h : listed.Perm targetType.getMethods),
    SameOutcome (selectTargetMethod p (targetType.listing listed h) proxyMethod)
      (selectTargetMethod p targetType proxyMethod)

/-- A method that the search returns is the only one that matches. -/
def SelectsOnlyMatch (targetType : TargetType ε τ) (proxyMethod : ProxyMethodInfo τ) : Prop :=
  Searched targetType proxyMethod →
    ∀ targetMethod, selectTargetMethod p targetType proxyMethod = .ok (some targetMethod) →
      ∀ candidate ∈ targetType.getMethods, candidate ≠ targetMethod →
        isMatch p proxyMethod candidate = false

variable {p}

omit [DecidableEq τ] in
theorem SameOutcome.refl (x : Except (SelectionException ε τ) (Option (MethodInfo τ))) :
    SameOutcome x x := by
  rcases x with (_ | _ | _) | _ <;> rfl

/-- Only a search reads the list. -/
theorem selectTargetMethod_listing {targetType : TargetType ε τ} {proxyMethod : ProxyMethodInfo τ}
    (h : ¬ Searched targetType proxyMethod) (listed : List (MethodInfo τ))
    (hlisted : listed.Perm targetType.getMethods) :
    selectTargetMethod p (targetType.listing listed hlisted) proxyMethod =
      selectTargetMethod p targetType proxyMethod := by
  unfold selectTargetMethod
  unfold Searched at h
  cases hnames : proxyMethod.proxyMethodDuckAttribute.parameterTypeNames with
  | some names => rfl
  | none =>
      cases hget : targetType.getMethod proxyMethod.targetName
          proxyMethod.proxyMethodDuckAttribute.bindingFlags proxyMethod.parameterTypes with
      | error e => simp [TargetType.listing, hget, asked, Except.mapError, bind, Except.bind]
      | ok answer =>
          cases answer with
          | some targetMethod =>
              simp [TargetType.listing, hget, asked, Except.mapError, bind, Except.bind]
          | none => exact absurd ⟨hnames, hget⟩ h

theorem selectTargetMethod_of_searched {targetType : TargetType ε τ}
    {proxyMethod : ProxyMethodInfo τ} (h : Searched targetType proxyMethod) :
    selectTargetMethod p targetType proxyMethod = searchTargetMethod p targetType proxyMethod := by
  obtain ⟨hnames, hget⟩ := h
  simp [selectTargetMethod, hnames, hget, asked, Except.mapError, bind, Except.bind]

/-- Equal outcomes are equal answers of the search. -/
theorem sameOutcome_search_iff {targetType targetType' : TargetType ε τ}
    {proxyMethod : ProxyMethodInfo τ} :
    SameOutcome (searchTargetMethod p targetType' proxyMethod)
        (searchTargetMethod p targetType proxyMethod) ↔
      (search (examine p proxyMethod) targetType'.getMethods).answer =
        (search (examine p proxyMethod) targetType.getMethods).answer := by
  unfold searchTargetMethod
  cases search (examine p proxyMethod) targetType'.getMethods <;>
    cases search (examine p proxyMethod) targetType.getMethods <;>
      simp [SameOutcome, Outcome.answer]

/-- A method is returned where the search finds it. -/
theorem searchTargetMethod_eq_some_iff {targetType : TargetType ε τ}
    {proxyMethod : ProxyMethodInfo τ} {targetMethod : MethodInfo τ} :
    searchTargetMethod p targetType proxyMethod = .ok (some targetMethod) ↔
      search (examine p proxyMethod) targetType.getMethods = .found targetMethod := by
  unfold searchTargetMethod
  cases search (examine p proxyMethod) targetType.getMethods <;> simp

theorem selectsInAnyOrder_iff_orderFree {targetType : TargetType ε τ}
    {proxyMethod : ProxyMethodInfo τ} :
    SelectsInAnyOrder p targetType proxyMethod ↔
      (Searched targetType proxyMethod →
        OrderFree (examine p proxyMethod) targetType.getMethods) := by
  constructor
  · intro h hsearched listed hlisted
    have hsearched' : Searched (targetType.listing listed hlisted) proxyMethod := hsearched
    have hsame := h listed hlisted
    rw [selectTargetMethod_of_searched hsearched, selectTargetMethod_of_searched hsearched',
      sameOutcome_search_iff] at hsame
    exact hsame
  · intro h listed hlisted
    by_cases hsearched : Searched targetType proxyMethod
    · have hsearched' : Searched (targetType.listing listed hlisted) proxyMethod := hsearched
      rw [selectTargetMethod_of_searched hsearched, selectTargetMethod_of_searched hsearched',
        sameOutcome_search_iff]
      exact h hsearched listed hlisted
    · rw [selectTargetMethod_listing hsearched]
      exact SameOutcome.refl _

theorem selectsOnlyMatch_iff_alone {targetType : TargetType ε τ}
    {proxyMethod : ProxyMethodInfo τ} :
    SelectsOnlyMatch p targetType proxyMethod ↔
      (Searched targetType proxyMethod →
        Alone (examine p proxyMethod) targetType.getMethods) := by
  constructor
  · intro h hsearched targetMethod hfound candidate hcandidate hne
    have hselect : selectTargetMethod p targetType proxyMethod = .ok (some targetMethod) := by
      rw [selectTargetMethod_of_searched hsearched, searchTargetMethod_eq_some_iff]
      exact hfound
    exact examine_eq_skip_iff.mpr (h hsearched targetMethod hselect candidate hcandidate hne)
  · intro h hsearched targetMethod hselect candidate hcandidate hne
    rw [selectTargetMethod_of_searched hsearched, searchTargetMethod_eq_some_iff] at hselect
    exact examine_eq_skip_iff.mp (h hsearched targetMethod hselect candidate hcandidate hne)

variable (p)

/-- The order has no say, and what is found is the only match, where a reverse mapped method is the
only match; for the order alone it may have one other match, which is not reverse mapped. -/
theorem selects_iff (targetType : TargetType ε τ) (proxyMethod : ProxyMethodInfo τ) :
    (SelectsInAnyOrder p targetType proxyMethod ∧ SelectsOnlyMatch p targetType proxyMethod ↔
      (Searched targetType proxyMethod →
        ∀ a ∈ targetType.getMethods, reverseMapped p proxyMethod a = true →
          ∀ b ∈ targetType.getMethods, b ≠ a → isMatch p proxyMethod b = false)) ∧
    (SelectsInAnyOrder p targetType proxyMethod ↔
      (Searched targetType proxyMethod →
        ∀ a ∈ targetType.getMethods, reverseMapped p proxyMethod a = true →
          (∀ b ∈ targetType.getMethods, reverseMapped p proxyMethod b = true → b = a) ∧
          ∀ b ∈ targetType.getMethods, ∀ c ∈ targetType.getMethods,
            b ≠ a → c ≠ a → isMatch p proxyMethod b = true → isMatch p proxyMethod c = true →
              b = c)) := by
  constructor
  · have hdecided : OrderFree (examine p proxyMethod) targetType.getMethods ∧
          Alone (examine p proxyMethod) targetType.getMethods ↔ _ :=
      decided_iff targetType.nodup
    simp only [examine_eq_stop_iff, examine_eq_skip_iff] at hdecided
    rw [selectsInAnyOrder_iff_orderFree, selectsOnlyMatch_iff_alone, ← imp_and, hdecided]
  · rw [selectsInAnyOrder_iff_orderFree]
    refine imp_congr_right fun _ => ?_
    rw [orderFree_iff targetType.nodup]
    constructor
    · intro h a ha hstop
      obtain ⟨hstops, hkeeps⟩ := h a ha (examine_eq_stop_iff.mpr hstop)
      have honly : ∀ b ∈ targetType.getMethods, reverseMapped p proxyMethod b = true → b = a :=
        fun b hb hstopb =>
          hstops b hb a ha (examine_eq_stop_iff.mpr hstopb) (examine_eq_stop_iff.mpr hstop)
      -- What else matches is compared to match.
      have hkeep : ∀ b ∈ targetType.getMethods, b ≠ a → isMatch p proxyMethod b = true →
          examine p proxyMethod b = .keep := by
        intro b hb hne hmatch
        have hnot : reverseMapped p proxyMethod b = false := by
          by_contra hstopb
          exact hne (honly b hb (by simpa using hstopb))
        exact examine_eq_keep_iff.mpr ⟨hnot, by simpa [isMatch, hnot] using hmatch⟩
      exact ⟨honly, fun b hb c hc hba hca hmatchb hmatchc =>
        hkeeps b hb c hc (hkeep b hb hba hmatchb) (hkeep c hc hca hmatchc)⟩
    · intro h a ha hstop
      rw [examine_eq_stop_iff] at hstop
      obtain ⟨honly, hothers⟩ := h a ha hstop
      have hother : ∀ b, examine p proxyMethod b = .keep →
          b ≠ a ∧ isMatch p proxyMethod b = true := by
        intro b hkeep
        obtain ⟨hnot, hmatch⟩ := examine_eq_keep_iff.mp hkeep
        refine ⟨?_, by simp [isMatch, hmatch]⟩
        rintro rfl
        rw [hstop] at hnot
        cases hnot
      constructor
      · intro b hb c hc hstopb hstopc
        rw [honly b hb (examine_eq_stop_iff.mp hstopb), honly c hc (examine_eq_stop_iff.mp hstopc)]
      · intro b hb c hc hkeepb hkeepc
        exact hothers b hb c hc (hother b hkeepb).1 (hother c hkeepc).1 (hother b hkeepb).2
          (hother c hkeepc).2

/-! ## Two reverse mapped methods -/

/-- The process with interfaces, in which texts are compared by their characters. -/
def sampleProcess : Process Unit SampleType where
  types :=
    { toReflection := sampleReflection
      name := fun t => match t with
        | .interface name => name
        | _ => ""
      fullName := fun _ => none
      isClass := fun t => t == .object
      isAbstract := fun _ => false }
  getType _ := .error ()
  endsWith s suffix := suffix.toList.isSuffixOf s.toList

/-- A method `Log` of one parameter, for a proxy that gives it an `ILogEvent`. -/
def sampleLog (metadataToken : Nat) (parameterType : String) : MethodInfo SampleType where
  declaringType := .interface "Sink"
  metadataToken := metadataToken
  name := "Log"
  parameters :=
    [{ parameterType := .interface parameterType, isOut := false, isIn := false, isOptional := false }]
  duckReverseMethod := some { arguments := some [some "ILogEvent"] }

/-- A sink with two such methods, neither of which takes an `ILogEvent` itself. -/
def sampleSink : TargetType Unit SampleType where
  getMethod _ _ _ := .ok none
  getMethods := [sampleLog 1 "IDuckEvent", sampleLog 2 "IDuckMessage"]
  nodup := by decide

/-- The method `Log` of the proxy. -/
def sampleProxyLog : ProxyMethodInfo SampleType where
  name := "Log"
  parameters :=
    [{ parameterType := .interface "ILogEvent", isOut := false, isIn := false, isOptional := false }]
  duckAttribute := none

/-- Which of the two is selected depends on the order. -/
theorem not_selectsInAnyOrder :
    ¬ SelectsInAnyOrder sampleProcess sampleSink sampleProxyLog := by
  intro h
  have hsame := h [sampleLog 2 "IDuckMessage", sampleLog 1 "IDuckEvent"] (List.Perm.swap _ _ _)
  have hne : sampleLog 2 "IDuckMessage" ≠ sampleLog 1 "IDuckEvent" := by decide
  exact hne (Option.some.inj hsame)

end DdTrace.DuckTyping
