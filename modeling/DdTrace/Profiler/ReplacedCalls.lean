import DdTrace.Profiler.UnboxedReturn

/-!
# The return types of the calls that are replaced

* `CallTarget`: a method that is called, with the arguments of its type and of itself;
  `CallTarget.Describes` says what the metadata has of it.
* `CallTarget.Readable`: the targets whose return type is found.
* `returnType_correct`: `ReturnTypeIsValueTypeOrGeneric` is right for the readable targets, and
  without function pointers and with counts of one byte for no other.
* `not_correct_boxGetAs`: the arguments of the type are looked for among those of the method.

Sources: `clr_helpers.cpp`, lines 923 to 1132; `cor_profiler.cpp`, `ProcessReplacementCalls`.
-/

namespace DdTrace.Profiler.SigHelpers

open DdTrace.Lib CorElementType

/-! ## Targets -/

/-- A method that is called. -/
structure CallTarget where
  /-- The first byte of its signature. -/
  callConv : UInt8
  /-- The arguments for its own type parameters, if it has some. -/
  methodArgs : Option (List TypeSig)
  /-- The return type. -/
  ret : SlotSig
  /-- The parameters. -/
  params : List SlotSig
  /-- The parameters behind the sentinel. -/
  varArgs : List SlotSig
  /-- The arguments for the type parameters of its type. -/
  typeArgs : List TypeSig

namespace CallTarget

variable (target : CallTarget)

/-- The parameters, encoded. -/
def paramsBytes : List UInt8 :=
  SlotSig.bytesAll target.params ++
    ((if target.varArgs.isEmpty then [] else [CorElementType.sentinel]) ++
      SlotSig.bytesAll target.varArgs)

/-- The signature. -/
def bytes : List UInt8 :=
  target.callConv :: ((target.methodArgs.elim [] fun args => numberBytes args.length) ++
    (numberBytes (target.params.length + target.varArgs.length) ++
      (target.ret.bytes ++ target.paramsBytes)))

/-- The arguments for the type parameters of the method. -/
def methodArguments : List TypeSig := target.methodArgs.getD []

/-- The arguments that a variable refers to. -/
def argumentsOf (ofMethod : Bool) : List TypeSig :=
  if ofMethod then target.methodArguments else target.typeArgs

/-- The return type with the variables replaced. -/
def instantiatedReturn : SlotSig := target.ret.subst target.typeArgs target.methodArguments

/-- The signature is valid, and so is the instantiation. -/
structure WellFormed : Prop where
  generic : target.callConv &&& callConvGeneric ≠ 0 ↔ target.methodArgs.isSome = true
  methodArgs : ∀ args, target.methodArgs = some args →
    args ≠ [] ∧ NumberFits args.length ∧ TypeSig.AllWellFormed args
  typeArgs : NumberFits target.typeArgs.length ∧ TypeSig.AllWellFormed target.typeArgs
  count : NumberFits (target.params.length + target.varArgs.length)
  ret : target.ret.WellFormed
  params : SlotSig.AllWellFormed target.params ∧ SlotSig.AllWellFormed target.varArgs
  inRange : ∀ mods isByRef ofMethod n,
    target.ret = .type mods isByRef (.typeVariable ofMethod n) →
      n < (target.argumentsOf ofMethod).length

/-- The metadata has the member: its parent is the `TypeSpec` of a generic type with the arguments,
if there are some. -/
def DescribesMember (md : CallSiteMetadata) (member : mdToken) : Prop :=
  ∃ parent,
    (TypeFromToken member = mdtMemberRef ∧ md.GetMemberRefProps member = some parent ∨
      TypeFromToken member = mdtMethodDef ∧ md.GetMemberProps member = some parent) ∧
    (target.typeArgs ≠ [] → ∃ isValueType token rest, NamesType token ∧
      md.GetTypeSpecFromToken parent =
        some ((TypeSig.generic isValueType token target.typeArgs).bytes ++ rest))

/-- The metadata has the target under the token: a member, or a `MethodSpec` over one. -/
def Describes (md : CallSiteMetadata) (token : mdToken) : Prop :=
  match target.methodArgs with
  | none => target.DescribesMember md token
  | some args =>
      TypeFromToken token = mdtMethodSpec ∧ ∃ member rest,
        md.GetMethodSpecProps token =
          some (member, 0x0a :: (numberBytes args.length ++ (TypeSig.bytesAll args ++ rest))) ∧
        target.DescribesMember md member

/-- The tokens that may be asked for are there: those of the types that the target shows, those of
the first two bytes of an argument, and those of the types of the core library. -/
structure Succeeds (md : CallSiteMetadata) : Prop where
  ret : ∀ mods isByRef t, target.ret = .type mods isByRef t →
    (md.GetTokenFromTypeSpec t.bytes).isSome = true
  arguments : ∀ t, t ∈ target.typeArgs ++ target.methodArguments →
    (md.GetTokenFromTypeSpec t.bytes).isSome = true ∧
      (md.GetTokenFromTypeSpec (t.bytes.take 2)).isSome = true
  coreLibrary : md.HasCoreLibrary

/-- The counts of the signature take one byte each. -/
def OneByteCounts : Prop :=
  target.params.length + target.varArgs.length < 0x80 ∧ target.methodArguments.length < 0x80

/-- The arguments that the routine looks into: those of the method, if it has some. -/
def usedArguments : List TypeSig := target.methodArgs.getD target.typeArgs

/-- The return type is one that the routine finds: no modifiers stand in front of it unless it is
not unboxed, an instance of a generic value type is accepted by the parser and has no variable that
is replaced, and at the index of a variable its argument is found. -/
structure Readable (md : CallSiteMetadata) : Prop where
  counts : target.OneByteCounts
  modifiers : ∀ m mods, target.ret.mods = m :: mods → target.instantiatedReturn.unboxed = false
  valueType : ∀ token args, target.ret = .type [] false (.generic true token args) →
    (TypeSig.generic true token args).Taken ∧
      ((TypeSig.generic true token args).subst target.typeArgs target.methodArguments).bytes =
        (TypeSig.generic true token args).bytes
  typeVariable : ∀ ofMethod n, target.ret = .type [] false (.typeVariable ofMethod n) →
    ∃ found, Finds target.usedArguments n found ∧
      md.Agrees found
        ((TypeSig.typeVariable ofMethod n).subst target.typeArgs target.methodArguments)

/-- There is no function pointer in the return type and the arguments. -/
structure Plain : Prop where
  ret : ∀ mods isByRef t, target.ret = .type mods isByRef t → t.Plain
  arguments : ∀ t ∈ target.usedArguments, t.Plain

end CallTarget

variable {md : CallSiteMetadata}

/-! ## The places in the signatures -/

namespace CallTarget

variable {target : CallTarget}

/-- With counts of one byte the return type is found where it is. -/
theorem return_place (hwf : target.WellFormed) (hcounts : target.OneByteCounts)
    (behind : List UInt8) :
    (MethodSignature.mk target.bytes).numberOfTypeArguments = target.methodArguments.length ∧
      (target.bytes ++ behind).drop
          (if (MethodSignature.mk target.bytes).numberOfTypeArguments = 0 then 2 else 3) =
        target.ret.bytes ++ (target.paramsBytes ++ behind) := by
  have hparams := numberBytes_small hcounts.1
  cases hargs : target.methodArgs with
  | none =>
      have hb : target.callConv &&& callConvGeneric = 0 := by
        by_contra hb
        have hsome := hwf.generic.mp hb
        rw [hargs] at hsome
        cases hsome
      have hbytes : target.bytes = target.callConv ::
          UInt8.ofNat (target.params.length + target.varArgs.length) ::
            (target.ret.bytes ++ target.paramsBytes) := by
        rw [bytes, hargs, hparams]
        rfl
      have hnone : target.methodArguments = [] := by
        rw [methodArguments, hargs]
        rfl
      obtain ⟨-, hcount, -⟩ := MethodSignature.plain_values
        (UInt8.ofNat (target.params.length + target.varArgs.length))
        (target.ret.bytes ++ target.paramsBytes) hb
      rw [hbytes, hcount, hnone]
      refine ⟨rfl, ?_⟩
      rw [if_pos rfl, ← List.append_assoc]
      rfl
  | some args =>
      have hb : target.callConv &&& callConvGeneric ≠ 0 := by
        rw [hwf.generic, hargs]
        rfl
      have hsome : target.methodArguments = args := by
        rw [methodArguments, hargs]
        rfl
      have hlength : args.length < 0x80 := hsome ▸ hcounts.2
      have hbytes : target.bytes = target.callConv :: UInt8.ofNat args.length ::
          UInt8.ofNat (target.params.length + target.varArgs.length) ::
            (target.ret.bytes ++ target.paramsBytes) := by
        rw [bytes, hargs, hparams]
        simp only [Option.elim_some]
        rw [numberBytes_small hlength]
        rfl
      obtain ⟨-, hcount, -⟩ := MethodSignature.generic_values (UInt8.ofNat args.length)
        (UInt8.ofNat (target.params.length + target.varArgs.length))
        (target.ret.bytes ++ target.paramsBytes) hb
      have hnat : (UInt8.ofNat args.length).toNat = args.length := by
        rw [UInt8.toNat_ofNat']
        exact Nat.mod_eq_of_lt (by omega)
      have hpos : args.length ≠ 0 := by
        have hne := (hwf.methodArgs args hargs).1
        rwa [ne_eq, List.length_eq_zero_iff]
      rw [hbytes, hcount, hnat, hsome]
      refine ⟨rfl, ?_⟩
      rw [if_neg hpos, ← List.append_assoc]
      rfl

/-- What the routine finds of a member of a generic type. -/
theorem argumentList_member {member : mdToken} (h : target.DescribesMember md member)
    (hargs : target.typeArgs ≠ []) :
    ∃ rest, argumentList md member 0 = .ok (numberBytes target.typeArgs.length ++
      (TypeSig.bytesAll target.typeArgs ++ rest)) := by
  obtain ⟨parent, hparent, hspec⟩ := h
  obtain ⟨isValueType, token, rest, -, hmemory⟩ := hspec hargs
  have hdrop : ((TypeSig.generic isValueType token target.typeArgs).bytes ++ rest).drop 2 =
      tokenBytes token ++ (numberBytes target.typeArgs.length ++
        (TypeSig.bytesAll target.typeArgs ++ rest)) := by
    rw [TypeSig.bytes]
    simp
  refine ⟨rest, ?_⟩
  rcases hparent with ⟨htable, hprops⟩ | ⟨htable, hprops⟩
  · rw [argumentList, htable, if_pos (Or.inl rfl), if_neg (Nat.lt_irrefl 0), if_pos rfl, hprops]
    simp only [succeeded, bind, Except.bind]
    rw [hmemory]
    simp only [hdrop, parseNumber_append (encodes_compress (tokenBytes_eq token))]
  · have hne : ¬mdtMethodDef = mdtMemberRef := by decide
    rw [argumentList, htable, if_pos (Or.inr rfl), if_neg (Nat.lt_irrefl 0), if_neg hne, hprops]
    simp only [succeeded, bind, Except.bind]
    rw [hmemory]
    simp only [hdrop, parseNumber_append (encodes_compress (tokenBytes_eq token))]

/-- The arguments that the routine finds are those of the method, if it has some. -/
theorem argumentList_target {token : mdToken} (h : target.Describes md token)
    (hargs : target.usedArguments ≠ []) :
    ∃ rest, argumentList md token target.methodArguments.length =
      .ok (numberBytes target.usedArguments.length ++
        (TypeSig.bytesAll target.usedArguments ++ rest)) := by
  rw [usedArguments] at hargs ⊢
  rw [methodArguments]
  rw [Describes] at h
  cases hmethod : target.methodArgs with
  | none =>
      rw [hmethod] at h hargs
      exact argumentList_member h hargs
  | some args =>
      rw [hmethod] at h
      obtain ⟨htable, member, rest, hprops, -⟩ := h
      refine ⟨rest, ?_⟩
      have hne : ¬(mdtMethodSpec = mdtMemberRef ∨ mdtMethodSpec = mdtMethodDef) := by decide
      rw [argumentList, htable, if_neg hne, if_pos rfl, hprops]
      rfl

theorem usedArguments_wellFormed (hwf : target.WellFormed) :
    NumberFits target.usedArguments.length ∧ TypeSig.AllWellFormed target.usedArguments := by
  rw [usedArguments]
  cases hargs : target.methodArgs with
  | none => exact hwf.typeArgs
  | some args => exact (hwf.methodArgs args hargs).2

theorem usedArguments_mem {t : TypeSig} (ht : t ∈ target.usedArguments) :
    t ∈ target.typeArgs ++ target.methodArguments := by
  rw [usedArguments] at ht
  rw [methodArguments]
  cases hargs : target.methodArgs with
  | none =>
      rw [hargs] at ht
      exact List.mem_append_left _ ht
  | some args =>
      rw [hargs] at ht
      exact List.mem_append_right _ ht

/-- A variable in range has arguments to look into. -/
theorem usedArguments_ne_nil (hwf : target.WellFormed) {ofMethod : Bool} {n : Nat}
    (hn : n < (target.argumentsOf ofMethod).length) : target.usedArguments ≠ [] := by
  rw [usedArguments]
  cases hargs : target.methodArgs with
  | some args => exact (hwf.methodArgs args hargs).1
  | none =>
      intro hnil
      have hnil : target.typeArgs = [] := hnil
      cases ofMethod with
      | false =>
          have hn : n < target.typeArgs.length := hn
          rw [hnil] at hn
          exact Nat.not_lt_zero n hn
      | true =>
          have hn : n < target.methodArguments.length := hn
          rw [methodArguments, hargs] at hn
          exact Nat.not_lt_zero n hn

/-- **A return type that is a variable** yields what is found at its number. -/
theorem variable_yields (hwf : target.WellFormed) {token : mdToken}
    (htoken : target.Describes md token) (hmd : target.Succeeds md) {ofMethod : Bool} {n : Nat}
    (hfits : NumberFits n) (hn : n < (target.argumentsOf ofMethod).length)
    {found : Option TypeSig} (h : Finds target.usedArguments n found) (rest : List UInt8) :
    Yields md found (returnTypeToken md token target.methodArguments.length
      ((TypeSig.typeVariable ofMethod n).bytes ++ rest)) := by
  obtain ⟨hlength, hall⟩ := usedArguments_wellFormed hwf
  obtain ⟨rest', hlist⟩ := argumentList_target htoken (usedArguments_ne_nil hwf hn)
  have hswitch : returnTypeToken md token target.methodArguments.length
      ((TypeSig.typeVariable ofMethod n).bytes ++ rest) =
        typeVariableToken md token target.methodArguments.length (numberBytes n ++ rest) := by
    cases ofMethod with
    | false => rfl
    | true => rfl
  have hselect : typeVariableToken md token target.methodArguments.length (numberBytes n ++ rest) =
      selectArgument md target.usedArguments.length n
        (TypeSig.bytesAll target.usedArguments ++ rest') := by
    rw [typeVariableToken, parseNumber_append (encodes_numberBytes hfits)]
    simp only [bind, Except.bind]
    rw [hlist]
    simp only
    rw [parseNumber_append (encodes_numberBytes hlength)]
  rw [hswitch, hselect]
  exact h.yields hall hmd.coreLibrary (fun t ht => hmd.arguments t (usedArguments_mem ht)) rest'

end CallTarget

/-! ## The result for the return type -/

/-- A modifier in front is none of the cases. -/
theorem returnTypeToken_mods (token : mdToken) (count : Nat) (m : CustomMod)
    (mods : List CustomMod) (rest : List UInt8) :
    returnTypeToken md token count (modsBytes (m :: mods) ++ rest) = .error .returnsFalse := by
  rw [modsBytes, List.flatMap_cons, CustomMod.bytes]
  cases m.required with
  | false => rfl
  | true => rfl

/-- A return type that is neither a variable nor an instance of a generic type. -/
theorem returnTypeToken_element (token : mdToken) (count : Nat) {t : TypeSig}
    (hvariable : ∀ ofMethod n, t ≠ .typeVariable ofMethod n)
    (hgeneric : ∀ isValueType token args, t ≠ .generic isValueType token args)
    (rest : List UInt8) :
    returnTypeToken md token count (t.bytes ++ rest) =
      ReturnTypeTokenforValueTypeElementType md (t.bytes ++ rest) := by
  obtain ⟨b, v, hbytes, hb⟩ := bytes_head_element hvariable hgeneric
  rw [hbytes, List.cons_append, returnTypeToken, if_neg hb.2.2.2, if_neg hb.2.2.1,
    if_neg (not_or.mpr ⟨hb.2.1, hb.1⟩)]

/-- The instantiation of such a type: if it is unboxed it is the same type. -/
theorem subst_element {t : TypeSig} (hvariable : ∀ ofMethod n, t ≠ .typeVariable ofMethod n)
    (hgeneric : ∀ isValueType token args, t ≠ .generic isValueType token args)
    (typeArgs methodArgs : List TypeSig) :
    (t.subst typeArgs methodArgs).unboxed = t.unboxed ∧
      (t.unboxed = true → t.subst typeArgs methodArgs = t) := by
  cases t with
  | primitive b simple => exact ⟨rfl, fun _ => rfl⟩
  | named isValueType token => exact ⟨rfl, fun _ => rfl⟩
  | typeVariable ofMethod n => exact absurd rfl (hvariable ofMethod n)
  | generic isValueType token args => exact absurd rfl (hgeneric isValueType token args)
  | szArray mods element => exact ⟨rfl, fun h => by cases h⟩
  | array element shape => exact ⟨rfl, fun h => by cases h⟩
  | ptr mods element => exact ⟨rfl, fun h => by cases h⟩
  | voidPtr mods => exact ⟨rfl, fun h => by cases h⟩
  | fnPtr callConv arity ret params varArgs => exact ⟨rfl, fun h => by cases h⟩

/-- Such a return type is found. -/
theorem element_correct (hcore : md.HasCoreLibrary) (token : mdToken) (count : Nat)
    {t : TypeSig} (hwf : t.WellFormed) (hvariable : ∀ ofMethod n, t ≠ .typeVariable ofMethod n)
    (hgeneric : ∀ isValueType token args, t ≠ .generic isValueType token args)
    (typeArgs methodArgs : List TypeSig) (rest : List UInt8) :
    md.Correct (.type [] false (t.subst typeArgs methodArgs))
      (returnTypeToken md token count (t.bytes ++ rest)) := by
  obtain ⟨hunboxed, hsame⟩ := subst_element hvariable hgeneric typeArgs methodArgs
  rw [returnTypeToken_element token count hvariable hgeneric]
  cases ht : t.unboxed with
  | false =>
      have hyields := (ReadsAs.boxed ht).element_yields hwf hcore hvariable hgeneric rest
      rw [hyields.eq_returnsFalse]
      exact hunboxed.trans ht
  | true =>
      have hreads : ReadsAs t (some t) :=
        ReadsAs.token ht fun token args h => absurd h (hgeneric true token args)
      have hyields := hreads.element_yields hwf hcore hvariable hgeneric rest
      rw [hsame ht]
      refine (hyields.correct_iff ?_ hwf).mpr ⟨ht, rfl, ?_⟩
      · rintro _ ⟨⟩
        exact hwf
      · intro ofMethod n h
        exact absurd h (hvariable ofMethod n)

/-- An instance of a generic value type that the parser steps over yields its own token. -/
theorem generic_correct_iff {token : mdToken} {count : Nat} {typeToken : mdToken}
    {args : List TypeSig} (htaken : (TypeSig.generic true typeToken args).Taken)
    (hspec : (md.GetTokenFromTypeSpec (TypeSig.generic true typeToken args).bytes).isSome = true)
    (typeArgs methodArgs : List TypeSig) (rest : List UInt8) :
    md.Correct (.type [] false ((TypeSig.generic true typeToken args).subst typeArgs methodArgs))
        (returnTypeToken md token count ((TypeSig.generic true typeToken args).bytes ++ rest)) ↔
      ((TypeSig.generic true typeToken args).subst typeArgs methodArgs).bytes =
        (TypeSig.generic true typeToken args).bytes := by
  have hreads : ReadsAs (.generic true typeToken args) (some (.generic true typeToken args)) :=
    ReadsAs.token rfl fun _ _ _ => htaken
  have hyields : Yields md (some (.generic true typeToken args))
      (returnTypeToken md token count ((TypeSig.generic true typeToken args).bytes ++ rest)) :=
    hreads.generic_yields hspec rest
  generalize returnTypeToken md token count _ = result at hyields
  cases hyields with
  | token hsignature =>
      constructor
      · rintro ⟨-, hsame⟩
        exact hsame.symm.trans hsignature
      · intro hsame
        exact ⟨rfl, hsignature.trans hsame.symm⟩

namespace CallTarget

variable {target : CallTarget}

/-- The routine reads the return type where it is. -/
theorem result_eq (hwf : target.WellFormed) (hcounts : target.OneByteCounts) (token : mdToken)
    (behind : List UInt8) :
    ReturnTypeIsValueTypeOrGeneric md token ⟨target.bytes⟩ behind =
      returnTypeToken md token target.methodArguments.length
        (target.ret.bytes ++ (target.paramsBytes ++ behind)) := by
  obtain ⟨hcount, hplace⟩ := return_place hwf hcounts behind
  rw [ReturnTypeIsValueTypeOrGeneric]
  simp only
  rw [hplace, hcount]

theorem allWellFormed_mem {ts : List TypeSig} (h : TypeSig.AllWellFormed ts) {t : TypeSig}
    (ht : t ∈ ts) : t.WellFormed := by
  induction ts with
  | nil => cases ht
  | cons t' ts ih =>
      rcases List.mem_cons.mp ht with rfl | ht
      · exact h.1
      · exact ih h.2 ht

/-- The argument of a variable in range. -/
theorem argument_wellFormed (hwf : target.WellFormed) {ofMethod : Bool} {n : Nat}
    (hn : n < (target.argumentsOf ofMethod).length) :
    ((TypeSig.typeVariable ofMethod n).subst target.typeArgs
      target.methodArguments).WellFormed := by
  have hsubst : (TypeSig.typeVariable ofMethod n).subst target.typeArgs target.methodArguments =
      (target.argumentsOf ofMethod)[n] := by
    rw [TypeSig.subst]
    show ((target.argumentsOf ofMethod)[n]?).getD _ = _
    rw [List.getElem?_eq_getElem hn, Option.getD_some]
  have hall : TypeSig.AllWellFormed (target.argumentsOf ofMethod) := by
    cases ofMethod with
    | false => exact hwf.typeArgs.2
    | true =>
        show TypeSig.AllWellFormed (target.methodArgs.getD [])
        cases hargs : target.methodArgs with
        | none => trivial
        | some args => exact (hwf.methodArgs args hargs).2.2
  rw [hsubst]
  exact allWellFormed_mem hall (List.getElem_mem hn)

/-- What is found agrees with the argument exactly if the result for the variable is right. -/
theorem variable_correct_iff (hwf : target.WellFormed) {token : mdToken}
    (htoken : target.Describes md token) (hmd : target.Succeeds md) {ofMethod : Bool} {n : Nat}
    (hret : target.ret = .type [] false (.typeVariable ofMethod n)) {found : Option TypeSig}
    (h : Finds target.usedArguments n found) (rest : List UInt8) :
    md.Correct target.instantiatedReturn (returnTypeToken md token target.methodArguments.length
        (target.ret.bytes ++ rest)) ↔
      md.Agrees found
        ((TypeSig.typeVariable ofMethod n).subst target.typeArgs target.methodArguments) := by
  have hn := hwf.inRange [] false ofMethod n hret
  have hfits : NumberFits n := by
    have hret' := hwf.ret
    rw [hret] at hret'
    exact hret'
  have hyields := variable_yields hwf htoken hmd hfits hn h rest
  have hfound : ∀ t, found = some t → t.WellFormed := by
    rintro t rfl
    exact allWellFormed_mem (usedArguments_wellFormed hwf).2 h.mem
  rw [instantiatedReturn, hret]
  exact hyields.correct_iff hfound (argument_wellFormed hwf hn)

/-- A return type with a modifier in front yields nothing. -/
theorem returnTypeToken_ret_mods (token : mdToken) (count : Nat) {m : CustomMod}
    {mods : List CustomMod} (hmods : target.ret.mods = m :: mods) (rest : List UInt8) :
    returnTypeToken md token count (target.ret.bytes ++ rest) = .error .returnsFalse := by
  cases hret : target.ret with
  | void mods' =>
      rw [hret] at hmods
      obtain rfl : mods' = m :: mods := hmods
      rw [SlotSig.bytes, List.append_assoc]
      exact returnTypeToken_mods token _ m mods _
  | typedByRef mods' =>
      rw [hret] at hmods
      obtain rfl : mods' = m :: mods := hmods
      rw [SlotSig.bytes, List.append_assoc]
      exact returnTypeToken_mods token _ m mods _
  | type mods' isByRef t =>
      rw [hret] at hmods
      obtain rfl : mods' = m :: mods := hmods
      rw [SlotSig.bytes, List.append_assoc]
      exact returnTypeToken_mods token _ m mods _

/-- **What is readable is found**: a return type without modifiers. -/
theorem Readable.correct_type (hwf : target.WellFormed) {token : mdToken}
    (htoken : target.Describes md token) (hmd : target.Succeeds md)
    (h : target.Readable md) {t : TypeSig} (hret : target.ret = .type [] false t)
    (rest : List UInt8) :
    md.Correct target.instantiatedReturn (returnTypeToken md token target.methodArguments.length
      (target.ret.bytes ++ rest)) := by
  have hwf' := hwf.ret
  rw [hret] at hwf'
  by_cases hvariable : ∃ ofMethod n, t = .typeVariable ofMethod n
  · obtain ⟨ofMethod, n, rfl⟩ := hvariable
    obtain ⟨found, hfinds, hagrees⟩ := h.typeVariable ofMethod n hret
    exact (variable_correct_iff hwf htoken hmd hret hfinds rest).mpr hagrees
  by_cases hgeneric : ∃ isValueType typeToken args, t = .generic isValueType typeToken args
  · obtain ⟨isValueType, typeToken, args, rfl⟩ := hgeneric
    rw [instantiatedReturn, hret]
    cases isValueType with
    | false =>
        have hresult : returnTypeToken md token target.methodArguments.length
            ((SlotSig.type [] false (.generic false typeToken args)).bytes ++ rest) =
              .error .returnsFalse := rfl
        rw [hresult]
        rfl
    | true =>
        obtain ⟨htaken, hsame⟩ := h.valueType typeToken args hret
        exact (generic_correct_iff htaken (hmd.ret _ _ _ hret) _ _ rest).mpr hsame
  · have hvariable : ∀ ofMethod n, t ≠ .typeVariable ofMethod n :=
      fun ofMethod n h => hvariable ⟨ofMethod, n, h⟩
    have hgeneric : ∀ isValueType typeToken args, t ≠ .generic isValueType typeToken args :=
      fun isValueType typeToken args h => hgeneric ⟨isValueType, typeToken, args, h⟩
    rw [instantiatedReturn, hret]
    exact element_correct hmd.coreLibrary token _ hwf' hvariable hgeneric _ _ rest

/-- **What is readable is found.** -/
theorem Readable.correct (hwf : target.WellFormed) {token : mdToken}
    (htoken : target.Describes md token) (hmd : target.Succeeds md)
    (h : target.Readable md) (rest : List UInt8) :
    md.Correct target.instantiatedReturn (returnTypeToken md token target.methodArguments.length
      (target.ret.bytes ++ rest)) := by
  cases hmods : target.ret.mods with
  | cons m mods =>
      rw [returnTypeToken_ret_mods token _ hmods]
      exact h.modifiers m mods hmods
  | nil =>
      cases hret : target.ret with
      | void mods =>
          rw [hret] at hmods
          obtain rfl : mods = [] := hmods
          have hresult : returnTypeToken md token target.methodArguments.length
              ((SlotSig.void []).bytes ++ rest) = .error .returnsFalse := rfl
          rw [hresult, instantiatedReturn, hret]
          rfl
      | typedByRef mods =>
          rw [hret] at hmods
          obtain rfl : mods = [] := hmods
          obtain ⟨typeToken, hok, hsignature⟩ :
              ∃ typeToken, ReturnTypeTokenforValueTypeElementType md (typedByRef :: rest) =
                .ok typeToken ∧ md.tokenSignature typeToken = [typedByRef] :=
            elementToken_of_lookup hmd.coreLibrary (by decide) rfl rest
          have hswitch : returnTypeToken md token target.methodArguments.length
              ((SlotSig.typedByRef []).bytes ++ rest) =
                ReturnTypeTokenforValueTypeElementType md (typedByRef :: rest) := rfl
          rw [hswitch, hok, instantiatedReturn, hret]
          exact ⟨rfl, hsignature⟩
      | type mods isByRef t =>
          have hmods' := hmods
          rw [hret] at hmods'
          obtain rfl : mods = [] := hmods'
          cases isByRef with
          | true =>
              have hresult : returnTypeToken md token target.methodArguments.length
                  ((SlotSig.type [] true t).bytes ++ rest) = .error .returnsFalse := rfl
              rw [hresult, instantiatedReturn, hret]
              rfl
          | false =>
              rw [← hret]
              exact h.correct_type hwf htoken hmd hret rest

/-- **What is found is readable**, function pointers and long counts apart. -/
theorem Readable.of_correct (hwf : target.WellFormed) {token : mdToken}
    (htoken : target.Describes md token) (hmd : target.Succeeds md)
    (hcounts : target.OneByteCounts) (hplain : target.Plain) (rest : List UInt8)
    (h : md.Correct target.instantiatedReturn (returnTypeToken md token
      target.methodArguments.length (target.ret.bytes ++ rest))) : target.Readable md := by
  refine ⟨hcounts, ?_, ?_, ?_⟩
  · intro m mods hmods
    rw [returnTypeToken_ret_mods token _ hmods] at h
    exact h
  · intro typeToken args hret
    have hwf' := hwf.ret
    rw [hret] at hwf'
    rw [instantiatedReturn, hret] at h
    rcases taken_or_refused hwf' (hplain.ret _ _ _ hret) with htaken | hrefused
    · exact ⟨htaken, (generic_correct_iff htaken (hmd.ret _ _ _ hret) _ _ rest).mp h⟩
    · have hyields : Yields md none (returnTypeToken md token target.methodArguments.length
          ((TypeSig.generic true typeToken args).bytes ++ rest)) :=
        (ReadsAs.refused hrefused).generic_yields (hmd.ret _ _ _ hret) rest
      have hresult : returnTypeToken md token target.methodArguments.length
          ((SlotSig.type [] false (.generic true typeToken args)).bytes ++ rest) =
            .error .returnsFalse := hyields.eq_returnsFalse
      rw [hresult] at h
      cases h
  · intro ofMethod n hret
    obtain ⟨found, hfinds⟩ :=
      exists_finds (usedArguments_wellFormed hwf).2 hplain.arguments n
    exact ⟨found, hfinds, (variable_correct_iff hwf htoken hmd hret hfinds rest).mp h⟩

end CallTarget

/-- **The routine is right for the readable targets**, and without function pointers and with
counts of one byte for no other: it returns a token exactly if the instantiated return type is a
value type or a type variable, and the token denotes that type. -/
theorem returnType_correct (md : CallSiteMetadata) {target : CallTarget} (hwf : target.WellFormed)
    {token : mdToken} (htoken : target.Describes md token) (hmd : target.Succeeds md)
    (behind : List UInt8) :
    (target.Readable md → md.Correct target.instantiatedReturn
        (ReturnTypeIsValueTypeOrGeneric md token ⟨target.bytes⟩ behind)) ∧
      (target.OneByteCounts → target.Plain → md.Correct target.instantiatedReturn
        (ReturnTypeIsValueTypeOrGeneric md token ⟨target.bytes⟩ behind) → target.Readable md) := by
  constructor
  · intro h
    rw [CallTarget.result_eq hwf h.counts]
    exact h.correct hwf htoken hmd _
  · intro hcounts hplain h
    rw [CallTarget.result_eq hwf hcounts] at h
    exact CallTarget.Readable.of_correct hwf htoken hmd hcounts hplain _ h

/-! ## A generic class -/

/-- `int`. -/
def int32 : TypeSig := .primitive i4 i4_mem_simpleTypes

/-- `T Get()` of `Box<T>`, called on a `Box<int>`. -/
def boxGet : CallTarget where
  callConv := 0x20
  methodArgs := none
  ret := .type [] false (.typeVariable false 0)
  params := []
  varArgs := []
  typeArgs := [int32]

/-- `T GetAs<U>()` of `Box<T>`, called with `string` on a `Box<int>`. -/
def boxGetAs : CallTarget :=
  { boxGet with callConv := 0x30, methodArgs := some [.primitive string (by decide)] }

/-- The types that the module has a `TypeSpec` for. -/
def boxTypeSpecs : List (mdToken × List UInt8) :=
  [(0x1b000001, (TypeSig.generic false 0x02000002 [int32]).bytes), (0x1b000002, [var, 0x00]),
    (0x1b000003, [i4]), (0x1b000004, [string])]

/-- The types that the module refers to. -/
def boxTypeRefs : List (mdToken × String) :=
  managedTypeNames.map fun entry => (mdtTypeRef ||| entry.1.toUInt32, entry.2)

/-- The metadata of a module that calls the methods of `Box<int>`. -/
def boxMetadata : CallSiteMetadata where
  GetMemberRefProps member := if member = 0x0a000001 then some 0x1b000001 else none
  GetMemberProps _ := none
  GetTypeSpecFromToken token := boxTypeSpecs.lookup token
  GetMethodSpecProps token :=
    if token = 0x2b000001 then some (0x0a000001, [0x0a, 0x01, string]) else none
  GetTokenFromTypeSpec s := (boxTypeSpecs.find? fun entry => entry.2 == s).map Prod.fst
  GetCorLibAssemblyRef := some 0x23000001
  DefineTypeRefByName scope name :=
    if scope = 0x23000001 then (boxTypeRefs.find? fun entry => entry.2 == name).map Prod.fst
    else none
  typeSpecSignature token := boxTypeSpecs.lookup token
  typeRefName token := (boxTypeRefs.lookup token).map (Prod.mk 0x23000001)
  typeSpec_of_token := by
    intro s t h
    have hall : ∀ entry ∈ boxTypeSpecs,
        TypeFromToken entry.1 = mdtTypeSpec ∧ boxTypeSpecs.lookup entry.1 = some entry.2 :=
      forall_mem_of_all (by decide +kernel)
    obtain ⟨entry, hfind, rfl⟩ := Option.map_eq_some_iff.mp h
    obtain ⟨htable, hlookup⟩ := hall entry (List.mem_of_find?_eq_some hfind)
    have hs : entry.2 = s := by simpa using List.find?_some hfind
    exact ⟨htable, hs ▸ hlookup⟩
  typeRef_of_name := by
    intro scope name t h
    have hall : ∀ entry ∈ boxTypeRefs,
        TypeFromToken entry.1 = mdtTypeRef ∧ boxTypeRefs.lookup entry.1 = some entry.2 :=
      forall_mem_of_all (by decide +kernel)
    split at h
    · rename_i hscope
      obtain ⟨entry, hfind, rfl⟩ := Option.map_eq_some_iff.mp h
      obtain ⟨htable, hlookup⟩ := hall entry (List.mem_of_find?_eq_some hfind)
      have hname : entry.2 = name := by simpa using List.find?_some hfind
      refine ⟨htable, ?_⟩
      rw [hlookup, hscope, hname]
      rfl
    · cases h

/-- The core library of the metadata. -/
theorem boxMetadata_hasCoreLibrary : boxMetadata.HasCoreLibrary :=
  ⟨0x23000001, rfl, forall_mem_of_all (by decide +kernel)⟩

theorem boxGet_wellFormed : boxGet.WellFormed where
  generic := by decide
  methodArgs := fun args h => by cases h
  typeArgs := ⟨by decide, trivial, trivial⟩
  count := by decide
  ret := Nat.zero_le _
  params := ⟨trivial, trivial⟩
  inRange := by
    rintro _ _ _ _ ⟨⟩
    exact Nat.one_pos

theorem boxGet_describes : boxGet.Describes boxMetadata 0x0a000001 := by
  refine ⟨0x1b000001, Or.inl ⟨by decide, rfl⟩, fun _ => ?_⟩
  exact ⟨false, 0x02000002, [], Or.inl (by decide), rfl⟩

/-- `Get` of a `Box<int>` returns an `int`, and the token is that of `System.Int32`. -/
theorem returnType_boxGet :
    boxMetadata.Correct (.type [] false int32)
      (ReturnTypeIsValueTypeOrGeneric boxMetadata 0x0a000001 ⟨boxGet.bytes⟩ []) := by
  have hsucceeds : boxGet.Succeeds boxMetadata := by
    refine ⟨?_, ?_, boxMetadata_hasCoreLibrary⟩
    · rintro _ _ _ ⟨⟩
      rfl
    · intro t ht
      obtain rfl := List.mem_singleton.mp ht
      exact ⟨rfl, rfl⟩
  refine (returnType_correct boxMetadata boxGet_wellFormed boxGet_describes hsucceeds []).1 ?_
  refine ⟨⟨by decide, by decide⟩, ?_, ?_, ?_⟩
  · rintro _ _ ⟨⟩
  · rintro _ _ ⟨⟩
  · rintro _ _ ⟨⟩
    refine ⟨some int32, Finds.here (ReadsAs.token rfl ?_), rfl, rfl, ?_⟩
    · rintro _ _ ⟨⟩
    · rintro _ _ ⟨⟩

/-- **The argument of the type is looked for among those of the method**: `GetAs<string>` of a
`Box<int>` returns an `int`, but the routine returns `false`. -/
theorem not_correct_boxGetAs :
    boxGetAs.WellFormed ∧ boxGetAs.Describes boxMetadata 0x2b000001 ∧
      boxGetAs.Succeeds boxMetadata ∧
      boxGetAs.instantiatedReturn = .type [] false int32 ∧
      ReturnTypeIsValueTypeOrGeneric boxMetadata 0x2b000001 ⟨boxGetAs.bytes⟩ [] =
        .error .returnsFalse ∧
      ¬boxMetadata.Correct boxGetAs.instantiatedReturn
        (ReturnTypeIsValueTypeOrGeneric boxMetadata 0x2b000001 ⟨boxGetAs.bytes⟩ []) := by
  refine ⟨?_, ?_, ?_, rfl, rfl, fun h => by cases h⟩
  · refine ⟨by decide, ?_, boxGet_wellFormed.typeArgs, by decide, Nat.zero_le _,
      ⟨trivial, trivial⟩, ?_⟩
    · rintro _ ⟨⟩
      exact ⟨List.cons_ne_nil _ _, by decide, trivial, trivial⟩
    · rintro _ _ _ _ ⟨⟩
      exact Nat.one_pos
  · exact ⟨by decide, 0x0a000001, [], rfl, boxGet_describes⟩
  · refine ⟨?_, ?_, boxMetadata_hasCoreLibrary⟩
    · rintro _ _ _ ⟨⟩
      rfl
    · intro t ht
      rcases List.mem_cons.mp ht with rfl | ht
      · exact ⟨rfl, rfl⟩
      · obtain rfl := List.mem_singleton.mp ht
        exact ⟨rfl, rfl⟩

end DdTrace.Profiler.SigHelpers
