import DdTrace.Profiler.MethodSignature
import DdTrace.Profiler.TypeSignatures

/-!
# The token for the `unbox.any` instruction

A wrapper method that returns `object` is called in the place of the method that the program calls.
If that one returns a value type or a type variable, an `unbox.any` has to follow, and
`ReturnTypeIsValueTypeOrGeneric` finds the token for it in the signature and the metadata.

* `CallSiteMetadata`: the metadata, with what its interfaces promise.
* `ReturnTypeIsValueTypeOrGeneric`: the routine.
* `CallSiteMetadata.Correct`: what it has to return for a return type.
* `Finds.yields`: what its loop over the arguments returns; `Yields.correct_iff`: when that is
  right for the argument.

Sources: `clr_helpers.cpp`, lines 817 to 1132; `lib/coreclr/src/inc/cor.h`, `CorSigUncompressToken`.
-/

namespace DdTrace.Profiler.SigHelpers

open DdTrace.Lib CorElementType

/-! ## Tokens -/

/-- `mdtMethodDef`. -/
abbrev mdtMethodDef : UInt32 := 0x06000000
/-- `mdtMemberRef`. -/
abbrev mdtMemberRef : UInt32 := 0x0a000000
/-- `mdtMethodSpec`. -/
abbrev mdtMethodSpec : UInt32 := 0x2b000000

/-- Source: `cor.h`, `g_tkCorEncodeToken` -/
def g_tkCorEncodeToken : List mdToken := [mdtTypeDef, mdtTypeRef, mdtTypeSpec, mdtBaseType]

/-- The token of a number.
Source: `cor.h`, `CorSigUncompressToken`, behind the call of `CorSigUncompressData` -/
def uncompressedToken (n : Nat) : mdToken :=
  UInt32.ofNat (n >>> 2) ||| g_tkCorEncodeToken.getD (n &&& 0x3) mdtTypeDef

theorem rid_or_type (tk : mdToken) : RidFromToken tk ||| TypeFromToken tk = tk := by
  have hdistrib : tk &&& 0x00ffffff ||| tk &&& 0xff000000 =
      tk &&& (0x00ffffff ||| 0xff000000) := by
    rw [← UInt32.toBitVec_inj]
    exact BitVec.and_or_distrib_left.symm
  have hmask : (0x00ffffff ||| 0xff000000 : UInt32) = -1 := by decide
  rw [RidFromToken, TypeFromToken, hdistrib, hmask, UInt32.and_neg_one]

/-- The row is found behind the two bits of the table. -/
theorem row_of_bits (tk : mdToken) {k : UInt32} (hk : k < 4) :
    UInt32.ofNat ((RidFromToken tk <<< 2 ||| k).toNat >>> 2) = RidFromToken tk ∧
      (RidFromToken tk <<< 2 ||| k).toNat &&& 0x3 = k.toNat := by
  have hrid := toNat_rid_lt tk
  rw [UInt32.lt_iff_toNat_lt] at hk
  have hk : k.toNat < 2 ^ 2 := hk
  have hshift : (RidFromToken tk <<< 2).toNat = 2 ^ 2 * (RidFromToken tk).toNat := by
    rw [UInt32.toNat_shiftLeft]
    have hmul : (RidFromToken tk).toNat <<< ((2 : UInt32).toNat % 32) =
        (RidFromToken tk).toNat * 4 := Nat.shiftLeft_eq _ 2
    rw [hmul]
    omega
  have hvalue : (RidFromToken tk <<< 2 ||| k).toNat = 2 ^ 2 * (RidFromToken tk).toNat + k.toNat := by
    rw [UInt32.toNat_or, hshift, Nat.two_pow_add_eq_or_of_lt hk]
  rw [hvalue]
  constructor
  · rw [Nat.shiftRight_eq_div_pow]
    have hdiv : (2 ^ 2 * (RidFromToken tk).toNat + k.toNat) / 2 ^ 2 = (RidFromToken tk).toNat := by
      omega
    rw [hdiv, UInt32.ofNat_toNat]
  · have hmod := Nat.and_two_pow_sub_one_eq_mod (2 ^ 2 * (RidFromToken tk).toNat + k.toNat) 2
    rw [show (0x3 : Nat) = 2 ^ 2 - 1 from rfl, hmod]
    omega

/-- **A token that is written is the token that is read.** -/
theorem uncompressedToken_encodedToken {tk : mdToken} (h : NamesType tk) :
    uncompressedToken (encodedToken tk).toNat = tk := by
  rcases h with hdef | href
  · have hencoded : encodedToken tk = RidFromToken tk <<< 2 ||| 0 := by
      simp [encodedToken, hdef, mdtTypeDef, mdtTypeRef, mdtTypeSpec, mdtBaseType]
    obtain ⟨hrow, hbits⟩ := row_of_bits tk (k := 0) (by decide)
    rw [hencoded, uncompressedToken, hrow, hbits]
    conv_rhs => rw [← rid_or_type tk, hdef]
    rfl
  · have hencoded : encodedToken tk = RidFromToken tk <<< 2 ||| 1 := by
      simp [encodedToken, href]
    obtain ⟨hrow, hbits⟩ := row_of_bits tk (k := 1) (by decide)
    rw [hencoded, uncompressedToken, hrow, hbits]
    conv_rhs => rw [← rid_or_type tk, href]
    rfl

/-! ## The metadata -/

/-- The metadata of the module whose calls are replaced, with what its interfaces promise: a new
token is one of the signature, or of the name, that it was asked for. The signatures the metadata
hands out are memory that starts at them. -/
structure CallSiteMetadata where
  /-- The parent of a `MemberRef`. -/
  GetMemberRefProps : mdToken → Option mdToken
  /-- The type of a `MethodDef`. -/
  GetMemberProps : mdToken → Option mdToken
  /-- The signature of a `TypeSpec`. -/
  GetTypeSpecFromToken : mdToken → Option (List UInt8)
  /-- The method and the signature of a `MethodSpec`. -/
  GetMethodSpecProps : mdToken → Option (mdToken × List UInt8)
  /-- The `TypeSpec` of a signature. -/
  GetTokenFromTypeSpec : List UInt8 → Option mdToken
  /-- The reference to the core library.
  Source: `clr_helpers.cpp`, `GetCorLibAssemblyRef` -/
  GetCorLibAssemblyRef : Option mdToken
  /-- The reference to a type of an assembly. -/
  DefineTypeRefByName : mdToken → String → Option mdToken
  /-- What a `TypeSpec` denotes. -/
  typeSpecSignature : mdToken → Option (List UInt8)
  /-- What a `TypeRef` denotes. -/
  typeRefName : mdToken → Option (mdToken × String)
  typeSpec_of_token : ∀ s t, GetTokenFromTypeSpec s = some t →
    TypeFromToken t = mdtTypeSpec ∧ typeSpecSignature t = some s
  typeRef_of_name : ∀ scope name t, DefineTypeRefByName scope name = some t →
    TypeFromToken t = mdtTypeRef ∧ typeRefName t = some (scope, name)

/-! ## The routine -/

/-- A failed call of the metadata makes the routine return `false`. -/
def succeeded {α : Type} : Option α → Except Stop α
  | some a => .ok a
  | none => .error .returnsFalse

/-- The names that the switch sets.
Source: `clr_helpers.cpp`, `ReturnTypeTokenforValueTypeElementType` -/
def managedTypeNames : List (UInt8 × String) :=
  [(void, "System.Void"), (boolean, "System.Boolean"), (char, "System.Char"), (i1, "System.SByte"),
    (u1, "System.Byte"), (i2, "System.Int16"), (u2, "System.UInt16"), (i4, "System.Int32"),
    (u4, "System.UInt32"), (i8, "System.Int64"), (u8, "System.UInt64"), (r4, "System.Single"),
    (r8, "System.Double"), (typedByRef, "System.TypedReference"), (i, "System.IntPtr"),
    (u, "System.UIntPtr")]

/-- Source: `clr_helpers.cpp`, `ReturnTypeTokenforValueTypeElementType` -/
def ReturnTypeTokenforValueTypeElementType (md : CallSiteMetadata) :
    List UInt8 → Except Stop mdToken
  | [] => .error .fault
  | b :: rest =>
      if b = valueType then (parseNumber rest).map fun r => uncompressedToken r.1
      else
        match managedTypeNames.lookup b with
        | none => .error .returnsFalse
        | some name => do
            let mscorlib_ref ← succeeded md.GetCorLibAssemblyRef
            succeeded (md.DefineTypeRefByName mscorlib_ref name)

/-- The case `ELEMENT_TYPE_GENERICINST`, which the source has twice.
Source: `clr_helpers.cpp`, `ReturnTypeIsValueTypeOrGeneric` -/
def genericInstToken (md : CallSiteMetadata) : List UInt8 → Except Stop mdToken
  | start :: second :: rest =>
      if second ≠ valueType then .error .returnsFalse
      else do
        let p_end ← parseType (start :: second :: rest)
        let length := (start :: second :: rest).length - p_end.length
        succeeded (md.GetTokenFromTypeSpec ((start :: second :: rest).take length))
  | _ => .error .fault

/-- The body of the loop at the argument of that index.
Source: `clr_helpers.cpp`, `ReturnTypeIsValueTypeOrGeneric` -/
def readArgument (md : CallSiteMetadata) : List UInt8 → Except Stop mdToken
  | [] => .error .fault
  | b :: rest =>
      if b = mVar ∨ b = var then
        match rest with
        | [] => .error .fault
        -- two bytes, however long the number is
        | n :: _ => succeeded (md.GetTokenFromTypeSpec [b, n])
      else if b = genericInst then genericInstToken md (b :: rest)
      else ReturnTypeTokenforValueTypeElementType md (b :: rest)

/-- The loop over the arguments that are left, with what is left to the index.
Source: `clr_helpers.cpp`, `ReturnTypeIsValueTypeOrGeneric` -/
def selectArgument (md : CallSiteMetadata) : Nat → Nat → List UInt8 → Except Stop mdToken
  | 0, _, _ => .error .returnsFalse
  | _ + 1, 0, memory => readArgument md memory
  | remaining + 1, index + 1, memory =>
      (parseType memory).bind (selectArgument md remaining index)

/-- The signature that lists the arguments, from their number on.
Source: `clr_helpers.cpp`, `ReturnTypeIsValueTypeOrGeneric` -/
def argumentList (md : CallSiteMetadata) (targetFunctionToken : mdToken) (generic_count : Nat) :
    Except Stop (List UInt8) :=
  let token_type := TypeFromToken targetFunctionToken
  if token_type = mdtMemberRef ∨ token_type = mdtMethodDef then
    if generic_count > 0 then .error .returnsFalse
    else do
      let parent_token ← succeeded (if token_type = mdtMemberRef
        then md.GetMemberRefProps targetFunctionToken else md.GetMemberProps targetFunctionToken)
      let spec_signature ← succeeded (md.GetTypeSpecFromToken parent_token)
      match parseNumber (spec_signature.drop 2) with
      | .ok (_, memory) => .ok memory
      -- a length of -1 is added to the index
      | .error _ => .error .fault
  else if token_type = mdtMethodSpec then
    (succeeded (md.GetMethodSpecProps targetFunctionToken)).map fun r => r.2.drop 1
  else .error .returnsFalse

/-- The case of a type variable; `rest` starts at its number.
Source: `clr_helpers.cpp`, `ReturnTypeIsValueTypeOrGeneric` -/
def typeVariableToken (md : CallSiteMetadata) (targetFunctionToken : mdToken)
    (generic_count : Nat) (rest : List UInt8) : Except Stop mdToken := do
  let (generic_type_index, _) ← parseNumber rest
  let spec_signature ← argumentList md targetFunctionToken generic_count
  let (num_generic_arguments, memory) ← parseNumber spec_signature
  selectArgument md num_generic_arguments generic_type_index memory

/-- The switch over the element type of the return type.
Source: `clr_helpers.cpp`, `ReturnTypeIsValueTypeOrGeneric` -/
def returnTypeToken (md : CallSiteMetadata) (targetFunctionToken : mdToken)
    (generic_count : Nat) : List UInt8 → Except Stop mdToken
  | [] => .error .fault
  | ret_type :: rest =>
      if ret_type = void then .error .returnsFalse
      else if ret_type = genericInst then genericInstToken md (ret_type :: rest)
      else if ret_type = var ∨ ret_type = mVar then
        typeVariableToken md targetFunctionToken generic_count rest
      else ReturnTypeTokenforValueTypeElementType md (ret_type :: rest)

/-- The result is the token, where the source returns `true`; `behind` is the memory behind the
signature.
Source: `clr_helpers.cpp`, `ReturnTypeIsValueTypeOrGeneric` -/
def ReturnTypeIsValueTypeOrGeneric (md : CallSiteMetadata) (targetFunctionToken : mdToken)
    (targetFunctionSignature : MethodSignature) (behind : List UInt8) : Except Stop mdToken :=
  let generic_count := targetFunctionSignature.numberOfTypeArguments
  let method_def_sig_index := if generic_count = 0 then 2 else 3
  returnTypeToken md targetFunctionToken generic_count
    ((targetFunctionSignature.data ++ behind).drop method_def_sig_index)

/-! ## What has to be found -/

/-- A value type or a type variable. -/
def TypeSig.unboxed : TypeSig → Bool
  | .primitive b _ => b != string && b != object
  | .named isValueType _ => isValueType
  | .typeVariable _ _ => true
  | .generic isValueType _ _ => isValueType
  | _ => false

/-- The modifiers in front. -/
def SlotSig.mods : SlotSig → List CustomMod
  | .void mods => mods
  | .typedByRef mods => mods
  | .type mods _ _ => mods

/-- A value type or a type variable, and no reference to one. -/
def SlotSig.unboxed : SlotSig → Bool
  | .void _ => false
  | .typedByRef _ => true
  | .type _ isByRef t => !isByRef && t.unboxed

namespace CallSiteMetadata

variable (md : CallSiteMetadata)

/-- The element type of a token, if there is one for it: then it denotes a type of the core library
that signatures do not name. -/
def elementTypeOf (token : mdToken) : Option UInt8 :=
  match md.typeRefName token with
  | none => none
  | some (scope, name) =>
      if TypeFromToken token = mdtTypeRef ∧ md.GetCorLibAssemblyRef = some scope then
        (managedTypeNames.find? fun entry => entry.2 == name).map Prod.fst
      else none

/-- The signature of the value type or type variable that a token denotes. -/
def tokenSignature (token : mdToken) : List UInt8 :=
  if TypeFromToken token = mdtTypeSpec then (md.typeSpecSignature token).getD []
  else (md.elementTypeOf token).elim (valueType :: tokenBytes token) fun b => [b]

/-- The signature by which a type is compared: that of its token, if it has one. -/
def signature : TypeSig → List UInt8
  | .named true token => md.tokenSignature token
  | t => t.bytes

/-- The signature of what is returned, its modifiers left out. -/
def slotSignature : SlotSig → List UInt8
  | .void _ => [void]
  | .typedByRef _ => [typedByRef]
  | .type _ isByRef t => byRefBytes isByRef ++ md.signature t

/-- There are references to the types of the core library. -/
def HasCoreLibrary : Prop :=
  ∃ scope, md.GetCorLibAssemblyRef = some scope ∧
    ∀ entry ∈ managedTypeNames, (md.DefineTypeRefByName scope entry.2).isSome = true

/-- The result is right for what is returned: there is a token exactly if that is a value type or a
type variable, and the token denotes it. -/
def Correct (ret : SlotSig) : Except Stop mdToken → Prop
  | .ok token => ret.unboxed = true ∧ md.tokenSignature token = md.slotSignature ret
  | .error .returnsFalse => ret.unboxed = false
  | .error _ => False

end CallSiteMetadata

/-! ## What is found -/

/-- The parser steps over the type wherever it stands. -/
def TypeSig.Taken (t : TypeSig) : Prop := ∀ rest, parseType (t.bytes ++ rest) = .ok rest

/-- The parser does not accept the type wherever it stands. -/
def TypeSig.Refused (t : TypeSig) : Prop :=
  ∀ rest, parseType (t.bytes ++ rest) = .error .returnsFalse

/-- What an argument is read as: as nothing if it is not unboxed, or if it is an instance of a
generic value type that the parser does not accept. -/
inductive ReadsAs : TypeSig → Option TypeSig → Prop
  | boxed {t : TypeSig} : t.unboxed = false → ReadsAs t none
  | refused {token : mdToken} {args : List TypeSig} :
      (TypeSig.generic true token args).Refused → ReadsAs (.generic true token args) none
  | token {t : TypeSig} : t.unboxed = true →
      (∀ token args, t = .generic true token args → t.Taken) → ReadsAs t (some t)

/-- What is found at the index of some arguments. -/
inductive Finds : List TypeSig → Nat → Option TypeSig → Prop
  | behind (n : Nat) : Finds [] n none
  | here {t : TypeSig} {ts : List TypeSig} {found : Option TypeSig} :
      ReadsAs t found → Finds (t :: ts) 0 found
  | next {t : TypeSig} {ts : List TypeSig} {n : Nat} {found : Option TypeSig} :
      t.Taken → Finds ts n found → Finds (t :: ts) (n + 1) found
  | refused {t : TypeSig} {ts : List TypeSig} {n : Nat} :
      t.Refused → Finds (t :: ts) (n + 1) none

/-- What is found is the argument, and not as a variable whose number takes more than a byte. -/
def CallSiteMetadata.Agrees (md : CallSiteMetadata) (found : Option TypeSig) (arg : TypeSig) :
    Prop :=
  match found with
  | none => arg.unboxed = false
  | some t => arg.unboxed = true ∧ md.signature t = md.signature arg ∧
      ∀ ofMethod n, t = .typeVariable ofMethod n → n < 0x80

/-! ## Reading one type -/

/-- The signature of the token for a type that is found: of a variable these are the first two
bytes. -/
def CallSiteMetadata.seenSignature (md : CallSiteMetadata) : TypeSig → List UInt8
  | .typeVariable ofMethod n => (TypeSig.typeVariable ofMethod n).bytes.take 2
  | t => md.signature t

/-- The result for what is found. -/
inductive Yields (md : CallSiteMetadata) : Option TypeSig → Except Stop mdToken → Prop
  | nothing : Yields md none (.error .returnsFalse)
  | token {t : TypeSig} {token : mdToken} :
      md.tokenSignature token = md.seenSignature t → Yields md (some t) (.ok token)

variable {md : CallSiteMetadata}

theorem Yields.eq_returnsFalse {result : Except Stop mdToken} (h : Yields md none result) :
    result = .error .returnsFalse := by
  cases h
  rfl

theorem numberBytes_small {n : Nat} (h : n < 0x80) : numberBytes n = [UInt8.ofNat n] := by
  rw [numberBytes, CorSigCompressData, if_pos (Nat.le_of_lt_succ h)]
  rfl

theorem tokenSignature_typeSpec {s : List UInt8} {token : mdToken}
    (h : md.GetTokenFromTypeSpec s = some token) : md.tokenSignature token = s := by
  obtain ⟨htable, hsignature⟩ := md.typeSpec_of_token s token h
  rw [CallSiteMetadata.tokenSignature, if_pos htable, hsignature]
  rfl

/-- Each name of the core library stands for one element type. -/
theorem managedTypeNames_inj : ∀ entry ∈ managedTypeNames,
    (managedTypeNames.find? fun other => other.2 == entry.2).map Prod.fst = some entry.1 :=
  forall_mem_of_all (by decide +kernel)

theorem tokenSignature_coreLibrary {scope token : mdToken} {entry : UInt8 × String}
    (hscope : md.GetCorLibAssemblyRef = some scope) (hentry : entry ∈ managedTypeNames)
    (h : md.DefineTypeRefByName scope entry.2 = some token) :
    md.tokenSignature token = [entry.1] := by
  obtain ⟨htable, hname⟩ := md.typeRef_of_name scope entry.2 token h
  have hspec : ¬TypeFromToken token = mdtTypeSpec := by
    rw [htable]
    decide
  have helement : md.elementTypeOf token = some entry.1 := by
    rw [CallSiteMetadata.elementTypeOf, hname]
    simp only
    rw [if_pos ⟨htable, hscope⟩]
    exact managedTypeNames_inj entry hentry
  rw [CallSiteMetadata.tokenSignature, if_neg hspec, helement]
  rfl

/-- The token for an element type of the core library. -/
theorem elementToken_of_lookup (hcore : md.HasCoreLibrary) {b : UInt8} (hb : b ≠ valueType)
    {name : String} (hname : managedTypeNames.lookup b = some name)
    (rest : List UInt8) :
    ∃ token, ReturnTypeTokenforValueTypeElementType md (b :: rest) = .ok token ∧
      md.tokenSignature token = [b] := by
  obtain ⟨scope, hscope, hnames⟩ := hcore
  obtain ⟨before, behind, hsplit, -⟩ := List.lookup_eq_some_iff.mp hname
  have hentry : (b, name) ∈ managedTypeNames := by
    rw [hsplit]
    exact List.mem_append_right _ List.mem_cons_self
  obtain ⟨token, htoken⟩ := Option.isSome_iff_exists.mp (hnames (b, name) hentry)
  refine ⟨token, ?_, tokenSignature_coreLibrary hscope hentry htoken⟩
  rw [ReturnTypeTokenforValueTypeElementType, if_neg hb, hname, hscope]
  simp only [succeeded, bind, Except.bind]
  rw [htoken]

/-- The simple types that are unboxed are those with a name. -/
theorem lookup_simple : ∀ b ∈ simpleTypes, b ≠ valueType ∧
    (managedTypeNames.lookup b).isSome = (b != string && b != object) :=
  forall_mem_of_all (by decide +kernel)

/-- The first byte of a type that is neither a variable nor an instance of a generic type. -/
theorem bytes_head_element {t : TypeSig} (hvariable : ∀ ofMethod n, t ≠ .typeVariable ofMethod n)
    (hgeneric : ∀ isValueType token args, t ≠ .generic isValueType token args) :
    ∃ b v, t.bytes = b :: v ∧ b ≠ mVar ∧ b ≠ var ∧ b ≠ genericInst ∧ b ≠ void := by
  have hsimple : ∀ b ∈ simpleTypes, b ≠ mVar ∧ b ≠ var ∧ b ≠ genericInst ∧ b ≠ void :=
    forall_mem_of_all (by decide)
  have hclass : ∀ isValueType, classByte isValueType ≠ mVar ∧ classByte isValueType ≠ var ∧
      classByte isValueType ≠ genericInst ∧ classByte isValueType ≠ void := by decide
  cases t with
  | primitive b simple => exact ⟨b, [], rfl, hsimple b simple⟩
  | named isValueType token => exact ⟨_, _, rfl, hclass isValueType⟩
  | typeVariable ofMethod n => exact absurd rfl (hvariable ofMethod n)
  | generic isValueType token args => exact absurd rfl (hgeneric isValueType token args)
  | szArray mods element => exact ⟨_, _, rfl, by decide⟩
  | array element shape => exact ⟨_, _, rfl, by decide⟩
  | ptr mods element => exact ⟨_, _, rfl, by decide⟩
  | voidPtr mods => exact ⟨_, _, rfl, by decide⟩
  | fnPtr callConv arity ret params varArgs => exact ⟨_, _, rfl, by decide⟩

namespace ReadsAs

variable {t : TypeSig} {found : Option TypeSig}

/-- What is not unboxed is read as nothing. -/
theorem eq_none (h : ReadsAs t found) (ht : t.unboxed = false) : found = none := by
  cases h with
  | boxed _ => rfl
  | refused _ => rfl
  | token hunboxed _ => exact absurd (ht.symm.trans hunboxed) (by decide)

/-- What is unboxed, and no instance of a generic type, is read as it is. -/
theorem eq_some (h : ReadsAs t found) (ht : t.unboxed = true)
    (hgeneric : ∀ isValueType token args, t ≠ .generic isValueType token args) :
    found = some t := by
  cases h with
  | boxed hboxed => exact absurd (hboxed.symm.trans ht) (by decide)
  | refused _ => exact absurd rfl (hgeneric true _ _)
  | token _ _ => rfl

/-- An instance of a generic type. -/
theorem generic_yields {isValueType : Bool} {token : mdToken} {args : List TypeSig}
    (h : ReadsAs (.generic isValueType token args) found)
    (htoken : (md.GetTokenFromTypeSpec
      (TypeSig.generic isValueType token args).bytes).isSome = true) (rest : List UInt8) :
    Yields md found
      (genericInstToken md ((TypeSig.generic isValueType token args).bytes ++ rest)) := by
  cases isValueType with
  | false =>
      obtain rfl := h.eq_none rfl
      exact Yields.nothing
  | true =>
      obtain ⟨v, hv⟩ : ∃ v, (TypeSig.generic true token args).bytes = genericInst :: valueType :: v :=
        ⟨_, rfl⟩
      have hread : ∀ r, parseType ((TypeSig.generic true token args).bytes ++ rest) = r →
          genericInstToken md ((TypeSig.generic true token args).bytes ++ rest) =
            r.bind fun p_end => succeeded (md.GetTokenFromTypeSpec
              (((TypeSig.generic true token args).bytes ++ rest).take
                (((TypeSig.generic true token args).bytes ++ rest).length - p_end.length))) := by
        rintro r rfl
        rw [hv]
        rfl
      cases h with
      | boxed hboxed => cases hboxed
      | refused hrefused =>
          rw [hread _ (hrefused rest)]
          exact Yields.nothing
      | token _ htaken =>
          obtain ⟨found, hfound⟩ := Option.isSome_iff_exists.mp htoken
          rw [hread _ (htaken token args rfl rest)]
          simp only [Except.bind]
          rw [List.length_append, Nat.add_sub_cancel, List.take_left, hfound]
          exact Yields.token (tokenSignature_typeSpec hfound)

/-- A type that is neither a variable nor an instance of a generic type. -/
theorem element_yields (h : ReadsAs t found) (hwf : t.WellFormed)
    (hcore : md.HasCoreLibrary)
    (hvariable : ∀ ofMethod n, t ≠ .typeVariable ofMethod n)
    (hgeneric : ∀ isValueType token args, t ≠ .generic isValueType token args)
    (rest : List UInt8) :
    Yields md found (ReturnTypeTokenforValueTypeElementType md (t.bytes ++ rest)) := by
  cases t with
  | primitive b simple =>
      obtain ⟨hb, hnamed⟩ := lookup_simple b simple
      rw [TypeSig.bytes, List.singleton_append]
      cases hname : managedTypeNames.lookup b with
      | none =>
          rw [hname] at hnamed
          obtain rfl := h.eq_none hnamed.symm
          rw [ReturnTypeTokenforValueTypeElementType, if_neg hb, hname]
          exact Yields.nothing
      | some name =>
          rw [hname] at hnamed
          obtain rfl := h.eq_some hnamed.symm hgeneric
          obtain ⟨token, htoken, hsignature⟩ := elementToken_of_lookup hcore hb hname rest
          rw [htoken]
          exact Yields.token hsignature
  | named isValueType token =>
      cases isValueType with
      | false =>
          obtain rfl := h.eq_none rfl
          exact Yields.nothing
      | true =>
          obtain rfl := h.eq_some rfl hgeneric
          have hread : ReturnTypeTokenforValueTypeElementType md
              ((TypeSig.named true token).bytes ++ rest) =
                (parseNumber (tokenBytes token ++ rest)).map fun r => uncompressedToken r.1 := rfl
          rw [hread, parseNumber_append (encodes_compress (tokenBytes_eq token))]
          simp only [Except.map]
          rw [uncompressedToken_encodedToken hwf]
          exact Yields.token rfl
  | typeVariable ofMethod n => exact absurd rfl (hvariable ofMethod n)
  | generic isValueType token args => exact absurd rfl (hgeneric isValueType token args)
  | szArray mods element =>
      obtain rfl := h.eq_none rfl
      exact Yields.nothing
  | array element shape =>
      obtain rfl := h.eq_none rfl
      exact Yields.nothing
  | ptr mods element =>
      obtain rfl := h.eq_none rfl
      exact Yields.nothing
  | voidPtr mods =>
      obtain rfl := h.eq_none rfl
      exact Yields.nothing
  | fnPtr callConv arity ret params varArgs =>
      obtain rfl := h.eq_none rfl
      exact Yields.nothing

/-- An argument. -/
theorem argument_yields (h : ReadsAs t found) (hwf : t.WellFormed)
    (hcore : md.HasCoreLibrary)
    (htoken : (md.GetTokenFromTypeSpec t.bytes).isSome = true)
    (htwo : (md.GetTokenFromTypeSpec (t.bytes.take 2)).isSome = true) (rest : List UInt8) :
    Yields md found (readArgument md (t.bytes ++ rest)) := by
  by_cases hvariable : ∃ ofMethod n, t = .typeVariable ofMethod n
  · obtain ⟨ofMethod, n, rfl⟩ := hvariable
    obtain rfl := h.eq_some rfl fun _ _ _ h => by cases h
    obtain ⟨m, w, hnumber⟩ := List.exists_cons_of_ne_nil (encodes_numberBytes hwf).ne_nil
    have hbytes : (TypeSig.typeVariable ofMethod n).bytes = variableByte ofMethod :: m :: w := by
      rw [TypeSig.bytes, hnumber]
    obtain ⟨token, hspec⟩ := Option.isSome_iff_exists.mp htwo
    rw [hbytes] at hspec
    have hmember : variableByte ofMethod = mVar ∨ variableByte ofMethod = var := by
      cases ofMethod with
      | false => exact Or.inr rfl
      | true => exact Or.inl rfl
    rw [hbytes, List.cons_append, List.cons_append, readArgument, if_pos hmember]
    have hpair : [variableByte ofMethod, m] = (variableByte ofMethod :: m :: w).take 2 := rfl
    rw [hpair, hspec]
    refine Yields.token ?_
    rw [CallSiteMetadata.seenSignature, hbytes]
    exact tokenSignature_typeSpec hspec
  by_cases hgeneric : ∃ isValueType token args, t = .generic isValueType token args
  · obtain ⟨isValueType, token, args, rfl⟩ := hgeneric
    have hread : readArgument md ((TypeSig.generic isValueType token args).bytes ++ rest) =
        genericInstToken md ((TypeSig.generic isValueType token args).bytes ++ rest) := rfl
    rw [hread]
    exact h.generic_yields htoken rest
  have hvariable : ∀ ofMethod n, t ≠ .typeVariable ofMethod n :=
    fun ofMethod n h => hvariable ⟨ofMethod, n, h⟩
  have hgeneric : ∀ isValueType token args, t ≠ .generic isValueType token args :=
    fun isValueType token args h => hgeneric ⟨isValueType, token, args, h⟩
  have hyields := h.element_yields hwf hcore hvariable hgeneric rest
  obtain ⟨b, v, hbytes, hb⟩ := bytes_head_element hvariable hgeneric
  rw [hbytes, List.cons_append] at hyields ⊢
  rw [readArgument.eq_def]
  simp only
  rw [if_neg (not_or.mpr ⟨hb.1, hb.2.1⟩), if_neg hb.2.2.1]
  exact hyields

end ReadsAs

/-! ## Selecting an argument -/

namespace Finds

variable {ts : List TypeSig} {n : Nat} {found : Option TypeSig}

theorem mem {t : TypeSig} (h : Finds ts n (some t)) : t ∈ ts := by
  generalize hfound : some t = found at h
  induction h with
  | behind n => cases hfound
  | here hreads =>
      subst hfound
      cases hreads with
      | token _ _ => exact List.mem_cons_self
  | next _ _ ih => exact List.mem_cons_of_mem _ (ih hfound)
  | refused _ => cases hfound

/-- **The loop** yields what is found at the index. -/
theorem yields (h : Finds ts n found) (hwf : TypeSig.AllWellFormed ts) (hcore : md.HasCoreLibrary)
    (htokens : ∀ t ∈ ts, (md.GetTokenFromTypeSpec t.bytes).isSome = true ∧
      (md.GetTokenFromTypeSpec (t.bytes.take 2)).isSome = true) (rest : List UInt8) :
    Yields md found (selectArgument md ts.length n (TypeSig.bytesAll ts ++ rest)) := by
  induction h with
  | behind n => exact Yields.nothing
  | here hreads =>
      rw [TypeSig.bytesAll, List.append_assoc, List.length_cons, selectArgument]
      obtain ⟨htoken, htwo⟩ := htokens _ List.mem_cons_self
      exact hreads.argument_yields hwf.1 hcore htoken htwo _
  | next htaken _ ih =>
      rw [TypeSig.bytesAll, List.append_assoc, List.length_cons, selectArgument, htaken]
      exact ih hwf.2 fun t ht => htokens t (List.mem_cons_of_mem _ ht)
  | refused hrefused =>
      rw [TypeSig.bytesAll, List.append_assoc, List.length_cons, selectArgument, hrefused]
      exact Yields.nothing

end Finds

/-- Without function pointers the parser steps over a type, or it does not accept it. -/
theorem taken_or_refused {t : TypeSig} (hwf : t.WellFormed) (hplain : t.Plain) :
    t.Taken ∨ t.Refused := by
  cases hreadable : t.noNativeInt with
  | true =>
      left
      intro rest
      rw [parseType_bytes hwf hplain, hreadable]
      rfl
  | false =>
      right
      intro rest
      rw [parseType_bytes hwf hplain, hreadable]
      rfl

theorem exists_readsAs {t : TypeSig} (hwf : t.WellFormed) (hplain : t.Plain) :
    ∃ found, ReadsAs t found := by
  cases hunboxed : t.unboxed with
  | false => exact ⟨none, ReadsAs.boxed hunboxed⟩
  | true =>
      by_cases hgeneric : ∃ token args, t = .generic true token args
      · obtain ⟨token, args, rfl⟩ := hgeneric
        rcases taken_or_refused hwf hplain with htaken | hrefused
        · exact ⟨_, ReadsAs.token rfl fun _ _ _ => htaken⟩
        · exact ⟨none, ReadsAs.refused hrefused⟩
      · exact ⟨_, ReadsAs.token hunboxed fun token args h => absurd ⟨token, args, h⟩ hgeneric⟩

/-- Without function pointers something is found, or there is nothing. -/
theorem exists_finds {ts : List TypeSig} (hwf : TypeSig.AllWellFormed ts)
    (hplain : ∀ t ∈ ts, t.Plain) (n : Nat) : ∃ found, Finds ts n found := by
  induction ts generalizing n with
  | nil => exact ⟨none, Finds.behind n⟩
  | cons t ts ih =>
      have ht := hplain t List.mem_cons_self
      cases n with
      | zero =>
          obtain ⟨found, hreads⟩ := exists_readsAs hwf.1 ht
          exact ⟨found, Finds.here hreads⟩
      | succ n =>
          rcases taken_or_refused hwf.1 ht with htaken | hrefused
          · obtain ⟨found, hfinds⟩ := ih hwf.2 (fun t ht => hplain t (List.mem_cons_of_mem _ ht)) n
            exact ⟨found, Finds.next htaken hfinds⟩
          · exact ⟨none, Finds.refused hrefused⟩

/-! ## The result for an argument -/

theorem elementTypeOf_mem {token : mdToken} {b : UInt8} (h : md.elementTypeOf token = some b) :
    ∃ name, (b, name) ∈ managedTypeNames := by
  rw [CallSiteMetadata.elementTypeOf] at h
  split at h
  · cases h
  · split at h
    · obtain ⟨⟨b', name⟩, hfind, rfl⟩ := Option.map_eq_some_iff.mp h
      exact ⟨name, List.mem_of_find?_eq_some hfind⟩
    · cases h

/-- Only the signatures of variables start as such. -/
theorem signature_head {t : TypeSig} (hwf : t.WellFormed)
    (hvariable : ∀ ofMethod n, t ≠ .typeVariable ofMethod n) :
    ∃ b v, md.signature t = b :: v ∧ b ≠ mVar ∧ b ≠ var := by
  by_cases hgeneric : ∃ isValueType token args, t = .generic isValueType token args
  · obtain ⟨isValueType, token, args, rfl⟩ := hgeneric
    exact ⟨genericInst, _, rfl, by decide, by decide⟩
  by_cases hnamed : ∃ token, t = .named true token
  · obtain ⟨token, rfl⟩ := hnamed
    have hspec : TypeFromToken token ≠ mdtTypeSpec := by
      rcases hwf with hdef | href
      · rw [hdef]
        decide
      · rw [href]
        decide
    have hnames : ∀ entry ∈ managedTypeNames, entry.1 ≠ mVar ∧ entry.1 ≠ var :=
      forall_mem_of_all (by decide)
    rw [CallSiteMetadata.signature, CallSiteMetadata.tokenSignature, if_neg hspec]
    cases helement : md.elementTypeOf token with
    | none => exact ⟨valueType, _, rfl, by decide, by decide⟩
    | some b =>
        obtain ⟨name, hmem⟩ := elementTypeOf_mem helement
        exact ⟨b, [], rfl, hnames _ hmem⟩
  · have hsignature : md.signature t = t.bytes :=
      CallSiteMetadata.signature.eq_2 md t fun token h => hnamed ⟨token, h⟩
    obtain ⟨b, v, hbytes, hb⟩ := bytes_head_element hvariable
      fun isValueType token args h => hgeneric ⟨isValueType, token, args, h⟩
    exact ⟨b, v, hsignature.trans hbytes, hb.1, hb.2.1⟩

/-- Two bytes are the whole signature of a variable if its number takes one. -/
theorem seenSignature_variable {ofMethod : Bool} {n : Nat} (h : n < 0x80) :
    md.seenSignature (.typeVariable ofMethod n) = md.signature (.typeVariable ofMethod n) := by
  have hbytes : (TypeSig.typeVariable ofMethod n).bytes =
      [variableByte ofMethod, UInt8.ofNat n] := by
    rw [TypeSig.bytes, numberBytes_small h]
  show (TypeSig.typeVariable ofMethod n).bytes.take 2 = (TypeSig.typeVariable ofMethod n).bytes
  rw [hbytes]
  rfl

/-- If its number takes more, they are the signature of no type. -/
theorem seenSignature_ne {ofMethod : Bool} {n : Nat} (hfits : NumberFits n) (h : ¬n < 0x80)
    {arg : TypeSig} (hwf : arg.WellFormed) :
    md.seenSignature (.typeVariable ofMethod n) ≠ md.signature arg := by
  obtain ⟨c, w, hnumber⟩ := List.exists_cons_of_ne_nil (encodes_numberBytes hfits).ne_nil
  have hencodes := encodes_numberBytes hfits
  rw [hnumber] at hencodes
  have hc : ¬c < 0x80 := by
    intro hc
    obtain ⟨-, rfl⟩ := MethodSignature.encodes_one hencodes hc
    exact h (UInt8.lt_iff_toNat_lt.mp hc)
  have hseen : md.seenSignature (.typeVariable ofMethod n) = [variableByte ofMethod, c] := by
    show (TypeSig.typeVariable ofMethod n).bytes.take 2 = _
    rw [TypeSig.bytes, hnumber]
    rfl
  intro heq
  rw [hseen] at heq
  by_cases hvariable : ∃ ofMethod' k, arg = .typeVariable ofMethod' k
  · obtain ⟨ofMethod', k, rfl⟩ := hvariable
    have hencodes' := encodes_numberBytes hwf
    have hcons : [variableByte ofMethod, c] = variableByte ofMethod' :: numberBytes k := heq
    obtain ⟨-, htail⟩ := List.cons.inj hcons
    rw [← htail] at hencodes'
    exact hc ((MethodSignature.encodes_length_one_iff hencodes').mp rfl)
  · obtain ⟨b, v, hsignature, hm, hv⟩ : ∃ b v, md.signature arg = b :: v ∧ b ≠ mVar ∧ b ≠ var :=
      signature_head hwf fun ofMethod' k h => hvariable ⟨ofMethod', k, h⟩
    obtain ⟨hb, -⟩ := List.cons.inj (heq.trans hsignature)
    cases ofMethod with
    | false => exact hv hb.symm
    | true => exact hm hb.symm

/-- **The result for an argument** is right exactly if what is found agrees with it. -/
theorem Yields.correct_iff {found : Option TypeSig} {result : Except Stop mdToken}
    (h : Yields md found result) (hfound : ∀ t, found = some t → t.WellFormed)
    {mods : List CustomMod} {arg : TypeSig} (hwf : arg.WellFormed) :
    md.Correct (.type mods false arg) result ↔ md.Agrees found arg := by
  cases h with
  | nothing => exact Iff.rfl
  | @token t token hsignature =>
      have hcorrect : md.Correct (.type mods false arg) (.ok token) ↔
          arg.unboxed = true ∧ md.seenSignature t = md.signature arg := by
        rw [← hsignature]
        exact Iff.rfl
      rw [hcorrect]
      refine and_congr_right fun _ => ?_
      by_cases hvariable : ∃ ofMethod n, t = .typeVariable ofMethod n
      · obtain ⟨ofMethod, n, rfl⟩ := hvariable
        by_cases hn : n < 0x80
        · rw [seenSignature_variable hn]
          refine ⟨fun heq => ⟨heq, ?_⟩, And.left⟩
          rintro _ _ ⟨⟩
          exact hn
        · refine iff_of_false (seenSignature_ne (hfound _ rfl) hn hwf) ?_
          rintro ⟨-, hsmall⟩
          exact hn (hsmall ofMethod n rfl)
      · have hseen : md.seenSignature t = md.signature t :=
          CallSiteMetadata.seenSignature.eq_2 md t fun ofMethod n h => hvariable ⟨ofMethod, n, h⟩
        rw [hseen]
        refine ⟨fun heq => ⟨heq, ?_⟩, And.left⟩
        intro ofMethod n heq
        exact absurd ⟨ofMethod, n, heq⟩ hvariable

end DdTrace.Profiler.SigHelpers
