import DdTrace.Profiler.SignatureNames

/-!
# Structural names of types

Signatures as trees, with the bytes they are encoded as and the names their structure gives them:
the suffix of an array behind its element type, the arguments of a generic type in order between
its name and the bracket that closes it.

* `SigType`, `MethodSig`: the trees; `bytes` and `names`.
* `NestedName`: the name of a type with the types around it.
* `Printable`: the condition under which the loop names every type so.
* `tryParseSignatureTypes_names`: then it does.

The names of `CHAR`, `I` and `U` and the suffix of a `BYREF` are the ones of the other printer of
the same file, `GetSigTypeTokName`.

Source: `clr_helpers.cpp`, lines 1262 to 1404 and 486 to 789; `clr_helper_type_check_test.cpp`.
-/

namespace DdTrace.Profiler

open CorElementType DdTrace.Lib

/-! ## Trees -/

/-- A compressed number, with the bytes it is encoded as. -/
structure Compressed where
  /-- The bytes. -/
  bytes : List UInt8
  /-- The number. -/
  value : Nat
  /-- The bytes are an encoding of the number. -/
  encodes : Encodes bytes value

/-- A type of a signature. -/
inductive SigType
  /-- A type that is one byte. -/
  | primitive (b : UInt8) (simple : b ∈ simpleTypes)
  /-- `CLASS` or `VALUETYPE`. -/
  | named (valueType : Bool) (token : Compressed)
  /-- `SZARRAY`. -/
  | array (element : SigType)
  /-- `VAR`, or `MVAR` for the parameters of the method. -/
  | variable (ofMethod : Bool) (number : Compressed)
  /-- `GENERICINST`. -/
  | generic (valueType : Bool) (token count : Compressed) (arguments : List SigType)

/-- `VALUETYPE` or `CLASS`. -/
def classByte (isValueType : Bool) : UInt8 := if isValueType then valueType else class_

/-- `MVAR` or `VAR`. -/
def variableByte (ofMethod : Bool) : UInt8 := if ofMethod then mVar else var

/-- The name of a type that is one byte.
Source: `clr_helpers.cpp`, `GetSigTypeTokName` -/
def primitiveName (b : UInt8) : WString :=
  if b = char then "System.Char".toList
  else if b = i then "System.IntPtr".toList
  else if b = u then "System.UIntPtr".toList
  else (fixedName b).getD []

mutual

/-- The bytes of a type. -/
def SigType.bytes : SigType → List UInt8
  | .primitive b _ => [b]
  | .named isValueType token => classByte isValueType :: token.bytes
  | .array element => szArray :: element.bytes
  | .variable ofMethod number => variableByte ofMethod :: number.bytes
  | .generic isValueType token count arguments =>
      genericInst :: classByte isValueType ::
        (token.bytes ++ (count.bytes ++ SigType.bytesAll arguments))

/-- The bytes of types, one behind the other. -/
def SigType.bytesAll : List SigType → List UInt8
  | [] => []
  | t :: ts => t.bytes ++ SigType.bytesAll ts

end

mutual

/-- The structural name of a type, where `q` names the types of the metadata. -/
def SigType.name (q : Nat → WString) : SigType → WString
  | .primitive b _ => primitiveName b
  | .named _ token => q (tokenOf token.value)
  | .array element => element.name q ++ ['[', ']']
  | .variable _ _ => ['T']
  | .generic _ token _ arguments =>
      q (tokenOf token.value) ++ ['<'] ++ [',', ' '].intercalate (SigType.names q arguments) ++ ['>']

/-- The structural names of types. -/
def SigType.names (q : Nat → WString) : List SigType → List WString
  | [] => []
  | t :: ts => t.name q :: SigType.names q ts

end

mutual

/-- Each generic type counts its arguments. -/
def SigType.WellFormed : SigType → Prop
  | .primitive _ _ => True
  | .named _ _ => True
  | .array element => element.WellFormed
  | .variable _ _ => True
  | .generic _ _ count arguments =>
      count.value = arguments.length ∧ SigType.AllWellFormed arguments

/-- Each of the types is well-formed. -/
def SigType.AllWellFormed : List SigType → Prop
  | [] => True
  | t :: ts => t.WellFormed ∧ SigType.AllWellFormed ts

end

mutual

/-- The tokens of a type. -/
def SigType.tokens : SigType → List Nat
  | .primitive _ _ => []
  | .named _ token => [tokenOf token.value]
  | .array element => element.tokens
  | .variable _ _ => []
  | .generic _ token _ arguments => tokenOf token.value :: SigType.allTokens arguments

/-- The tokens of types. -/
def SigType.allTokens : List SigType → List Nat
  | [] => []
  | t :: ts => t.tokens ++ SigType.allTokens ts

end

/-- Is this type generic, or an array of a generic type? -/
def SigType.elementIsGeneric : SigType → Bool
  | .array element => element.elementIsGeneric
  | .generic _ _ _ _ => true
  | _ => false

/-- A parameter, or a return type other than `VOID`: `[BYREF] Type`. -/
structure SigParam where
  /-- Is there a `BYREF` before the type? -/
  isByRef : Bool
  /-- The type. -/
  type : SigType

namespace SigParam

/-- The bytes of a parameter. -/
def bytes (p : SigParam) : List UInt8 := if p.isByRef then byRef :: p.type.bytes else p.type.bytes

/-- The name of a parameter.
Source: `clr_helpers.cpp`, `GetSigTypeTokName` -/
def name (q : Nat → WString) (p : SigParam) : WString :=
  if p.isByRef then p.type.name q ++ ['&'] else p.type.name q

end SigParam

/-- The signature of a method. -/
structure MethodSig where
  /-- The calling convention. -/
  callConv : UInt8
  /-- The number of generic parameters, of a generic method. -/
  genParamCount : Option Compressed
  /-- The number of parameters. -/
  paramCount : Compressed
  /-- The return type; `none` for `VOID`. -/
  ret : Option SigParam
  /-- The parameters. -/
  params : List SigParam

namespace MethodSig

/-- The bytes of the counts. -/
def countBytes (s : MethodSig) : List UInt8 :=
  (s.genParamCount.elim [] Compressed.bytes) ++ s.paramCount.bytes

/-- The bytes of the return type. -/
def retBytes (s : MethodSig) : List UInt8 := s.ret.elim [void] SigParam.bytes

/-- The bytes of a signature. -/
def bytes (s : MethodSig) : List UInt8 :=
  s.callConv :: (s.countBytes ++ (s.retBytes ++ s.params.flatMap SigParam.bytes))

/-- The names of the return type and the parameters. -/
def names (q : Nat → WString) (s : MethodSig) : List WString :=
  s.ret.elim "System.Void".toList (SigParam.name q) :: s.params.map (SigParam.name q)

/-- The types of a signature. -/
def types (s : MethodSig) : List SigType :=
  s.ret.elim [] (fun p => [p.type]) ++ s.params.map SigParam.type

/-- The rules for a signature. -/
structure WellFormed (s : MethodSig) : Prop where
  /-- The calling convention says whether the method is generic. -/
  generic : s.callConv &&& callConvGeneric ≠ 0 ↔ s.genParamCount.isSome
  /-- A generic method has a generic parameter. -/
  arity : ∀ n ∈ s.genParamCount, n.value ≠ 0
  /-- There are as many parameters as the count says. -/
  params : s.paramCount.value = s.params.length
  /-- The types are well-formed. -/
  types : ∀ t ∈ s.types, t.WellFormed

end MethodSig

/-! ## Names of nested types -/

/-- The name of a type with the types around it, up to a name with a dot. -/
inductive NestedName (md : MetadataImport) : TypeInfo → WString → Prop
  /-- A name with a dot stands alone. -/
  | dotted {t : TypeInfo} : '.' ∈ t.name → NestedName md t t.name
  /-- No type is around. -/
  | outermost {t : TypeInfo} : '.' ∉ t.name → md.enclosing t.id = 0 → NestedName md t t.name
  /-- The type around comes first. -/
  | nested {t : TypeInfo} {outer : WString} : '.' ∉ t.name → md.enclosing t.id ≠ 0 →
      NestedName md (md.typeInfo (md.enclosing t.id)) outer →
      NestedName md t (outer ++ ('+' :: t.name))

theorem nestedTypeName_append {md : MetadataImport} {t : TypeInfo} {name : WString}
    (h : NestedName md t name) :
    ∃ n, ∀ fuel ≥ n, ∀ suffix,
      nestedTypeName md fuel t (t.name ++ suffix) = .ok (name ++ suffix) := by
  induction h with
  | dotted hdot =>
      refine ⟨1, fun fuel hfuel suffix => ?_⟩
      obtain ⟨fuel, rfl⟩ := Nat.exists_eq_add_of_le' hfuel
      rw [nestedTypeName, if_pos hdot]
  | outermost hdot houter =>
      refine ⟨1, fun fuel hfuel suffix => ?_⟩
      obtain ⟨fuel, rfl⟩ := Nat.exists_eq_add_of_le' hfuel
      rw [nestedTypeName, if_neg hdot, if_pos houter]
  | nested hdot houter _ ih =>
      obtain ⟨n, hn⟩ := ih
      refine ⟨n + 1, fun fuel hfuel suffix => ?_⟩
      obtain ⟨fuel, rfl⟩ := Nat.exists_eq_add_of_le' (Nat.le_trans (Nat.le_add_left 1 n) hfuel)
      have hle : n ≤ fuel := Nat.le_of_succ_le_succ hfuel
      rw [nestedTypeName, if_neg hdot, if_neg houter, ← List.cons_append, hn fuel hle,
        List.append_assoc]

/-- The loop over the types around a type finds its nested name. -/
theorem nestedTypeName_of_nestedName {md : MetadataImport} {t : TypeInfo} {name : WString}
    (h : NestedName md t name) :
    ∃ n, ∀ fuel ≥ n, nestedTypeName md fuel t t.name = .ok name := by
  obtain ⟨n, hn⟩ := nestedTypeName_append h
  refine ⟨n, fun fuel hfuel => ?_⟩
  have := hn fuel hfuel []
  rwa [List.append_nil, List.append_nil] at this

/-! ## The condition -/

/-- The bytes of a number behind its first are all zero; one byte is enough. -/
def Compressed.ZeroTail (c : Compressed) : Prop := ∀ b ∈ c.bytes.tail, b = 0

mutual

/-- The loop names this type by its structure. -/
def SigType.Printable (md : MetadataImport) (q : Nat → WString) : SigType → Prop
  | .primitive b _ => b ≠ char ∧ b ≠ i ∧ b ≠ u
  | .named _ _ => True
  | .array element => element.elementIsGeneric = false ∧ element.Printable md q
  | .variable _ number => number.ZeroTail
  | .generic _ token count arguments =>
      (md.typeInfo (tokenOf token.value)).name = q (tokenOf token.value) ∧
      genericArgCount (q (tokenOf token.value)) = some (arguments.length : Int) ∧
      arguments ≠ [] ∧ count.ZeroTail ∧ SigType.AllPrintable md q arguments

/-- The loop names each of the types by its structure. -/
def SigType.AllPrintable (md : MetadataImport) (q : Nat → WString) : List SigType → Prop
  | [] => True
  | t :: ts => t.Printable md q ∧ SigType.AllPrintable md q ts

end

/-- The loop names the types of this signature by their structure. -/
structure MethodSig.Printable (md : MetadataImport) (q : Nat → WString) (s : MethodSig) : Prop where
  /-- The number of arguments at its fixed place is the number of parameters. -/
  count : (MethodSignature.mk s.bytes).numberOfArguments = s.params.length
  /-- The place where the loop starts is not behind the counts. -/
  start : (namesStart s.bytes).currentIndex ≤ 1 + s.countBytes.length
  /-- What is left of the counts there is zero. -/
  zeros : ∀ b ∈ s.countBytes.drop ((namesStart s.bytes).currentIndex - 1), b = 0
  /-- There is no `BYREF`. -/
  byValue : (∀ p ∈ s.ret, p.isByRef = false) ∧ ∀ p ∈ s.params, p.isByRef = false
  /-- The types. -/
  types : ∀ t ∈ s.types, t.Printable md q

/-! ## Closing generic types -/

/-- Behind the last argument the generic type is closed, and stands for one type of the types
around it. -/
theorem closeGenerics_last (stack : List Int) (name : WString) :
    closeGenerics (1 :: decrementTop stack) name = closeGenerics stack (name ++ ['>']) := by
  rcases stack with _ | ⟨top, below⟩
  · rfl
  · rfl

/-- Behind an argument that is not the last there is a comma. -/
theorem closeGenerics_more (k : Nat) (stack : List Int) (name : WString) :
    closeGenerics (((k + 2 : Nat) : Int) :: stack) name =
      (((k + 1 : Nat) : Int) :: stack, name ++ [',', ' ']) := by
  have htop : ((k + 2 : Nat) : Int) - 1 = ((k + 1 : Nat) : Int) := by omega
  have hpos : ((k + 1 : Nat) : Int) > 0 := by omega
  have hne : ((k + 1 : Nat) : Int) ≠ 0 := by omega
  rw [closeGenerics, htop, if_pos hpos, unwindGenerics.eq_def]
  simp only [hne, if_false]

/-- The array suffix is part of the name that is finished. -/
theorem finishType_suffix (st : NamesState) :
    finishType st = finishType { st with
      appendToType := [], currentTypeName := st.currentTypeName ++ st.appendToType } := by
  unfold finishType
  by_cases h : st.appendToType = []
  · simp [h]
  · simp [h]

/-- Finishing a type does not look at the index. -/
theorem finishType_index {st st' : NamesState} (index : Nat) (h : finishType st = .ok st') :
    finishType { st with currentIndex := index } = .ok { st' with currentIndex := index } := by
  have hmap : finishType { st with currentIndex := index } =
      (finishType st).map fun s => { s with currentIndex := index } := by
    unfold finishType
    simp only
    split_ifs <;> rfl
  rw [hmap, h]
  rfl

/-- Behind an argument that is not the last the loop goes on. -/
theorem finishType_more {st : NamesState} {k : Nat} {stack : List Int}
    (hstack : st.genericArgStack = ((k + 2 : Nat) : Int) :: stack) (happend : st.appendToType = []) :
    finishType st = .ok { st with
      genericArgStack := ((k + 1 : Nat) : Int) :: stack
      currentTypeName := st.currentTypeName ++ [',', ' '] } := by
  unfold finishType
  simp only [happend, if_true, hstack, closeGenerics_more, ne_eq, reduceCtorEq, not_false_iff]

/-- Behind the last argument the generic type is finished. -/
theorem finishType_last (st : NamesState) {stack : List Int} (happend : st.appendToType = []) :
    finishType { st with genericArgStack := 1 :: decrementTop stack } =
      finishType { st with
        genericArgStack := stack, currentTypeName := st.currentTypeName ++ ['>'] } := by
  unfold finishType
  simp only [happend, if_true, closeGenerics_last]

/-- With no generic type open, the name is put down. -/
theorem finishType_top {st : NamesState} {done : List WString} {k : Nat}
    (hstack : st.genericArgStack = []) (happend : st.appendToType = [])
    (hnames : st.typeNames = done ++ List.replicate (k + 1) [])
    (hindex : st.currentTypeIndex = done.length) :
    finishType st = .ok { st with
      typeNames := (done ++ [st.currentTypeName]) ++ List.replicate k []
      currentTypeName := []
      currentTypeIndex := (done ++ [st.currentTypeName]).length } := by
  have hroom : ¬ st.currentTypeIndex ≥ st.typeNames.length := by
    rw [hnames, hindex, List.length_append, List.length_replicate]
    omega
  have hset : st.typeNames.set st.currentTypeIndex st.currentTypeName =
      (done ++ [st.currentTypeName]) ++ List.replicate k [] := by
    rw [hnames, hindex, List.set_append_right _ _ (Nat.le_refl _), Nat.sub_self,
      List.replicate_succ, List.set_cons_zero, List.append_assoc]
    rfl
  unfold finishType
  simp only [happend, if_true, hstack, closeGenerics, ne_eq, not_true_eq_false, if_false, hroom,
    hset, List.length_append, List.length_singleton]
  rw [hindex]

/-! ## Rounds of the loop -/

section Rounds

variable (md : MetadataImport) (fuel : Nat) (data : List UInt8)

/-- `n` rounds of the loop lead from the first state to the second. -/
def Takes (n : Nat) (st st' : NamesState) : Prop :=
  ∀ rounds, namesLoop md fuel data (rounds + n) st = namesLoop md fuel data rounds st'

variable {md fuel data}

theorem Takes.refl (st : NamesState) : Takes md fuel data 0 st st := fun _ => rfl

theorem Takes.trans {n m : Nat} {a b c : NamesState} (h : Takes md fuel data n a b)
    (h' : Takes md fuel data m b c) : Takes md fuel data (m + n) a c := by
  intro rounds
  rw [← Nat.add_assoc, h, h']

theorem lt_of_drop_eq {i : Nat} {b : UInt8} {v : List UInt8} (h : data.drop i = b :: v) :
    i < data.length := by
  have hlen := congrArg List.length h
  rw [List.length_drop, List.length_cons] at hlen
  omega

theorem byteAt_of_drop {i : Nat} {b : UInt8} {v : List UInt8} (h : data.drop i = b :: v) :
    byteAt data i = .ok b := by
  have hget : data[i]? = some b := by
    have hhead := congrArg List.head? h
    rwa [List.head?_drop, List.head?_cons] at hhead
  rw [byteAt, hget]

theorem drop_next {i : Nat} {b : UInt8} {v : List UInt8} (h : data.drop i = b :: v) :
    data.drop (i + 1) = v := by
  rw [← List.drop_drop, h, List.drop_one, List.tail_cons]

theorem drop_behind {i : Nat} {u v : List UInt8} (h : data.drop i = u ++ v) :
    data.drop (i + u.length) = v := by
  rw [← List.drop_drop, h, List.drop_left]

/-- One round. -/
theorem takes_one {st st' : NamesState} {b : UInt8} {v : List UInt8}
    (hdata : data.drop st.currentIndex = b :: v) (h : namesIteration md fuel data st = .ok st') :
    Takes md fuel data 1 st { st' with currentIndex := st'.currentIndex + 1 } := by
  intro rounds
  rw [namesLoop, if_pos (lt_of_drop_eq hdata), h]
  rfl

/-- The loop steps over zero bytes. -/
theorem takes_zeros (st : NamesState) {zeros v : List UInt8} (hzero : ∀ b ∈ zeros, b = 0)
    (hdata : data.drop st.currentIndex = zeros ++ v) :
    Takes md fuel data zeros.length st
      { st with currentIndex := st.currentIndex + zeros.length } := by
  induction zeros generalizing st with
  | nil => exact Takes.refl st
  | cons b zeros ih =>
      rw [List.forall_mem_cons] at hzero
      obtain ⟨rfl, hzero⟩ := hzero
      have hround : namesIteration md fuel data st = .ok st := by
        rw [namesIteration, byteAt_of_drop hdata]
        rfl
      have hfirst := takes_one hdata hround
      have hrest := ih { st with currentIndex := st.currentIndex + 1 } hzero (drop_next hdata)
      have hboth := hfirst.trans hrest
      rw [List.length_cons]
      rwa [Nat.add_assoc, Nat.add_comm 1] at hboth

theorem medium_iff (b : UInt8) : 0x80 ≤ b → (b &&& 0xC0 = 0x80 ↔ b < 0xC0) := by
  revert b
  exact forall_byte (by decide +kernel)

theorem large_of_range (b : UInt8) : 0xC0 ≤ b → b < 0xE0 → b &&& 0xE0 = 0xC0 := by
  revert b
  exact forall_byte (by decide +kernel)

/-- A compressed number is read back. -/
theorem corSigUncompressData_of_encodes {i k : Nat} {w v : List UInt8} (hw : Encodes w k)
    (hdata : data.drop i = w ++ v) : corSigUncompressData data i = .ok (k, w.length) := by
  cases hw with
  | one b hb =>
      rw [corSigUncompressData, byteAt_of_drop hdata]
      change (if b &&& 0x80 = 0 then _ else _) = _
      rw [if_pos ((oneByte_iff b).mpr hb)]
      rfl
  | two b₁ b₂ h80 hC0 =>
      have hone : ¬ b₁ &&& 0x80 = 0 := fun h => UInt8.not_lt.mpr h80 ((oneByte_iff b₁).mp h)
      rw [corSigUncompressData, byteAt_of_drop hdata]
      change (if b₁ &&& 0x80 = 0 then _ else if b₁ &&& 0xC0 = 0x80 then _ else _) = _
      rw [if_neg hone, if_pos (medium_iff b₁ h80 |>.mpr hC0), byteAt_of_drop (drop_next hdata)]
      change Except.ok (_, 2) = _
      rw [join_two, and_mask_two b₁ h80 hC0]
      rfl
  | four b₁ b₂ b₃ b₄ hC0 hE0 =>
      have h80 : 0x80 ≤ b₁ := UInt8.le_trans (by decide) hC0
      have hone : ¬ b₁ &&& 0x80 = 0 := fun h => UInt8.not_lt.mpr h80 ((oneByte_iff b₁).mp h)
      have htwo : ¬ b₁ &&& 0xC0 = 0x80 := fun h => UInt8.not_lt.mpr hC0 ((medium_iff b₁ h80).mp h)
      have h₂ : data.drop (i + 1) = b₂ :: (b₃ :: b₄ :: v) := drop_next hdata
      have h₃ : data.drop (i + 2) = b₃ :: (b₄ :: v) := drop_next h₂
      have h₄ : data.drop (i + 3) = b₄ :: v := drop_next h₃
      rw [corSigUncompressData, byteAt_of_drop hdata]
      change (if b₁ &&& 0x80 = 0 then _ else if b₁ &&& 0xC0 = 0x80 then _ else
        if b₁ &&& 0xE0 = 0xC0 then _ else _) = _
      rw [if_neg hone, if_neg htwo, if_pos (large_of_range b₁ hC0 hE0), byteAt_of_drop h₂,
        byteAt_of_drop h₃, byteAt_of_drop h₄]
      change Except.ok (_, 4) = _
      rw [join_four, and_mask_four b₁ hC0 hE0]
      rfl

/-- A token is read back, with the type it stands for. -/
theorem retrieveType_of_encodes {i k : Nat} {w v : List UInt8} (hw : Encodes w k)
    (hdata : data.drop i = w ++ v) :
    retrieveTypeForSignature md data i = .ok (md.typeInfo (tokenOf k), w.length) := by
  rw [retrieveTypeForSignature, corSigUncompressToken, corSigUncompressData_of_encodes hw hdata]
  rfl

/-- From `st` on, the loop reads the bytes `w` and finishes a type with the name `name`. -/
def Reads (md : MetadataImport) (fuel : Nat) (data : List UInt8) (st : NamesState)
    (w : List UInt8) (name : WString) : Prop :=
  ∀ v st', data.drop st.currentIndex = w ++ v →
    finishType { st with currentTypeName := st.currentTypeName ++ name } = .ok st' →
    ∃ n ≤ w.length, Takes md fuel data n st
      { st' with currentIndex := st.currentIndex + w.length }

/-- A round that finishes a type at the index of its last byte. -/
theorem reads_of_round {st : NamesState} {b : UInt8} {w : List UInt8} {name : WString}
    (hround : ∀ v, data.drop st.currentIndex = b :: w ++ v → namesIteration md fuel data st =
      finishType { st with
        currentIndex := st.currentIndex + w.length, currentTypeName := st.currentTypeName ++ name }) :
    Reads md fuel data st (b :: w) name := by
  intro v st' hdata hfin
  have hmoved := finishType_index (st.currentIndex + w.length) hfin
  have htakes := takes_one hdata ((hround v hdata).trans hmoved)
  exact ⟨1, Nat.succ_le_succ (Nat.zero_le _), htakes⟩

/-! ## Types -/

theorem fixedName_of_simple : ∀ b ∈ simpleTypes,
    b ≠ char ∧ b ≠ i ∧ b ≠ u → fixedName b = some (primitiveName b) :=
  forall_mem_of_all (by decide)

theorem reads_primitive (st : NamesState) {b : UInt8} (hb : b ∈ simpleTypes)
    (hname : b ≠ char ∧ b ≠ i ∧ b ≠ u) : Reads md fuel data st [b] (primitiveName b) := by
  refine reads_of_round fun v hdata => ?_
  rw [namesIteration, byteAt_of_drop hdata]
  simp only [bind, Except.bind, fixedName_of_simple b hb hname]
  rfl

theorem reads_named (st : NamesState) (isValueType : Bool) (token : Compressed) {name : WString}
    (hname : nestedTypeName md fuel (md.typeInfo (tokenOf token.value))
      (md.typeInfo (tokenOf token.value)).name = .ok name) :
    Reads md fuel data st (classByte isValueType :: token.bytes) name := by
  refine reads_of_round fun v hdata => ?_
  have hcase : namesIteration md fuel data st = namedType md fuel data st := by
    rw [namesIteration, byteAt_of_drop hdata]
    cases isValueType with
    | true => rfl
    | false => rfl
  have htoken : 1 ≤ token.bytes.length := List.length_pos_iff.mpr token.encodes.ne_nil
  rw [hcase, namedType, retrieveType_of_encodes token.encodes (drop_next hdata)]
  change (do
    let name ← nestedTypeName md fuel (md.typeInfo (tokenOf token.value))
      (md.typeInfo (tokenOf token.value)).name
    finishType _) = _
  rw [hname]
  change finishType { st with
    currentIndex := st.currentIndex + 1 + (token.bytes.length - 1)
    currentTypeName := _ } = _
  rw [Nat.add_assoc, Nat.add_sub_cancel' htoken]

/-- A number is read up to its first byte; the zero bytes behind that are stepped over. -/
theorem reads_variable (st : NamesState) (ofMethod : Bool) (number : Compressed)
    (hzero : number.ZeroTail) :
    Reads md fuel data st (variableByte ofMethod :: number.bytes) ['T'] := by
  intro v st' hdata hfin
  rcases hbytes : number.bytes with _ | ⟨c, zeros⟩
  · exact absurd hbytes number.encodes.ne_nil
  rw [hbytes] at hdata
  have hzeros : ∀ b ∈ zeros, b = 0 := by
    intro b hb
    refine hzero b ?_
    rw [hbytes]
    exact hb
  have htoken : corSigUncompressToken data st.currentIndex =
      .ok (tokenOf (variableByte ofMethod).toNat, 1) := by
    have hone : Encodes [variableByte ofMethod] (variableByte ofMethod).toNat := by
      refine .one _ ?_
      cases ofMethod with
      | true => decide
      | false => decide
    rw [corSigUncompressToken, corSigUncompressData_of_encodes hone hdata]
    rfl
  have hround : namesIteration md fuel data st = .ok { st' with
      currentIndex := st.currentIndex + 1 } := by
    have hcase : namesIteration md fuel data st = variableType data st := by
      rw [namesIteration, byteAt_of_drop hdata]
      cases ofMethod with
      | true => rfl
      | false => rfl
    rw [hcase, variableType, htoken]
    exact finishType_index (st.currentIndex + 1) hfin
  have hfirst := takes_one hdata hround
  have hrest : Takes md fuel data _ _ _ := takes_zeros
    { st' with currentIndex := st.currentIndex + 1 + 1 } hzeros (drop_next (drop_next hdata))
  refine ⟨zeros.length + 1, by simp, ?_⟩
  have hindex : st.currentIndex + (variableByte ofMethod :: c :: zeros).length =
      st.currentIndex + 1 + 1 + zeros.length := by
    simp only [List.length_cons]
    omega
  rw [hindex]
  exact hfirst.trans hrest

end Rounds

/-! ## Arrays -/

/-- How many `SZARRAY` a type starts with. -/
def SigType.depth : SigType → Nat
  | .array element => element.depth + 1
  | _ => 0

/-- The type behind them. -/
def SigType.core : SigType → SigType
  | .array element => element.core
  | t => t

/-- The suffix of an array of arrays. -/
def brackets (n : Nat) : WString := (List.replicate n ['[', ']']).flatten

theorem brackets_succ (n : Nat) : brackets (n + 1) = ['[', ']'] ++ brackets n := by
  rw [brackets, List.replicate_succ, List.flatten_cons]
  rfl

theorem brackets_append (n : Nat) : brackets n ++ ['[', ']'] = brackets (n + 1) := by
  induction n with
  | zero => rfl
  | succ n ih => rw [brackets_succ, List.append_assoc, ih, ← brackets_succ]

theorem SigType.bytes_core : (t : SigType) →
    t.bytes = List.replicate t.depth szArray ++ t.core.bytes
  | .array element => by
      rw [bytes, SigType.bytes_core element, depth, core, List.replicate_succ, List.cons_append]
  | .primitive _ _ | .named _ _ | .variable _ _ | .generic _ _ _ _ => rfl

theorem SigType.name_core (q : Nat → WString) : (t : SigType) →
    t.name q = t.core.name q ++ brackets t.depth
  | .array element => by
      rw [name, SigType.name_core q element, depth, core, List.append_assoc, brackets_append]
  | .primitive _ _ | .named _ _ | .variable _ _ | .generic _ _ _ _ => (List.append_nil _).symm

/-- The core of a type is no array. -/
theorem SigType.core_head : (t : SigType) → ∃ b v, t.core.bytes = b :: v ∧ b ≠ szArray
  | .array element => by
      rw [core]
      exact element.core_head
  | .primitive b hb => by
      have hsimple : ∀ b ∈ simpleTypes, b ≠ szArray := forall_mem_of_all (by decide)
      exact ⟨b, [], rfl, hsimple b hb⟩
  | .named isValueType token => by
      refine ⟨_, _, rfl, ?_⟩
      cases isValueType with
      | true => decide
      | false => decide
  | .variable ofMethod number => by
      refine ⟨_, _, rfl, ?_⟩
      cases ofMethod with
      | true => decide
      | false => decide
  | .generic _ _ _ _ => ⟨_, _, rfl, by decide⟩

theorem skipArrays_replicate (n : Nat) {b : UInt8} (hb : b ≠ szArray) (v : List UInt8) (i : Nat)
    (suffix : WString) :
    skipArrays (List.replicate n szArray ++ b :: v) i suffix = .ok (i + n, suffix ++ brackets n) := by
  induction n generalizing i suffix with
  | zero =>
      rw [List.replicate_zero, List.nil_append, skipArrays, if_neg hb, brackets,
        List.replicate_zero, List.flatten_nil, List.append_nil]
      rfl
  | succ n ih =>
      rw [List.replicate_succ, List.cons_append, skipArrays, if_pos rfl, ih, brackets_succ,
        List.append_assoc, Nat.add_assoc, Nat.add_comm 1]

section Types

variable {md : MetadataImport} {q : Nat → WString} {fuel : Nat} {data : List UInt8}

/-- The types around the type with this token are found within the fuel. -/
def Resolved (md : MetadataImport) (q : Nat → WString) (fuel token : Nat) : Prop :=
  nestedTypeName md fuel (md.typeInfo token) (md.typeInfo token).name = .ok (q token)

/-- A type that is no array and not generic, also with an array suffix waiting. -/
theorem reads_core (st : NamesState) : (t : SigType) → t.elementIsGeneric = false →
    t.Printable md q → (∀ k ∈ t.tokens, Resolved md q fuel k) →
    Reads md fuel data st t.core.bytes (t.core.name q)
  | .primitive b hb, _, hprint, _ => reads_primitive st hb hprint
  | .named isValueType token, _, _, htokens =>
      reads_named st isValueType token (htokens _ (List.mem_singleton.mpr rfl))
  | .array element, helem, hprint, htokens =>
      reads_core st element helem hprint.2 htokens
  | .variable ofMethod number, _, hprint, _ => reads_variable st ofMethod number hprint
  | .generic _ _ _ _, helem, _, _ => by cases helem

/-- An array of anything but a generic type. -/
theorem reads_array (st : NamesState) (happend : st.appendToType = []) (element : SigType)
    (helem : element.elementIsGeneric = false) (hprint : element.Printable md q)
    (htokens : ∀ k ∈ element.tokens, Resolved md q fuel k) :
    Reads md fuel data st (SigType.array element).bytes ((SigType.array element).name q) := by
  intro v st' hall hfin
  have hdata : data.drop st.currentIndex = szArray :: (element.bytes ++ v) := hall
  obtain ⟨b, w, hcore, hb⟩ := element.core_head
  -- one round reads all the `SZARRAY` bytes
  have hskip : skipArrays (data.drop (st.currentIndex + 1)) st.currentIndex
      (st.appendToType ++ ['[', ']']) =
        .ok (st.currentIndex + element.depth, brackets (element.depth + 1)) := by
    have hrest : data.drop (st.currentIndex + 1) =
        List.replicate element.depth szArray ++ b :: (w ++ v) := by
      rw [drop_next hdata, element.bytes_core, hcore, List.append_assoc]
      rfl
    rw [hrest, skipArrays_replicate _ hb, happend, brackets_succ]
    rfl
  have hround : namesIteration md fuel data st = .ok { st with
      currentIndex := st.currentIndex + element.depth
      appendToType := brackets (element.depth + 1) } := by
    rw [namesIteration, byteAt_of_drop hdata]
    change arrayType data st = _
    rw [arrayType, hskip]
    rfl
  have hfirst := takes_one hdata hround
  -- the suffix waits for the name of the core
  have hcoreData : data.drop (st.currentIndex + element.depth + 1) = element.core.bytes ++ v := by
    have hrest : data.drop (st.currentIndex + 1) =
        List.replicate element.depth szArray ++ (element.core.bytes ++ v) := by
      rw [drop_next hdata, element.bytes_core, List.append_assoc]
    have hbehind := drop_behind hrest
    rw [List.length_replicate, Nat.add_right_comm] at hbehind
    exact hbehind
  have hname : (SigType.array element).name q =
      element.core.name q ++ brackets (element.depth + 1) := (SigType.array element).name_core q
  have hcoreFin : finishType { st with
      currentIndex := st.currentIndex + element.depth + 1
      appendToType := brackets (element.depth + 1)
      currentTypeName := st.currentTypeName ++ element.core.name q } =
        .ok { st' with currentIndex := st.currentIndex + element.depth + 1 } := by
    rw [finishType_suffix]
    rw [hname, ← List.append_assoc] at hfin
    have hmoved := finishType_index (st.currentIndex + element.depth + 1) hfin
    rwa [happend] at hmoved
  obtain ⟨n, hn, hrest⟩ := reads_core { st with
      currentIndex := st.currentIndex + element.depth + 1
      appendToType := brackets (element.depth + 1) }
    element helem hprint htokens v _ hcoreData hcoreFin
  have hlength : (SigType.array element).bytes.length =
      element.depth + 1 + element.core.bytes.length := by
    rw [SigType.bytes, List.length_cons, element.bytes_core, List.length_append,
      List.length_replicate]
    omega
  refine ⟨n + 1, by omega, ?_⟩
  rw [hlength, ← Nat.add_assoc, ← Nat.add_assoc]
  exact hfirst.trans hrest

/-! ## Generic types -/

mutual

/-- **Types.** From a state in which no suffix waits, the loop reads a type and finishes it under
its structural name. -/
theorem reads_type (st : NamesState) (happend : st.appendToType = []) : (t : SigType) →
    t.WellFormed → t.Printable md q → (∀ k ∈ t.tokens, Resolved md q fuel k) →
    Reads md fuel data st t.bytes (t.name q)
  | .primitive b hb, _, hprint, _ => reads_primitive st hb hprint
  | .named isValueType token, _, _, htokens =>
      reads_named st isValueType token (htokens _ (List.mem_singleton.mpr rfl))
  | .array element, _, hprint, htokens =>
      reads_array st happend element hprint.1 hprint.2 htokens
  | .variable ofMethod number, _, hprint, _ => reads_variable st ofMethod number hprint
  | .generic isValueType token count arguments, hwf, hprint, htokens => by
      intro v st' hall hfin
      obtain ⟨hname, hcount, hne, hzero, hargs⟩ := hprint
      have hdata : data.drop st.currentIndex = genericInst :: classByte isValueType ::
          (token.bytes ++ (count.bytes ++ (SigType.bytesAll arguments ++ v))) := by
        rw [hall, SigType.bytes, List.cons_append, List.cons_append, List.append_assoc,
          List.append_assoc]
      have htokenData := drop_next (drop_next hdata)
      rcases hbytes : count.bytes with _ | ⟨c, zeros⟩
      · exact absurd hbytes count.encodes.ne_nil
      have hzeros : ∀ b ∈ zeros, b = 0 := by
        intro b hb
        refine hzero b ?_
        rw [hbytes]
        exact hb
      have hround : namesIteration md fuel data st = .ok { st with
          currentIndex := st.currentIndex + 1 + 1 + token.bytes.length
          currentTypeName := st.currentTypeName ++ q (tokenOf token.value) ++ ['<']
          genericArgStack := (arguments.length : Int) :: decrementTop st.genericArgStack } := by
        rw [namesIteration, byteAt_of_drop hdata]
        change genericType md data st = _
        rw [genericType, retrieveType_of_encodes token.encodes htokenData]
        change (match genericArgCount (md.typeInfo (tokenOf token.value)).name with
          | none => _ | some count => _) = _
        rw [hname, hcount]
        rfl
      have hcountData := drop_behind htokenData
      rw [hbytes] at hcountData
      have hfirst := takes_one hdata hround
      have hsecond : Takes md fuel data _ _ _ := takes_zeros { st with
          currentIndex := st.currentIndex + 1 + 1 + token.bytes.length + 1
          currentTypeName := st.currentTypeName ++ q (tokenOf token.value) ++ ['<']
          genericArgStack := (arguments.length : Int) :: decrementTop st.genericArgStack }
        hzeros (drop_next hcountData)
      have hargsData := drop_behind (drop_next hcountData)
      have hjoined : st.currentTypeName ++ (SigType.generic isValueType token count arguments).name q =
          st.currentTypeName ++ q (tokenOf token.value) ++ ['<'] ++
            [',', ' '].intercalate (SigType.names q arguments) ++ ['>'] := by
        rw [SigType.name]
        simp only [List.append_assoc]
      rw [hjoined] at hfin
      have hmoved := finishType_index
        (st.currentIndex + 1 + 1 + token.bytes.length + 1 + zeros.length) hfin
      have hclosed := (finishType_last { st with
        currentIndex := st.currentIndex + 1 + 1 + token.bytes.length + 1 + zeros.length
        currentTypeName := st.currentTypeName ++ q (tokenOf token.value) ++ ['<'] ++
          [',', ' '].intercalate (SigType.names q arguments) } happend).trans hmoved
      obtain ⟨n, hn, hthird⟩ := reads_arguments { st with
          currentIndex := st.currentIndex + 1 + 1 + token.bytes.length + 1 + zeros.length
          currentTypeName := st.currentTypeName ++ q (tokenOf token.value) ++ ['<']
          genericArgStack := (arguments.length : Int) :: decrementTop st.genericArgStack }
        happend (decrementTop st.genericArgStack) arguments hne hwf.2 hargs
        (fun k hk => htokens k (List.mem_cons_of_mem _ hk)) rfl v _ hargsData hclosed
      have hlength : (SigType.generic isValueType token count arguments).bytes.length =
          1 + 1 + token.bytes.length + 1 + zeros.length +
            (SigType.bytesAll arguments).length := by
        rw [SigType.bytes, hbytes]
        simp only [List.length_cons, List.length_append]
        omega
      refine ⟨n + (zeros.length + 1), by omega, ?_⟩
      have hindex : st.currentIndex + (SigType.generic isValueType token count arguments).bytes.length =
          st.currentIndex + 1 + 1 + token.bytes.length + 1 + zeros.length +
            (SigType.bytesAll arguments).length := by
        omega
      rw [hindex]
      exact (hfirst.trans hsecond).trans hthird

/-- **Arguments.** From a state in which the arguments are the ones the top of the stack counts,
the loop reads them and finishes the generic type. -/
theorem reads_arguments (st : NamesState) (happend : st.appendToType = []) (stack : List Int) :
    (ts : List SigType) → ts ≠ [] → SigType.AllWellFormed ts → SigType.AllPrintable md q ts →
    (∀ k ∈ SigType.allTokens ts, Resolved md q fuel k) →
    st.genericArgStack = (ts.length : Int) :: stack →
    ∀ v st', data.drop st.currentIndex = SigType.bytesAll ts ++ v →
      finishType { st with
        genericArgStack := 1 :: stack
        currentTypeName := st.currentTypeName ++ [',', ' '].intercalate (SigType.names q ts) } =
          .ok st' →
      ∃ n ≤ (SigType.bytesAll ts).length, Takes md fuel data n st
        { st' with currentIndex := st.currentIndex + (SigType.bytesAll ts).length }
  | [], hne, _, _, _, _ => absurd rfl hne
  | [t], _, hwf, hprint, htokens, hstack => by
      intro v st' hdata hfin
      have hbytes : SigType.bytesAll [t] = t.bytes := List.append_nil _
      have htoken : ∀ k ∈ t.tokens, Resolved md q fuel k := by
        intro k hk
        exact htokens k (List.mem_append_left _ hk)
      have hone : [',', ' '].intercalate (SigType.names q [t]) = t.name q := by
        simp [SigType.names, List.intercalate]
      rw [hbytes] at hdata ⊢
      refine reads_type st happend t hwf.1 hprint.1 htoken v st' hdata ?_
      rw [hone] at hfin
      rw [← hfin]
      congr 1
      rw [hstack]
      rfl
  | t :: t' :: ts, _, hwf, hprint, htokens, hstack => by
      intro v st' hdata hfin
      have htoken : ∀ k ∈ t.tokens, Resolved md q fuel k := by
        intro k hk
        exact htokens k (List.mem_append_left _ hk)
      have htokenRest : ∀ k ∈ SigType.allTokens (t' :: ts), Resolved md q fuel k := by
        intro k hk
        exact htokens k (List.mem_append_right _ hk)
      have hall : data.drop st.currentIndex =
          t.bytes ++ (SigType.bytesAll (t' :: ts) ++ v) := by
        rw [hdata, SigType.bytesAll, List.append_assoc]
      have hmore : finishType { st with currentTypeName := st.currentTypeName ++ t.name q } =
          .ok { st with
            genericArgStack := ((ts.length + 1 : Nat) : Int) :: stack
            currentTypeName := st.currentTypeName ++ t.name q ++ [',', ' '] } :=
        finishType_more hstack happend
      obtain ⟨n, hn, hfirst⟩ := reads_type st happend t hwf.1 hprint.1 htoken _ _ hall hmore
      have hjoined : [',', ' '].intercalate (SigType.names q (t :: t' :: ts)) =
          t.name q ++ [',', ' '] ++ [',', ' '].intercalate (SigType.names q (t' :: ts)) := by
        simp [SigType.names, List.intercalate]
      rw [hjoined, ← List.append_assoc, ← List.append_assoc] at hfin
      have hmoved := finishType_index (st.currentIndex + t.bytes.length) hfin
      obtain ⟨m, hm, hsecond⟩ := reads_arguments { st with
          currentIndex := st.currentIndex + t.bytes.length
          genericArgStack := ((ts.length + 1 : Nat) : Int) :: stack
          currentTypeName := st.currentTypeName ++ t.name q ++ [',', ' '] }
        happend stack (t' :: ts) (List.cons_ne_nil t' ts) hwf.2 hprint.2 htokenRest rfl v _
        (drop_behind hall) hmoved
      have hlength : (SigType.bytesAll (t :: t' :: ts)).length =
          t.bytes.length + (SigType.bytesAll (t' :: ts)).length := by
        rw [SigType.bytesAll, List.length_append]
      refine ⟨m + n, by omega, ?_⟩
      rw [hlength, ← Nat.add_assoc]
      exact hfirst.trans hsecond

end

/-! ## Signatures -/

/-- The state behind some names, at an index. -/
def namesDone (done : List WString) (open_ index : Nat) : NamesState where
  currentIndex := index
  currentTypeIndex := done.length
  typeNames := done ++ List.replicate open_ []
  genericArgStack := []
  appendToType := []
  currentTypeName := []

/-- What is read with no generic type open is put down as the next name. -/
theorem takes_of_reads {done : List WString} {k index : Nat} {w v : List UInt8} {name : WString}
    (hreads : Reads md fuel data (namesDone done (k + 1) index) w name)
    (hdata : data.drop index = w ++ v) :
    ∃ n ≤ w.length, Takes md fuel data n (namesDone done (k + 1) index)
      (namesDone (done ++ [name]) k (index + w.length)) :=
  hreads v _ hdata (finishType_top rfl rfl rfl rfl)

/-- **Parameters.** The loop puts down one name for each parameter. -/
theorem takes_params (ps : List SigParam) (hbyValue : ∀ p ∈ ps, p.isByRef = false)
    (hwf : ∀ p ∈ ps, p.type.WellFormed) (hprint : ∀ p ∈ ps, p.type.Printable md q)
    (htokens : ∀ p ∈ ps, ∀ k ∈ p.type.tokens, Resolved md q fuel k) (done : List WString)
    {index : Nat} {v : List UInt8} (hdata : data.drop index = ps.flatMap SigParam.bytes ++ v) :
    ∃ n ≤ (ps.flatMap SigParam.bytes).length,
      Takes md fuel data n (namesDone done ps.length index)
        (namesDone (done ++ ps.map (SigParam.name q)) 0
          (index + (ps.flatMap SigParam.bytes).length)) := by
  induction ps generalizing done index with
  | nil => 
      refine ⟨0, Nat.le_refl _, ?_⟩
      rw [List.map_nil, List.append_nil]
      exact Takes.refl _
  | cons p ps ih =>
      rw [List.forall_mem_cons] at hbyValue hwf hprint htokens
      rw [List.flatMap_cons, List.append_assoc] at hdata
      have hbytes : p.bytes = p.type.bytes := by
        rw [SigParam.bytes, hbyValue.1]
        rfl
      have hname : p.name q = p.type.name q := by
        rw [SigParam.name, hbyValue.1]
        rfl
      have hreads : Reads md fuel data (namesDone done (ps.length + 1) index) p.bytes (p.name q) := by
        rw [hbytes, hname]
        exact reads_type _ rfl p.type hwf.1 hprint.1 htokens.1
      obtain ⟨n, hn, hfirst⟩ := takes_of_reads hreads hdata
      obtain ⟨m, hm, hrest⟩ := ih hbyValue.2 hwf.2 hprint.2 htokens.2 (done ++ [p.name q])
        (drop_behind hdata)
      refine ⟨m + n, ?_, ?_⟩
      · rw [List.flatMap_cons, List.length_append]
        omega
      · have hall := hfirst.trans hrest
        rw [List.append_assoc, Nat.add_assoc] at hall
        rw [List.map_cons, List.flatMap_cons, List.length_append]
        exact hall

theorem reads_void (st : NamesState) :
    Reads md fuel data st [void] "System.Void".toList := by
  refine reads_of_round fun v hdata => ?_
  rw [namesIteration, byteAt_of_drop hdata]
  rfl

/-- The loop reads the return type. -/
theorem reads_ret (st : NamesState) (happend : st.appendToType = []) (ret : Option SigParam)
    (hbyValue : ∀ p ∈ ret, p.isByRef = false) (hwf : ∀ p ∈ ret, p.type.WellFormed)
    (hprint : ∀ p ∈ ret, p.type.Printable md q)
    (htokens : ∀ p ∈ ret, ∀ k ∈ p.type.tokens, Resolved md q fuel k) :
    Reads md fuel data st (ret.elim [void] SigParam.bytes)
      (ret.elim "System.Void".toList (SigParam.name q)) := by
  cases ret with
  | none => exact reads_void st
  | some p =>
      have hp : p ∈ some p := rfl
      have hbytes : p.bytes = p.type.bytes := by
        rw [SigParam.bytes, hbyValue p hp]
        rfl
      have hname : p.name q = p.type.name q := by
        rw [SigParam.name, hbyValue p hp]
        rfl
      change Reads md fuel data st p.bytes (p.name q)
      rw [hbytes, hname]
      exact reads_type st happend p.type (hwf p hp) (hprint p hp) (htokens p hp)

end Types

/-- Every type of the metadata that a signature names has a nested name. -/
def MethodSig.Named (md : MetadataImport) (q : Nat → WString) (s : MethodSig) : Prop :=
  ∀ t ∈ s.types, ∀ k ∈ t.tokens, NestedName md (md.typeInfo k) (q k)

/-- Finitely many types are resolved within one fuel. -/
theorem exists_fuel {md : MetadataImport} {q : Nat → WString} {tokens : List Nat}
    (h : ∀ k ∈ tokens, NestedName md (md.typeInfo k) (q k)) :
    ∃ n, ∀ fuel ≥ n, ∀ k ∈ tokens, Resolved md q fuel k := by
  induction tokens with
  | nil => exact ⟨0, fun _ _ k hk => absurd hk List.not_mem_nil⟩
  | cons k tokens ih =>
      rw [List.forall_mem_cons] at h
      obtain ⟨n, hn⟩ := nestedTypeName_of_nestedName h.1
      obtain ⟨m, hm⟩ := ih h.2
      refine ⟨max n m, fun fuel hfuel => List.forall_mem_cons.mpr ⟨?_, ?_⟩⟩
      · exact hn fuel (Nat.le_trans (Nat.le_max_left n m) hfuel)
      · exact hm fuel (Nat.le_trans (Nat.le_max_right n m) hfuel)

/-- **The loop names the types of a printable signature by their structure.** -/
theorem tryParseSignatureTypes_names {md : MetadataImport} {q : Nat → WString} {s : MethodSig}
    (hnamed : s.Named md q) (hwf : s.WellFormed) (hprint : s.Printable md q) :
    ∃ n, ∀ fuel ≥ n, tryParseSignatureTypes md fuel s.bytes = .ok (s.names q) := by
  have hall : ∀ k ∈ s.types.flatMap SigType.tokens, NestedName md (md.typeInfo k) (q k) := by
    intro k hk
    obtain ⟨t, ht, hk⟩ := List.mem_flatMap.mp hk
    exact hnamed t ht k hk
  obtain ⟨n, hn⟩ := exists_fuel hall
  refine ⟨n, fun fuel hfuel => ?_⟩
  have hresolved : ∀ t ∈ s.types, ∀ k ∈ t.tokens, Resolved md q fuel k :=
    fun t ht k hk => hn fuel hfuel k (List.mem_flatMap.mpr ⟨t, ht, hk⟩)
  have hretTypes : ∀ p ∈ s.ret, p.type ∈ s.types := by
    intro p hp
    rw [MethodSig.types, hp]
    exact List.mem_append_left _ (List.mem_singleton.mpr rfl)
  have hparamTypes : ∀ p ∈ s.params, p.type ∈ s.types :=
    fun p hp => List.mem_append_right _ (List.mem_map_of_mem hp)
  obtain ⟨start, hstartIndex⟩ : ∃ start, (namesStart s.bytes).currentIndex = start + 1 := by
    unfold namesStart
    split_ifs
    · exact ⟨2, rfl⟩
    · exact ⟨1, rfl⟩
  have hstartLe := hprint.start
  have hzero := hprint.zeros
  rw [hstartIndex, Nat.add_sub_cancel] at hzero
  rw [hstartIndex] at hstartLe
  have hstart : namesStart s.bytes = namesDone [] (s.params.length + 1) (start + 1) := by
    rw [← hstartIndex]
    unfold namesStart namesDone
    rw [hprint.count]
    rfl
  -- the rest of the counts, the return type, the parameters
  have hzeros : s.bytes.drop (start + 1) =
      s.countBytes.drop start ++ (s.retBytes ++ (s.params.flatMap SigParam.bytes ++ [])) := by
    rw [MethodSig.bytes, List.drop_succ_cons, List.drop_append_of_le_length (by omega),
      List.append_nil]
  have hfirst : Takes md fuel s.bytes (s.countBytes.drop start).length
      (namesDone [] (s.params.length + 1) (start + 1))
      (namesDone [] (s.params.length + 1) (start + 1 + (s.countBytes.drop start).length)) :=
    takes_zeros _ hzero hzeros
  have hret : Reads md fuel s.bytes (namesDone [] (s.params.length + 1)
      (start + 1 + (s.countBytes.drop start).length)) s.retBytes
      (s.ret.elim "System.Void".toList (SigParam.name q)) :=
    reads_ret _ rfl s.ret hprint.byValue.1 (fun p hp => hwf.types _ (hretTypes p hp))
      (fun p hp => hprint.types _ (hretTypes p hp)) (fun p hp => hresolved _ (hretTypes p hp))
  have hretData := drop_behind hzeros
  obtain ⟨m, hm, hsecond⟩ := takes_of_reads hret hretData
  obtain ⟨k, hk, hthird⟩ := takes_params s.params hprint.byValue.2
    (fun p hp => hwf.types _ (hparamTypes p hp)) (fun p hp => hprint.types _ (hparamTypes p hp))
    (fun p hp => hresolved _ (hparamTypes p hp))
    ([] ++ [s.ret.elim "System.Void".toList (SigParam.name q)]) (drop_behind hretData)
  have hrounds := (hfirst.trans hsecond).trans hthird
  have hlength : s.bytes.length = s.countBytes.length + s.retBytes.length +
      (s.params.flatMap SigParam.bytes).length + 1 := by
    rw [MethodSig.bytes]
    simp only [List.length_cons, List.length_append]
    omega
  have hdrop : (s.countBytes.drop start).length = s.countBytes.length - start := List.length_drop
  obtain ⟨rounds, hsum⟩ := Nat.exists_eq_add_of_le
    (show k + (m + (s.countBytes.drop start).length) ≤ s.bytes.length by omega)
  have hend : ¬ start + 1 + (s.countBytes.drop start).length + s.retBytes.length +
      (s.params.flatMap SigParam.bytes).length < s.bytes.length := by
    omega
  have hloop : namesLoop md fuel s.bytes (s.bytes.length + 1) (namesStart s.bytes) =
      .ok (namesDone (s.names q) 0 (start + 1 + (s.countBytes.drop start).length +
        s.retBytes.length + (s.params.flatMap SigParam.bytes).length)) := by
    have hfuel : s.bytes.length + 1 =
        rounds + 1 + (k + (m + (s.countBytes.drop start).length)) := by
      omega
    rw [hfuel, hstart, hrounds, namesLoop]
    exact if_neg hend
  rw [tryParseSignatureTypes, hloop]
  change Except.ok (s.names q ++ List.replicate 0 []) = _
  rw [List.replicate_zero, List.append_nil]

/-- A generic type with one parameter, and a type nested in another. -/
def sampleMetadata : MetadataImport where
  typeInfo token :=
    if token = 0x02000001 then ⟨token, "N.L".toList ++ [tick, '1']⟩
    else if token = 0x02000002 then ⟨token, "Inner".toList⟩
    else ⟨token, "N.Outer".toList⟩
  enclosing token := if token = 0x02000002 then 0x02000003 else 0

/-- The names of these types. -/
def sampleName (token : Nat) : WString :=
  if token = 0x02000001 then "N.L".toList ++ [tick, '1']
  else if token = 0x02000002 then "N.Outer+Inner".toList
  else "N.Outer".toList

/-- The generic type over arrays of the nested type, and one parameter of the method. -/
def sampleSig : MethodSig where
  callConv := 0
  genParamCount := none
  paramCount := ⟨[1], 1, .one 1 (by decide)⟩
  ret := some ⟨false, .generic false ⟨[4], 4, .one 4 (by decide)⟩ ⟨[1], 1, .one 1 (by decide)⟩
    [.array (.named false ⟨[8], 8, .one 8 (by decide)⟩)]⟩
  params := [⟨false, .variable true ⟨[0], 0, .one 0 (by decide)⟩⟩]

theorem tryParseSignatureTypes_names_sample :
    ∃ n, ∀ fuel ≥ n, tryParseSignatureTypes sampleMetadata fuel sampleSig.bytes =
      .ok ["N.L".toList ++ [tick, '1'] ++ "<N.Outer+Inner[]>".toList, ['T']] := by
  have hgeneric : NestedName sampleMetadata (sampleMetadata.typeInfo 0x02000001)
      (sampleName 0x02000001) := .dotted (by decide)
  have houter : NestedName sampleMetadata ⟨0x02000003, "N.Outer".toList⟩ "N.Outer".toList :=
    .dotted (by decide)
  have henclosed : sampleMetadata.enclosing 0x02000002 ≠ 0 := by decide
  have hinner : NestedName sampleMetadata (sampleMetadata.typeInfo 0x02000002)
      (sampleName 0x02000002) :=
    .nested (t := ⟨0x02000002, "Inner".toList⟩) (by decide) henclosed houter
  have hnamed : sampleSig.Named sampleMetadata sampleName := by
    intro t ht k hk
    rcases List.mem_cons.mp ht with rfl | ht
    · rcases List.mem_cons.mp hk with rfl | hk
      · exact hgeneric
      · rw [List.mem_singleton.mp hk]
        exact hinner
    · rw [List.mem_singleton.mp ht] at hk
      exact absurd hk List.not_mem_nil
  have hwf : sampleSig.WellFormed :=
    { generic := by decide
      arity := fun n hn => absurd hn (by simp [sampleSig])
      params := rfl
      types := by
        intro t ht
        rcases List.mem_cons.mp ht with rfl | ht
        · exact ⟨rfl, trivial, trivial⟩
        · rw [List.mem_singleton.mp ht]
          trivial }
  have hprint : sampleSig.Printable sampleMetadata sampleName :=
    { count := by decide
      start := by decide
      zeros := forall_mem_of_all (by decide)
      byValue := by
        refine ⟨fun p hp => ?_, fun p hp => ?_⟩
        · rw [← Option.mem_some.mp hp]
        · rw [List.mem_singleton.mp hp]
      types := by
        intro t ht
        rcases List.mem_cons.mp ht with rfl | ht
        · exact ⟨by decide, by decide, List.cons_ne_nil _ _, fun b hb => absurd hb List.not_mem_nil,
            ⟨rfl, trivial⟩, trivial⟩
        · rw [List.mem_singleton.mp ht]
          exact fun b hb => absurd hb List.not_mem_nil }
  exact tryParseSignatureTypes_names hnamed hwf hprint

/-- An array of the generic type over `Int32`: the suffix ends up at the argument. -/
theorem not_names_array_of_generic :
    ¬ ∀ (md : MetadataImport) (q : Nat → WString) (s : MethodSig), s.Named md q → s.WellFormed →
      ∃ fuel, tryParseSignatureTypes md fuel s.bytes = .ok (s.names q) := by
  intro hall
  let s : MethodSig :=
    { callConv := 0
      genParamCount := none
      paramCount := ⟨[0], 0, .one 0 (by decide)⟩
      ret := some ⟨false, .array (.generic false ⟨[4], 4, .one 4 (by decide)⟩
        ⟨[1], 1, .one 1 (by decide)⟩ [.primitive i4 (by decide)])⟩
      params := [] }
  have hnamed : s.Named sampleMetadata sampleName := by
    intro t ht k hk
    rw [List.mem_singleton.mp ht] at hk
    rw [List.mem_singleton.mp hk]
    exact .dotted (by decide)
  have hwf : s.WellFormed :=
    { generic := by decide
      arity := fun n hn => absurd hn (by simp [s])
      params := rfl
      types := by
        intro t ht
        rw [List.mem_singleton.mp ht]
        exact ⟨rfl, trivial, trivial⟩ }
  obtain ⟨fuel, hfuel⟩ := hall sampleMetadata sampleName s hnamed hwf
  have hprinted : tryParseSignatureTypes sampleMetadata fuel s.bytes =
      .ok ["N.L".toList ++ [tick, '1'] ++ "<System.Int32[]>".toList] := by
    simp only [s, MethodSig.bytes, MethodSig.retBytes, MethodSig.countBytes]
    with_unfolding_all rfl
  rw [hprinted] at hfuel
  exact absurd (Except.ok.inj hfuel) (by decide)

end DdTrace.Profiler
