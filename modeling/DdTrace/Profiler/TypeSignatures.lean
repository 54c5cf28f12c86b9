import DdTrace.Profiler.CompressedData

/-!
# Types of signatures, and the routine that skips one

The types of the signature format as trees, with the bytes they are encoded as, and the parser of
the native helpers, which the call site rewriting uses to step over types. It reads from a pointer
on and has no end to compare with: memory is a list that starts at the pointer, and behind its end
nothing is mapped.

* `TypeSig`, `SlotSig`: types, and what stands as a return type or a parameter.
* `TypeSig.subst`: the instantiation of the type variables.
* `parseType`: the parser.
* `parseType_bytes`: it steps over a type without function pointers exactly if no `I` and no `U` is
  in the type; otherwise it returns `false`.

Sources: `sig_helpers.cpp`; `lib/coreclr/src/inc/cor.h`, `CorSigUncompressData`.
-/

namespace DdTrace.Profiler.SigHelpers

open DdTrace.Lib CorElementType

/-! ## Trees -/

/-- The bytes of a number. -/
def numberBytes (n : Nat) : List UInt8 := (CorSigCompressData n).getD []

/-- The numbers that have bytes. -/
def NumberFits (n : Nat) : Prop := n ≤ 0x1FFFFFFF

instance (n : Nat) : Decidable (NumberFits n) := inferInstanceAs (Decidable (n ≤ 0x1FFFFFFF))

/-- The tokens that a type is named by. -/
def NamesType (token : mdToken) : Prop :=
  TypeFromToken token = mdtTypeDef ∨ TypeFromToken token = mdtTypeRef

/-- A custom modifier. -/
structure CustomMod where
  /-- `CMOD_REQD` or `CMOD_OPT`. -/
  required : Bool
  /-- The type of the modifier. -/
  token : mdToken

/-- The bytes of a modifier. -/
def CustomMod.bytes (m : CustomMod) : List UInt8 :=
  (if m.required then cmodReqd else cmodOpt) :: tokenBytes m.token

/-- The bytes of modifiers. -/
def modsBytes (mods : List CustomMod) : List UInt8 := mods.flatMap CustomMod.bytes

/-- The lower bound of a dimension: a signed number, of which only the bytes matter here. -/
structure LowerBound where
  /-- The bytes. -/
  bytes : List UInt8
  /-- They are a number. -/
  encodes : ∃ n, Encodes bytes n

/-- The shape of an array. -/
structure ArrayShape where
  /-- The number of dimensions. -/
  rank : Nat
  /-- The sizes that are given. -/
  sizes : List Nat
  /-- The lower bounds that are given. -/
  loBounds : List LowerBound

/-- The bytes of a shape. -/
def ArrayShape.bytes (s : ArrayShape) : List UInt8 :=
  numberBytes s.rank ++ (numberBytes s.sizes.length ++ (s.sizes.flatMap numberBytes ++
    (numberBytes s.loBounds.length ++ s.loBounds.flatMap LowerBound.bytes)))

/-- The numbers of a shape have bytes. -/
structure ArrayShape.WellFormed (s : ArrayShape) : Prop where
  rank : NumberFits s.rank
  sizes : ∀ n ∈ s.sizes, NumberFits n
  sizesLength : NumberFits s.sizes.length
  loBoundsLength : NumberFits s.loBounds.length

mutual

/-- A type. -/
inductive TypeSig
  /-- A type that is one byte. -/
  | primitive (b : UInt8) (simple : b ∈ simpleTypes)
  /-- `CLASS` or `VALUETYPE`. -/
  | named (isValueType : Bool) (token : mdToken)
  /-- `VAR`, or `MVAR` for the parameters of the method. -/
  | typeVariable (ofMethod : Bool) (number : Nat)
  /-- `GENERICINST`. -/
  | generic (isValueType : Bool) (token : mdToken) (arguments : List TypeSig)
  /-- `SZARRAY`. -/
  | szArray (mods : List CustomMod) (element : TypeSig)
  /-- `ARRAY`. -/
  | array (element : TypeSig) (shape : ArrayShape)
  /-- `PTR` with a type. -/
  | ptr (mods : List CustomMod) (element : TypeSig)
  /-- `PTR` with `VOID`. -/
  | voidPtr (mods : List CustomMod)
  /-- `FNPTR`; what stands behind the sentinel comes last. -/
  | fnPtr (callConv : UInt8) (arity : Option Nat) (ret : SlotSig) (params varArgs : List SlotSig)

/-- A return type or a parameter. -/
inductive SlotSig
  /-- `VOID`. -/
  | void (mods : List CustomMod)
  /-- `TYPEDBYREF`. -/
  | typedByRef (mods : List CustomMod)
  /-- A type, or a reference to one. -/
  | type (mods : List CustomMod) (isByRef : Bool) (t : TypeSig)

end

/-- `VALUETYPE` or `CLASS`. -/
def classByte (isValueType : Bool) : UInt8 := if isValueType then valueType else class_

/-- `MVAR` or `VAR`. -/
def variableByte (ofMethod : Bool) : UInt8 := if ofMethod then mVar else var

/-- `BYREF`, if there is one. -/
def byRefBytes (isByRef : Bool) : List UInt8 := if isByRef then [byRef] else []

mutual

/-- The bytes of a type. -/
def TypeSig.bytes : TypeSig → List UInt8
  | .primitive b _ => [b]
  | .named isValueType token => classByte isValueType :: tokenBytes token
  | .typeVariable ofMethod number => variableByte ofMethod :: numberBytes number
  | .generic isValueType token arguments =>
      genericInst :: classByte isValueType :: (tokenBytes token ++
        (numberBytes arguments.length ++ TypeSig.bytesAll arguments))
  | .szArray mods element => CorElementType.szArray :: (modsBytes mods ++ element.bytes)
  | .array element shape => CorElementType.array :: (element.bytes ++ shape.bytes)
  | .ptr mods element => CorElementType.ptr :: (modsBytes mods ++ element.bytes)
  | .voidPtr mods => CorElementType.ptr :: (modsBytes mods ++ [CorElementType.void])
  | .fnPtr callConv arity ret params varArgs =>
      CorElementType.fnPtr :: callConv :: ((arity.elim [] numberBytes) ++
        (numberBytes (params.length + varArgs.length) ++ (ret.bytes ++ (SlotSig.bytesAll params ++
          ((if varArgs.isEmpty then [] else [CorElementType.sentinel]) ++ SlotSig.bytesAll varArgs)))))

/-- The bytes of a return type or a parameter. -/
def SlotSig.bytes : SlotSig → List UInt8
  | .void mods => modsBytes mods ++ [CorElementType.void]
  | .typedByRef mods => modsBytes mods ++ [CorElementType.typedByRef]
  | .type mods isByRef t => modsBytes mods ++ (byRefBytes isByRef ++ t.bytes)

/-- The bytes of types, one behind the other. -/
def TypeSig.bytesAll : List TypeSig → List UInt8
  | [] => []
  | t :: ts => t.bytes ++ TypeSig.bytesAll ts

/-- The bytes of parameters, one behind the other. -/
def SlotSig.bytesAll : List SlotSig → List UInt8
  | [] => []
  | p :: ps => p.bytes ++ SlotSig.bytesAll ps

end

mutual

/-- The instantiation of the type variables by the arguments of the declaring type and of the
method; a variable without an argument stays. -/
def TypeSig.subst (typeArgs methodArgs : List TypeSig) : TypeSig → TypeSig
  | .primitive b simple => .primitive b simple
  | .named isValueType token => .named isValueType token
  | .typeVariable ofMethod number =>
      ((if ofMethod then methodArgs else typeArgs)[number]?).getD (.typeVariable ofMethod number)
  | .generic isValueType token arguments =>
      .generic isValueType token (TypeSig.substAll typeArgs methodArgs arguments)
  | .szArray mods element => .szArray mods (element.subst typeArgs methodArgs)
  | .array element shape => .array (element.subst typeArgs methodArgs) shape
  | .ptr mods element => .ptr mods (element.subst typeArgs methodArgs)
  | .voidPtr mods => .voidPtr mods
  | .fnPtr callConv arity ret params varArgs =>
      .fnPtr callConv arity (ret.subst typeArgs methodArgs)
        (SlotSig.substAll typeArgs methodArgs params) (SlotSig.substAll typeArgs methodArgs varArgs)

/-- The instantiation of a return type or a parameter. -/
def SlotSig.subst (typeArgs methodArgs : List TypeSig) : SlotSig → SlotSig
  | .void mods => .void mods
  | .typedByRef mods => .typedByRef mods
  | .type mods isByRef t => .type mods isByRef (t.subst typeArgs methodArgs)

/-- The instantiation of types. -/
def TypeSig.substAll (typeArgs methodArgs : List TypeSig) : List TypeSig → List TypeSig
  | [] => []
  | t :: ts => t.subst typeArgs methodArgs :: TypeSig.substAll typeArgs methodArgs ts

/-- The instantiation of parameters. -/
def SlotSig.substAll (typeArgs methodArgs : List TypeSig) : List SlotSig → List SlotSig
  | [] => []
  | p :: ps => p.subst typeArgs methodArgs :: SlotSig.substAll typeArgs methodArgs ps

end

mutual

/-- The numbers of a type have bytes, and its tokens name types. -/
def TypeSig.WellFormed : TypeSig → Prop
  | .primitive _ _ => True
  | .named _ token => NamesType token
  | .typeVariable _ number => NumberFits number
  | .generic _ token arguments =>
      NamesType token ∧ NumberFits arguments.length ∧ TypeSig.AllWellFormed arguments
  | .szArray _ element => element.WellFormed
  | .array element shape => element.WellFormed ∧ shape.WellFormed
  | .ptr _ element => element.WellFormed
  | .voidPtr _ => True
  | .fnPtr _ arity ret params varArgs =>
      (∀ n, arity = some n → NumberFits n) ∧ NumberFits (params.length + varArgs.length) ∧
        ret.WellFormed ∧ SlotSig.AllWellFormed params ∧ SlotSig.AllWellFormed varArgs

/-- The same of a return type or a parameter. -/
def SlotSig.WellFormed : SlotSig → Prop
  | .void _ => True
  | .typedByRef _ => True
  | .type _ _ t => t.WellFormed

/-- Each of the types is well-formed. -/
def TypeSig.AllWellFormed : List TypeSig → Prop
  | [] => True
  | t :: ts => t.WellFormed ∧ TypeSig.AllWellFormed ts

/-- Each of the parameters is well-formed. -/
def SlotSig.AllWellFormed : List SlotSig → Prop
  | [] => True
  | p :: ps => p.WellFormed ∧ SlotSig.AllWellFormed ps

end

mutual

/-- There is no function pointer in the type. -/
def TypeSig.Plain : TypeSig → Prop
  | .primitive _ _ => True
  | .named _ _ => True
  | .typeVariable _ _ => True
  | .generic _ _ arguments => TypeSig.AllPlain arguments
  | .szArray _ element => element.Plain
  | .array element _ => element.Plain
  | .ptr _ element => element.Plain
  | .voidPtr _ => True
  | .fnPtr _ _ _ _ _ => False

/-- There is no function pointer in the types. -/
def TypeSig.AllPlain : List TypeSig → Prop
  | [] => True
  | t :: ts => t.Plain ∧ TypeSig.AllPlain ts

end

mutual

/-- There is no `I` and no `U` in the type, function pointers apart. -/
def TypeSig.noNativeInt : TypeSig → Bool
  | .primitive b _ => b != i && b != u
  | .named _ _ => true
  | .typeVariable _ _ => true
  | .generic _ _ arguments => TypeSig.allNoNativeInt arguments
  | .szArray _ element => element.noNativeInt
  | .array element _ => element.noNativeInt
  | .ptr _ element => element.noNativeInt
  | .voidPtr _ => true
  | .fnPtr _ _ _ _ _ => true

/-- There is no `I` and no `U` in the types, function pointers apart. -/
def TypeSig.allNoNativeInt : List TypeSig → Bool
  | [] => true
  | t :: ts => t.noNativeInt && TypeSig.allNoNativeInt ts

end

/-! ## The parser -/

/-- Why a routine has no result. -/
inductive Stop
  /-- It returns `false`. -/
  | returnsFalse
  /-- Memory that is not mapped is read. -/
  | fault
  /-- The recursion is deeper than the fuel. -/
  | tooDeep
  deriving DecidableEq, Repr

/-- Source: `sig_helpers.cpp`, `ParseNumber` -/
def parseNumber : List UInt8 → Except Stop (Nat × List UInt8)
  | [] => .error .fault
  | b :: rest =>
      match CorSigUncompressData (b :: rest) with
      | some (number, result) => .ok (number, (b :: rest).drop result)
      -- the result is -1, or the bytes of the number are not all there
      | none => if b &&& 0xE0 = 0xE0 then .error .returnsFalse else .error .fault

/-- Source: `sig_helpers.cpp`, `ParseTypeDefOrRefEncoded` -/
def parseTypeDefOrRefEncoded (memory : List UInt8) : Except Stop (List UInt8) :=
  (parseNumber memory).map Prod.snd

/-- The loop, with `ParseCustomMod`.
Source: `sig_helpers.cpp`, `ParseOptionalCustomMods` -/
def parseOptionalCustomMods : Nat → List UInt8 → Except Stop (List UInt8)
  | 0, _ => .error .tooDeep
  | _, [] => .error .fault
  | fuel + 1, b :: rest =>
      if b = cmodOpt ∨ b = cmodReqd then
        (parseTypeDefOrRefEncoded rest).bind (parseOptionalCustomMods fuel)
      else .ok (b :: rest)

/-- Step over some things, one after another. -/
def parseMany (parse : List UInt8 → Except Stop (List UInt8)) :
    Nat → List UInt8 → Except Stop (List UInt8)
  | 0, memory => .ok memory
  | n + 1, memory => (parse memory).bind (parseMany parse n)

/-- Source: `sig_helpers.cpp`, `ParseArrayShape` -/
def parseArrayShape (memory : List UInt8) : Except Stop (List UInt8) := do
  let (_, memory) ← parseNumber memory
  let (numsizes, memory) ← parseNumber memory
  let memory ← parseMany (fun m => (parseNumber m).map Prod.snd) numsizes memory
  let (numsizes, memory) ← parseNumber memory
  parseMany (fun m => (parseNumber m).map Prod.snd) numsizes memory

/-- An optional `BYREF` and a type.
Source: `sig_helpers.cpp`, the end of `ParseRetType` and of `ParseParam` -/
def parseByRefType (parseType : List UInt8 → Except Stop (List UInt8)) :
    List UInt8 → Except Stop (List UInt8)
  | [] => .error .fault
  | b :: rest => if b = byRef then parseType rest else parseType (b :: rest)

/-- Source: `sig_helpers.cpp`, `ParseRetType` -/
def parseRetType (parseType : List UInt8 → Except Stop (List UInt8)) (fuel : Nat)
    (memory : List UInt8) : Except Stop (List UInt8) := do
  let memory ← parseOptionalCustomMods fuel memory
  match memory with
  | [] => .error .fault
  | b :: rest =>
      if b = typedByRef ∨ b = void then .ok rest else parseByRefType parseType (b :: rest)

/-- Source: `sig_helpers.cpp`, `ParseParam` -/
def parseParam (parseType : List UInt8 → Except Stop (List UInt8)) (fuel : Nat)
    (memory : List UInt8) : Except Stop (List UInt8) := do
  let memory ← parseOptionalCustomMods fuel memory
  match memory with
  | [] => .error .fault
  | b :: rest => if b = typedByRef then .ok rest else parseByRefType parseType (b :: rest)

/-- The loop over the parameters.
Source: `sig_helpers.cpp`, `ParseMethod` -/
def parseParams (parseType : List UInt8 → Except Stop (List UInt8)) (fuel : Nat) :
    Nat → Bool → List UInt8 → Except Stop (List UInt8)
  | 0, _, memory => .ok memory
  | _ + 1, _, [] => .error .fault
  | n + 1, sentinelFound, b :: rest =>
      if b = CorElementType.sentinel then
        if sentinelFound then .error .returnsFalse
        else (parseParam parseType fuel rest).bind (parseParams parseType fuel n true)
      else (parseParam parseType fuel (b :: rest)).bind (parseParams parseType fuel n sentinelFound)

/-- The calling convention is stepped over only if it is `GENERIC` and nothing else.
Source: `sig_helpers.cpp`, `ParseMethod` -/
def parseMethod (parseType : List UInt8 → Except Stop (List UInt8)) (fuel : Nat) :
    List UInt8 → Except Stop (List UInt8)
  | [] => .error .fault
  | b :: rest => do
      let memory ← if b = callConvGeneric then (parseNumber rest).map Prod.snd else .ok (b :: rest)
      let (paramCount, memory) ← parseNumber memory
      let memory ← parseRetType parseType fuel memory
      parseParams parseType fuel paramCount false memory

/-- The first cases of the switch.
Source: `sig_helpers.cpp`, `ParseType` -/
def oneByteTypes : List UInt8 :=
  [void, boolean, char, i1, u1, i2, u2, i4, u4, i8, u8, r4, r8, string, object]

/-- What follows `PTR`.
Source: `sig_helpers.cpp`, `ParseType`, case `ELEMENT_TYPE_PTR` -/
def parsePtr (parseType : List UInt8 → Except Stop (List UInt8)) (fuel : Nat)
    (memory : List UInt8) : Except Stop (List UInt8) := do
  let memory ← parseOptionalCustomMods fuel memory
  match memory with
  | [] => .error .fault
  | b :: rest => if b = void then .ok rest else parseType (b :: rest)

/-- What follows `GENERICINST`.
Source: `sig_helpers.cpp`, `ParseType`, case `ELEMENT_TYPE_GENERICINST` -/
def parseGenericInst (parseType : List UInt8 → Except Stop (List UInt8)) :
    List UInt8 → Except Stop (List UInt8)
  | [] => .error .fault
  | b :: rest =>
      if b ≠ valueType ∧ b ≠ class_ then .error .returnsFalse
      else do
        let memory ← parseTypeDefOrRefEncoded rest
        let (number, memory) ← parseNumber memory
        parseMany parseType number memory

/-- The switch over the element type, where `parseType` is the recursive call.
Source: `sig_helpers.cpp`, `ParseType` -/
def parseTypeOf (parseType : List UInt8 → Except Stop (List UInt8)) (fuel : Nat) (e : UInt8)
    (memory : List UInt8) : Except Stop (List UInt8) :=
  if e ∈ oneByteTypes then .ok memory
  else if e = CorElementType.ptr then parsePtr parseType fuel memory
  else if e = valueType ∨ e = class_ then parseTypeDefOrRefEncoded memory
  else if e = CorElementType.fnPtr then parseMethod parseType fuel memory
  else if e = CorElementType.array then (parseType memory).bind parseArrayShape
  else if e = CorElementType.szArray then
    (parseOptionalCustomMods fuel memory).bind parseType
  else if e = genericInst then parseGenericInst parseType memory
  else if e = var ∨ e = mVar then (parseNumber memory).map Prod.snd
  else .error .returnsFalse

/-- The fuel bounds the depth of the recursion and the number of modifiers in a row.
Source: `sig_helpers.cpp`, `ParseType` -/
def parseTypeFuel : Nat → List UInt8 → Except Stop (List UInt8)
  | 0, _ => .error .tooDeep
  | _ + 1, [] => .error .fault
  | fuel + 1, e :: rest => parseTypeOf (parseTypeFuel fuel) fuel e rest

/-- Every call of the recursion is behind another byte, so the memory bounds its depth.
Source: `sig_helpers.cpp`, `ParseType` -/
def parseType (memory : List UInt8) : Except Stop (List UInt8) :=
  parseTypeFuel (memory.length + 1) memory

/-! ## What the parser steps over -/

theorem encodes_numberBytes {n : Nat} (h : NumberFits n) : Encodes (numberBytes n) n := by
  obtain ⟨w, hw⟩ := Option.isSome_iff_exists.mp (compress_isSome h)
  have hbytes : numberBytes n = w := by rw [numberBytes, hw, Option.getD_some]
  rw [hbytes]
  exact encodes_compress hw

/-- A number is read, whatever stands behind it. -/
theorem parseNumber_append {w : List UInt8} {n : Nat} (h : Encodes w n) (rest : List UInt8) :
    parseNumber (w ++ rest) = .ok (n, rest) := by
  have huncompress := uncompress_of_encodes h rest
  rcases w with _ | ⟨b, w⟩
  · exact absurd rfl h.ne_nil
  · rw [List.cons_append] at huncompress ⊢
    rw [parseNumber, huncompress]
    have hdrop : (b :: (w ++ rest)).drop (b :: w).length = rest := List.drop_left
    simp only [hdrop]

theorem parseTypeDefOrRefEncoded_append (tk : mdToken) (rest : List UInt8) :
    parseTypeDefOrRefEncoded (tokenBytes tk ++ rest) = .ok rest := by
  rw [parseTypeDefOrRefEncoded, parseNumber_append (encodes_compress (tokenBytes_eq tk))]
  rfl

/-- Modifiers are stepped over up to the next byte that is none. -/
theorem parseOptionalCustomMods_append (mods : List CustomMod) {b : UInt8}
    (hb : b ≠ cmodOpt ∧ b ≠ cmodReqd) (rest : List UInt8) {fuel : Nat}
    (hfuel : mods.length < fuel) :
    parseOptionalCustomMods fuel (modsBytes mods ++ b :: rest) = .ok (b :: rest) := by
  induction mods generalizing fuel with
  | nil =>
      obtain ⟨fuel, rfl⟩ := Nat.exists_eq_add_of_lt hfuel
      have hnone : ¬(b = cmodOpt ∨ b = cmodReqd) := not_or.mpr hb
      simp [modsBytes, parseOptionalCustomMods, hnone]
  | cons m mods ih =>
      rw [List.length_cons] at hfuel
      obtain ⟨fuel, rfl⟩ : ∃ k, fuel = k + 1 := ⟨fuel - 1, by omega⟩
      have hbytes : modsBytes (m :: mods) ++ b :: rest =
          (if m.required then cmodReqd else cmodOpt) ::
            (tokenBytes m.token ++ (modsBytes mods ++ b :: rest)) := by
        simp [modsBytes, CustomMod.bytes]
      have hmod : (if m.required then cmodReqd else cmodOpt) = cmodOpt ∨
          (if m.required then cmodReqd else cmodOpt) = cmodReqd := by
        cases m.required with
        | false => exact Or.inl rfl
        | true => exact Or.inr rfl
      rw [hbytes, parseOptionalCustomMods, if_pos hmod, parseTypeDefOrRefEncoded_append]
      exact ih (by omega)

theorem length_le_modsBytes (mods : List CustomMod) : mods.length ≤ (modsBytes mods).length := by
  induction mods with
  | nil => exact Nat.le_refl 0
  | cons m mods ih =>
      rw [modsBytes, List.flatMap_cons, List.length_append, List.length_cons]
      have hpos : 0 < m.bytes.length := Nat.succ_pos _
      rw [modsBytes] at ih
      omega

/-- Numbers are stepped over one by one. -/
theorem parseMany_numbers {α : Type} {bytes : α → List UInt8} {xs : List α}
    (h : ∀ x ∈ xs, ∃ n, Encodes (bytes x) n) (rest : List UInt8) :
    parseMany (fun m => (parseNumber m).map Prod.snd) xs.length (xs.flatMap bytes ++ rest) =
      .ok rest := by
  induction xs with
  | nil => rfl
  | cons x xs ih =>
      obtain ⟨n, hn⟩ := h x List.mem_cons_self
      rw [List.flatMap_cons, List.append_assoc, List.length_cons, parseMany, parseNumber_append hn]
      exact ih fun y hy => h y (List.mem_cons_of_mem x hy)

theorem parseArrayShape_append {s : ArrayShape} (h : s.WellFormed) (rest : List UInt8) :
    parseArrayShape (s.bytes ++ rest) = .ok rest := by
  have hsizes : ∀ n ∈ s.sizes, ∃ k, Encodes (numberBytes n) k :=
    fun n hn => ⟨n, encodes_numberBytes (h.sizes n hn)⟩
  have hbounds : ∀ b ∈ s.loBounds, ∃ k, Encodes (LowerBound.bytes b) k := fun b _ => b.encodes
  unfold parseArrayShape ArrayShape.bytes
  simp only [List.append_assoc]
  rw [parseNumber_append (encodes_numberBytes h.rank)]
  simp only [bind, Except.bind]
  rw [parseNumber_append (encodes_numberBytes h.sizesLength)]
  simp only
  rw [parseMany_numbers hsizes]
  simp only
  rw [parseNumber_append (encodes_numberBytes h.loBoundsLength)]
  exact parseMany_numbers hbounds rest

/-- The first bytes of types. -/
theorem bytes_head (t : TypeSig) : ∃ b v, t.bytes = b :: v ∧ b ∈ switchCases := by
  have hclass : ∀ isValueType, classByte isValueType ∈ switchCases := by decide
  have hvariable : ∀ ofMethod, variableByte ofMethod ∈ switchCases := by decide
  cases t with
  | primitive b simple => exact ⟨b, [], rfl, mem_switchCases_of_simple simple⟩
  | named isValueType token => exact ⟨_, _, rfl, hclass isValueType⟩
  | typeVariable ofMethod number => exact ⟨_, _, rfl, hvariable ofMethod⟩
  | generic isValueType token arguments => exact ⟨_, _, rfl, by decide⟩
  | szArray mods element => exact ⟨_, _, rfl, by decide⟩
  | array element shape => exact ⟨_, _, rfl, by decide⟩
  | ptr mods element => exact ⟨_, _, rfl, by decide⟩
  | voidPtr mods => exact ⟨_, _, rfl, by decide⟩
  | fnPtr callConv arity ret params varArgs => exact ⟨_, _, rfl, by decide⟩

/-- No type starts with a modifier or `VOID`. -/
theorem head_ne : ∀ b ∈ switchCases, (b ≠ cmodOpt ∧ b ≠ cmodReqd) ∧ b ≠ void :=
  forall_mem_of_all (by decide)

/-- Modifiers in front of a type are stepped over. -/
theorem parseOptionalCustomMods_type (mods : List CustomMod) (t : TypeSig) (rest : List UInt8)
    {fuel : Nat} (hfuel : (modsBytes mods).length < fuel) :
    parseOptionalCustomMods fuel (modsBytes mods ++ (t.bytes ++ rest)) = .ok (t.bytes ++ rest) := by
  obtain ⟨b, v, hbytes, hb⟩ := bytes_head t
  have hlen := length_le_modsBytes mods
  rw [hbytes]
  exact parseOptionalCustomMods_append mods (head_ne b hb).1 (v ++ rest) (by omega)

/-- The result of stepping over a type without function pointers. -/
def stepsOver (readable : Bool) (rest : List UInt8) : Except Stop (List UInt8) :=
  if readable then .ok rest else .error .returnsFalse

/-- The cases of the switch. -/
theorem parseTypeOf_class (parse : List UInt8 → Except Stop (List UInt8)) (fuel : Nat)
    (isValueType : Bool) (memory : List UInt8) :
    parseTypeOf parse fuel (classByte isValueType) memory = parseTypeDefOrRefEncoded memory := by
  cases isValueType with
  | false => rfl
  | true => rfl

theorem parseTypeOf_variable (parse : List UInt8 → Except Stop (List UInt8)) (fuel : Nat)
    (ofMethod : Bool) (memory : List UInt8) :
    parseTypeOf parse fuel (variableByte ofMethod) memory =
      (parseNumber memory).map Prod.snd := by
  cases ofMethod with
  | false => rfl
  | true => rfl

theorem parseTypeOf_genericInst (parse : List UInt8 → Except Stop (List UInt8)) (fuel : Nat)
    (memory : List UInt8) :
    parseTypeOf parse fuel genericInst memory = parseGenericInst parse memory := rfl

theorem parseTypeOf_simple (parse : List UInt8 → Except Stop (List UInt8)) (fuel : Nat)
    {b : UInt8} (simple : b ∈ simpleTypes) (memory : List UInt8) :
    parseTypeOf parse fuel b memory = stepsOver (b != i && b != u) memory := by
  have hcases : ∀ b ∈ simpleTypes, (b ∈ oneByteTypes ∧ (b != i && b != u) = true) ∨ b = i ∨ b = u :=
    forall_mem_of_all (by decide)
  rcases hcases b simple with ⟨hone, hnot⟩ | rfl | rfl
  · rw [parseTypeOf, if_pos hone, hnot]
    rfl
  · rfl
  · rfl

/-- A recursive call behind the first byte. -/
theorem parseTypeFuel_cons {fuel : Nat} (e : UInt8) (memory : List UInt8) (hfuel : 0 < fuel) :
    parseTypeFuel fuel (e :: memory) = parseTypeOf (parseTypeFuel (fuel - 1)) (fuel - 1) e memory := by
  obtain ⟨k, rfl⟩ : ∃ k, fuel = k + 1 := ⟨fuel - 1, by omega⟩
  rfl

/-- A class or a value type may follow `GENERICINST`. -/
theorem classByte_allowed (isValueType : Bool) :
    ¬(classByte isValueType ≠ valueType ∧ classByte isValueType ≠ class_) := by
  cases isValueType <;> decide

mutual

/-- **A type without function pointers** is stepped over exactly if no `I` and no `U` is in it. -/
theorem parseTypeFuel_bytes : (t : TypeSig) → t.WellFormed → t.Plain →
    ∀ fuel rest, t.bytes.length < fuel →
      parseTypeFuel fuel (t.bytes ++ rest) = stepsOver t.noNativeInt rest
  | .primitive b simple, _, _ => by
      intro fuel rest hfuel
      rw [TypeSig.bytes, List.singleton_append, parseTypeFuel_cons b rest (by omega)]
      exact parseTypeOf_simple _ _ simple rest
  | .named isValueType token, _, _ => by
      intro fuel rest hfuel
      rw [TypeSig.bytes, List.cons_append, parseTypeFuel_cons _ _ (by omega), parseTypeOf_class]
      exact parseTypeDefOrRefEncoded_append token rest
  | .typeVariable ofMethod number, hwf, _ => by
      intro fuel rest hfuel
      rw [TypeSig.bytes, List.cons_append, parseTypeFuel_cons _ _ (by omega), parseTypeOf_variable,
        parseNumber_append (encodes_numberBytes hwf)]
      rfl
  | .generic isValueType token arguments, hwf, hplain => by
      intro fuel rest hfuel
      rw [TypeSig.bytes] at hfuel
      simp only [List.length_cons, List.length_append] at hfuel
      have harguments := parseMany_bytesAll arguments hwf.2.2 hplain (fuel - 1) rest (by omega)
      rw [TypeSig.bytes]
      simp only [List.cons_append, List.append_assoc]
      rw [parseTypeFuel_cons _ _ (by omega), parseTypeOf_genericInst, parseGenericInst,
        if_neg (classByte_allowed isValueType), parseTypeDefOrRefEncoded_append]
      simp only [bind, Except.bind]
      rw [parseNumber_append (encodes_numberBytes hwf.2.1)]
      exact harguments
  | .szArray mods element, hwf, hplain => by
      intro fuel rest hfuel
      rw [TypeSig.bytes] at hfuel
      simp only [List.length_cons, List.length_append] at hfuel
      have helement := parseTypeFuel_bytes element hwf hplain (fuel - 1) rest (by omega)
      rw [TypeSig.bytes]
      simp only [List.cons_append, List.append_assoc]
      rw [parseTypeFuel_cons _ _ (by omega)]
      show (parseOptionalCustomMods _ _).bind _ = _
      rw [parseOptionalCustomMods_type mods element rest (by omega)]
      exact helement
  | .array element shape, hwf, hplain => by
      intro fuel rest hfuel
      rw [TypeSig.bytes] at hfuel
      simp only [List.length_cons, List.length_append] at hfuel
      have helement := parseTypeFuel_bytes element hwf.1 hplain (fuel - 1) (shape.bytes ++ rest)
        (by omega)
      rw [TypeSig.bytes]
      simp only [List.cons_append, List.append_assoc]
      rw [parseTypeFuel_cons _ _ (by omega)]
      show (parseTypeFuel _ _).bind _ = _
      rw [helement, TypeSig.noNativeInt]
      cases element.noNativeInt with
      | false => rfl
      | true => exact parseArrayShape_append hwf.2 rest
  | .ptr mods element, hwf, hplain => by
      intro fuel rest hfuel
      rw [TypeSig.bytes] at hfuel
      simp only [List.length_cons, List.length_append] at hfuel
      have helement := parseTypeFuel_bytes element hwf hplain (fuel - 1) rest (by omega)
      obtain ⟨b, v, hbytes, hb⟩ := bytes_head element
      rw [TypeSig.bytes]
      simp only [List.cons_append, List.append_assoc]
      rw [parseTypeFuel_cons _ _ (by omega)]
      show parsePtr _ _ _ = _
      rw [parsePtr, parseOptionalCustomMods_type mods element rest (by omega)]
      rw [hbytes, List.cons_append] at helement ⊢
      simp only [bind, Except.bind]
      rw [if_neg (head_ne b hb).2]
      exact helement
  | .voidPtr mods, _, _ => by
      intro fuel rest hfuel
      rw [TypeSig.bytes] at hfuel
      simp only [List.length_cons, List.length_append] at hfuel
      have hlen := length_le_modsBytes mods
      rw [TypeSig.bytes]
      simp only [List.cons_append, List.append_assoc, List.nil_append]
      rw [parseTypeFuel_cons _ _ (by omega)]
      show parsePtr _ _ _ = _
      rw [parsePtr, parseOptionalCustomMods_append mods (by decide) rest (by omega)]
      rfl
  | .fnPtr _ _ _ _ _, _, hplain => hplain.elim

/-- The same of types, one behind the other. -/
theorem parseMany_bytesAll : (ts : List TypeSig) → TypeSig.AllWellFormed ts →
    TypeSig.AllPlain ts → ∀ fuel rest, (TypeSig.bytesAll ts).length < fuel →
      parseMany (parseTypeFuel fuel) ts.length (TypeSig.bytesAll ts ++ rest) =
        stepsOver (TypeSig.allNoNativeInt ts) rest
  | [], _, _ => by
      intro fuel rest hfuel
      rfl
  | t :: ts, hwf, hplain => by
      intro fuel rest hfuel
      rw [TypeSig.bytesAll, List.length_append] at hfuel
      rw [TypeSig.bytesAll, List.append_assoc, List.length_cons, parseMany,
        parseTypeFuel_bytes t hwf.1 hplain.1 fuel _ (by omega), TypeSig.allNoNativeInt]
      cases t.noNativeInt with
      | false => rfl
      | true => exact parseMany_bytesAll ts hwf.2 hplain.2 fuel rest (by omega)

end

theorem parseType_bytes {t : TypeSig} (hwf : t.WellFormed) (hplain : t.Plain)
    (rest : List UInt8) : parseType (t.bytes ++ rest) = stepsOver t.noNativeInt rest := by
  refine parseTypeFuel_bytes t hwf hplain _ rest ?_
  rw [List.length_append]
  omega

/-! ## The recursion ends -/

/-- On memory of at most `n` bytes the routine does not run out of fuel, and it does not go
backwards. -/
structure Ends (n : Nat) (parse : List UInt8 → Except Stop (List UInt8)) : Prop where
  notDeep : ∀ m, m.length ≤ n → parse m ≠ .error .tooDeep
  shorter : ∀ m m', m.length ≤ n → parse m = .ok m' → m'.length ≤ m.length

namespace Ends

variable {n : Nat} {parse next : List UInt8 → Except Stop (List UInt8)}

theorem ok : Ends n .ok := by
  constructor
  · intro m hm h
    cases h
  · intro m m' hm h
    obtain rfl := Except.ok.inj h
    exact Nat.le_refl _

theorem error {s : Stop} (hs : s ≠ .tooDeep) : Ends n fun _ => .error s := by
  constructor
  · intro m hm h
    exact hs (Except.error.inj h)
  · intro m m' hm h
    cases h

theorem bind (h : Ends n parse) (hnext : Ends n next) :
    Ends n fun m => (parse m).bind next := by
  constructor
  · intro m hm
    cases hparse : parse m with
    | error s =>
        intro hs
        obtain rfl := Except.error.inj hs
        exact h.notDeep m hm hparse
    | ok m' => exact hnext.notDeep m' (Nat.le_trans (h.shorter m m' hm hparse) hm)
  · intro m m'' hm hbind
    cases hparse : parse m with
    | error s =>
        rw [hparse] at hbind
        cases hbind
    | ok m' =>
        rw [hparse] at hbind
        have hle := h.shorter m m' hm hparse
        exact Nat.le_trans (hnext.shorter m' m'' (Nat.le_trans hle hm) hbind) hle

theorem many (h : Ends n parse) (k : Nat) : Ends n (parseMany parse k) := by
  induction k with
  | zero => exact ok
  | succ k ih => exact h.bind ih

theorem ite {c : Prop} [Decidable c] (h : Ends n parse) (hnext : Ends n next) :
    Ends n fun m => if c then parse m else next m := by
  split
  · exact h
  · exact hnext

/-- A routine that steps over the first byte. -/
theorem skip {f : UInt8 → List UInt8 → Except Stop (List UInt8)} (h : ∀ b, Ends n (f b))
    (hnil : parse [] = .error .fault) (hcons : ∀ b rest, parse (b :: rest) = f b rest) :
    Ends (n + 1) parse := by
  constructor
  · intro m hm
    cases m with
    | nil =>
        rw [hnil]
        intro h
        cases h
    | cons b rest =>
        rw [hcons]
        exact (h b).notDeep rest (Nat.le_of_succ_le_succ hm)
  · intro m m' hm hok
    cases m with
    | nil =>
        rw [hnil] at hok
        cases hok
    | cons b rest =>
        rw [hcons] at hok
        exact Nat.le_succ_of_le ((h b).shorter rest m' (Nat.le_of_succ_le_succ hm) hok)

/-- A routine that decides by the first byte whether it steps over it. -/
theorem look {f : UInt8 → List UInt8 → Except Stop (List UInt8)} {c : UInt8 → Prop}
    [DecidablePred c] (h : ∀ b, Ends n (f b)) (hnext : Ends n next)
    (hnil : parse [] = .error .fault)
    (hcons : ∀ b rest, parse (b :: rest) = if c b then f b rest else next (b :: rest)) :
    Ends n parse := by
  constructor
  · intro m hm
    cases m with
    | nil =>
        rw [hnil]
        intro h
        cases h
    | cons b rest =>
        rw [hcons]
        split
        · exact (h b).notDeep rest (Nat.le_trans (Nat.le_succ _) hm)
        · exact hnext.notDeep _ hm
  · intro m m' hm hok
    cases m with
    | nil =>
        rw [hnil] at hok
        cases hok
    | cons b rest =>
        rw [hcons] at hok
        split at hok
        · have hle := (h b).shorter rest m' (Nat.le_trans (Nat.le_succ _) hm) hok
          exact Nat.le_succ_of_le hle
        · exact hnext.shorter _ m' hm hok

/-- What a number is followed by. -/
theorem parseNumber_bind {f : Nat → List UInt8 → Except Stop (List UInt8)}
    (h : ∀ k, Ends n (f k)) : Ends n fun m => (parseNumber m).bind fun r => f r.1 r.2 := by
  have hdeep : ∀ m, parseNumber m ≠ .error .tooDeep := by
    intro m
    cases m with
    | nil =>
        intro h
        cases h
    | cons b rest =>
        rw [parseNumber]
        cases CorSigUncompressData (b :: rest) with
        | none =>
            simp only
            split <;> exact fun h => by cases h
        | some r =>
            intro h
            cases h
  have hshorter : ∀ m k m', parseNumber m = .ok (k, m') → m'.length ≤ m.length := by
    intro m k m' hnumber
    cases m with
    | nil => cases hnumber
    | cons b rest =>
        rw [parseNumber] at hnumber
        cases hdata : CorSigUncompressData (b :: rest) with
        | none =>
            rw [hdata] at hnumber
            simp only at hnumber
            split at hnumber <;> cases hnumber
        | some r =>
            rw [hdata] at hnumber
            obtain ⟨-, rfl⟩ := Prod.mk.inj (Except.ok.inj hnumber)
            rw [List.length_drop]
            exact Nat.sub_le _ _
  constructor
  · intro m hm
    cases hnumber : parseNumber m with
    | error s =>
        intro hs
        obtain rfl := Except.error.inj hs
        exact hdeep m hnumber
    | ok r => exact (h r.1).notDeep r.2 (Nat.le_trans (hshorter m r.1 r.2 hnumber) hm)
  · intro m m' hm hbind
    cases hnumber : parseNumber m with
    | error s =>
        rw [hnumber] at hbind
        cases hbind
    | ok r =>
        rw [hnumber] at hbind
        have hle := hshorter m r.1 r.2 hnumber
        exact Nat.le_trans ((h r.1).shorter r.2 m' (Nat.le_trans hle hm) hbind) hle

theorem number : Ends n fun m => (parseNumber m).map Prod.snd := by
  have h := parseNumber_bind (n := n) (f := fun _ m => .ok m) fun _ => ok
  have heq : (fun m => (parseNumber m).map Prod.snd) =
      fun m => (parseNumber m).bind fun r => .ok r.2 := by
    funext m
    cases parseNumber m with
    | error s => rfl
    | ok r => rfl
  rw [heq]
  exact h

theorem parseOptionalCustomMods {fuel : Nat} (hfuel : n < fuel) :
    Ends n (SigHelpers.parseOptionalCustomMods fuel) := by
  induction fuel generalizing n with
  | zero => exact absurd hfuel (Nat.not_lt_zero n)
  | succ fuel ih =>
      constructor
      · intro m hm
        cases m with
        | nil =>
            intro h
            cases h
        | cons b rest =>
            rw [SigHelpers.parseOptionalCustomMods]
            rw [List.length_cons] at hm
            split
            · exact (number.bind (ih (n := n - 1) (by omega))).notDeep rest (by omega)
            · intro h
              cases h
      · intro m m' hm hok
        cases m with
        | nil => cases hok
        | cons b rest =>
            rw [SigHelpers.parseOptionalCustomMods] at hok
            rw [List.length_cons] at hm ⊢
            split at hok
            · have hle := (number.bind (ih (n := n - 1) (by omega))).shorter rest m' (by omega) hok
              omega
            · obtain rfl := Except.ok.inj hok
              exact Nat.le_refl _

theorem parseArrayShape : Ends n SigHelpers.parseArrayShape :=
  parseNumber_bind fun _ => parseNumber_bind fun k =>
    (number.many k).bind (parseNumber_bind fun k => number.many k)

theorem parseByRefType (h : Ends n parse) : Ends n (SigHelpers.parseByRefType parse) :=
  look (c := fun b => b = byRef) (fun _ => h) h rfl fun _ _ => rfl

/-- What modifiers are followed by. -/
theorem mods_bind {fuel : Nat} (hfuel : n < fuel) (h : Ends n next) :
    Ends n fun m => (SigHelpers.parseOptionalCustomMods fuel m).bind next :=
  (parseOptionalCustomMods hfuel).bind h

theorem parseRetType (h : Ends n parse) {fuel : Nat} (hfuel : n < fuel) :
    Ends n (SigHelpers.parseRetType parse fuel) :=
  mods_bind hfuel (look (c := fun b => b = typedByRef ∨ b = void) (fun _ => ok)
    (parseByRefType h) rfl fun _ _ => rfl)

theorem parseParam (h : Ends n parse) {fuel : Nat} (hfuel : n < fuel) :
    Ends n (SigHelpers.parseParam parse fuel) :=
  mods_bind hfuel (look (c := fun b => b = typedByRef) (fun _ => ok)
    (parseByRefType h) rfl fun _ _ => rfl)

theorem parseParams (h : Ends n parse) {fuel : Nat} (hfuel : n < fuel) (k : Nat)
    (sentinelFound : Bool) : Ends n (SigHelpers.parseParams parse fuel k sentinelFound) := by
  induction k generalizing sentinelFound with
  | zero => exact ok
  | succ k ih =>
      refine look (c := fun b => b = CorElementType.sentinel)
        (f := fun _ rest => if sentinelFound then .error .returnsFalse
          else (SigHelpers.parseParam parse fuel rest).bind
            (SigHelpers.parseParams parse fuel k true)) (fun b => ?_)
        ((parseParam h hfuel).bind (ih sentinelFound)) rfl fun _ _ => rfl
      cases sentinelFound with
      | true => exact error (by decide)
      | false => exact (parseParam h hfuel).bind (ih true)

theorem parseMethod (h : Ends n parse) {fuel : Nat} (hfuel : n < fuel) :
    Ends n (SigHelpers.parseMethod parse fuel) := by
  have hcount : Ends n fun m => (parseNumber m).bind fun r =>
      (SigHelpers.parseRetType parse fuel r.2).bind
        (SigHelpers.parseParams parse fuel r.1 false) :=
    parseNumber_bind fun k => (parseRetType h hfuel).bind (parseParams h hfuel k false)
  refine look (c := fun b => b = callConvGeneric) (fun _ => number.bind hcount) hcount rfl
    fun b rest => ?_
  rw [SigHelpers.parseMethod]
  split <;> rfl

theorem parsePtr (h : Ends n parse) {fuel : Nat} (hfuel : n < fuel) :
    Ends n (SigHelpers.parsePtr parse fuel) :=
  mods_bind hfuel (look (c := fun b => b = void) (fun _ => ok) h rfl fun _ _ => rfl)

theorem parseGenericInst (h : Ends n parse) : Ends n (SigHelpers.parseGenericInst parse) := by
  refine look (c := fun b => ¬(b ≠ valueType ∧ b ≠ class_))
    (fun _ => number.bind (parseNumber_bind fun k => h.many k))
    (error (by decide) : Ends n fun _ => .error .returnsFalse) rfl fun b rest => ?_
  rw [SigHelpers.parseGenericInst, ite_not]
  rfl

theorem parseTypeOf (h : Ends n parse) {fuel : Nat} (hfuel : n < fuel) (e : UInt8) :
    Ends n (SigHelpers.parseTypeOf parse fuel e) :=
  ok.ite <| (parsePtr h hfuel).ite <| number.ite <| (parseMethod h hfuel).ite <|
    (h.bind parseArrayShape).ite <| (mods_bind hfuel h).ite <| (parseGenericInst h).ite <|
      number.ite (error (by decide))

end Ends

/-- The recursion ends if the fuel is more than the memory. -/
theorem ends_parseTypeFuel {n fuel : Nat} (hfuel : n < fuel) : Ends n (parseTypeFuel fuel) := by
  induction fuel generalizing n with
  | zero => exact absurd hfuel (Nat.not_lt_zero n)
  | succ fuel ih =>
      cases n with
      | zero =>
          constructor
          · intro m hm
            obtain rfl := List.length_eq_zero_iff.mp (Nat.le_zero.mp hm)
            intro h
            cases h
          · intro m m' hm hok
            obtain rfl := List.length_eq_zero_iff.mp (Nat.le_zero.mp hm)
            cases hok
      | succ n =>
          have hlt : n < fuel := Nat.lt_of_succ_lt_succ hfuel
          exact Ends.skip (fun e => Ends.parseTypeOf (ih hlt) hlt e) rfl fun _ _ => rfl

/-- **The parser does not run out of fuel.** -/
theorem parseType_ne_tooDeep (memory : List UInt8) : parseType memory ≠ .error .tooDeep :=
  (ends_parseTypeFuel (Nat.lt_succ_self memory.length)).notDeep memory (Nat.le_refl _)

end DdTrace.Profiler.SigHelpers
