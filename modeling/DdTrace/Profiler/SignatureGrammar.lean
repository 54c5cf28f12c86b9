import Mathlib.Algebra.Group.Int.Defs
import Mathlib.Algebra.Ring.Nat
import DdTrace.Lib.Descent
import DdTrace.Lib.FiniteChecks

/-!
# The grammar of method signatures

A method signature is a byte string: the calling convention, the number of generic parameters if
the method is generic, the number of parameters, the return type and the parameters.

* `Encodes w n`: `w` is the number `n` in one, two or four bytes.
* `IsType leaf place w`: `w` is a type that stands at `place`, where `leaf place` says which bytes
  alone are types there. `supported` are the bytes the comment of the parser lists; `accepted` are
  the ones its switch lets pass.
* `SignatureParts`: the pieces of a signature, and `Derives` the rules they follow.
* `CutType`, `CutParam`, `CutSignature`: strings that end where a routine of the parser looks at
  the next byte before it asks whether there is one.

Sources: `lib/coreclr/src/inc/corhdr.h`, `CorElementType`; `clr_helpers.cpp`, lines 1433 to 1704.
-/

namespace DdTrace.Profiler

/-! ## Element types

Source: `corhdr.h`, `CorElementType` -/

namespace CorElementType

/-- `ELEMENT_TYPE_VOID`. -/
abbrev void : UInt8 := 0x01
/-- `ELEMENT_TYPE_BOOLEAN`. -/
abbrev boolean : UInt8 := 0x02
/-- `ELEMENT_TYPE_CHAR`. -/
abbrev char : UInt8 := 0x03
/-- `ELEMENT_TYPE_I1`. -/
abbrev i1 : UInt8 := 0x04
/-- `ELEMENT_TYPE_U1`. -/
abbrev u1 : UInt8 := 0x05
/-- `ELEMENT_TYPE_I2`. -/
abbrev i2 : UInt8 := 0x06
/-- `ELEMENT_TYPE_U2`. -/
abbrev u2 : UInt8 := 0x07
/-- `ELEMENT_TYPE_I4`. -/
abbrev i4 : UInt8 := 0x08
/-- `ELEMENT_TYPE_U4`. -/
abbrev u4 : UInt8 := 0x09
/-- `ELEMENT_TYPE_I8`. -/
abbrev i8 : UInt8 := 0x0A
/-- `ELEMENT_TYPE_U8`. -/
abbrev u8 : UInt8 := 0x0B
/-- `ELEMENT_TYPE_R4`. -/
abbrev r4 : UInt8 := 0x0C
/-- `ELEMENT_TYPE_R8`. -/
abbrev r8 : UInt8 := 0x0D
/-- `ELEMENT_TYPE_STRING`. -/
abbrev string : UInt8 := 0x0E
/-- `ELEMENT_TYPE_PTR`. -/
abbrev ptr : UInt8 := 0x0F
/-- `ELEMENT_TYPE_BYREF`. -/
abbrev byRef : UInt8 := 0x10
/-- `ELEMENT_TYPE_VALUETYPE`. -/
abbrev valueType : UInt8 := 0x11
/-- `ELEMENT_TYPE_CLASS`. -/
abbrev class_ : UInt8 := 0x12
/-- `ELEMENT_TYPE_VAR`. -/
abbrev var : UInt8 := 0x13
/-- `ELEMENT_TYPE_ARRAY`. -/
abbrev array : UInt8 := 0x14
/-- `ELEMENT_TYPE_GENERICINST`. -/
abbrev genericInst : UInt8 := 0x15
/-- `ELEMENT_TYPE_TYPEDBYREF`. -/
abbrev typedByRef : UInt8 := 0x16
/-- `ELEMENT_TYPE_I`. -/
abbrev i : UInt8 := 0x18
/-- `ELEMENT_TYPE_U`. -/
abbrev u : UInt8 := 0x19
/-- `ELEMENT_TYPE_FNPTR`. -/
abbrev fnPtr : UInt8 := 0x1B
/-- `ELEMENT_TYPE_OBJECT`. -/
abbrev object : UInt8 := 0x1C
/-- `ELEMENT_TYPE_SZARRAY`. -/
abbrev szArray : UInt8 := 0x1D
/-- `ELEMENT_TYPE_MVAR`. -/
abbrev mVar : UInt8 := 0x1E
/-- `ELEMENT_TYPE_CMOD_REQD`. -/
abbrev cmodReqd : UInt8 := 0x1F
/-- `ELEMENT_TYPE_CMOD_OPT`. -/
abbrev cmodOpt : UInt8 := 0x20
/-- `ELEMENT_TYPE_SENTINEL`. -/
abbrev sentinel : UInt8 := 0x41

end CorElementType

open CorElementType DdTrace.Lib

/-- `IMAGE_CEE_CS_CALLCONV_GENERIC`. -/
abbrev callConvGeneric : UInt8 := 0x10

/-- The cases of the switch under "simple types".
Source: `clr_helpers.cpp`, `ParseType` -/
def simpleTypes : List UInt8 :=
  [boolean, char, i1, u1, u2, i2, i4, u4, i8, u8, r4, r8, i, u, string, object]

theorem i4_mem_simpleTypes : i4 ∈ simpleTypes := by decide

/-- All cases of the switch.
Source: `clr_helpers.cpp`, `ParseType` -/
def switchCases : List UInt8 :=
  simpleTypes ++ [ptr, class_, valueType, fnPtr, array, szArray, genericInst, var, mVar]

/-! ## Numbers -/

/-- A number in the variable length format. -/
inductive Encodes : List UInt8 → Nat → Prop
  /-- One byte, with the high bit clear. -/
  | one (b : UInt8) : b < 0x80 → Encodes [b] b.toNat
  /-- Two bytes, the first from `0x80` to `0xBF`. -/
  | two (b₁ b₂ : UInt8) : 0x80 ≤ b₁ → b₁ < 0xC0 →
      Encodes [b₁, b₂] ((b₁.toNat - 0x80) * 2 ^ 8 + b₂.toNat)
  /-- Four bytes, the first from `0xC0` to `0xDF`. -/
  | four (b₁ b₂ b₃ b₄ : UInt8) : 0xC0 ≤ b₁ → b₁ < 0xE0 →
      Encodes [b₁, b₂, b₃, b₄]
        ((b₁.toNat - 0xC0) * 2 ^ 24 + b₂.toNat * 2 ^ 16 + b₃.toNat * 2 ^ 8 + b₄.toNat)

theorem Encodes.ne_nil {w : List UInt8} {n : Nat} (h : Encodes w n) : w ≠ [] := by
  cases h with
  | one => exact List.cons_ne_nil _ _
  | two => exact List.cons_ne_nil _ _
  | four => exact List.cons_ne_nil _ _

/-! ## Types -/

/-- The places where a type stands. -/
inductive Place
  /-- The return type. -/
  | ret
  /-- A parameter. -/
  | param
  /-- The parameter behind the sentinel. -/
  | behindSentinel
  /-- Behind `BYREF`. -/
  | byRef
  /-- The element type of an array. -/
  | element
  /-- An argument of a generic type. -/
  | argument
  deriving DecidableEq, Repr

/-- The bytes that a routine tests for before it calls `ParseType` at a place.
Source: `clr_helpers.cpp`, `ParseType`, `ParseParam`, `ParseRetType` and
`FunctionMethodSignature::TryParse` -/
def testedAt : Place → List UInt8
  | .ret => [cmodOpt, cmodReqd, typedByRef, void, CorElementType.byRef]
  | .param => [CorElementType.sentinel, cmodOpt, cmodReqd, typedByRef, CorElementType.byRef]
  | .behindSentinel => [cmodOpt, cmodReqd, typedByRef, CorElementType.byRef]
  | .element => [cmodOpt, cmodReqd]
  | .byRef => []
  | .argument => []

/-- The bytes that the comment of `ParseType` lists as types. -/
def supported (_place : Place) (b : UInt8) : Prop := b ∈ simpleTypes

/-- The bytes that `ParseType` takes for a type: the ones it lists, and at each place the ones that
nothing tests for. -/
def accepted (place : Place) (b : UInt8) : Prop :=
  b ∈ simpleTypes ∨ (b ∉ switchCases ∧ b ∉ testedAt place)

instance (place : Place) (b : UInt8) : Decidable (supported place b) :=
  inferInstanceAs (Decidable (b ∈ simpleTypes))

instance (place : Place) (b : UInt8) : Decidable (accepted place b) :=
  inferInstanceAs (Decidable (b ∈ simpleTypes ∨ (b ∉ switchCases ∧ b ∉ testedAt place)))

theorem accepted_of_supported {place : Place} {b : UInt8} (h : supported place b) :
    accepted place b := .inl h

/-- The types at a place. -/
inductive IsType (leaf : Place → UInt8 → Prop) : Place → List UInt8 → Prop
  /-- A byte that is a type by itself. -/
  | leaf {place : Place} (b : UInt8) : leaf place b → IsType leaf place [b]
  /-- `CLASS`, `VALUETYPE`, `VAR` and `MVAR`, with a number. -/
  | numbered {place : Place} (e : UInt8) (w : List UInt8) (k : Nat) :
      e ∈ [class_, valueType, var, mVar] → Encodes w k → IsType leaf place (e :: w)
  /-- `SZARRAY Type`. -/
  | szArray {place : Place} (t : List UInt8) : IsType leaf .element t →
      IsType leaf place (szArray :: t)
  /-- `GENERICINST (CLASS | VALUETYPE) TypeDefOrRefEncoded GenArgCount Type*`. -/
  | genericInst {place : Place} (e : UInt8) (w c : List UInt8) (k n : Nat)
      (ts : List (List UInt8)) : e ∈ [class_, valueType] → Encodes w k → Encodes c n →
      ts.length = n → (∀ t ∈ ts, IsType leaf .argument t) →
      IsType leaf place (genericInst :: e :: (w ++ (c ++ ts.flatten)))

namespace IsType

variable {leaf : Place → UInt8 → Prop} {place : Place} {w : List UInt8}

theorem ne_nil (h : IsType leaf place w) : w ≠ [] := by
  cases h with
  | leaf => exact List.cons_ne_nil _ _
  | numbered => exact List.cons_ne_nil _ _
  | szArray => exact List.cons_ne_nil _ _
  | genericInst => exact List.cons_ne_nil _ _

/-- What the first byte of a type says about the rest. -/
theorem cons_iff {e : UInt8} {v : List UInt8} :
    IsType leaf place (e :: v) ↔
      (leaf place e ∧ v = []) ∨
      (e ∈ [class_, valueType, var, mVar] ∧ ∃ k, Encodes v k) ∨
      (e = CorElementType.szArray ∧ IsType leaf .element v) ∨
      (e = CorElementType.genericInst ∧
        IsType leaf place (CorElementType.genericInst :: v)) := by
  constructor
  · intro h
    cases h with
    | leaf b hb => exact .inl ⟨hb, rfl⟩
    | numbered e w k he hw => exact .inr (.inl ⟨he, k, hw⟩)
    | szArray t ht => exact .inr (.inr (.inl ⟨rfl, ht⟩))
    | genericInst e w c k n ts he hw hc hlen hts =>
        exact .inr (.inr (.inr ⟨rfl, .genericInst e w c k n ts he hw hc hlen hts⟩))
  · rintro (⟨he, rfl⟩ | ⟨he, k, hw⟩ | ⟨rfl, ht⟩ | ⟨rfl, h⟩)
    · exact .leaf e he
    · exact .numbered e v k he hw
    · exact .szArray v ht
    · exact h

/-- More bytes that are types by themselves make more types. -/
theorem mono {leaf' : Place → UInt8 → Prop} (hleaf : ∀ p b, leaf p b → leaf' p b)
    (h : IsType leaf place w) : IsType leaf' place w := by
  induction h with
  | leaf b hb => exact .leaf b (hleaf _ b hb)
  | numbered e w k he hw => exact .numbered e w k he hw
  | szArray t _ ih => exact .szArray t ih
  | genericInst e w c k n ts he hw hc hlen _ ih => exact .genericInst e w c k n ts he hw hc hlen ih

end IsType

/-- No byte of the switch is tested for before. -/
theorem not_tested_of_mem_switchCases :
    (place : Place) → ∀ b ∈ switchCases, b ∉ testedAt place
  | .ret | .param | .behindSentinel | .byRef | .element | .argument =>
      forall_mem_of_all (by decide)

/-- The bytes with a number behind them are cases of the switch. -/
theorem mem_switchCases_of_numbered :
    ∀ e ∈ [class_, valueType, var, mVar], e ∈ switchCases :=
  forall_mem_of_all (by decide)

theorem mem_switchCases_of_simple {b : UInt8} (h : b ∈ simpleTypes) : b ∈ switchCases :=
  List.mem_append_left _ h

/-- At a place with tests a type is any type that does not start with a byte tested for. -/
theorem isType_place (place : Place) {w : List UInt8} :
    IsType accepted place w ↔
      IsType accepted .argument w ∧ ∀ b v, w = b :: v → b ∉ testedAt place := by
  have hhead : ∀ e ∈ switchCases, ∀ (t : List UInt8) (b : UInt8) (v : List UInt8),
      e :: t = b :: v → b ∉ testedAt place := by
    intro e he t b v heq
    rw [← (List.cons.inj heq).1]
    exact not_tested_of_mem_switchCases place e he
  constructor
  · intro h
    cases h with
    | leaf b hb =>
        rcases hb with hb | ⟨hb, htest⟩
        · exact ⟨.leaf b (.inl hb), hhead b (mem_switchCases_of_simple hb) []⟩
        · refine ⟨.leaf b (.inr ⟨hb, List.not_mem_nil⟩), fun b' v heq => ?_⟩
          rwa [← (List.cons.inj heq).1]
    | numbered e w k he hw =>
        exact ⟨.numbered e w k he hw, hhead e (mem_switchCases_of_numbered e he) w⟩
    | szArray t ht => exact ⟨.szArray t ht, hhead _ (by decide) t⟩
    | genericInst e w c k n ts he hw hc hlen hts =>
        exact ⟨.genericInst e w c k n ts he hw hc hlen hts, hhead _ (by decide) _⟩
  · rintro ⟨h, htest⟩
    cases h with
    | leaf b hb =>
        refine .leaf b ?_
        rcases hb with hb | ⟨hb, -⟩
        · exact .inl hb
        · exact .inr ⟨hb, htest b [] rfl⟩
    | numbered e w k he hw => exact .numbered e w k he hw
    | szArray t ht => exact .szArray t ht
    | genericInst e w c k n ts he hw hc hlen hts =>
        exact .genericInst e w c k n ts he hw hc hlen hts

/-- `[BYREF] Type` at a place. -/
def IsByRefType (leaf : Place → UInt8 → Prop) (place : Place) (w : List UInt8) : Prop :=
  IsType leaf place w ∨ ∃ t, w = CorElementType.byRef :: t ∧ IsType leaf .byRef t

/-- A return type: `VOID | [BYREF] Type`. -/
def IsRetType (leaf : Place → UInt8 → Prop) (w : List UInt8) : Prop :=
  w = [void] ∨ IsByRefType leaf .ret w

theorem IsByRefType.mono {leaf leaf' : Place → UInt8 → Prop} {place : Place} {w : List UInt8}
    (hleaf : ∀ p b, leaf p b → leaf' p b) (h : IsByRefType leaf place w) :
    IsByRefType leaf' place w := by
  rcases h with h | ⟨t, rfl, ht⟩
  · exact .inl (h.mono hleaf)
  · exact .inr ⟨t, rfl, ht.mono hleaf⟩

theorem isType_byRef_place {w : List UInt8} :
    IsType accepted .byRef w ↔ IsType accepted .argument w := by
  rw [isType_place .byRef]
  exact and_iff_left fun b v _ => List.not_mem_nil

/-- An optional `BYREF` and a type, by the first byte. -/
theorem isByRefType_iff {place : Place} {w : List UInt8}
    (hplace : CorElementType.byRef ∈ testedAt place) :
    IsByRefType accepted place w ↔ ∃ b v, w = b :: v ∧
      if b = CorElementType.byRef then IsType accepted .argument v
      else b ∉ testedAt place ∧ IsType accepted .argument w := by
  constructor
  · rintro (h | ⟨t, rfl, ht⟩)
    · obtain ⟨h, hhead⟩ := (isType_place place).mp h
      rcases w with _ | ⟨b, v⟩
      · exact absurd rfl h.ne_nil
      · have hb : b ≠ CorElementType.byRef := fun heq => hhead b v rfl (by rwa [heq])
        refine ⟨b, v, rfl, ?_⟩
        rw [if_neg hb]
        exact ⟨hhead b v rfl, h⟩
    · refine ⟨_, t, rfl, ?_⟩
      rw [if_pos rfl]
      exact isType_byRef_place.mp ht
  · rintro ⟨b, v, rfl, h⟩
    split_ifs at h with hb
    · exact .inr ⟨v, by rw [hb], isType_byRef_place.mpr h⟩
    · refine .inl ((isType_place place).mpr ⟨h.2, fun b' v' heq => ?_⟩)
      rw [← (List.cons.inj heq).1]
      exact h.1

theorem IsByRefType.ne_nil {leaf : Place → UInt8 → Prop} {place : Place} {w : List UInt8}
    (h : IsByRefType leaf place w) : w ≠ [] := by
  rcases h with h | ⟨t, rfl, -⟩
  · exact h.ne_nil
  · exact List.cons_ne_nil _ _

/-! ## Signatures -/

/-- A parameter of a signature. -/
structure ParamParts where
  /-- Does the sentinel stand before it? -/
  sentinel : Bool
  /-- Its bytes, without the sentinel. -/
  type : List UInt8
  deriving DecidableEq, Repr

namespace ParamParts

/-- The bytes of a parameter with its sentinel. -/
def bytes (p : ParamParts) : List UInt8 :=
  if p.sentinel then CorElementType.sentinel :: p.type else p.type

/-- Where the type of a parameter stands. -/
def place (p : ParamParts) : Place := if p.sentinel then .behindSentinel else .param

end ParamParts

/-- The number of sentinels. -/
def sentinels (ps : List ParamParts) : Nat := ps.countP ParamParts.sentinel

/-- The calling convention and the counts. -/
structure HeaderParts where
  /-- The calling convention. -/
  callConv : UInt8
  /-- The bytes of the number of generic parameters. -/
  genParamCount : List UInt8
  /-- The bytes of the number of parameters. -/
  paramCount : List UInt8
  deriving DecidableEq, Repr

namespace HeaderParts

/-- The bytes of a header. -/
def bytes (s : HeaderParts) : List UInt8 := s.callConv :: (s.genParamCount ++ s.paramCount)

/-- The rules for a header with `arity` generic parameters and `count` parameters. -/
structure Derives (s : HeaderParts) (arity count : Nat) : Prop where
  /-- A generic method has a count of its generic parameters. -/
  generic : s.callConv &&& callConvGeneric ≠ 0 → Encodes s.genParamCount arity
  /-- Any other method has none. -/
  notGeneric : s.callConv &&& callConvGeneric = 0 → s.genParamCount = [] ∧ arity = 0
  /-- Every method has a count of its parameters. -/
  paramCount : Encodes s.paramCount count

end HeaderParts

/-- The pieces of a signature. -/
structure SignatureParts where
  /-- The header. -/
  header : HeaderParts
  /-- The bytes of the return type. -/
  ret : List UInt8
  /-- The parameters. -/
  params : List ParamParts
  deriving DecidableEq, Repr

namespace SignatureParts

/-- The bytes of a signature. -/
def bytes (s : SignatureParts) : List UInt8 :=
  s.header.bytes ++ (s.ret ++ s.params.flatMap ParamParts.bytes)

end SignatureParts

/-- The rules for `count` parameters, at most `limit` of them with a sentinel. -/
structure DeriveParams (leaf : Place → UInt8 → Prop) (count limit : Nat) (ps : List ParamParts) :
    Prop where
  /-- There are as many as the count says. -/
  length : ps.length = count
  /-- Each one is an optional `BYREF` and a type. -/
  types : ∀ p ∈ ps, IsByRefType leaf p.place p.type
  /-- The sentinels are within the limit. -/
  sentinels : sentinels ps ≤ limit

/-- The rules for a signature. -/
structure SignatureParts.Derives (leaf : Place → UInt8 → Prop) (s : SignatureParts)
    (arity count : Nat) : Prop where
  /-- The header. -/
  header : s.header.Derives arity count
  /-- The return type. -/
  ret : IsRetType leaf s.ret
  /-- The parameters, with at most one sentinel among them. -/
  params : DeriveParams leaf count 1 s.params

/-! ## Strings that end too early -/

/-- A type that ends behind an `SZARRAY`. -/
inductive CutType : List UInt8 → Prop
  /-- There is nothing behind `SZARRAY`. -/
  | here : CutType [szArray]
  /-- The element type of an array ends too early. -/
  | element (t : List UInt8) : CutType t → CutType (szArray :: t)
  /-- An argument of a generic type ends too early. -/
  | argument (e : UInt8) (w c : List UInt8) (k n : Nat) (ts : List (List UInt8))
      (t : List UInt8) : e ∈ [class_, valueType] → Encodes w k → Encodes c n → ts.length < n →
      (∀ t ∈ ts, IsType accepted .argument t) → CutType t →
      CutType (genericInst :: e :: (w ++ (c ++ (ts.flatten ++ t))))

/-- A type that ends too early starts with `SZARRAY` or `GENERICINST`. -/
theorem CutType.head {r : List UInt8} (h : CutType r) :
    ∃ b v, r = b :: v ∧ (b = szArray ∨ b = genericInst) := by
  cases h with
  | here => exact ⟨_, _, rfl, .inl rfl⟩
  | element => exact ⟨_, _, rfl, .inl rfl⟩
  | argument => exact ⟨_, _, rfl, .inr rfl⟩

/-- What the first byte of a type that ends too early says about the rest. -/
theorem CutType.cons_iff {e : UInt8} {r : List UInt8} :
    CutType (e :: r) ↔
      (e = szArray ∧ (r = [] ∨ CutType r)) ∨ (e = genericInst ∧ CutType (genericInst :: r)) := by
  constructor
  · intro h
    cases h with
    | here => exact .inl ⟨rfl, .inl rfl⟩
    | element t ht => exact .inl ⟨rfl, .inr ht⟩
    | argument e w c k n ts t he hw hc hlen hts ht =>
        exact .inr ⟨rfl, .argument e w c k n ts t he hw hc hlen hts ht⟩
  · rintro (⟨rfl, rfl | h⟩ | ⟨rfl, h⟩)
    · exact .here
    · exact .element r h
    · exact h

theorem CutType.ne_nil {r : List UInt8} (h : CutType r) : r ≠ [] := by
  cases h with
  | here => exact List.cons_ne_nil _ _
  | element => exact List.cons_ne_nil _ _
  | argument => exact List.cons_ne_nil _ _

/-- A parameter or return type that ends too early. -/
def CutByRefType (r : List UInt8) : Prop :=
  CutType r ∨ ∃ t, r = CorElementType.byRef :: t ∧ CutType t

/-- A parameter or return type that ends too early, by the first byte. -/
theorem cutByRefType_iff {r : List UInt8} :
    CutByRefType r ↔ ∃ b v, r = b :: v ∧
      if b = CorElementType.byRef then CutType v else CutType r := by
  constructor
  · rintro (h | ⟨t, rfl, ht⟩)
    · obtain ⟨b, v, rfl, hb⟩ := h.head
      refine ⟨b, v, rfl, ?_⟩
      rw [if_neg (by rcases hb with rfl | rfl <;> decide)]
      exact h
    · exact ⟨_, t, rfl, by rwa [if_pos rfl]⟩
  · rintro ⟨b, v, rfl, h⟩
    split_ifs at h with hb
    · exact .inr ⟨v, by rw [hb], h⟩
    · exact .inl h

/-- What ends too early starts with `BYREF`, `SZARRAY` or `GENERICINST`. -/
theorem CutByRefType.head {r : List UInt8} (h : CutByRefType r) :
    ∃ b v, r = b :: v ∧ b ∈ [CorElementType.byRef, szArray, genericInst] := by
  rcases h with h | ⟨t, rfl, -⟩
  · obtain ⟨b, v, rfl, rfl | rfl⟩ := h.head
    · exact ⟨_, v, rfl, by decide⟩
    · exact ⟨_, v, rfl, by decide⟩
  · exact ⟨_, t, rfl, by decide⟩

/-- The rest of a parameter list that ends too early, where `seen` says whether there was a
sentinel: in a type, or right behind the first sentinel. -/
def CutParam (seen : Bool) (r : List UInt8) : Prop :=
  CutByRefType r ∨
    (seen = false ∧ ∃ t, r = CorElementType.sentinel :: t ∧ (t = [] ∨ CutByRefType t))

/-- A signature that ends right behind the header, in the return type behind an `SZARRAY`, or in a
parameter. -/
inductive CutSignature : List UInt8 → Prop
  /-- It ends behind the header. -/
  | header (s : HeaderParts) (arity count : Nat) : s.Derives arity count → CutSignature s.bytes
  /-- It ends in the return type. -/
  | ret (s : HeaderParts) (arity count : Nat) (r : List UInt8) : s.Derives arity count →
      CutByRefType r → CutSignature (s.bytes ++ r)
  /-- It ends in a parameter. -/
  | param (s : HeaderParts) (arity count : Nat) (t : List UInt8) (ps : List ParamParts)
      (r : List UInt8) : s.Derives arity count → IsRetType accepted t → ps.length < count →
      (∀ p ∈ ps, IsByRefType accepted p.place p.type) → sentinels ps ≤ 1 →
      CutParam (decide (sentinels ps = 1)) r →
      CutSignature (s.bytes ++ (t ++ (ps.flatMap ParamParts.bytes ++ r)))

end DdTrace.Profiler
