import DdTrace.Profiler.SignatureParser

/-!
# The readers of a method signature

What the profiler finds in the bytes of a method signature.

* `slice_report`: what is reported are the slices of the pieces.
* `tryParse_supported_iff`: the parser takes the supported grammar exactly if the bytes do not start
  with a signature that has another byte where a type is expected.
* `tryParse_reads_iff`: no byte behind the end is read exactly if the input is not cut short where
  a routine looks ahead.
* `MethodSignature`: the other reader, which finds the counts at fixed places. The two agree
  exactly if each count takes one byte.

Sources: `clr_helpers.cpp`, lines 1426 to 1704; `integration.h`, lines 162 to 222.
-/

namespace DdTrace.Profiler

open DdTrace.Lib.Descent CorElementType

/-! ## The pieces of a signature -/

/-- The bytes of a reported slice. -/
def FunctionMethodArgument.slice (bytes : List UInt8) (a : FunctionMethodArgument) : List UInt8 :=
  (bytes.drop a.offset).take a.length

theorem slice_of_drop {bytes t v : List UInt8} {pos : Nat} (h : bytes.drop pos = t ++ v) :
    FunctionMethodArgument.slice bytes ⟨pos, t.length⟩ = t := by
  rw [FunctionMethodArgument.slice, h, List.take_left]

/-- The slices of the parameters are their types, in order. -/
theorem slice_paramArguments {bytes v : List UInt8} {pos : Nat} {ps : List ParamParts}
    (h : bytes.drop pos = ps.flatMap ParamParts.bytes ++ v) :
    (paramArguments pos ps).map (FunctionMethodArgument.slice bytes) =
      ps.map ParamParts.type := by
  induction ps generalizing pos with
  | nil => rfl
  | cons p ps ih =>
      rw [List.flatMap_cons, List.append_assoc] at h
      have hnext : bytes.drop (pos + p.bytes.length) = ps.flatMap ParamParts.bytes ++ v := by
        rw [← List.drop_drop, h, List.drop_left]
      rw [paramArguments, List.map_cons, List.map_cons, ih hnext]
      congr 1
      refine slice_of_drop (?_ : _ = _ ++ (ps.flatMap ParamParts.bytes ++ v))
      · rcases p with ⟨s, t⟩
        cases s with
        | true =>
            have hlen : (ParamParts.bytes ⟨true, t⟩).length - t.length = 1 := by
              simp [ParamParts.bytes]
            rw [hlen, ← List.drop_drop, h]
            rfl
        | false =>
            have hlen : (ParamParts.bytes ⟨false, t⟩).length - t.length = 0 := by
              simp [ParamParts.bytes]
            rw [hlen, Nat.add_zero, h]
            rfl

theorem length_paramArguments (pos : Nat) (ps : List ParamParts) :
    (paramArguments pos ps).length = ps.length := by
  induction ps generalizing pos with
  | nil => rfl
  | cons p ps ih => rw [paramArguments, List.length_cons, List.length_cons, ih]

/-- **What is reported.** The return type and the parameters are the slices of the pieces, and
there are as many parameters as the count says. -/
theorem slice_report {leaf : Place → UInt8 → Prop} {s : SignatureParts} {arity count : Nat}
    {bytes : List UInt8} (hs : s.Derives leaf arity count) (hpre : s.bytes <+: bytes) :
    (s.report 0 arity count).ret.slice bytes = s.ret ∧
      (s.report 0 arity count).params.map (FunctionMethodArgument.slice bytes) =
        s.params.map ParamParts.type ∧
      (s.report 0 arity count).params.length = (s.report 0 arity count).numberOfArguments := by
  obtain ⟨v, rfl⟩ := hpre
  have hret : (s.bytes ++ v).drop (0 + s.header.bytes.length) =
      s.ret ++ (s.params.flatMap ParamParts.bytes ++ v) := by
    rw [Nat.zero_add, SignatureParts.bytes, List.append_assoc, List.append_assoc, List.drop_left]
  have hparams : (s.bytes ++ v).drop (0 + s.header.bytes.length + s.ret.length) =
      s.params.flatMap ParamParts.bytes ++ v := by
    rw [← List.drop_drop, hret, List.drop_left]
  refine ⟨slice_of_drop hret, slice_paramArguments hparams, ?_⟩
  exact (length_paramArguments _ _).trans hs.params.length

/-- Two signatures that start the same bytes have the same types. -/
theorem types_unique {s s' : SignatureParts} {arity arity' count count' : Nat}
    {bytes : List UInt8} (hs : s.Derives accepted arity count) (hpre : s.bytes <+: bytes)
    (hs' : s'.Derives accepted arity' count') (hpre' : s'.bytes <+: bytes) :
    s.report 0 arity count = s'.report 0 arity' count' ∧ s.ret = s'.ret ∧
      s.params.map ParamParts.type = s'.params.map ParamParts.type := by
  have h := (tryParse_eq_some_iff bytes (fun _ => 0) _ _).mpr ⟨s, arity, count, hs, hpre, rfl, rfl⟩
  have h' := (tryParse_eq_some_iff bytes (fun _ => 0) _ _).mpr
    ⟨s', arity', count', hs', hpre', rfl, rfl⟩
  have hreport : s.report 0 arity count = s'.report 0 arity' count' :=
    congrArg Prod.fst (Option.some.inj (h.symm.trans h'))
  obtain ⟨hret, hparams, -⟩ := slice_report hs hpre
  obtain ⟨hret', hparams', -⟩ := slice_report hs' hpre'
  rw [hreport] at hret hparams
  exact ⟨hreport, hret.symm.trans hret', hparams.symm.trans hparams'⟩

/-! ## The supported grammar -/

/-- The supported types are the same at every place. -/
theorem isType_supported {place place' : Place} {w : List UInt8} (h : IsType supported place w) :
    IsType supported place' w := by
  cases h with
  | leaf b hb => exact .leaf b hb
  | numbered e w k he hw => exact .numbered e w k he hw
  | szArray t ht => exact .szArray t ht
  | genericInst e w c k n ts he hw hc hlen hts =>
      exact .genericInst e w c k n ts he hw hc hlen hts

theorem isByRefType_supported {place place' : Place} {w : List UInt8}
    (h : IsByRefType supported place w) : IsByRefType supported place' w := by
  rcases h with h | ⟨t, rfl, ht⟩
  · exact .inl (isType_supported h)
  · exact .inr ⟨t, rfl, ht⟩

theorem SignatureParts.Derives.accepted_of_supported {s : SignatureParts} {arity count : Nat}
    (h : s.Derives supported arity count) : s.Derives accepted arity count where
  header := h.header
  ret := h.ret.imp_right fun ht => ht.mono fun _ _ => Profiler.accepted_of_supported
  params :=
    { length := h.params.length
      types := fun p hp => (h.params.types p hp).mono fun _ _ => Profiler.accepted_of_supported
      sentinels := h.params.sentinels }

/-- A signature with the types of a supported one is supported. -/
theorem SignatureParts.Derives.supported_of_types {s s' : SignatureParts}
    {arity arity' count count' : Nat} (h : s.Derives accepted arity count)
    (h' : s'.Derives supported arity' count') (hret : s.ret = s'.ret)
    (htypes : s.params.map ParamParts.type = s'.params.map ParamParts.type) :
    s.Derives supported arity count where
  header := h.header
  ret := by rw [hret]; exact h'.ret
  params :=
    { length := h.params.length
      types := by
        intro p hp
        have hmem : p.type ∈ s'.params.map ParamParts.type := by
          rw [← htypes]
          exact List.mem_map_of_mem hp
        obtain ⟨p', hp', heq⟩ := List.mem_map.mp hmem
        rw [← heq]
        exact isByRefType_supported (h'.params.types p' hp')
      sentinels := h.params.sentinels }

/-- The bytes `bytes` are parsed as the supported grammar says: there is a result exactly if they
start with a supported signature, and it reports that signature. -/
def ParsesSupported (bytes : List UInt8) (beyond : Nat → UInt8) : Prop :=
  ∀ sig : FunctionMethodSignature,
    (∃ next, (FunctionMethodSignature.tryParse bytes beyond).result = some (sig, next)) ↔
      ∃ (s : SignatureParts) (arity count : Nat), s.Derives supported arity count ∧
        s.bytes <+: bytes ∧ sig = s.report 0 arity count

/-- The bytes start with a signature that has, where a type is expected, a byte that the switch
does not name. -/
def StartsWithUnnamed (bytes : List UInt8) : Prop :=
  ∃ (s : SignatureParts) (arity count : Nat), s.Derives accepted arity count ∧
    ¬ s.Derives supported arity count ∧ s.bytes <+: bytes

/-- **The parser takes the supported grammar exactly if the bytes do not start with a signature
that has a byte the switch does not name where a type is expected.** The switch has no default
case, so such a byte passes as a type of one byte. -/
theorem tryParse_supported_iff (bytes : List UInt8) (beyond : Nat → UInt8) :
    ParsesSupported bytes beyond ↔ ¬ StartsWithUnnamed bytes := by
  constructor
  · rintro h ⟨s, arity, count, hs, hnot, hpre⟩
    have hresult := (tryParse_eq_some_iff bytes beyond _ _).mpr
      ⟨s, arity, count, hs, hpre, rfl, rfl⟩
    obtain ⟨s', arity', count', hs', hpre', -⟩ := (h _).mp ⟨_, hresult⟩
    obtain ⟨-, hret, htypes⟩ := types_unique hs hpre hs'.accepted_of_supported hpre'
    exact hnot (hs.supported_of_types hs' hret htypes)
  · intro h sig
    constructor
    · rintro ⟨next, hresult⟩
      obtain ⟨s, arity, count, hs, hpre, rfl, -⟩ := (tryParse_eq_some_iff bytes beyond _ _).mp hresult
      refine ⟨s, arity, count, ?_, hpre, rfl⟩
      by_contra hnot
      exact h ⟨s, arity, count, hs, hnot, hpre⟩
    · rintro ⟨s, arity, count, hs, hpre, rfl⟩
      exact ⟨_, (tryParse_eq_some_iff bytes beyond _ _).mpr
        ⟨s, arity, count, hs.accepted_of_supported, hpre, rfl, rfl⟩⟩

/-- A supported type starts with a byte of the switch. -/
theorem supported_head {place : Place} {b : UInt8} {v : List UInt8}
    (h : IsType supported place (b :: v)) : b ∈ switchCases := by
  rcases IsType.cons_iff.mp h with ⟨hb, -⟩ | ⟨hb, -⟩ | ⟨rfl, -⟩ | ⟨rfl, -⟩
  · exact mem_switchCases_of_simple hb
  · exact mem_switchCases_of_numbered b hb
  · decide
  · decide

/-- A method with a parameter of the type `int32 modopt(...)&`: the modifier behind `BYREF` is
taken for the type, and the rest of the parameter is left over. -/
theorem not_parsesSupported_byRef_modOpt :
    ¬ ParsesSupported [0x00, 0x01, 0x01, 0x10, 0x20, 0x05, 0x08] (fun _ => 0) := by
  intro h
  have hresult : (FunctionMethodSignature.tryParse [0x00, 0x01, 0x01, 0x10, 0x20, 0x05, 0x08]
      (fun _ => 0)).result = some (⟨0, 1, ⟨2, 1⟩, [⟨3, 2⟩]⟩, 5) := by
    decide
  obtain ⟨s, arity, count, hs, hpre, hsig⟩ := (h _).mp ⟨_, hresult⟩
  obtain ⟨-, htypes, -⟩ := slice_report hs hpre
  rw [← hsig] at htypes
  have hmem : [0x10, 0x20] ∈ s.params.map ParamParts.type := by
    rw [← htypes]
    decide
  obtain ⟨p, hp, heq⟩ := List.mem_map.mp hmem
  have htype := hs.params.types p hp
  rw [heq] at htype
  rcases htype with htype | ⟨t, ht, htype⟩
  · exact absurd (supported_head htype) (by decide)
  · rw [← (List.cons.inj ht).2] at htype
    exact absurd (supported_head htype) (by decide)

/-! ## Reads behind the end -/

/-- **No byte behind the end is read exactly if the input is not cut short where a routine looks
ahead**: right behind the header, behind the sentinel, or behind an `SZARRAY`. -/
theorem tryParse_reads_iff (bytes : List UInt8) (beyond : Nat → UInt8) :
    (∀ i ∈ (FunctionMethodSignature.tryParse bytes beyond).reads, i < bytes.length) ↔
      ¬ CutSignature bytes := by
  rw [← tryParse_overruns_iff bytes beyond]
  constructor
  · rintro h ⟨i, hi, hlen⟩
    exact absurd (h i hi) (Nat.not_lt.mpr hlen)
  · intro h i hi
    exact Nat.not_le.mp fun hlen => h ⟨i, hi, hlen⟩

/-- A signature that ends behind its header: `ParseRetType` looks at the byte behind it. -/
theorem not_reads_header_only :
    ¬ ∀ i ∈ (FunctionMethodSignature.tryParse [0x00, 0x00] (fun _ => 0)).reads,
      i < [(0x00 : UInt8), 0x00].length := by
  decide

/-! ## The reader with fixed places -/

/-- Source: `integration.h`, `MethodSignature` -/
structure MethodSignature where
  /-- The bytes. -/
  data : List UInt8
  deriving DecidableEq, Repr

namespace MethodSignature

/-- The byte `i`, which the callers know to be there. -/
def byte (s : MethodSignature) (i : Nat) : UInt8 := s.data.getD i 0

/-- Source: `integration.h`, `MethodSignature::CallingConvention` -/
def callingConvention (s : MethodSignature) : UInt8 := if s.data = [] then 0 else s.byte 0

/-- Source: `integration.h`, `MethodSignature::NumberOfTypeArguments` -/
def numberOfTypeArguments (s : MethodSignature) : Nat :=
  if s.data.length > 1 ∧ s.callingConvention &&& callConvGeneric ≠ 0 then (s.byte 1).toNat
  else 0

/-- Source: `integration.h`, `MethodSignature::NumberOfArguments` -/
def numberOfArguments (s : MethodSignature) : Nat :=
  if s.data.length > 2 ∧ s.callingConvention &&& callConvGeneric ≠ 0 then (s.byte 2).toNat
  else if s.data.length > 1 then (s.byte 1).toNat
  else 0

/-- Source: `integration.h`, `MethodSignature::IndexOfReturnType` -/
def indexOfReturnType (s : MethodSignature) : Nat :=
  if s.data.length > 2 ∧ s.callingConvention &&& callConvGeneric ≠ 0 then 3
  else if s.data.length > 1 then 2
  else 0

/-- The reader finds the counts and the return type where the parser does. -/
def Agrees (s : MethodSignature) (sig : FunctionMethodSignature) : Prop :=
  s.numberOfArguments = sig.numberOfArguments ∧
    s.numberOfTypeArguments = sig.numberOfTypeArguments ∧
    s.indexOfReturnType = sig.ret.offset

instance (s : MethodSignature) (sig : FunctionMethodSignature) : Decidable (s.Agrees sig) :=
  inferInstanceAs (Decidable (_ ∧ _ ∧ _))

/-- The counts of the header take one byte each. -/
def OneByteCounts (s : MethodSignature) : Prop :=
  s.byte 1 < 0x80 ∧ (s.byte 0 &&& callConvGeneric ≠ 0 → s.byte 2 < 0x80)

theorem encodes_length_one_iff {b : UInt8} {w : List UInt8} {n : Nat} (h : Encodes (b :: w) n) :
    (b :: w).length = 1 ↔ b < 0x80 := by
  cases h with
  | one b hb => exact iff_of_true rfl hb
  | two b₁ b₂ h80 hC0 => exact iff_of_false (by simp) (UInt8.not_lt.mpr h80)
  | four b₁ b₂ b₃ b₄ hC0 hE0 =>
      exact iff_of_false (by simp) (UInt8.not_lt.mpr (UInt8.le_trans (by decide) hC0))

theorem encodes_one {b : UInt8} {w : List UInt8} {n : Nat} (h : Encodes (b :: w) n)
    (hb : b < 0x80) : w = [] ∧ n = b.toNat := by
  cases h with
  | one b hb => exact ⟨rfl, rfl⟩
  | two b₁ b₂ h80 hC0 => exact absurd hb (UInt8.not_lt.mpr h80)
  | four b₁ b₂ b₃ b₄ hC0 hE0 =>
      exact absurd hb (UInt8.not_lt.mpr (UInt8.le_trans (by decide) hC0))

/-- What the reader finds in a generic signature. -/
theorem generic_values {b : UInt8} (x y : UInt8) (rest : List UInt8)
    (hb : b &&& callConvGeneric ≠ 0) :
    (mk (b :: x :: y :: rest)).numberOfArguments = y.toNat ∧
      (mk (b :: x :: y :: rest)).numberOfTypeArguments = x.toNat ∧
      (mk (b :: x :: y :: rest)).indexOfReturnType = 3 := by
  simp [numberOfArguments, numberOfTypeArguments, indexOfReturnType, callingConvention, byte, hb]

/-- What the reader finds in a signature that is not generic. -/
theorem plain_values {b : UInt8} (x : UInt8) (rest : List UInt8) (hb : b &&& callConvGeneric = 0) :
    (mk (b :: x :: rest)).numberOfArguments = x.toNat ∧
      (mk (b :: x :: rest)).numberOfTypeArguments = 0 ∧
      (mk (b :: x :: rest)).indexOfReturnType = 2 := by
  simp [numberOfArguments, numberOfTypeArguments, indexOfReturnType, callingConvention, byte, hb]

/-- The readers on the header of a generic signature. -/
theorem generic_agrees_iff {b : UInt8} {g c R : List UInt8} {arity count : Nat}
    (hb : b &&& callConvGeneric ≠ 0) (hg : Encodes g arity) (hc : Encodes c count) :
    ((mk (b :: (g ++ (c ++ R)))).numberOfArguments = count ∧
      (mk (b :: (g ++ (c ++ R)))).numberOfTypeArguments = arity ∧
      (mk (b :: (g ++ (c ++ R)))).indexOfReturnType = 1 + (g.length + c.length)) ↔
        (mk (b :: (g ++ (c ++ R)))).OneByteCounts := by
  rcases g with _ | ⟨x, gs⟩
  · exact absurd rfl hg.ne_nil
  rcases c with _ | ⟨y, cs⟩
  · exact absurd rfl hc.ne_nil
  have hx := encodes_length_one_iff hg
  have hy := encodes_length_one_iff hc
  rcases gs with _ | ⟨x', gs⟩
  · obtain ⟨hargs, htypeArgs, hindex⟩ := generic_values x y (cs ++ R) hb
    have hxlt : x < 0x80 := hx.mp rfl
    constructor
    · rintro ⟨-, -, hlen⟩
      refine ⟨hxlt, fun _ => hy.mp ?_⟩
      have hthree : 3 = 1 + ([x].length + (y :: cs).length) := hindex.symm.trans hlen
      rw [List.length_singleton] at hthree
      omega
    · rintro ⟨-, hlt⟩
      obtain ⟨rfl, rfl⟩ := encodes_one hc (hlt hb)
      exact ⟨hargs, htypeArgs.trans (encodes_one hg hxlt).2.symm, hindex⟩
  · obtain ⟨-, -, hindex⟩ := generic_values x x' (gs ++ (y :: cs ++ R)) hb
    refine iff_of_false ?_ ?_
    · rintro ⟨-, -, hlen⟩
      have hthree : 3 = 1 + ((x :: x' :: gs).length + (y :: cs).length) := hindex.symm.trans hlen
      simp only [List.length_cons] at hthree
      omega
    · rintro ⟨hlt, -⟩
      have hone := hx.mpr hlt
      simp at hone

/-- The readers on the header of a signature that is not generic. -/
theorem plain_agrees_iff {b : UInt8} {c R : List UInt8} {count : Nat}
    (hb : b &&& callConvGeneric = 0) (hc : Encodes c count) :
    ((mk (b :: (c ++ R))).numberOfArguments = count ∧
      (mk (b :: (c ++ R))).numberOfTypeArguments = 0 ∧
      (mk (b :: (c ++ R))).indexOfReturnType = 1 + c.length) ↔
        (mk (b :: (c ++ R))).OneByteCounts := by
  rcases c with _ | ⟨x, cs⟩
  · exact absurd rfl hc.ne_nil
  have hx := encodes_length_one_iff hc
  obtain ⟨hargs, htypeArgs, hindex⟩ := plain_values x (cs ++ R) hb
  constructor
  · rintro ⟨-, -, hlen⟩
    have htwo : 2 = 1 + (x :: cs).length := hindex.symm.trans hlen
    exact ⟨hx.mp (by omega), fun h => absurd hb h⟩
  · rintro ⟨hlt, -⟩
    obtain ⟨rfl, rfl⟩ := encodes_one hc hlt
    exact ⟨hargs, htypeArgs, hindex⟩

/-- **The two readers agree exactly if each count takes one byte.** -/
theorem agrees_iff {bytes : List UInt8} {beyond : Nat → UInt8} {sig : FunctionMethodSignature}
    {next : Nat} (h : (FunctionMethodSignature.tryParse bytes beyond).result = some (sig, next)) :
    (MethodSignature.mk bytes).Agrees sig ↔ (MethodSignature.mk bytes).OneByteCounts := by
  obtain ⟨⟨⟨b, g, c⟩, t, ps⟩, arity, count, hs, ⟨v, rfl⟩, rfl, -⟩ :=
    (tryParse_eq_some_iff bytes beyond _ _).mp h
  have hbytes : SignatureParts.bytes ⟨⟨b, g, c⟩, t, ps⟩ ++ v =
      b :: (g ++ (c ++ ((t ++ ps.flatMap ParamParts.bytes) ++ v))) := by
    rw [bytes_mk, List.append_assoc, List.append_assoc, List.append_assoc]
    rfl
  have hoffset : 0 + (HeaderParts.bytes ⟨b, g, c⟩).length = 1 + (g.length + c.length) := by
    simp only [HeaderParts.bytes, List.length_cons, List.length_append]
    omega
  rw [Agrees, SignatureParts.report, hoffset, hbytes]
  obtain ⟨hc, ⟨hb, hg⟩ | ⟨hb, rfl, rfl⟩⟩ := header_derives hs.header
  · exact generic_agrees_iff hb hg hc
  · rw [List.nil_append, List.length_nil, Nat.zero_add]
    exact plain_agrees_iff hb hc

/-- A method with two parameters. -/
theorem agrees_iff_two :
    (mk [0x00, 0x02, 0x01, 0x08, 0x0E]).Agrees ⟨0, 2, ⟨2, 1⟩, [⟨3, 1⟩, ⟨4, 1⟩]⟩ ↔
      (mk [0x00, 0x02, 0x01, 0x08, 0x0E]).OneByteCounts := by
  have h : (FunctionMethodSignature.tryParse [0x00, 0x02, 0x01, 0x08, 0x0E] (fun _ => 0)).result =
      some (⟨0, 2, ⟨2, 1⟩, [⟨3, 1⟩, ⟨4, 1⟩]⟩, 5) := by decide
  exact agrees_iff h

/-- The signature of a method with 129 parameters of the type `int`. -/
def manyParams : List UInt8 := 0x00 :: 0x80 :: 0x81 :: 0x01 :: List.replicate 129 0x08

/-- With 129 parameters the count takes two bytes, and the reader takes the first of them for the
count. -/
theorem not_agrees_many :
    ¬ ∀ sig next, (FunctionMethodSignature.tryParse manyParams (fun _ => 0)).result =
      some (sig, next) → (mk manyParams).Agrees sig := by
  intro h
  have hresult : (FunctionMethodSignature.tryParse manyParams (fun _ => 0)).result =
      some (⟨0, 129, ⟨3, 1⟩, (List.range 129).map fun i => ⟨4 + i, 1⟩⟩, 133) := by
    decide +kernel
  have hcount := (h _ _ hresult).1
  exact absurd hcount (by decide +kernel)

end MethodSignature

end DdTrace.Profiler
