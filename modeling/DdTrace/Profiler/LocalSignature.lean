import DdTrace.Lib.FixedBuffers
import DdTrace.Profiler.CompressedData

/-!
# The local signature of a rewritten method

The native profiler adds locals to a method that it rewrites: the return value, the exception, the
`CallTargetReturn` and the `CallTargetState`. It writes the new signature into an array of
`signatureBufferSize` bytes.

* `ModifyLocalSig`: the new signature, its size and the indexes of the new locals.
* `Extends`: what the new signature is meant to be.
* `modifyLocalSig_iff`: it is that exactly if the signature is neither shorter than the token of
  `CallTargetState` nor a rewritten one, and the new one fits.

Sources: `calltarget_tokens.cpp`, `GetTargetReturnValueTypeRef` and `ModifyLocalSig`;
`clr_helpers.cpp`, `FunctionMethodArgument::GetTypeFlags`.
-/

namespace DdTrace.Profiler

open DdTrace.Lib CorElementType

/-! ## What the profiler works with -/

/-- Source: `calltarget_tokens.cpp`, `signatureBufferSize` -/
def signatureBufferSize : Nat := 500

/-- `IMAGE_CEE_CS_CALLCONV_LOCAL_SIG`. -/
abbrev callConvLocalSig : UInt8 := 0x07

/-- `mdTypeSpecNil`. -/
abbrev mdTypeSpecNil : mdToken := 0x1b000000

/-- `static_cast<ULONG>(ULONG_MAX)`. -/
abbrev ULONG_MAX : UInt32 := 0xFFFFFFFF

/-- The type references of a module, which have been defined.
Source: `calltarget_tokens.h`, `CallTargetTokens` -/
structure CallTargetTokens where
  objectTypeRef : mdToken
  exTypeRef : mdToken
  typeRef : mdToken
  runtimeTypeHandleRef : mdToken
  callTargetStateTypeRef : mdToken
  callTargetReturnVoidTypeRef : mdToken
  callTargetReturnTypeRef : mdToken

/-- The metadata of a module: a call that fails returns `none`. A type specification has the
signature it was defined by, and the nil token is none. -/
structure Metadata where
  GetTokenFromTypeSpec : List UInt8 → Option mdToken
  GetTypeSpecFromToken : mdToken → Option (List UInt8)
  GetTokenFromSig : List UInt8 → Option mdToken
  typeSpec_eq : ∀ s t, GetTokenFromTypeSpec s = some t → GetTypeSpecFromToken t = some s
  typeSpec_nil : GetTypeSpecFromToken mdTypeSpecNil = none

/-- Why there is no new signature. -/
inductive Failure
  /-- Memory outside an array is read or written. -/
  | outside
  /-- The result is `E_FAIL`, or that of a failed call. -/
  | failed
  deriving DecidableEq, Repr

theorem bind_eq_ok_iff {α β : Type} {x : Except Failure α} {f : α → Except Failure β} {b : β} :
    x.bind f = .ok b ↔ ∃ a, x = .ok a ∧ f a = .ok b := by
  cases x with
  | error e => simp [Except.bind]
  | ok a => simp [Except.bind]

/-- The byte at an index that may wrap around. -/
def signatureByte (signature : List UInt8) (i : UInt32) : Except Failure UInt8 :=
  match signature[i.toNat]? with
  | some b => .ok b
  | none => .error .outside

/-- Write chunks into an array of `signatureBufferSize` bytes. -/
def fill (chunks : List (List UInt8)) :
    Except Failure (FixedBuffer UInt8 signatureBufferSize) :=
  match FixedBuffer.empty.writeAll chunks with
  | some b => .ok b
  | none => .error .outside

/-- The bytes of an array that a metadata call reads, all of which have been written. -/
def handOver (b : FixedBuffer UInt8 signatureBufferSize) (size : UInt32) :
    Except Failure (List UInt8) :=
  match b.front size.toNat with
  | some signature => .ok signature
  | none => .error .outside

/-! ## The return type -/

/-- Source: `clr_helpers.h`, `MethodArgumentTypeFlag` -/
abbrev TypeFlagByRef : Nat := 0x01
/-- Source: `clr_helpers.h`, `MethodArgumentTypeFlag` -/
abbrev TypeFlagVoid : Nat := 0x02
/-- Source: `clr_helpers.h`, `MethodArgumentTypeFlag` -/
abbrev TypeFlagBoxedType : Nat := 0x04

/-- The types that `GetTypeFlags` takes for boxed ones.
Source: `clr_helpers.cpp`, `FunctionMethodArgument::GetTypeFlags` -/
def boxedTypes : List UInt8 :=
  [boolean, char, i1, u1, u2, i2, i4, u4, i8, u8, r4, r8, i, u, valueType, mVar, var]

/-- The flags of a parsed type and its element type.
Source: `clr_helpers.cpp`, `FunctionMethodArgument::GetTypeFlags` -/
def GetTypeFlags (signature : List UInt8) : Nat × UInt8 :=
  if signature.headD 0 == void then (TypeFlagVoid, void)
  else
    let isByRef := signature.headD 0 == byRef
    let flag := if isByRef then TypeFlagByRef else 0
    let pbCur := if isByRef then signature.tail else signature
    let elementType := pbCur.headD 0
    if boxedTypes.contains elementType then (flag ||| TypeFlagBoxedType, elementType)
    else if elementType == genericInst && pbCur.tail.headD 0 == valueType then
      (flag ||| TypeFlagBoxedType, elementType)
    else (flag, elementType)

/-- Source: `calltarget_tokens.cpp`, `GetTargetReturnValueTypeRef` -/
def typeSpecChunks (t : CallTargetTokens) (returnSignature : List UInt8) : List (List UInt8) :=
  [[genericInst], [valueType], tokenBytes t.callTargetReturnTypeRef, [0x01], returnSignature]

/-- The token of `CallTargetReturn<T>`.
Source: `calltarget_tokens.cpp`, `CallTargetTokens::GetTargetReturnValueTypeRef` -/
def GetTargetReturnValueTypeRef (t : CallTargetTokens) (m : Metadata)
    (returnSignature : List UInt8) : Except Failure mdToken :=
  let signatureLength := 3 + UInt32.ofNat (tokenBytes t.callTargetReturnTypeRef).length +
    UInt32.ofNat returnSignature.length
  (fill (typeSpecChunks t returnSignature)).bind fun buffer =>
  (handOver buffer signatureLength).bind fun signature =>
  .ok ((m.GetTokenFromTypeSpec signature).getD mdTypeSpecNil)

/-- What `ModifyLocalSig` finds out about the return type. -/
structure ReturnLocals where
  /-- `returnSignatureType`, if it is not null. -/
  returnSignatureType : Option (List UInt8)
  callTargetReturn : mdToken
  /-- The type of the `CallTargetReturn` local, as it is written. -/
  callTargetReturnChunks : List (List UInt8)
  /-- `callTargetReturnSizeForNewSignature`. -/
  callTargetReturnSize : UInt32
  newLocalsCount : UInt32

/-- Source: `calltarget_tokens.cpp`, `CallTargetTokens::ModifyLocalSig` -/
def returnLocals (t : CallTargetTokens) (m : Metadata) (methodReturnValue : List UInt8) :
    Except Failure ReturnLocals :=
  if (GetTypeFlags methodReturnValue).1 ≠ TypeFlagVoid then
    (GetTargetReturnValueTypeRef t m methodReturnValue).bind fun callTargetReturn =>
    match m.GetTypeSpecFromToken callTargetReturn with
    | none => .error .failed
    | some callTargetReturnSignature =>
        .ok
          { returnSignatureType := some methodReturnValue
            callTargetReturn
            callTargetReturnChunks := [callTargetReturnSignature]
            callTargetReturnSize := UInt32.ofNat callTargetReturnSignature.length
            newLocalsCount := 3 + 1 }
  else
    .ok
      { returnSignatureType := none
        callTargetReturn := t.callTargetReturnVoidTypeRef
        callTargetReturnChunks := [[valueType], tokenBytes t.callTargetReturnVoidTypeRef]
        callTargetReturnSize :=
          1 + UInt32.ofNat (tokenBytes t.callTargetReturnVoidTypeRef).length
        newLocalsCount := 3 }

/-! ## The original signature -/

/-- The last local is a `CallTargetState`. In a signature shorter than its token the index wraps
around.
Source: `calltarget_tokens.cpp`, `CallTargetTokens::ModifyLocalSig` -/
def alreadyRewritten (t : CallTargetTokens) (originalSignature : List UInt8) :
    Except Failure Bool :=
  let temp := tokenBytes t.callTargetStateTypeRef
  let originalSignatureSize := UInt32.ofNat originalSignature.length
  let len := UInt32.ofNat temp.length
  if originalSignatureSize - len > 0 then
    (signatureByte originalSignature (originalSignatureSize - len - 1)).bind fun b =>
    if b == valueType then
      .ok ((originalSignature.drop (originalSignatureSize - len).toNat).take temp.length == temp)
    else .ok false
  else .ok false

/-- What `ModifyLocalSig` finds out about the locals that a method has. -/
structure OldLocals where
  /-- What it adds to the size of the new signature. -/
  sizeChange : UInt32
  newLocalsCount : UInt32
  newLocalsBuffer : List UInt8
  /-- The old locals, as they are copied. -/
  chunks : List (List UInt8)

/-- Source: `calltarget_tokens.cpp`, `CallTargetTokens::ModifyLocalSig` -/
def oldLocals (originalSignature : List UInt8) (newLocalsCount : UInt32) :
    Except Failure OldLocals :=
  if originalSignature.length = 0 then
    match CorSigCompressData newLocalsCount.toNat with
    | none => .error .outside
    | some newLocalsBuffer => .ok ⟨2, newLocalsCount, newLocalsBuffer, []⟩
  else
    match CorSigUncompressData originalSignature.tail with
    | none => .error .outside
    | some (oldLocalsBuffer, oldLocalsLen) =>
        let newLocalsCount := newLocalsCount + UInt32.ofNat oldLocalsBuffer
        match CorSigCompressData newLocalsCount.toNat with
        | none => .error .outside
        | some newLocalsBuffer =>
            .ok ⟨UInt32.ofNat newLocalsBuffer.length - UInt32.ofNat oldLocalsLen, newLocalsCount,
              newLocalsBuffer, [originalSignature.drop (1 + oldLocalsLen)]⟩

/-! ## The new signature -/

/-- What `ModifyLocalSig` returns, with the size that it states and the bytes it has written. -/
structure LocalSig where
  newLocalVarSig : mdToken
  newSignature : List UInt8
  newSignatureSize : UInt32
  newSignatureOffset : Nat
  returnValueIndex : UInt32
  exceptionIndex : UInt32
  callTargetReturnIndex : UInt32
  callTargetStateIndex : UInt32
  callTargetStateToken : mdToken
  exceptionToken : mdToken
  callTargetReturnToken : mdToken

/-- The new signature, as it is written.
Source: `calltarget_tokens.cpp`, `CallTargetTokens::ModifyLocalSig` -/
def newSignatureChunks (t : CallTargetTokens) (r : ReturnLocals) (o : OldLocals) :
    List (List UInt8) :=
  [[callConvLocalSig], o.newLocalsBuffer] ++ o.chunks ++ r.returnSignatureType.toList ++
    [[class_], tokenBytes t.exTypeRef] ++ r.callTargetReturnChunks ++
    [[valueType], tokenBytes t.callTargetStateTypeRef]

/-- The size of the new signature, as it is stated.
Source: `calltarget_tokens.cpp`, `CallTargetTokens::ModifyLocalSig` -/
def newSignatureSize (t : CallTargetTokens) (r : ReturnLocals) (o : OldLocals)
    (originalSignature : List UInt8) : UInt32 :=
  UInt32.ofNat originalSignature.length +
    UInt32.ofNat (r.returnSignatureType.getD []).length +
    (1 + UInt32.ofNat (tokenBytes t.exTypeRef).length) + r.callTargetReturnSize +
    (1 + UInt32.ofNat (tokenBytes t.callTargetStateTypeRef).length) + o.sizeChange

/-- Write the new signature and hand it over.
Source: `calltarget_tokens.cpp`, `CallTargetTokens::ModifyLocalSig` -/
def writeLocalSig (t : CallTargetTokens) (m : Metadata) (originalSignature : List UInt8)
    (r : ReturnLocals) (o : OldLocals) : Except Failure LocalSig :=
  (fill (newSignatureChunks t r o)).bind fun buffer =>
  (handOver buffer (newSignatureSize t r o originalSignature)).bind fun newSignature =>
  match m.GetTokenFromSig newSignature with
  | none => .error .failed
  | some newLocalVarSig =>
      .ok
        { newLocalVarSig
          newSignature
          newSignatureSize := newSignatureSize t r o originalSignature
          newSignatureOffset := buffer.contents.length
          returnValueIndex :=
            match r.returnSignatureType with
            | some _ => o.newLocalsCount - 4
            | none => ULONG_MAX
          exceptionIndex := o.newLocalsCount - 3
          callTargetReturnIndex := o.newLocalsCount - 2
          callTargetStateIndex := o.newLocalsCount - 1
          callTargetStateToken := t.callTargetStateTypeRef
          exceptionToken := t.exTypeRef
          callTargetReturnToken := r.callTargetReturn }

/-- The locals of a method that is rewritten; `none` is the nil token of a method without locals.
Source: `calltarget_tokens.cpp`, `CallTargetTokens::ModifyLocalSig` -/
def ModifyLocalSig (t : CallTargetTokens) (m : Metadata) (localVarSig : Option (List UInt8))
    (methodReturnValue : List UInt8) : Except Failure LocalSig :=
  let originalSignature := localVarSig.getD []
  (match localVarSig with
    | some signature => alreadyRewritten t signature
    | none => .ok false).bind fun rewritten =>
  if rewritten then .error .failed
  else
    (returnLocals t m methodReturnValue).bind fun r =>
    (oldLocals originalSignature r.newLocalsCount).bind fun o =>
    writeLocalSig t m originalSignature r o

/-! ## What the new signature is meant to be -/

/-- A local signature: the compressed count and the types of the locals, of which none is empty. Its
size is a `ULONG`. -/
structure LocalVarSig where
  countBytes : List UInt8
  locals : List (List UInt8)
  encodes : Encodes countBytes locals.length
  nonempty : ∀ type ∈ locals, type ≠ []
  size_lt : 1 + countBytes.length + locals.flatten.length < 2 ^ 32

/-- The bytes of a local signature. -/
def LocalVarSig.bytes (s : LocalVarSig) : List UInt8 :=
  callConvLocalSig :: (s.countBytes ++ s.locals.flatten)

/-- A return type that the parser accepts. -/
structure ReturnType where
  bytes : List UInt8
  parsed : IsRetType accepted bytes

/-- The locals of a method, which has none without a signature. -/
def localsOf (sig : Option LocalVarSig) : List (List UInt8) :=
  match sig with
  | some s => s.locals
  | none => []

/-- The bytes of the signature of a method, if it has one. -/
def signatureOf (sig : Option LocalVarSig) : List UInt8 :=
  match sig with
  | some s => s.bytes
  | none => []

/-- The local of the return value. -/
def returnLocal (ret : List UInt8) : List (List UInt8) := if ret = [void] then [] else [ret]

/-- The type `CallTargetReturn<T>`. -/
def typeSpecSignature (t : CallTargetTokens) (ret : List UInt8) : List UInt8 :=
  genericInst :: valueType :: (tokenBytes t.callTargetReturnTypeRef ++ 0x01 :: ret)

/-- The local of the exception. -/
def exceptionLocal (t : CallTargetTokens) : List UInt8 := class_ :: tokenBytes t.exTypeRef

/-- The local of the `CallTargetReturn`. -/
def callTargetReturnLocal (t : CallTargetTokens) (ret : List UInt8) : List UInt8 :=
  if ret = [void] then valueType :: tokenBytes t.callTargetReturnVoidTypeRef
  else typeSpecSignature t ret

/-- The local of the `CallTargetState`. -/
def callTargetStateLocal (t : CallTargetTokens) : List UInt8 :=
  valueType :: tokenBytes t.callTargetStateTypeRef

/-- The new locals, in order. -/
def addedLocals (t : CallTargetTokens) (ret : List UInt8) : List (List UInt8) :=
  returnLocal ret ++ [exceptionLocal t, callTargetReturnLocal t ret, callTargetStateLocal t]

/-- A number in its shortest form. -/
def Shortest (w : List UInt8) (n : Nat) : Prop :=
  Encodes w n ∧ ∀ w', Encodes w' n → w.length ≤ w'.length

/-- The signature is that of the old locals and the new ones, its size is what is written, and the
indexes are the positions of the new locals. -/
structure Extends (t : CallTargetTokens) (old : List (List UInt8)) (ret : List UInt8)
    (out : LocalSig) : Prop where
  signature : ∃ count, Shortest count (old ++ addedLocals t ret).length ∧
    out.newSignature = callConvLocalSig :: (count ++ (old ++ addedLocals t ret).flatten)
  size : out.newSignatureSize.toNat = out.newSignatureOffset ∧
    out.newSignatureOffset = out.newSignature.length
  returnValue : if ret = [void] then out.returnValueIndex = ULONG_MAX
    else out.returnValueIndex.toNat = old.length
  exception : out.exceptionIndex.toNat = (old ++ returnLocal ret).length
  callTargetReturn : out.callTargetReturnIndex.toNat = (old ++ returnLocal ret).length + 1
  callTargetState : out.callTargetStateIndex.toNat = (old ++ returnLocal ret).length + 2

/-- The length of a number in its shortest form. -/
def countLength (n : Nat) : Nat := if n ≤ 0x7F then 1 else if n ≤ 0x3FFF then 2 else 4

/-- The length of the new signature. -/
def extendedLength (t : CallTargetTokens) (old : List (List UInt8)) (ret : List UInt8) : Nat :=
  1 + countLength (old ++ addedLocals t ret).length + (old ++ addedLocals t ret).flatten.length

/-- The metadata calls succeed. -/
structure Served (t : CallTargetTokens) (m : Metadata) (old : List (List UInt8))
    (ret : List UInt8) : Prop where
  typeSpec : ret ≠ [void] → (m.GetTokenFromTypeSpec (typeSpecSignature t ret)).isSome = true
  sig : ∀ count, CorSigCompressData (old ++ addedLocals t ret).length = some count →
    (m.GetTokenFromSig
      (callConvLocalSig :: (count ++ (old ++ addedLocals t ret).flatten))).isSome = true

/-- The condition: the metadata calls succeed, the signature is not shorter than the token of
`CallTargetState` and does not end with a local of that type, and the new one fits. -/
structure Extendable (t : CallTargetTokens) (m : Metadata) (sig : Option LocalVarSig)
    (ret : List UInt8) : Prop where
  served : Served t m (localsOf sig) ret
  long : ∀ s, sig = some s → (tokenBytes t.callTargetStateTypeRef).length ≤ s.bytes.length
  untouched : ∀ s, sig = some s → ¬callTargetStateLocal t <:+ s.bytes
  fits : extendedLength t (localsOf sig) ret ≤ signatureBufferSize

/-! ## Numbers in their shortest form -/

theorem shortest_compress {n : Nat} {w : List UInt8} (h : CorSigCompressData n = some w) :
    Shortest w n :=
  ⟨encodes_compress h, fun _ h' => compress_shortest h h'⟩

theorem length_compress {n : Nat} {w : List UInt8} (h : CorSigCompressData n = some w) :
    w.length = countLength n := by
  unfold CorSigCompressData at h
  unfold countLength
  split at h
  · obtain rfl := Option.some.inj h
    rw [if_pos ‹_›]
    rfl
  split at h
  · obtain rfl := Option.some.inj h
    rw [if_neg ‹_›, if_pos ‹_›]
    rfl
  split at h
  · obtain rfl := Option.some.inj h
    rw [if_neg ‹_›, if_neg ‹_›]
    rfl
  · cases h

/-- A small number is one byte. -/
theorem compress_small {n : Nat} (h : n ≤ 4) : CorSigCompressData n = some [UInt8.ofNat n] := by
  rw [CorSigCompressData, if_pos (Nat.le_trans h (by decide))]

/-- The old locals have a byte each at least. -/
theorem length_locals_le (s : LocalVarSig) : s.locals.length ≤ s.locals.flatten.length := by
  have hsum : ∀ locals : List (List UInt8), (∀ type ∈ locals, type ≠ []) →
      locals.length ≤ locals.flatten.length := by
    intro locals
    induction locals with
    | nil => exact fun _ => Nat.le_refl _
    | cons type locals ih =>
        intro h
        have hhead := List.length_pos_iff.mpr (h type List.mem_cons_self)
        have htail := ih fun type htype => h type (List.mem_cons_of_mem _ htype)
        rw [List.length_cons, List.flatten_cons, List.length_append]
        omega
  exact hsum s.locals s.nonempty

/-! ## Arrays -/

theorem fill_eq_ok_iff {chunks : List (List UInt8)} {b : FixedBuffer UInt8 signatureBufferSize} :
    fill chunks = .ok b ↔ b.contents = chunks.flatten := by
  have h : FixedBuffer.empty.writeAll chunks = some b ↔ b.contents = [] ++ chunks.flatten :=
    FixedBuffer.writeAll_eq_some_iff
  rw [List.nil_append] at h
  rw [← h, fill]
  cases FixedBuffer.empty.writeAll chunks with
  | none => simp
  | some b' => simp

/-- Chunks that fit are written. -/
theorem fill_of_fits {chunks : List (List UInt8)}
    (h : chunks.flatten.length ≤ signatureBufferSize) : fill chunks = .ok ⟨chunks.flatten, h⟩ :=
  fill_eq_ok_iff.mpr rfl

/-- All that was written is handed over. -/
theorem handOver_all {b : FixedBuffer UInt8 signatureBufferSize} {size : UInt32}
    (h : size.toNat = b.contents.length) : handOver b size = .ok b.contents := by
  rw [handOver, h, b.front_length]

theorem toNat_ofNat_of_fits {n : Nat} (h : n ≤ signatureBufferSize) : (UInt32.ofNat n).toNat = n :=
  UInt32.toNat_ofNat_of_lt' (Nat.lt_of_le_of_lt h (by decide))

/-! ## The return type -/

/-- The flags of a type are those of `VOID` exactly if it starts so. -/
theorem getTypeFlags_eq_void_iff (signature : List UInt8) :
    (GetTypeFlags signature).1 = TypeFlagVoid ↔ signature.headD 0 = void := by
  unfold GetTypeFlags
  split
  · rename_i h
    exact iff_of_true rfl (beq_iff_eq.mp h)
  · rename_i h
    have hplain : ∀ isByRef : Bool, (if isByRef then TypeFlagByRef else 0) ≠ TypeFlagVoid := by
      decide
    have hboxed : ∀ isByRef : Bool,
        (if isByRef then TypeFlagByRef else 0) ||| TypeFlagBoxedType ≠ TypeFlagVoid := by
      decide
    refine iff_of_false ?_ fun heq => h (beq_iff_eq.mpr heq)
    dsimp only
    have hplain := hplain (signature.headD 0 == byRef)
    have hboxed := hboxed (signature.headD 0 == byRef)
    generalize (if (signature.headD 0 == byRef) = true then TypeFlagByRef else 0) = flag at *
    generalize (if (signature.headD 0 == byRef) = true then signature.tail else signature) = pbCur
    split
    · exact hboxed
    split
    · exact hboxed
    · exact hplain

/-- No type starts with `VOID`. -/
theorem isType_headD_ne_void {place : Place} {v : List UInt8} (h : IsType accepted place v)
    (hplace : place = .ret) : v.headD 0 ≠ void := by
  subst hplace
  cases h with
  | leaf b hb =>
      rintro rfl
      exact absurd hb (by decide)
  | numbered e w k he hw =>
      intro heq
      rw [show e = void from heq] at he
      exact absurd he (by decide)
  | szArray t ht =>
      intro heq
      exact absurd (show szArray = void from heq) (by decide)
  | genericInst e w c k n ts he hw hc hlen hts =>
      intro heq
      exact absurd (show genericInst = void from heq) (by decide)

/-- A return type starts with `VOID` only if it is that. -/
theorem ReturnType.isVoid_iff (ret : ReturnType) :
    (GetTypeFlags ret.bytes).1 = TypeFlagVoid ↔ ret.bytes = [void] := by
  rw [getTypeFlags_eq_void_iff]
  constructor
  · intro hhead
    rcases ret.parsed with hvoid | htype | ⟨v, hbytes, -⟩
    · exact hvoid
    · exact absurd hhead (isType_headD_ne_void htype rfl)
    · rw [hbytes] at hhead
      exact absurd (show CorElementType.byRef = void from hhead) (by decide)
  · intro hvoid
    rw [hvoid]
    rfl

theorem flatten_typeSpecChunks (t : CallTargetTokens) (ret : List UInt8) :
    (typeSpecChunks t ret).flatten = typeSpecSignature t ret := by
  simp [typeSpecChunks, typeSpecSignature]

/-- The token of `CallTargetReturn<T>`. -/
theorem getTargetReturnValueTypeRef_of_fits (t : CallTargetTokens) (m : Metadata)
    {ret : List UInt8} (h : (typeSpecSignature t ret).length ≤ signatureBufferSize) :
    GetTargetReturnValueTypeRef t m ret =
      .ok ((m.GetTokenFromTypeSpec (typeSpecSignature t ret)).getD mdTypeSpecNil) := by
  have hfits : (typeSpecChunks t ret).flatten.length ≤ signatureBufferSize := by
    rwa [flatten_typeSpecChunks]
  have hlength : (typeSpecSignature t ret).length =
      3 + (tokenBytes t.callTargetReturnTypeRef).length + ret.length := by
    simp only [typeSpecSignature, List.length_cons, List.length_append]
    omega
  have hsize : (3 + UInt32.ofNat (tokenBytes t.callTargetReturnTypeRef).length +
      UInt32.ofNat ret.length).toNat = (typeSpecChunks t ret).flatten.length := by
    rw [flatten_typeSpecChunks, ← toNat_ofNat_of_fits h, hlength, UInt32.ofNat_add,
      UInt32.ofNat_add]
    rfl
  unfold GetTargetReturnValueTypeRef
  rw [fill_of_fits hfits]
  dsimp only [Except.bind]
  rw [handOver_all hsize]
  dsimp only
  rw [flatten_typeSpecChunks]

/-- The type of `CallTargetReturn<T>` has been written into an array, if there is its token. -/
theorem fits_of_getTargetReturnValueTypeRef {t : CallTargetTokens} {m : Metadata}
    {ret : List UInt8} {token : mdToken} (h : GetTargetReturnValueTypeRef t m ret = .ok token) :
    (typeSpecSignature t ret).length ≤ signatureBufferSize := by
  obtain ⟨b, hb, -⟩ := bind_eq_ok_iff.mp h
  rw [← flatten_typeSpecChunks, ← fill_eq_ok_iff.mp hb]
  exact b.fits

/-- What is found out about a return type. -/
structure ReturnLocals.Reads (t : CallTargetTokens) (ret : List UInt8) (r : ReturnLocals) :
    Prop where
  returnSignatureType : r.returnSignatureType.toList = returnLocal ret
  chunks : r.callTargetReturnChunks.flatten = callTargetReturnLocal t ret
  size : r.callTargetReturnSize = UInt32.ofNat (callTargetReturnLocal t ret).length
  count : r.newLocalsCount = UInt32.ofNat (addedLocals t ret).length

theorem returnLocals_reads {t : CallTargetTokens} {m : Metadata} {ret : ReturnType}
    {r : ReturnLocals} (h : returnLocals t m ret.bytes = .ok r) :
    r.Reads t ret.bytes ∧
      (ret.bytes ≠ [void] →
        (m.GetTokenFromTypeSpec (typeSpecSignature t ret.bytes)).isSome = true) := by
  unfold returnLocals at h
  split at h
  · rename_i hflag
    have hret : ret.bytes ≠ [void] := fun hvoid => hflag (ret.isVoid_iff.mpr hvoid)
    obtain ⟨token, htoken, h⟩ := bind_eq_ok_iff.mp h
    rw [getTargetReturnValueTypeRef_of_fits t m (fits_of_getTargetReturnValueTypeRef htoken)] at htoken
    obtain rfl := Except.ok.inj htoken
    cases hspec : m.GetTokenFromTypeSpec (typeSpecSignature t ret.bytes) with
    | none =>
        rw [hspec, Option.getD_none, m.typeSpec_nil] at h
        cases h
    | some token =>
        rw [hspec, Option.getD_some, m.typeSpec_eq _ _ hspec] at h
        obtain rfl := Except.ok.inj h
        refine ⟨⟨?_, ?_, ?_, ?_⟩, fun _ => rfl⟩
        · simp [returnLocal, hret]
        · simp [callTargetReturnLocal, hret]
        · simp [callTargetReturnLocal, hret]
        · simp only [addedLocals, returnLocal, if_neg hret]
          rfl
  · rename_i hflag
    have hret : ret.bytes = [void] := ret.isVoid_iff.mp (not_not.mp hflag)
    obtain rfl := Except.ok.inj h
    refine ⟨⟨?_, ?_, ?_, ?_⟩, fun hne => absurd hret hne⟩
    · simp [returnLocal, hret]
    · simp [callTargetReturnLocal, hret]
    · simp only [callTargetReturnLocal, if_pos hret, List.length_cons, UInt32.ofNat_add]
      rw [UInt32.add_comm]
      rfl
    · simp only [addedLocals, returnLocal, if_pos hret]
      rfl

/-- The return type is read, if the type of `CallTargetReturn<T>` fits and gets a token. -/
theorem returnLocals_of_served {t : CallTargetTokens} {m : Metadata} {ret : ReturnType}
    (hfits : ret.bytes ≠ [void] → (typeSpecSignature t ret.bytes).length ≤ signatureBufferSize)
    (hspec : ret.bytes ≠ [void] →
      (m.GetTokenFromTypeSpec (typeSpecSignature t ret.bytes)).isSome = true) :
    ∃ r, returnLocals t m ret.bytes = .ok r := by
  unfold returnLocals
  split
  · rename_i hflag
    have hret : ret.bytes ≠ [void] := fun hvoid => hflag (ret.isVoid_iff.mpr hvoid)
    obtain ⟨token, htoken⟩ := Option.isSome_iff_exists.mp (hspec hret)
    rw [getTargetReturnValueTypeRef_of_fits t m (hfits hret), htoken, Option.getD_some]
    dsimp only [Except.bind]
    rw [m.typeSpec_eq _ _ htoken]
    exact ⟨_, rfl⟩
  · exact ⟨_, rfl⟩

/-! ## The original signature -/

/-- The token of `CallTargetState` is small. -/
theorem toNat_length_tokenBytes (tk : mdToken) :
    (UInt32.ofNat (tokenBytes tk).length).toNat = (tokenBytes tk).length :=
  UInt32.toNat_ofNat_of_lt' (Nat.lt_of_le_of_lt (length_tokenBytes tk).2 (by decide))

/-- A signature shorter than the token is read outside. -/
theorem alreadyRewritten_short {t : CallTargetTokens} {signature : List UInt8}
    (h : signature.length < (tokenBytes t.callTargetStateTypeRef).length) :
    alreadyRewritten t signature = .error .outside := by
  have hlen := length_tokenBytes t.callTargetStateTypeRef
  have hsize : (UInt32.ofNat signature.length).toNat = signature.length :=
    UInt32.toNat_ofNat_of_lt' (Nat.lt_trans (Nat.lt_of_lt_of_le h hlen.2) (by decide))
  have htoken := toNat_length_tokenBytes t.callTargetStateTypeRef
  unfold alreadyRewritten
  dsimp only
  generalize hsize' : UInt32.ofNat signature.length = size at *
  generalize hlen' : UInt32.ofNat (tokenBytes t.callTargetStateTypeRef).length = len at *
  -- The difference wraps around, so the index is far behind the end.
  have hwrap : (size - len).toNat = 2 ^ 32 + signature.length -
      (tokenBytes t.callTargetStateTypeRef).length := by
    rw [UInt32.toNat_sub, hsize, htoken]
    omega
  have hindex : (size - len - 1).toNat = 2 ^ 32 + signature.length -
      (tokenBytes t.callTargetStateTypeRef).length - 1 := by
    rw [UInt32.toNat_sub, hwrap, UInt32.toNat_one]
    omega
  have hpos : size - len > 0 := by
    rw [gt_iff_lt, UInt32.lt_iff_toNat_lt, hwrap, UInt32.toNat_zero]
    omega
  have hread : signatureByte signature (size - len - 1) = .error .outside := by
    rw [signatureByte, List.getElem?_eq_none (by rw [hindex]; omega)]
  rw [if_pos hpos, hread]
  rfl

/-- A longer signature is compared with the local that the profiler adds last. -/
theorem alreadyRewritten_long {t : CallTargetTokens} {signature : List UInt8}
    (h : (tokenBytes t.callTargetStateTypeRef).length ≤ signature.length)
    (hsmall : signature.length < 2 ^ 32) :
    alreadyRewritten t signature = .ok (decide (callTargetStateLocal t <:+ signature)) := by
  have hsize : (UInt32.ofNat signature.length).toNat = signature.length :=
    UInt32.toNat_ofNat_of_lt' hsmall
  have htoken := toNat_length_tokenBytes t.callTargetStateTypeRef
  have hsuffix : callTargetStateLocal t <:+ signature ↔
      callTargetStateLocal t =
        signature.drop (signature.length - (callTargetStateLocal t).length) :=
    List.suffix_iff_eq_drop
  have hlocal : (callTargetStateLocal t).length =
      (tokenBytes t.callTargetStateTypeRef).length + 1 := rfl
  unfold alreadyRewritten
  dsimp only
  generalize UInt32.ofNat signature.length = size at *
  generalize UInt32.ofNat (tokenBytes t.callTargetStateTypeRef).length = len at *
  have hdiff : (size - len).toNat =
      signature.length - (tokenBytes t.callTargetStateTypeRef).length := by
    rw [UInt32.toNat_sub_of_le _ _ (by rw [UInt32.le_iff_toNat_le, hsize, htoken]; exact h), hsize,
      htoken]
  have hpos : size - len > 0 ↔
      (tokenBytes t.callTargetStateTypeRef).length < signature.length := by
    rw [gt_iff_lt, UInt32.lt_iff_toNat_lt, hdiff, UInt32.toNat_zero]
    omega
  split
  · rename_i hlt
    rw [hpos] at hlt
    have hindex : (size - len - 1).toNat =
        signature.length - (callTargetStateLocal t).length := by
      rw [UInt32.toNat_sub_of_le _ _ (by
        rw [UInt32.le_iff_toNat_le, hdiff, UInt32.toNat_one]; omega), hdiff, hlocal,
        UInt32.toNat_one]
      omega
    -- What stands where the last local is expected: one byte and the rest.
    have hbound : signature.length - (callTargetStateLocal t).length < signature.length := by
      omega
    have hdrop := List.drop_eq_getElem_cons hbound
    have hnext : signature.length - (callTargetStateLocal t).length + 1 = (size - len).toNat := by
      rw [hdiff, hlocal]
      omega
    rw [hnext] at hdrop
    have hread : signatureByte signature (size - len - 1) =
        .ok signature[signature.length - (callTargetStateLocal t).length] := by
      rw [signatureByte, hindex, List.getElem?_eq_getElem hbound]
    have hrest : (signature.drop (size - len).toNat).take
        (tokenBytes t.callTargetStateTypeRef).length = signature.drop (size - len).toNat := by
      apply List.take_of_length_le
      rw [List.length_drop, hdiff]
      omega
    rw [hread, hrest]
    dsimp only [Except.bind]
    rw [hdrop] at hsuffix
    have hlast := hsuffix.trans List.cons_eq_cons
    split
    · rename_i hbyte
      congr 1
      rw [beq_iff_eq] at hbyte
      rw [Bool.eq_iff_iff, beq_iff_eq, decide_eq_true_eq, hlast]
      exact ⟨fun heq => ⟨hbyte.symm, heq.symm⟩, fun heq => heq.2.symm⟩
    · rename_i hbyte
      congr 1
      rw [eq_comm, decide_eq_false_iff_not, hlast]
      intro heq
      exact hbyte (beq_iff_eq.mpr heq.1.symm)
  · rename_i hle
    rw [hpos] at hle
    congr 1
    rw [eq_comm, decide_eq_false_iff_not]
    intro hsuff
    have hlen := hsuff.length_le
    omega

/-- What is found out about the locals that a method has. -/
structure OldLocals.Reads (old : List (List UInt8)) (size : Nat) (added : Nat) (o : OldLocals) :
    Prop where
  buffer : CorSigCompressData (old.length + added) = some o.newLocalsBuffer
  count : o.newLocalsCount = UInt32.ofNat (old.length + added)
  chunks : o.chunks.flatten = old.flatten
  sizeChange : o.sizeChange + UInt32.ofNat size =
    1 + UInt32.ofNat o.newLocalsBuffer.length + UInt32.ofNat old.flatten.length

/-- The locals of a method are counted and copied. -/
theorem oldLocals_eq (sig : Option LocalVarSig) {added : Nat} (hadded : added ≤ 4) :
    match CorSigCompressData ((localsOf sig).length + added) with
    | none => oldLocals (signatureOf sig) (UInt32.ofNat added) = .error .outside
    | some _ => ∃ o, oldLocals (signatureOf sig) (UInt32.ofNat added) = .ok o ∧
        o.Reads (localsOf sig) (signatureOf sig).length added := by
  have hsmall : (UInt32.ofNat added).toNat = added :=
    UInt32.toNat_ofNat_of_lt' (Nat.lt_of_le_of_lt hadded (by decide))
  cases sig with
  | none =>
      have hcompress := compress_small hadded
      rw [localsOf, List.length_nil, Nat.zero_add, hcompress]
      refine ⟨⟨2, UInt32.ofNat added, [UInt8.ofNat added], []⟩, ?_, ?_, ?_, rfl, rfl⟩
      · rw [oldLocals, signatureOf, if_pos List.length_nil, hsmall, hcompress]
      · rw [List.length_nil, Nat.zero_add, hcompress]
      · rw [List.length_nil, Nat.zero_add]
  | some s =>
      have hcount := s.encodes.length_cases
      have hread := uncompress_of_encodes s.encodes s.locals.flatten
      have hsum : UInt32.ofNat added + UInt32.ofNat s.locals.length =
          UInt32.ofNat (s.locals.length + added) := by
        rw [UInt32.ofNat_add, UInt32.add_comm]
      have hnat : (UInt32.ofNat (s.locals.length + added)).toNat = s.locals.length + added := by
        apply UInt32.toNat_ofNat_of_lt'
        show _ < 2 ^ 32
        omega
      have hold : oldLocals s.bytes (UInt32.ofNat added) =
          match CorSigCompressData (s.locals.length + added) with
          | none => .error .outside
          | some newLocalsBuffer =>
              .ok ⟨UInt32.ofNat newLocalsBuffer.length - UInt32.ofNat s.countBytes.length,
                UInt32.ofNat (s.locals.length + added), newLocalsBuffer,
                [s.bytes.drop (1 + s.countBytes.length)]⟩ := by
        rw [oldLocals, if_neg (by simp [LocalVarSig.bytes]), LocalVarSig.bytes, List.tail_cons,
          hread]
        dsimp only
        rw [hsum, hnat]
      rw [localsOf, signatureOf, hold]
      cases hcompress : CorSigCompressData (s.locals.length + added) with
      | none => rfl
      | some newLocalsBuffer =>
          refine ⟨_, rfl, hcompress, rfl, ?_, ?_⟩
          · have hdrop : s.bytes.drop (1 + s.countBytes.length) = s.locals.flatten := by
              rw [LocalVarSig.bytes, Nat.add_comm, List.drop_succ_cons, List.drop_left]
            rw [List.flatten_singleton, hdrop]
          · have hlength : s.bytes.length =
                1 + s.countBytes.length + s.locals.flatten.length := by
              rw [LocalVarSig.bytes, List.length_cons, List.length_append]
              omega
            dsimp only
            rw [hlength, UInt32.ofNat_add, UInt32.ofNat_add, UInt32.ofNat_one]
            grind

/-! ## The new signature -/

section write

variable {t : CallTargetTokens} {m : Metadata} {ret : List UInt8} {old : List (List UInt8)}
  {original : List UInt8} {r : ReturnLocals} {o : OldLocals}

/-- What is written is the count, the old locals and the new ones. -/
theorem flatten_newSignatureChunks (hr : r.Reads t ret)
    (ho : o.Reads old original.length (addedLocals t ret).length) :
    (newSignatureChunks t r o).flatten =
      callConvLocalSig :: (o.newLocalsBuffer ++ (old ++ addedLocals t ret).flatten) := by
  simp only [newSignatureChunks, List.flatten_append, ho.chunks, hr.returnSignatureType, hr.chunks,
    addedLocals, exceptionLocal, callTargetStateLocal]
  simp

theorem length_newSignature (hr : r.Reads t ret)
    (ho : o.Reads old original.length (addedLocals t ret).length) :
    (newSignatureChunks t r o).flatten.length = extendedLength t old ret := by
  rw [flatten_newSignatureChunks hr ho, extendedLength, List.length_append, ← length_compress ho.buffer,
    List.length_cons, List.length_append]
  omega

/-- The size that is stated is that of what is written. -/
theorem newSignatureSize_eq (hr : r.Reads t ret)
    (ho : o.Reads old original.length (addedLocals t ret).length) :
    newSignatureSize t r o original = UInt32.ofNat (newSignatureChunks t r o).flatten.length := by
  have hsum : (newSignatureChunks t r o).flatten.length =
      1 + o.newLocalsBuffer.length + old.flatten.length + (returnLocal ret).flatten.length +
        (1 + (tokenBytes t.exTypeRef).length) + (callTargetReturnLocal t ret).length +
        (1 + (tokenBytes t.callTargetStateTypeRef).length) := by
    rw [flatten_newSignatureChunks hr ho]
    simp only [addedLocals, exceptionLocal, callTargetStateLocal, List.flatten_append,
      List.flatten_cons, List.flatten_nil, List.length_append, List.length_cons, List.length_nil]
    omega
  have hreturn : (r.returnSignatureType.getD []).length = (returnLocal ret).flatten.length := by
    rw [← hr.returnSignatureType]
    cases r.returnSignatureType with
    | none => rfl
    | some s => simp
  have hchange := ho.sizeChange
  rw [hsum, newSignatureSize, hr.size, hreturn]
  simp only [UInt32.ofNat_add, UInt32.ofNat_one]
  grind

/-- The new signature is written and handed over exactly if it fits and gets a token. -/
theorem writeLocalSig_eq_ok_iff (hr : r.Reads t ret)
    (ho : o.Reads old original.length (addedLocals t ret).length) {out : LocalSig} :
    writeLocalSig t m original r o = .ok out ↔
      extendedLength t old ret ≤ signatureBufferSize ∧
      ∃ token, m.GetTokenFromSig (newSignatureChunks t r o).flatten = some token ∧
        out =
          { newLocalVarSig := token
            newSignature := (newSignatureChunks t r o).flatten
            newSignatureSize := UInt32.ofNat (newSignatureChunks t r o).flatten.length
            newSignatureOffset := (newSignatureChunks t r o).flatten.length
            returnValueIndex :=
              match r.returnSignatureType with
              | some _ => o.newLocalsCount - 4
              | none => ULONG_MAX
            exceptionIndex := o.newLocalsCount - 3
            callTargetReturnIndex := o.newLocalsCount - 2
            callTargetStateIndex := o.newLocalsCount - 1
            callTargetStateToken := t.callTargetStateTypeRef
            exceptionToken := t.exTypeRef
            callTargetReturnToken := r.callTargetReturn } := by
  have hlength := length_newSignature hr ho
  unfold writeLocalSig
  rw [newSignatureSize_eq hr ho, bind_eq_ok_iff]
  constructor
  · rintro ⟨b, hb, h⟩
    rw [fill_eq_ok_iff] at hb
    have hfits : extendedLength t old ret ≤ signatureBufferSize := by
      rw [← hlength, ← hb]
      exact b.fits
    refine ⟨hfits, ?_⟩
    rw [handOver_all (by rw [hb, hlength]; exact toNat_ofNat_of_fits hfits), hb] at h
    dsimp only [Except.bind] at h
    cases htoken : m.GetTokenFromSig (newSignatureChunks t r o).flatten with
    | none =>
        rw [htoken] at h
        cases h
    | some token =>
        rw [htoken] at h
        exact ⟨token, rfl, (Except.ok.inj h).symm⟩
  · rintro ⟨hfits, token, htoken, rfl⟩
    have hfits' : (newSignatureChunks t r o).flatten.length ≤ signatureBufferSize := by
      rwa [hlength]
    refine ⟨_, fill_of_fits hfits', ?_⟩
    rw [handOver_all (toNat_ofNat_of_fits hfits')]
    dsimp only [Except.bind]
    rw [htoken]

end write

/-! ## The whole -/

section whole

variable {t : CallTargetTokens} {m : Metadata} {sig : Option LocalVarSig} {ret : ReturnType}

theorem toNat_ofNat_sub {n : Nat} (k : Nat) (hn : n < 2 ^ 32) (hk : k ≤ n) :
    (UInt32.ofNat n - UInt32.ofNat k).toNat = n - k := by
  have hn' : (UInt32.ofNat n).toNat = n := UInt32.toNat_ofNat_of_lt' hn
  have hk' : (UInt32.ofNat k).toNat = k :=
    UInt32.toNat_ofNat_of_lt' (Nat.lt_of_le_of_lt hk hn)
  rw [UInt32.toNat_sub_of_le _ _ (by rw [UInt32.le_iff_toNat_le, hn', hk']; exact hk), hn', hk']

theorem length_addedLocals (t : CallTargetTokens) (ret : List UInt8) :
    (addedLocals t ret).length = (returnLocal ret).length + 3 := by
  rw [addedLocals, List.length_append]
  rfl

theorem length_returnLocal_le (ret : List UInt8) : (returnLocal ret).length ≤ 1 := by
  rw [returnLocal]
  split
  · exact Nat.zero_le _
  · exact Nat.le_refl _

/-- A signature that fits has few locals. -/
theorem length_localsOf_le (h : extendedLength t (localsOf sig) ret.bytes ≤ signatureBufferSize) :
    (localsOf sig).length ≤ signatureBufferSize := by
  have hflatten : (localsOf sig).flatten.length ≤ signatureBufferSize := by
    rw [extendedLength, List.flatten_append, List.length_append, List.length_append] at h
    omega
  cases sig with
  | none => exact Nat.zero_le _
  | some s => exact Nat.le_trans (length_locals_le s) hflatten

theorem length_bytes_lt (s : LocalVarSig) : s.bytes.length < 2 ^ 32 := by
  have hsize := s.size_lt
  rw [LocalVarSig.bytes, List.length_cons, List.length_append]
  omega

/-- What the check of a signature finds: it ends with the local that the profiler adds last. -/
theorem alreadyRewritten_eq_ok_iff (s : LocalVarSig) (rewritten : Bool) :
    alreadyRewritten t s.bytes = .ok rewritten ↔
      (tokenBytes t.callTargetStateTypeRef).length ≤ s.bytes.length ∧
        decide (callTargetStateLocal t <:+ s.bytes) = rewritten := by
  by_cases hlong : (tokenBytes t.callTargetStateTypeRef).length ≤ s.bytes.length
  · rw [alreadyRewritten_long hlong (length_bytes_lt s)]
    simp [hlong]
  · rw [alreadyRewritten_short (Nat.lt_of_not_le hlong)]
    simp [hlong]

/-- The check of a method: it passes without a signature. -/
theorem check_eq_false_iff :
    (match sig.map LocalVarSig.bytes with
      | some signature => alreadyRewritten t signature
      | none => Except.ok false) = .ok false ↔
      (∀ s, sig = some s → (tokenBytes t.callTargetStateTypeRef).length ≤ s.bytes.length) ∧
        ∀ s, sig = some s → ¬callTargetStateLocal t <:+ s.bytes := by
  cases sig with
  | none => simp
  | some s =>
      rw [Option.map_some]
      dsimp only
      rw [alreadyRewritten_eq_ok_iff]
      simp

theorem signature_getD (sig : Option LocalVarSig) :
    (sig.map LocalVarSig.bytes).getD [] = signatureOf sig := by
  cases sig with
  | none => rfl
  | some s => rfl

/-- The indexes that are returned are those of the new locals. -/
theorem extends_of_write {r : ReturnLocals} {o : OldLocals} {out : LocalSig}
    (hr : r.Reads t ret.bytes)
    (ho : o.Reads (localsOf sig) (signatureOf sig).length (addedLocals t ret.bytes).length)
    (hout : writeLocalSig t m (signatureOf sig) r o = .ok out) :
    Extends t (localsOf sig) ret.bytes out := by
  obtain ⟨hfits, token, -, rfl⟩ := (writeLocalSig_eq_ok_iff hr ho).mp hout
  have hsmall := length_localsOf_le hfits
  have hreturn := length_returnLocal_le ret.bytes
  have hadded := length_addedLocals t ret.bytes
  have hsize : signatureBufferSize = 500 := rfl
  have hcount : (localsOf sig).length + (addedLocals t ret.bytes).length =
      (localsOf sig ++ returnLocal ret.bytes).length + 3 := by
    rw [List.length_append, hadded]
    omega
  have hlt : (localsOf sig).length + (addedLocals t ret.bytes).length < 2 ^ 32 := by omega
  refine ⟨⟨o.newLocalsBuffer, ?_, flatten_newSignatureChunks hr ho⟩, ⟨?_, rfl⟩, ?_, ?_, ?_, ?_⟩
  · rw [List.length_append]
    exact shortest_compress ho.buffer
  · rw [length_newSignature hr ho]
    exact toNat_ofNat_of_fits hfits
  · have hsome := hr.returnSignatureType
    dsimp only
    split
    · rename_i hvoid
      rw [returnLocal, if_pos hvoid] at hsome
      rw [Option.toList_eq_nil_iff.mp hsome]
    · rename_i hvoid
      rw [returnLocal, if_neg hvoid] at hsome
      rw [Option.toList_eq_singleton_iff.mp hsome, ho.count]
      have hone : (returnLocal ret.bytes).length = 1 := by
        rw [returnLocal, if_neg hvoid]
        rfl
      refine (toNat_ofNat_sub 4 hlt (by omega)).trans ?_
      omega
  · dsimp only
    rw [ho.count]
    refine (toNat_ofNat_sub 3 hlt (by omega)).trans ?_
    omega
  · dsimp only
    rw [ho.count]
    refine (toNat_ofNat_sub 2 hlt (by omega)).trans ?_
    omega
  · dsimp only
    rw [ho.count]
    refine (toNat_ofNat_sub 1 hlt (by omega)).trans ?_
    omega

/-- What is known of a method whose signature has been extended. -/
theorem modifyLocalSig_ok {out : LocalSig}
    (h : ModifyLocalSig t m (sig.map LocalVarSig.bytes) ret.bytes = .ok out) :
    Extendable t m sig ret.bytes ∧ Extends t (localsOf sig) ret.bytes out := by
  unfold ModifyLocalSig at h
  rw [signature_getD] at h
  obtain ⟨rewritten, hcheck, h⟩ := bind_eq_ok_iff.mp h
  split at h
  · cases h
  rename_i hrewritten
  rw [Bool.not_eq_true] at hrewritten
  subst hrewritten
  obtain ⟨r, hr, h⟩ := bind_eq_ok_iff.mp h
  obtain ⟨o, ho, h⟩ := bind_eq_ok_iff.mp h
  obtain ⟨hr, hspec⟩ := returnLocals_reads hr
  have hadded : (addedLocals t ret.bytes).length ≤ 4 := by
    rw [length_addedLocals]
    exact Nat.add_le_add_right (length_returnLocal_le _) 3
  have hreads : o.Reads (localsOf sig) (signatureOf sig).length
      (addedLocals t ret.bytes).length := by
    have hcases := oldLocals_eq sig hadded
    rw [hr.count] at ho
    cases hcompress : CorSigCompressData
        ((localsOf sig).length + (addedLocals t ret.bytes).length) with
    | none =>
        rw [hcompress] at hcases
        rw [hcases] at ho
        cases ho
    | some w =>
        rw [hcompress] at hcases
        obtain ⟨o', ho', hreads⟩ := hcases
        rw [ho'] at ho
        rwa [← Except.ok.inj ho]
  have hextends := extends_of_write hr hreads h
  obtain ⟨hfits, token, htoken, -⟩ := (writeLocalSig_eq_ok_iff hr hreads).mp h
  obtain ⟨hlong, huntouched⟩ := check_eq_false_iff.mp hcheck
  refine ⟨⟨⟨hspec, ?_⟩, hlong, huntouched, hfits⟩, hextends⟩
  intro count hcount
  rw [List.length_append, hreads.buffer] at hcount
  rw [← Option.some.inj hcount, ← flatten_newSignatureChunks hr hreads, htoken]
  rfl

/-- A signature that can be extended is. -/
theorem modifyLocalSig_of_extendable (h : Extendable t m sig ret.bytes) :
    ∃ out, ModifyLocalSig t m (sig.map LocalVarSig.bytes) ret.bytes = .ok out := by
  have hsize : signatureBufferSize = 500 := rfl
  have hadded : (addedLocals t ret.bytes).length ≤ 4 := by
    rw [length_addedLocals]
    exact Nat.add_le_add_right (length_returnLocal_le _) 3
  -- The type of `CallTargetReturn<T>` is one of the types that fit.
  have hspecfits : ret.bytes ≠ [void] →
      (typeSpecSignature t ret.bytes).length ≤ signatureBufferSize := by
    intro hret
    have hfits := h.fits
    rw [extendedLength, addedLocals, callTargetReturnLocal, if_neg hret] at hfits
    simp only [List.flatten_append, List.flatten_cons, List.length_append] at hfits
    omega
  obtain ⟨r, hr⟩ := returnLocals_of_served hspecfits h.served.typeSpec
  have hreads := (returnLocals_reads hr).1
  have hcompress : (CorSigCompressData
      ((localsOf sig).length + (addedLocals t ret.bytes).length)).isSome = true := by
    have hsmall := length_localsOf_le h.fits
    exact compress_isSome (by omega)
  obtain ⟨w, hw⟩ := Option.isSome_iff_exists.mp hcompress
  have hcases := oldLocals_eq sig hadded
  rw [hw] at hcases
  obtain ⟨o, ho, hoReads⟩ := hcases
  rw [← hreads.count] at ho
  obtain ⟨token, htoken⟩ := Option.isSome_iff_exists.mp
    (h.served.sig o.newLocalsBuffer (by rw [List.length_append]; exact hoReads.buffer))
  rw [← flatten_newSignatureChunks hreads hoReads] at htoken
  have hwrite := (writeLocalSig_eq_ok_iff hreads hoReads).mpr ⟨h.fits, token, htoken, rfl⟩
  have hcheck := check_eq_false_iff.mpr ⟨h.long, h.untouched⟩
  have hall : ModifyLocalSig t m (sig.map LocalVarSig.bytes) ret.bytes =
      writeLocalSig t m (signatureOf sig) r o := by
    unfold ModifyLocalSig
    rw [signature_getD, hcheck]
    dsimp only [Except.bind]
    rw [if_neg Bool.false_ne_true, hr]
    dsimp only
    rw [ho]
  exact ⟨_, hall.trans hwrite⟩

end whole

/-- **`ModifyLocalSig` extends a local signature** as it is meant to, exactly if the condition
holds. -/
theorem modifyLocalSig_iff (t : CallTargetTokens) (m : Metadata) (sig : Option LocalVarSig)
    (ret : ReturnType) :
    (∃ out, ModifyLocalSig t m (sig.map LocalVarSig.bytes) ret.bytes = .ok out ∧
      Extends t (localsOf sig) ret.bytes out) ↔ Extendable t m sig ret.bytes := by
  constructor
  · rintro ⟨out, hout, -⟩
    exact (modifyLocalSig_ok hout).1
  · intro h
    obtain ⟨out, hout⟩ := modifyLocalSig_of_extendable h
    exact ⟨out, hout, (modifyLocalSig_ok hout).2⟩

/-- The type references of a module with few of them. -/
def plainTokens : CallTargetTokens where
  objectTypeRef := 0x01000010
  exTypeRef := 0x01000011
  typeRef := 0x01000012
  runtimeTypeHandleRef := 0x01000013
  callTargetStateTypeRef := 0x01000014
  callTargetReturnVoidTypeRef := 0x01000015
  callTargetReturnTypeRef := 0x01000016

/-- The metadata of a module without type specifications. -/
def plainMetadata : Metadata where
  GetTokenFromTypeSpec _ := none
  GetTypeSpecFromToken _ := none
  GetTokenFromSig _ := some 0x11000002
  typeSpec_eq := by
    intro s t h
    cases h
  typeSpec_nil := rfl

/-- A method that returns nothing. -/
def voidReturn : ReturnType := ⟨[void], Or.inl rfl⟩

/-- The signature of a method with 500 locals of type `int`. -/
def manyLocals : LocalVarSig where
  countBytes := [0x81, 0xF4]
  locals := List.replicate 500 [i4]
  encodes := by
    rw [List.length_replicate]
    exact Encodes.two 0x81 0xF4 (by decide) (by decide)
  nonempty := by
    intro type htype
    rw [List.eq_of_mem_replicate htype]
    exact List.cons_ne_nil _ _
  size_lt := by
    rw [List.flatten_replicate_singleton, List.length_replicate]
    decide

/-- The new signature of that method does not fit. -/
theorem extendedLength_manyLocals : signatureBufferSize <
    extendedLength plainTokens (localsOf (some manyLocals)) voidReturn.bytes := by
  have hold : (localsOf (some manyLocals)).flatten.length = 500 := by
    show (List.replicate 500 [i4]).flatten.length = 500
    rw [List.flatten_replicate_singleton, List.length_replicate]
  have hsize : signatureBufferSize = 500 := rfl
  rw [extendedLength, List.flatten_append, List.length_append, List.length_append]
  omega

/-- The locals of that method are not extended: the array is overrun. -/
theorem not_extends_manyLocals :
    ¬∃ out, ModifyLocalSig plainTokens plainMetadata (some manyLocals.bytes) voidReturn.bytes =
        .ok out ∧ Extends plainTokens (localsOf (some manyLocals)) voidReturn.bytes out := by
  rintro ⟨out, hout, -⟩
  have hok : ModifyLocalSig plainTokens plainMetadata ((some manyLocals).map LocalVarSig.bytes)
      voidReturn.bytes = .ok out := hout
  have hfits := (modifyLocalSig_ok hok).1.fits
  exact absurd hfits (Nat.not_le_of_lt extendedLength_manyLocals)

end DdTrace.Profiler
