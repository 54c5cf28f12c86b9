import DdTrace.Lib.IntegerText
import DdTrace.Profiler.MethodSignature

/-!
# The names of the types of a signature

`TryParseSignatureTypes` turns the signature of a method into one name for each type. It is one
loop over the bytes, with a stack of the generic arguments still to come and an array suffix that
waits for the next name.

* `MetadataImport`: what the loop asks of the metadata.
* `tryParseSignatureTypes`: the loop.
* `SigType`, `MethodSig`: signatures as trees, with their bytes and their structural names.

A type that is nested in others is named after them: the loop follows the enclosing types until a
name has a dot. `fuel` bounds the length of such a chain.

Source: `clr_helpers.cpp`, lines 209 to 295 and 477 to 789; `lib/coreclr/src/inc/cor.h`, lines 2016
to 2125.
-/

namespace DdTrace.Profiler

open CorElementType DdTrace.Lib

/-- A string of the profiler, as its characters.
Source: `string.h`, `WSTRING` -/
abbrev WString := List Char

/-- The failures of the loop. -/
inductive NamesError
  /-- The function returns `false`. -/
  | failed
  /-- Memory outside the signature was read. -/
  | undefined
  /-- A loop was still running at the end of its fuel. -/
  | unfinished
  deriving DecidableEq, Repr

/-! ## Metadata -/

/-- What `GetTypeInfo` reports of a type, as far as the loop uses it.
Source: `clr_helpers.h`, `TypeInfo` -/
structure TypeInfo where
  /-- The token of the type; of its generic type for a type specification. -/
  id : Nat
  /-- Its name, without the names of the types around it. -/
  name : WString
  deriving DecidableEq, Repr

/-- What the loop asks of the metadata. -/
structure MetadataImport where
  /-- `GetTypeInfo`. -/
  typeInfo : Nat → TypeInfo
  /-- The token that `GetNestedClassProps` leaves; 0 (`mdTokenNil`) if no type is around. -/
  enclosing : Nat → Nat

/-- The byte `i` of a signature. -/
def byteAt (data : List UInt8) (i : Nat) : Except NamesError UInt8 :=
  match data[i]? with
  | some b => .ok b
  | none => .error .undefined

/-- A compressed number and the number of its bytes, which is `(ULONG) -1` for no encoding.
Source: `cor.h`, `CorSigUncompressData` -/
def corSigUncompressData (data : List UInt8) (i : Nat) : Except NamesError (Nat × Nat) := do
  let b₁ ← byteAt data i
  if b₁ &&& 0x80 = 0 then pure (b₁.toNat, 1)
  else if b₁ &&& 0xC0 = 0x80 then do
    let b₂ ← byteAt data (i + 1)
    pure ((b₁.toNat &&& 0x3F) <<< 8 ||| b₂.toNat, 2)
  else if b₁ &&& 0xE0 = 0xC0 then do
    let b₂ ← byteAt data (i + 1)
    let b₃ ← byteAt data (i + 2)
    let b₄ ← byteAt data (i + 3)
    pure ((b₁.toNat &&& 0x1F) <<< 24 ||| b₂.toNat <<< 16 ||| b₃.toNat <<< 8 ||| b₄.toNat, 4)
  else pure (0, 0xFFFFFFFF)

/-- `mdtTypeDef`, `mdtTypeRef`, `mdtTypeSpec` and `mdtBaseType`.
Source: `cor.h`, `g_tkCorEncodeToken` -/
def corEncodeToken (tag : Nat) : Nat :=
  match tag with
  | 0 => 0x02000000
  | 1 => 0x01000000
  | 2 => 0x1B000000
  | _ => 0x72000000

/-- The token that a number stands for.
Source: `cor.h`, `CorSigUncompressToken` -/
def tokenOf (encoded : Nat) : Nat := encoded >>> 2 ||| corEncodeToken (encoded &&& 0x3)

/-- Source: `cor.h`, `CorSigUncompressToken` -/
def corSigUncompressToken (data : List UInt8) (i : Nat) : Except NamesError (Nat × Nat) := do
  let (encoded, length) ← corSigUncompressData data i
  pure (tokenOf encoded, length)

/-- The type at place `i` and the number of bytes of its token.
Source: `clr_helpers.cpp`, `RetrieveTypeForSignature` -/
def retrieveTypeForSignature (md : MetadataImport) (data : List UInt8) (i : Nat) :
    Except NamesError (TypeInfo × Nat) := do
  let (token, length) ← corSigUncompressToken data i
  pure (md.typeInfo token, length)

/-- The names of the types around a type, outermost first, up to a name with a dot.
Source: `clr_helpers.cpp`, `TryParseSignatureTypes`, cases `ELEMENT_TYPE_VALUETYPE` and
`ELEMENT_TYPE_CLASS` -/
def nestedTypeName (md : MetadataImport) : Nat → TypeInfo → WString → Except NamesError WString
  | 0, _, _ => .error .unfinished
  | fuel + 1, examined, ongoing =>
      if '.' ∈ examined.name then .ok ongoing
      else if md.enclosing examined.id = 0 then .ok ongoing
      else
        let nesting := md.typeInfo (md.enclosing examined.id)
        nestedTypeName md fuel nesting (nesting.name ++ ('+' :: ongoing))

/-! ## Generic argument counts -/

/-- The character before the number of generic parameters in a type name. -/
def tick : Char := Char.ofNat 0x60

/-- What is behind the last tick; the whole name if there is none.
Source: `clr_helpers.cpp`, `TryParseSignatureTypes`, case `ELEMENT_TYPE_GENERICINST` -/
def afterLastTick (name : WString) : WString :=
  (name.reverse.takeWhile fun c => c ≠ tick).reverse

/-- `std::stoi`: white space, a sign, digits, and anything behind them; `none` if it throws. -/
def stoi (text : List Char) : Option Int :=
  let text := text.dropWhile IntegerText.isWhite
  let negative := text.head? = some '-'
  let digits := (if text.head? = some '-' ∨ text.head? = some '+' then text.tail else text).takeWhile
    Char.isDigit
  if digits = [] then none
  else
    let n : Int := Nat.ofDigitChars 10 digits 0
    let n := if negative then -n else n
    if -2 ^ 31 ≤ n ∧ n < 2 ^ 31 then some n else none

/-- The number of generic arguments that a type name promises. -/
def genericArgCount (name : WString) : Option Int := stoi (afterLastTick name)

/-! ## The loop -/

/-- The local variables of the loop. -/
structure NamesState where
  /-- `current_index`. -/
  currentIndex : Nat
  /-- `current_type_index`. -/
  currentTypeIndex : Nat
  /-- `type_names`. -/
  typeNames : List WString
  /-- `generic_arg_stack`, the top first. -/
  genericArgStack : List Int
  /-- `append_to_type`. -/
  appendToType : WString
  /-- `current_type_name`. -/
  currentTypeName : WString
  deriving DecidableEq, Repr

/-- Close the generic types that have no argument left: the stack, and the name so far. -/
def unwindGenerics : List Int → WString → List Int × WString
  | [], name => ([], name)
  | top :: rest, name =>
      if top = 0 then
        match rest with
        | [] => ([], name ++ ['>'])
        | next :: below =>
            unwindGenerics (next :: below)
              (if next > 0 then name ++ ['>'] ++ [',', ' '] else name ++ ['>'])
      else (top :: rest, name)

/-- One argument less on the top of the stack. -/
def decrementTop : List Int → List Int
  | [] => []
  | top :: rest => (top - 1) :: rest

/-- The stack and the name behind a type. -/
def closeGenerics : List Int → WString → List Int × WString
  | [], name => ([], name)
  | top :: rest, name =>
      unwindGenerics ((top - 1) :: rest) (if top - 1 > 0 then name ++ [',', ' '] else name)

/-- The part of the loop behind the switch: the array suffix, the generic arguments, and the name
if no generic type is open. -/
def finishType (st : NamesState) : Except NamesError NamesState :=
  let named := if st.appendToType = [] then st.currentTypeName
    else st.currentTypeName ++ st.appendToType
  let (stack, name) := closeGenerics st.genericArgStack named
  if stack ≠ [] then
    .ok { st with genericArgStack := stack, appendToType := [], currentTypeName := name }
  else if st.currentTypeIndex ≥ st.typeNames.length then .error .failed
  else
    .ok { st with
      typeNames := st.typeNames.set st.currentTypeIndex name, currentTypeName := [],
      currentTypeIndex := st.currentTypeIndex + 1, genericArgStack := [], appendToType := [] }

/-- The cases of the switch that append a fixed name.
Source: `clr_helpers.cpp`, `TryParseSignatureTypes` -/
def fixedName (b : UInt8) : Option WString :=
  if b = void then some "System.Void".toList
  else if b = boolean then some "System.Boolean".toList
  else if b = char then some "System.Char16".toList
  else if b = i1 then some "System.SByte".toList
  else if b = u1 then some "System.Byte".toList
  else if b = i2 then some "System.Int16".toList
  else if b = u2 then some "System.UInt16".toList
  else if b = i4 then some "System.Int32".toList
  else if b = u4 then some "System.UInt32".toList
  else if b = i8 then some "System.Int64".toList
  else if b = u8 then some "System.UInt64".toList
  else if b = r4 then some "System.Single".toList
  else if b = r8 then some "System.Double".toList
  else if b = string then some "System.String".toList
  else if b = object then some "System.Object".toList
  -- the case `ELEMENT_TYPE_BYREF`
  else if b = byRef then some "ref".toList
  else none

/-- The inner loop over the further `SZARRAY` bytes.
Source: `clr_helpers.cpp`, `TryParseSignatureTypes`, case `ELEMENT_TYPE_SZARRAY` -/
def skipArrays : List UInt8 → Nat → WString → Except NamesError (Nat × WString)
  | [], _, _ => .error .undefined
  | b :: bs, i, suffix =>
      if b = szArray then skipArrays bs (i + 1) (suffix ++ ['[', ']']) else .ok (i, suffix)

section Loop

variable (md : MetadataImport) (fuel : Nat) (data : List UInt8)

/-- The cases `ELEMENT_TYPE_VALUETYPE` and `ELEMENT_TYPE_CLASS`. -/
def namedType (st : NamesState) : Except NamesError NamesState := do
  let (typeData, tokenLength) ← retrieveTypeForSignature md data (st.currentIndex + 1)
  let name ← nestedTypeName md fuel typeData typeData.name
  finishType { st with
    currentIndex := st.currentIndex + 1 + (tokenLength - 1)
    currentTypeName := st.currentTypeName ++ name }

/-- The case `ELEMENT_TYPE_SZARRAY`. -/
def arrayType (st : NamesState) : Except NamesError NamesState := do
  let (index, suffix) ← skipArrays (data.drop (st.currentIndex + 1)) st.currentIndex
    (st.appendToType ++ ['[', ']'])
  pure { st with currentIndex := index, appendToType := suffix }

/-- The cases `ELEMENT_TYPE_MVAR` and `ELEMENT_TYPE_VAR`: the number is uncompressed at the element
type. -/
def variableType (st : NamesState) : Except NamesError NamesState := do
  let (_, tokenLength) ← corSigUncompressToken data st.currentIndex
  finishType { st with
    currentIndex := st.currentIndex + tokenLength
    currentTypeName := st.currentTypeName ++ ['T'] }

/-- The case `ELEMENT_TYPE_GENERICINST`. -/
def genericType (st : NamesState) : Except NamesError NamesState := do
  let (typeData, tokenLength) ← retrieveTypeForSignature md data (st.currentIndex + 1 + 1)
  match genericArgCount typeData.name with
  | none => .error .failed
  | some count =>
      pure { st with
        currentIndex := st.currentIndex + 1 + 1 + tokenLength
        currentTypeName := st.currentTypeName ++ typeData.name ++ ['<']
        genericArgStack := count :: decrementTop st.genericArgStack }

/-- The body of the loop.
Source: `clr_helpers.cpp`, `TryParseSignatureTypes` -/
def namesIteration (st : NamesState) : Except NamesError NamesState := do
  let b ← byteAt data st.currentIndex
  match fixedName b with
  | some name => finishType { st with currentTypeName := st.currentTypeName ++ name }
  | none =>
      if b = valueType ∨ b = class_ then namedType md fuel data st
      else if b = szArray then arrayType data st
      else if b = mVar ∨ b = var then variableType data st
      else if b = genericInst then genericType md data st
      -- the case `ELEMENT_TYPE_END`
      else if b = 0 then pure st
      else finishType { st with
        currentTypeName := st.currentTypeName ++ Nat.toDigits 10 b.toNat }

/-- The loop, for a number of rounds. -/
def namesLoop : Nat → NamesState → Except NamesError NamesState
  | 0, _ => .error .unfinished
  | rounds + 1, st =>
      if st.currentIndex < data.length then do
        let st ← namesIteration md fuel data st
        namesLoop rounds { st with currentIndex := st.currentIndex + 1 }
      else pure st

/-- The variables before the loop. -/
def namesStart : NamesState where
  currentIndex := if (MethodSignature.mk data).numberOfTypeArguments > 0 then 2 + 1 else 2
  currentTypeIndex := 0
  typeNames := List.replicate ((MethodSignature.mk data).numberOfArguments + 1) []
  genericArgStack := []
  appendToType := []
  currentTypeName := []

/-- Every round moves the index on, so that there are no more rounds than bytes.
Source: `clr_helpers.cpp`, `TryParseSignatureTypes` -/
def tryParseSignatureTypes : Except NamesError (List WString) := do
  let st ← namesLoop md fuel data (data.length + 1) (namesStart data)
  pure st.typeNames

end Loop

end DdTrace.Profiler
