import DdTrace.Lib.IntegerText

/-!
# Sampling priorities and the texts they are read from

`SamplingPriority` is an enumeration over 32-bit integers, so a value of the type need not be one
of its four members (a cast from an integer does not check); the model keeps the integer. The
module also holds the readers `Span.SetTag` uses: `Enum.TryParse` and `Enum.IsDefined` for the
tag `sampling.priority`, and `ToBoolean` for the keep and drop tags.

Sources: `SamplingPriority.cs`; `ExtensionMethods/StringExtensions.cs`, `ToBoolean`; the runtime's
`System.Enum`.
-/

namespace DdTrace.Tracing

open DdTrace.Lib

/-- The enumeration `SamplingPriority`, by its underlying integer.
Source: `SamplingPriority.cs` -/
structure SamplingPriority where
  /-- The underlying integer. -/
  value : Int
  deriving DecidableEq, Repr

namespace SamplingPriority

/-- Explicitly ask the backend to not store a trace. -/
def userReject : SamplingPriority := ⟨-1⟩

/-- The built-in sampler's reject. -/
def autoReject : SamplingPriority := ⟨0⟩

/-- The built-in sampler's keep. -/
def autoKeep : SamplingPriority := ⟨1⟩

/-- Explicitly ask the backend to keep a trace. -/
def userKeep : SamplingPriority := ⟨2⟩

/-- The members with their names, in the order of the source. -/
def members : List (String × SamplingPriority) :=
  [("UserReject", userReject), ("AutoReject", autoReject), ("AutoKeep", autoKeep),
    ("UserKeep", userKeep)]

/-- `Enum.IsDefined(typeof(SamplingPriority), p)`. -/
def isDefined (p : SamplingPriority) : Bool := members.any fun m => m.2 == p

/-- `char.IsWhiteSpace`. -/
def isWhiteSpace (c : Char) : Bool :=
  IntegerText.isWhite c ||
    [0x85, 0xA0, 0x1680, 0x2028, 0x2029, 0x202F, 0x205F, 0x3000].contains c.toNat ||
    (0x2000 ≤ c.toNat && c.toNat ≤ 0x200A)

/-- `string.Trim()`. -/
def trim (cs : List Char) : List Char :=
  ((cs.dropWhile isWhiteSpace).reverse.dropWhile isWhiteSpace).reverse

/-- Read a comma separated list of member names, each trimmed, and combine their bits. -/
def tryParseByName (cs : List Char) : Option SamplingPriority :=
  let names := (cs.splitOn ',').map fun name => String.ofList (trim name)
  (names.mapM fun name => members.lookup name).map fun ps =>
    ⟨(ps.foldl (fun bits p => bits ||| BitVec.ofInt 32 p.value) 0#32).toInt⟩

/-- `Enum.TryParse<SamplingPriority>(value, out p)`: a text that begins like a number is read as a
32-bit integer if it is one, any other text as a list of member names.
Source: `System.Enum.TryParse` -/
def enumTryParse (value : Option String) : Option SamplingPriority :=
  match value with
  | none => none
  | some s =>
      match trim s.toList with
      | [] => none
      | c :: cs =>
          if c.isDigit ∨ c = '-' ∨ c = '+' then
            match IntegerText.parse .invariant false (c :: cs) with
            | some n => if -2 ^ 31 ≤ n ∧ n < 2 ^ 31 then some ⟨n⟩ else none
            | none => tryParseByName (c :: cs)
          else tryParseByName (c :: cs)

end SamplingPriority

/-- Ordinal comparison without regard to case, against a text of upper-case ASCII letters. -/
def equalsOrdinalIgnoreCase (value upper : String) : Bool :=
  value.toList.map Char.toUpper == upper.toList

/-- `ToBoolean`: the usual spellings of true and false, in any case; `none` is a null result.
Source: `StringExtensions.cs`, `ToBoolean` -/
def toBoolean (value : String) : Option Bool :=
  match value.toList with
  | [] => none
  | [c] =>
      if c = 'T' ∨ c = 't' ∨ c = 'Y' ∨ c = 'y' ∨ c = '1' then some true
      else if c = 'F' ∨ c = 'f' ∨ c = 'N' ∨ c = 'n' ∨ c = '0' then some false
      else none
  | _ =>
      if equalsOrdinalIgnoreCase value "TRUE" ∨ equalsOrdinalIgnoreCase value "YES" then some true
      else if equalsOrdinalIgnoreCase value "FALSE" ∨ equalsOrdinalIgnoreCase value "NO" then
        some false
      else none

end DdTrace.Tracing
