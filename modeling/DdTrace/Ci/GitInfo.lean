import DdTrace.Lib.IntegerText
import DdTrace.Lib.LittleEndian

/-!
# The offsets of git objects

`GitPackageOffset.TryGetPackageOffset` looks up a commit in the index of a git pack: it seeks from
table to table of the file, with distances in `int` and `uint` arithmetic.

* `FileStream`: a file and a position in it.
* `readPackageOffset`: the body of the `try`.
* `tryGetPackageOffset`: the lookup.

Source: `GitInfo.cs`, lines 542 to 686.
-/

namespace DdTrace.Ci

open DdTrace.Lib

/-! ## Numbers -/

/-- The conversion to `uint`. -/
def toUInt (n : Int) : Nat := (n % 2 ^ 32).toNat

/-- The conversion to `int`. -/
def toInt (n : Int) : Int := Int.bmod n (2 ^ 32)

/-- The conversion to `long`. -/
def toLong (n : Int) : Int := Int.bmod n (2 ^ 64)

/-- The hexadecimal digits; the ones that are written are the first 16. -/
def hexChars : List Char := "0123456789ABCDEFabcdef".toList

/-- The value of a hexadecimal digit. -/
def hexValue (c : Char) : Nat :=
  if hexChars.idxOf c < 16 then hexChars.idxOf c else hexChars.idxOf c - 6

/-- `int.Parse` with `NumberStyles.HexNumber`, for the short text of the source: white space, digits,
white space and null characters. -/
def parseHexNumber (s : List Char) : Option Nat :=
  let s := s.dropWhile IntegerText.isWhite
  let digits := s.takeWhile (· ∈ hexChars)
  let rest := (s.dropWhile (· ∈ hexChars)).dropWhile IntegerText.isWhite
  if digits = [] ∨ rest.all (· == '\x00') = false then none
  else some (digits.foldl (fun n c => 16 * n + hexValue c) 0)

/-- The two hexadecimal digits of a byte. -/
def hexByte (b : UInt8) : List Char :=
  [hexChars.getD (b.toNat / 16) '0', hexChars.getD (b.toNat % 16) '0']

/-- `BitConverter.ToString`. -/
def bitConverterToString (bytes : List UInt8) : List Char :=
  ['-'].intercalate (bytes.map hexByte)

/-- `Replace("-", string.Empty)`. -/
def removeDashes (s : List Char) : List Char := s.filter (· ≠ '-')

/-- `Equals` with `StringComparison.OrdinalIgnoreCase`. -/
def equalsIgnoreCase (s t : List Char) : Bool := s.map Char.toUpper == t.map Char.toUpper

/-! ## Files -/

/-- The exceptions of reading a file. -/
inductive FileError
  /-- `Seek` to a place before the beginning. -/
  | beforeBegin
  /-- `BitConverter.ToUInt32` of fewer than 4 bytes. -/
  | tooShort
  /-- `ReadUInt64` with fewer than 8 bytes left. -/
  | endOfStream
  deriving DecidableEq, Repr

/-- A file that is open for reading. -/
structure FileStream where
  /-- The content. -/
  bytes : List UInt8
  /-- `Position`, which may be behind the end. -/
  position : Nat

namespace FileStream

/-- `Seek` from the current position. -/
def seek (fs : FileStream) (offset : Int) : Except FileError FileStream :=
  if (fs.position : Int) + offset < 0 then .error .beforeBegin
  else .ok { fs with position := ((fs.position : Int) + offset).toNat }

/-- `ReadBytes`, which returns fewer bytes at the end. -/
def readBytes (fs : FileStream) (count : Nat) : List UInt8 × FileStream :=
  let data := (fs.bytes.drop fs.position).take count
  (data, { fs with position := fs.position + data.length })

/-- Source: `GitInfo.cs`, `BigEndianBinaryReader.ReadUInt32` -/
def readUInt32 (fs : FileStream) : Except FileError (Nat × FileStream) :=
  let data := fs.readBytes 4
  if data.1.length < 4 then .error .tooShort
  else .ok (LittleEndian.decode data.1.reverse, data.2)

/-- `BinaryReader.ReadUInt64`, which `BigEndianBinaryReader` does not override. -/
def readUInt64 (fs : FileStream) : Except FileError (Nat × FileStream) :=
  let data := fs.readBytes 8
  if data.1.length < 8 then .error .endOfStream
  else .ok (LittleEndian.decode data.1, data.2)

end FileStream

/-! ## The lookup -/

/-- The loop over the names of a group, from the name `i` of the group on. -/
def searchLoop (commitSha : List Char) (numberOfObjectsInPreviousIndex totalNumberOfObjects : Nat) :
    Nat → Nat → FileStream → Except FileError (Option Nat × FileStream)
  | 0, _, fs => .ok (none, fs)
  | count + 1, i, fs =>
      let data := fs.readBytes 20
      if equalsIgnoreCase (removeDashes (bitConverterToString data.1)) commitSha then do
        let indexOfCommit := toUInt (numberOfObjectsInPreviousIndex + i)
        let fs ← data.2.seek (toUInt (20 * (totalNumberOfObjects - (indexOfCommit + 1))))
        pure (some indexOfCommit, fs)
      else
        searchLoop commitSha numberOfObjectsInPreviousIndex totalNumberOfObjects count (i + 1) data.2

/-- What is read behind the names, for the commit with this index. -/
def readOffset (totalNumberOfObjects indexOfCommit : Nat) (fs : FileStream) :
    Except FileError Int := do
  let fs ← fs.seek (toUInt (4 * totalNumberOfObjects))
  let fs ← fs.seek (toUInt (4 * indexOfCommit))
  let (offset, fs) ← fs.readUInt32
  if (offset >>> 31) &&& 1 = 0 then pure (toLong offset)
  else do
    let offset := offset &&& 0x7FFFFFFF
    let fs ← fs.seek (toUInt (4 * (totalNumberOfObjects - (indexOfCommit + 1))))
    let fs ← fs.seek (toUInt (8 * offset))
    let (packOffset, _) ← fs.readUInt64
    pure (toLong packOffset)

/-- What is read behind the search, if it found the commit. -/
def readFound (totalNumberOfObjects : Nat) :
    Option Nat × FileStream → Except FileError (Option Int)
  | (none, _) => .ok none
  | (some indexOfCommit, fs) => do
      let packOffset ← readOffset totalNumberOfObjects indexOfCommit fs
      pure (some packOffset)

/-- The body of the `try`. -/
def readPackageOffset (file : List UInt8) (commitSha : List Char) (folderIndex : Nat) :
    Except FileError (Option Int) := do
  let previousIndex : Int := if folderIndex > 0 then folderIndex - 1 else folderIndex
  let fs : FileStream := ⟨file, 8⟩
  let (numberOfObjectsInPreviousIndex, fs) ←
    if previousIndex > -1 then do
      let fs ← fs.seek (previousIndex * 4)
      fs.readUInt32
    else pure (0, fs)
  let (numberOfObjects, fs) ← fs.readUInt32
  let numberOfObjectsInIndex := toUInt (numberOfObjects - numberOfObjectsInPreviousIndex)
  let fs ← fs.seek ((255 - ((folderIndex : Int) + 1)) * 4)
  let (totalNumberOfObjects, fs) ← fs.readUInt32
  let fs ← fs.seek (toInt (20 * toInt numberOfObjectsInPreviousIndex))
  let found ← searchLoop commitSha numberOfObjectsInPreviousIndex totalNumberOfObjects
    numberOfObjectsInIndex 0 fs
  readFound totalNumberOfObjects found

/-- Source: `GitInfo.cs`, `GitPackageOffset` -/
structure GitPackageOffset where
  /-- `FilePath`. -/
  filePath : String
  /-- `Offset`. -/
  offset : Int
  deriving DecidableEq, Repr

/-- The exceptions that are not caught: a text without two characters, or not of hexadecimal
digits. -/
inductive ShaError
  /-- `Substring`. -/
  | tooShort
  /-- `int.Parse`. -/
  | format
  deriving DecidableEq, Repr

/-- The lookup in a file with this path and content; `none` for `false`.
Source: `GitInfo.cs`, `TryGetPackageOffset` -/
def tryGetPackageOffset (idxFilePath : String) (file : List UInt8) (commitSha : List Char) :
    Except ShaError (Option GitPackageOffset) :=
  if commitSha.length < 2 then .error .tooShort
  else
    match parseHexNumber (commitSha.take 2) with
    | none => .error .format
    | some folderIndex =>
        match readPackageOffset file commitSha folderIndex with
        | .error _ => .ok none
        | .ok offset => .ok (offset.map fun offset => ⟨idxFilePath, offset⟩)

end DdTrace.Ci
