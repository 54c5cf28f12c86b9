import DdTrace.Lib.IntegerText
import DdTrace.Lib.ShortReads

/-!
# The HTTP client over streams

The reader of a response: the status line and the headers a byte at a time, and the content, which
is left in the stream until it is copied into a buffer.

* `Reader`: the variables of `ReadResponseAsync` that its local functions share.
* `readResponseAsync`: the reader.
* `copyToAsync`: the content, copied into a buffer.

The stream is a source with short reads. The loops have a fuel, one unit for each round; that a
round moves on in the stream is proved, not assumed. Strings have no maximal length.

Sources: `DatadogHttpClient.cs`, lines 57 to 220; `HttpHeaders.cs`; `HttpResponse.cs`;
`StreamContent.cs`; `DatadogHttpValues.cs`.
-/

namespace DdTrace.HttpOverStreams

open DdTrace.Lib DdTrace.Lib.ShortReads

/-! ## Characters and numbers -/

/-- `DatadogHttpValues.CarriageReturn`. -/
def carriageReturn : Char := '\r'

/-- `DatadogHttpValues.LineFeed`. -/
def lineFeed : Char := '\n'

/-- The character that `Encoding.ASCII` decodes a byte to. -/
def asciiChar (b : UInt8) : Char := if b < 0x80 then Char.ofNat b.toNat else '?'

/-- White space, among the characters that bytes are decoded to.
Source: `char.IsWhiteSpace` -/
def isWhiteSpace (c : Char) : Bool := (0x09 ≤ c.toNat && c.toNat ≤ 0x0D) || c.toNat == 0x20

/-- `string.Trim`. -/
def trim (s : List Char) : List Char :=
  ((s.dropWhile isWhiteSpace).reverse.dropWhile isWhiteSpace).reverse

/-- The current culture. No culture's minus sign begins with a digit. -/
structure Culture extends IntegerText.NumberFormat where
  /-- The minus sign can be told from the digits. -/
  negativeSign_head : ∀ c ∈ negativeSign.head?, c.isDigit = false

/-- `int.MaxValue`. -/
def intMaxValue : Int := 2 ^ 31 - 1

/-- `int.TryParse`. -/
def intTryParse (culture : Culture) (s : String) : Option Int :=
  IntegerText.tryParse culture.toNumberFormat (-2 ^ 31) intMaxValue s

/-- `long.TryParse`; there is no number in `null`. -/
def longTryParse (culture : Culture) (s : Option String) : Option Int :=
  s.bind (IntegerText.tryParse culture.toNumberFormat (-2 ^ 63) (2 ^ 63 - 1))

/-! ## Headers, content and response -/

/-- Source: `HttpHeaders.cs`, `HttpHeader` -/
structure HttpHeader where
  /-- The name. -/
  name : String
  /-- The value. -/
  value : String
  deriving DecidableEq, Repr

/-- `string.Equals` with `StringComparison.OrdinalIgnoreCase`. -/
def equalsIgnoreCase (s t : String) : Bool := s.toList.map Char.toUpper == t.toList.map Char.toUpper

/-- The headers, in the order they were added.
Source: `HttpHeaders.cs` -/
abbrev HttpHeaders := List HttpHeader

/-- Source: `HttpHeaders.cs`, `Add` -/
def HttpHeaders.add (headers : HttpHeaders) (name value : String) : HttpHeaders :=
  headers ++ [⟨name, value⟩]

/-- Source: `HttpHeaders.cs`, `GetValue` -/
def HttpHeaders.getValue (headers : HttpHeaders) (name : String) : Option String :=
  (headers.find? fun header => equalsIgnoreCase header.name name).map HttpHeader.value

/-- Source: `StreamContent.cs` -/
structure StreamContent where
  /-- `Stream`. -/
  stream : Source UInt8
  /-- `Length`. -/
  length : Option Int

/-- Source: `HttpResponse.cs`, `HttpMessage.cs` -/
structure HttpResponse where
  /-- `StatusCode`. -/
  statusCode : Int
  /-- `ResponseMessage`. -/
  responseMessage : String
  /-- `Headers`. -/
  headers : HttpHeaders
  /-- `Content`. -/
  content : StreamContent

/-! ## The reader -/

/-- The exceptions, and the end of the fuel. -/
inductive ReadError
  /-- `Unexpected end of stream at position {streamPosition}`. -/
  | unexpectedEnd (streamPosition : Nat)
  /-- `Unexpected character {currentChar} in headers: CR must be followed by LF`. -/
  | unexpectedCharacter (currentChar : Char)
  /-- `Invalid response, can't parse status code. Line was:…`. -/
  | invalidStatusCode (line : String)
  /-- `StreamPosition already exceeds requiredStreamPosition`. -/
  | positionExceeded
  /-- An index outside an array. -/
  | indexOutOfRange
  /-- A loop was still running at the end of its fuel. -/
  | unfinished
  deriving DecidableEq, Repr

/-- The variables that the local functions share. -/
structure Reader where
  /-- `responseStream`. -/
  stream : Source UInt8
  /-- `chArray`, of `bufferSize` bytes. -/
  chArray : List UInt8
  /-- `currentChar`. -/
  currentChar : Char
  /-- `streamPosition`, of which only the values up to `startOfReasonPhrase` are looked at. -/
  streamPosition : Nat

/-- `bufferSize`. -/
def bufferSize : Nat := 10

/-- `statusCodeStart`. -/
def statusCodeStart : Nat := 9

/-- `statusCodeEnd`. -/
def statusCodeEnd : Nat := 12

/-- `startOfReasonPhrase`. -/
def startOfReasonPhrase : Nat := 13

/-- Source: `DatadogHttpClient.cs`, `ContentLengthHeaderKey` -/
def contentLengthHeaderKey : String := "Content-Length"

/-- The variables before the first read. -/
def Reader.start (stream : Source UInt8) : Reader where
  stream := stream
  chArray := List.replicate bufferSize 0
  currentChar := Char.ofNat 0
  streamPosition := 0

/-- An array with some bytes written over its first ones. -/
def overwrite (array bytes : List UInt8) : List UInt8 := bytes ++ array.drop bytes.length

/-- `Encoding.ASCII.GetChars(chArray)[index]`. -/
def charAt (chArray : List UInt8) (index : Nat) : Except ReadError Char :=
  match (chArray.map asciiChar)[index]? with
  | some c => .ok c
  | none => .error .indexOutOfRange

/-- Source: `DatadogHttpClient.cs`, `GoNextChar` -/
def goNextChar (r : Reader) : Except ReadError Reader :=
  let read := r.stream.read 1
  if read.1.length = 0 then .error (.unexpectedEnd r.streamPosition)
  else do
    let chArray := overwrite r.chArray read.1
    let c ← charAt chArray 0
    pure ⟨read.2, chArray, c, r.streamPosition + 1⟩

/-- The loop of `SkipUntil`: the stream, the array and `lastBytesRead` behind it. -/
def skipLoop (streamPosition : Nat) : Nat → Source UInt8 → List UInt8 → Nat → Nat →
    Except ReadError (Source UInt8 × List UInt8 × Nat)
  | 0, _, _, _, _ => .error .unfinished
  | fuel + 1, stream, chArray, bytesRemaining, lastBytesRead =>
      if bytesRemaining > 0 then
        let read := stream.read (min bytesRemaining bufferSize)
        if read.1.length = 0 then .error (.unexpectedEnd streamPosition)
        else
          skipLoop streamPosition fuel read.2 (overwrite chArray read.1)
            (bytesRemaining - read.1.length) read.1.length
      else .ok (stream, chArray, lastBytesRead)

/-- Source: `DatadogHttpClient.cs`, `SkipUntil` -/
def skipUntil (fuel : Nat) (requiredStreamPosition : Nat) (r : Reader) : Except ReadError Reader :=
  if requiredStreamPosition < r.streamPosition then .error .positionExceeded
  else do
    let (stream, chArray, lastBytesRead) ← skipLoop r.streamPosition fuel r.stream r.chArray
      (requiredStreamPosition - r.streamPosition) 0
    -- the index of the last character read is negative if none was
    if lastBytesRead = 0 then .error .indexOutOfRange
    else do
      let c ← charAt chArray (lastBytesRead - 1)
      pure ⟨stream, chArray, c, requiredStreamPosition⟩

/-- Source: `DatadogHttpClient.cs`, `ReadUntil` -/
def readUntil (stopChar : Char) : Nat → Reader → List Char → Except ReadError (Reader × List Char)
  | 0, _, _ => .error .unfinished
  | fuel + 1, r, builder =>
      if r.currentChar = stopChar then .ok (r, builder)
      else do
        let r' ← goNextChar r
        readUntil stopChar fuel r' (builder ++ [r.currentChar])

/-- Source: `DatadogHttpClient.cs`, `IsNewLine` -/
def isNewLine (r : Reader) : Except ReadError (Bool × Reader) :=
  if r.currentChar = carriageReturn then do
    let r ← goNextChar r
    if r.currentChar = lineFeed then pure (true, r)
    else .error (.unexpectedCharacter r.currentChar)
  else .ok (false, r)

/-- Source: `DatadogHttpClient.cs`, `ReadUntilNewLine` -/
def readUntilNewLine : Nat → Reader → List Char → Except ReadError (Reader × List Char)
  | 0, _, _ => .error .unfinished
  | fuel + 1, r, builder => do
      let (newLine, r) ← isNewLine r
      if newLine then pure (r, builder)
      else do
        let (r, builder) ← readUntil carriageReturn fuel r builder
        readUntilNewLine fuel r builder

/-- The loop over the characters of the status code. -/
def readStatusCode : Nat → Reader → List Char → Except ReadError (Reader × List Char)
  | 0, _, _ => .error .unfinished
  | fuel + 1, r, builder =>
      if r.streamPosition < statusCodeEnd then do
        let r ← goNextChar r
        readStatusCode fuel r (builder ++ [r.currentChar])
      else .ok (r, builder)

/-- The loop over the headers. -/
def readHeaders : Nat → Reader → HttpHeaders → Except ReadError (Reader × HttpHeaders)
  | 0, _, _ => .error .unfinished
  | fuel + 1, r, headers => do
      let r ← goNextChar r
      let (newLine, r) ← isNewLine r
      if newLine then pure (r, headers)
      else do
        let (r, name) ← readUntil ':' fuel r []
        let r ← goNextChar r
        let (r, value) ← readUntilNewLine fuel r []
        readHeaders fuel r (headers.add (String.ofList (trim name)) (String.ofList (trim value)))

/-- Source: `DatadogHttpClient.cs`, `ReadResponseAsync` -/
def readResponseAsync (culture : Culture) (fuel : Nat) (responseStream : Source UInt8) :
    Except ReadError HttpResponse := do
  let r ← skipUntil fuel statusCodeStart (Reader.start responseStream)
  let (r, potentialStatusCode) ← readStatusCode fuel r []
  match intTryParse culture (String.ofList potentialStatusCode) with
  | none => .error (.invalidStatusCode (String.ofList potentialStatusCode))
  | some statusCode => do
      let r ← skipUntil fuel startOfReasonPhrase r
      let r ← goNextChar r
      let (r, reasonPhrase) ← readUntilNewLine fuel r []
      let (r, headers) ← readHeaders fuel r []
      let length := longTryParse culture (headers.getValue contentLengthHeaderKey)
      pure ⟨statusCode, String.ofList reasonPhrase, headers, ⟨r.stream, length⟩⟩

/-! ## Copying the content -/

/-- An array of bytes, which is no longer than `Array.MaxLength`. -/
structure Buffer where
  /-- The bytes. -/
  bytes : List UInt8
  /-- The length of an array is an `int`, below `int.MaxValue`. -/
  length_lt : (bytes.length : Int) < intMaxValue

/-- The exceptions of copying, and the end of the fuel. -/
inductive CopyError
  /-- `Unable to CopyToAsync with buffer when content Length is unknown`. -/
  | lengthUnknown
  /-- `Provided buffer was smaller {buffer.Length} than the content length {Length}`. -/
  | bufferTooSmall
  /-- `ReadAsync` is asked for a negative count, or for more than the array has room for. -/
  | invalidRange
  /-- A loop was still running at the end of its fuel. -/
  | unfinished
  deriving DecidableEq, Repr

/-- `Stream.ReadAsync(buffer, offset, count)`: the bytes read, the buffer and the stream. -/
def readAsync (stream : Source UInt8) (buffer : List UInt8) (offset : Nat) (count : Int) :
    Except CopyError (Nat × List UInt8 × Source UInt8) :=
  if count < 0 ∨ (buffer.length : Int) - offset < count then .error .invalidRange
  else
    let read := stream.read count.toNat
    .ok (read.1.length,
      buffer.take offset ++ read.1 ++ buffer.drop (offset + read.1.length), read.2)

/-- The loop of `CopyToAsync`: the buffer and the stream behind it. -/
def copyLoop : Nat → Source UInt8 → List UInt8 → Nat → Int →
    Except CopyError (List UInt8 × Source UInt8)
  | 0, _, _, _, _ => .error .unfinished
  | fuel + 1, stream, buffer, length, remaining => do
      let (bytesRead, buffer, stream) ← readAsync stream buffer length (min remaining intMaxValue)
      if bytesRead = 0 ∨ remaining - bytesRead ≤ 0 then pure (buffer, stream)
      else copyLoop fuel stream buffer (length + bytesRead) (remaining - bytesRead)

/-- Source: `StreamContent.cs`, `CopyToAsync(byte[])` -/
def StreamContent.copyToAsync (fuel : Nat) (content : StreamContent) (buffer : Buffer) :
    Except CopyError (List UInt8 × Source UInt8) :=
  match content.length with
  | none => .error .lengthUnknown
  | some length =>
      if (buffer.bytes.length : Int) < length then .error .bufferTooSmall
      else copyLoop fuel content.stream buffer.bytes 0 length

end DdTrace.HttpOverStreams
