import DdTrace.HttpOverStreams.DatadogHttpClient
import DdTrace.Lib.FiniteChecks
import DdTrace.Lib.Outcomes

/-!
# Reading a response

The reader of responses is an inverse of writing them, whatever the transport does.

* `ResponseHead`: a status line and headers, with the bytes they are written as.
* `readResponseAsync_ends`: on every stream the reader ends.
* `readResponseAsync_inverts`: of a written response it finds the parts, and leaves the body.

Each loop has two rules. The one says that it ends, because every round moves on in the stream or
leaves; the other what it returns in front of the text it is meant for.

Sources: `DatadogHttpClient.cs`, lines 57 to 220; `StreamContent.cs`, lines 29 to 56.
-/

namespace DdTrace.HttpOverStreams

open DdTrace.Lib DdTrace.Lib.ShortReads DdTrace.Lib.Outcomes

/-! ## The reader ends -/

/-- The number of bytes that are left. -/
def Reader.left (r : Reader) : Nat := r.stream.rest.length

theorem charAt_ends (chArray : List UInt8) (index : Nat) :
    Ends .unfinished (charAt chArray index) fun _ => True := by
  unfold charAt
  split
  · exact .ok trivial
  · exact .error (by decide)

/-- The next character is one byte further on. -/
theorem goNextChar_ends (r : Reader) :
    Ends .unfinished (goNextChar r) fun r' =>
      r'.left + 1 = r.left ∧ r'.streamPosition = r.streamPosition + 1 := by
  unfold goNextChar
  by_cases hread : (r.stream.read 1).1.length = 0
  · simp only [hread, if_true]
    exact .error (by simp)
  · have hone : (r.stream.read 1).1.length = 1 := by
      have := r.stream.length_read_le 1
      omega
    have hrest := r.stream.length_rest_read 1
    simp only [hread, if_false]
    refine .bind (charAt_ends _ _) fun c _ => .pure ⟨?_, rfl⟩
    rw [hone] at hrest
    exact hrest

theorem skipLoop_ends (streamPosition fuel : Nat) (stream : Source UInt8) (chArray : List UInt8)
    (bytesRemaining lastBytesRead : Nat) (hfuel : bytesRemaining < fuel) :
    Ends .unfinished (skipLoop streamPosition fuel stream chArray bytesRemaining lastBytesRead)
      fun res => res.1.rest.length ≤ stream.rest.length := by
  induction fuel generalizing stream chArray bytesRemaining lastBytesRead with
  | zero => exact absurd hfuel (Nat.not_lt_zero _)
  | succ fuel ih =>
      unfold skipLoop
      by_cases hmore : bytesRemaining > 0
      · have hrest := stream.length_rest_read (min bytesRemaining bufferSize)
        simp only [hmore, if_true]
        by_cases hread : (stream.read (min bytesRemaining bufferSize)).1.length = 0
        · simp only [hread, if_true]
          exact .error (by simp)
        · simp only [hread, if_false]
          exact (ih _ _ _ _ (by omega)).mono fun res hres => by omega
      · simp only [hmore, if_false]
        exact .ok (Nat.le_refl _)

theorem skipUntil_ends (fuel requiredStreamPosition : Nat) (r : Reader)
    (hfuel : requiredStreamPosition < fuel) :
    Ends .unfinished (skipUntil fuel requiredStreamPosition r) fun r' => r'.left ≤ r.left := by
  unfold skipUntil
  by_cases hpast : requiredStreamPosition < r.streamPosition
  · rw [if_pos hpast]
    exact .error (by decide)
  · rw [if_neg hpast]
    refine .bind (skipLoop_ends _ fuel _ _ _ _ (by omega)) fun res hres => ?_
    obtain ⟨stream, chArray, lastBytesRead⟩ := res
    by_cases hnone : lastBytesRead = 0
    · simp only [hnone, if_true]
      exact .error (by decide)
    · simp only [hnone, if_false]
      exact .bind (charAt_ends _ _) fun c _ => .pure hres

/-- A round of the loop moves on, so that it ends at the stop character or with the stream. -/
theorem readUntil_ends (stopChar : Char) (fuel : Nat) (r : Reader) (builder : List Char)
    (hfuel : r.left < fuel) :
    Ends .unfinished (readUntil stopChar fuel r builder) fun res =>
      res.1.left ≤ r.left ∧ (r.currentChar ≠ stopChar → res.1.left < r.left) := by
  induction fuel generalizing r builder with
  | zero => exact absurd hfuel (Nat.not_lt_zero _)
  | succ fuel ih =>
      unfold readUntil
      by_cases hstop : r.currentChar = stopChar
      · rw [if_pos hstop]
        exact .ok ⟨Nat.le_refl _, fun hne => absurd hstop hne⟩
      · rw [if_neg hstop]
        refine .bind (goNextChar_ends r) fun r' hr' => ?_
        refine (ih r' _ (by omega)).mono fun res hres => ?_
        exact ⟨by omega, fun _ => by omega⟩

theorem isNewLine_ends (r : Reader) :
    Ends .unfinished (isNewLine r) fun res =>
      res.2.left ≤ r.left ∧ (res.1 = false → res.2 = r ∧ r.currentChar ≠ carriageReturn) := by
  unfold isNewLine
  by_cases hcr : r.currentChar = carriageReturn
  · rw [if_pos hcr]
    refine .bind (goNextChar_ends r) fun r' hr' => ?_
    by_cases hlf : r'.currentChar = lineFeed
    · rw [if_pos hlf]
      have hleft : r'.left ≤ r.left := by omega
      exact .pure ⟨hleft, fun hfalse => Bool.noConfusion hfalse⟩
    · rw [if_neg hlf]
      exact .error (by simp)
  · rw [if_neg hcr]
    exact .ok ⟨Nat.le_refl _, fun _ => ⟨rfl, hcr⟩⟩

theorem readUntilNewLine_ends (fuel : Nat) (r : Reader) (builder : List Char)
    (hfuel : r.left + 1 < fuel) :
    Ends .unfinished (readUntilNewLine fuel r builder) fun res => res.1.left ≤ r.left := by
  induction fuel generalizing r builder with
  | zero => exact absurd hfuel (Nat.not_lt_zero _)
  | succ fuel ih =>
      unfold readUntilNewLine
      refine .bind (isNewLine_ends r) fun res hres => ?_
      obtain ⟨newLine, r'⟩ := res
      cases newLine with
      | true => exact .pure hres.1
      | false =>
          obtain ⟨hsame, hcr⟩ := hres.2 rfl
          have hsame' : r' = r := hsame
          subst hsame'
          refine .bind (readUntil_ends _ fuel r' builder (by omega)) fun text htext => ?_
          obtain ⟨r'', text⟩ := text
          have hless : r''.left < r'.left := htext.2 hcr
          exact (ih r'' text (by omega)).mono fun res' hres' => by omega

theorem readStatusCode_ends (fuel : Nat) (r : Reader) (builder : List Char)
    (hfuel : statusCodeEnd - r.streamPosition < fuel) :
    Ends .unfinished (readStatusCode fuel r builder) fun res => res.1.left ≤ r.left := by
  induction fuel generalizing r builder with
  | zero => exact absurd hfuel (Nat.not_lt_zero _)
  | succ fuel ih =>
      unfold readStatusCode
      by_cases hmore : r.streamPosition < statusCodeEnd
      · rw [if_pos hmore]
        refine .bind (goNextChar_ends r) fun r' hr' => ?_
        exact (ih r' _ (by omega)).mono fun res hres => by omega
      · rw [if_neg hmore]
        exact .ok (Nat.le_refl _)

theorem readHeaders_ends (fuel : Nat) (r : Reader) (headers : HttpHeaders)
    (hfuel : r.left < fuel) :
    Ends .unfinished (readHeaders fuel r headers) fun res => res.1.left ≤ r.left := by
  induction fuel generalizing r headers with
  | zero => exact absurd hfuel (Nat.not_lt_zero _)
  | succ fuel ih =>
      unfold readHeaders
      refine .bind (goNextChar_ends r) fun r₁ hr₁ => ?_
      refine .bind (isNewLine_ends r₁) fun res hres => ?_
      obtain ⟨newLine, r₂⟩ := res
      cases newLine with
      | true =>
          have hleft : r₂.left ≤ r₁.left := hres.1
          have hless : r₂.left ≤ r.left := by omega
          exact .pure hless
      | false =>
          have hleft : r₂.left ≤ r₁.left := hres.1
          refine .bind (readUntil_ends _ fuel r₂ [] (by omega)) fun name hname => ?_
          obtain ⟨r₃, name⟩ := name
          have hname' : r₃.left ≤ r₂.left := hname.1
          refine .bind (goNextChar_ends r₃) fun r₄ hr₄ => ?_
          refine .bind (readUntilNewLine_ends fuel r₄ [] (by omega)) fun value hvalue => ?_
          obtain ⟨r₅, value⟩ := value
          have hvalue' : r₅.left ≤ r₄.left := hvalue
          exact (ih r₅ _ (by omega)).mono fun res' hres' => by omega

/-- **The reader ends** on every stream, with a response or with an exception. -/
theorem readResponseAsync_ends (culture : Culture) (fuel : Nat) (stream : Source UInt8)
    (hfuel : stream.rest.length + startOfReasonPhrase + 1 < fuel) :
    Ends .unfinished (readResponseAsync culture fuel stream) fun _ => True := by
  have hstart : (Reader.start stream).left = stream.rest.length := rfl
  unfold readResponseAsync
  refine .bind (skipUntil_ends fuel _ _ (by unfold statusCodeStart startOfReasonPhrase at *; omega))
    fun r₁ hr₁ => ?_
  refine .bind (readStatusCode_ends fuel r₁ []
    (by unfold statusCodeEnd startOfReasonPhrase at *; omega)) fun code hcode => ?_
  obtain ⟨r₂, code⟩ := code
  have hcode' : r₂.left ≤ r₁.left := hcode
  cases hnumber : intTryParse culture (String.ofList code) with
  | none =>
      simp only [hnumber]
      exact .error (by simp)
  | some statusCode =>
      simp only [hnumber]
      refine .bind (skipUntil_ends fuel _ r₂ (by omega)) fun r₃ hr₃ => ?_
      refine .bind (goNextChar_ends r₃) fun r₄ hr₄ => ?_
      refine .bind (readUntilNewLine_ends fuel r₄ [] (by omega)) fun reason hreason => ?_
      obtain ⟨r₅, reason⟩ := reason
      have hreason' : r₅.left ≤ r₄.left := hreason
      exact .bind (readHeaders_ends fuel r₅ [] (by omega)) fun headers hheaders => .pure trivial

/-! ## Written responses -/

/-- The byte of an ASCII character. -/
def asciiByte (c : Char) : UInt8 := UInt8.ofNat c.toNat

/-- Text of ASCII characters. -/
structure AsciiText where
  /-- The characters. -/
  chars : List Char
  /-- They are ASCII. -/
  ascii : ∀ c ∈ chars, c.toNat < 0x80

/-- The bytes of text. -/
def AsciiText.bytes (t : AsciiText) : List UInt8 := t.chars.map asciiByte

/-- The end of a line. -/
def crLf : List UInt8 := [0x0D, 0x0A]

/-- A header as it is written: `name:value`. -/
structure HeaderLine where
  /-- The name. -/
  name : AsciiText
  /-- The value. -/
  value : AsciiText
  /-- The name has no colon and no CR. -/
  name_ok : ':' ∉ name.chars ∧ carriageReturn ∉ name.chars
  /-- The value has no CR. -/
  value_ok : carriageReturn ∉ value.chars

namespace HeaderLine

/-- The bytes of a header. -/
def bytes (h : HeaderLine) : List UInt8 := h.name.bytes ++ asciiByte ':' :: (h.value.bytes ++ crLf)

/-- The header with its name and value trimmed. -/
def trimmed (h : HeaderLine) : HttpHeader :=
  ⟨String.ofList (trim h.name.chars), String.ofList (trim h.value.chars)⟩

end HeaderLine

/-- A digit. -/
def digitChar (d : Fin 10) : Char := Char.ofNat (0x30 + d)

/-- What a response has before its body. -/
structure ResponseHead where
  /-- The version, such as `HTTP/1.1`. -/
  version : AsciiText
  /-- It has 8 characters. -/
  version_length : version.chars.length = 8
  /-- The first digit of the status code. -/
  hundreds : Fin 10
  /-- The second digit. -/
  tens : Fin 10
  /-- The third digit. -/
  ones : Fin 10
  /-- The reason phrase. -/
  reason : AsciiText
  /-- It has no CR. -/
  reason_ok : carriageReturn ∉ reason.chars
  /-- The headers. -/
  headers : List HeaderLine

namespace ResponseHead

/-- The digits of the status code. -/
def code (h : ResponseHead) : List Char :=
  [digitChar h.hundreds, digitChar h.tens, digitChar h.ones]

/-- The status code. -/
def statusCode (h : ResponseHead) : Int := 100 * h.hundreds + 10 * h.tens + h.ones

/-- The bytes of the status line, the headers and the blank line. -/
def bytes (h : ResponseHead) : List UInt8 :=
  h.version.bytes ++ asciiByte ' ' :: (h.code.map asciiByte ++ asciiByte ' ' ::
    (h.reason.bytes ++ (crLf ++ (h.headers.flatMap HeaderLine.bytes ++ crLf))))

end ResponseHead

theorem asciiChar_asciiByte {c : Char} (hc : c.toNat < 0x80) : asciiChar (asciiByte c) = c := by
  have hnat : (asciiByte c).toNat = c.toNat := by
    rw [asciiByte, UInt8.toNat_ofNat']
    omega
  have hlt : asciiByte c < 0x80 := by
    rw [UInt8.lt_iff_toNat_lt, hnat]
    exact hc
  rw [asciiChar, if_pos hlt, hnat, Char.ofNat_toNat]

/-! ## Single steps -/

/-- The reader stands at the first of these bytes: its character is the current one, and the rest is
still in the stream. -/
def Reader.Stands (r : Reader) (bytes : List UInt8) : Prop :=
  ∃ b, bytes = b :: r.stream.rest ∧ r.currentChar = asciiChar b

theorem Reader.Stands.rest {r : Reader} {b : UInt8} {v : List UInt8} (h : r.Stands (b :: v)) :
    r.stream.rest = v := by
  obtain ⟨b', heq, -⟩ := h
  exact (List.cons.inj heq).2.symm

theorem Reader.Stands.currentChar {r : Reader} {b : UInt8} {v : List UInt8}
    (h : r.Stands (b :: v)) : r.currentChar = asciiChar b := by
  obtain ⟨b', heq, hcur⟩ := h
  rw [hcur, (List.cons.inj heq).1]

theorem charAt_returns {chArray : List UInt8} {index : Nat} (h : index < chArray.length) :
    Returns (charAt chArray index) fun c => ∀ b ∈ chArray[index]?, c = asciiChar b := by
  have hget : (chArray.map asciiChar)[index]? = some (asciiChar chArray[index]) := by
    rw [List.getElem?_map, List.getElem?_eq_getElem h]
    rfl
  rw [charAt, hget]
  refine .ok fun b hb => ?_
  rw [List.getElem?_eq_getElem h] at hb
  rw [Option.some.inj hb]

theorem goNextChar_returns {r : Reader} {b : UInt8} {v : List UInt8} (h : r.stream.rest = b :: v) :
    Returns (goNextChar r) fun r' =>
      r'.Stands (b :: v) ∧ r'.streamPosition = r.streamPosition + 1 := by
  obtain ⟨hread, hrest⟩ := Source.read_one_cons h
  unfold goNextChar
  simp only [hread, List.length_singleton, Nat.one_ne_zero, if_false]
  refine .bind (charAt_returns (Nat.succ_pos _)) fun c hc => .pure ⟨?_, rfl⟩
  exact ⟨b, by rw [← hrest], hc b rfl⟩

theorem isNewLine_of_crLf {r : Reader} {v : List UInt8} (h : r.Stands (0x0D :: 0x0A :: v)) :
    Returns (isNewLine r) fun res => res.1 = true ∧ res.2.Stands (0x0A :: v) := by
  have hcr : r.currentChar = carriageReturn := h.currentChar.trans (by decide)
  rw [isNewLine, if_pos hcr]
  refine .bind (goNextChar_returns h.rest) fun r' hr' => ?_
  have hlf : r'.currentChar = lineFeed := hr'.1.currentChar.trans (by decide)
  rw [if_pos hlf]
  exact .pure ⟨rfl, hr'.1⟩

theorem isNewLine_of_ne {r : Reader} (h : r.currentChar ≠ carriageReturn) :
    isNewLine r = .ok (false, r) := by
  rw [isNewLine, if_neg h]

/-! ## Loops -/

/-- The loop reads text up to the stop character. -/
theorem readUntil_returns {stop : UInt8} {stopChar : Char} (hchar : asciiChar stop = stopChar)
    {w : List Char} (hascii : ∀ c ∈ w, c.toNat < 0x80) (hstop : stopChar ∉ w) {fuel : Nat}
    {r : Reader} {v : List UInt8} (builder : List Char)
    (hstands : r.Stands (w.map asciiByte ++ stop :: v)) (hfuel : w.length < fuel) :
    Returns (readUntil stopChar fuel r builder) fun res =>
      res.1.Stands (stop :: v) ∧ res.2 = builder ++ w := by
  induction w generalizing fuel r builder with
  | nil =>
      obtain ⟨fuel, rfl⟩ := Nat.exists_eq_add_of_lt hfuel
      rw [readUntil, if_pos (hstands.currentChar.trans hchar)]
      exact .ok ⟨hstands, (List.append_nil _).symm⟩
  | cons c w ih =>
      obtain ⟨fuel, rfl⟩ : ∃ n, fuel = n + 1 := Nat.exists_eq_succ_of_ne_zero (by omega)
      rw [List.forall_mem_cons] at hascii
      rw [List.mem_cons, not_or] at hstop
      have hcur : r.currentChar = c := hstands.currentChar.trans (asciiChar_asciiByte hascii.1)
      rw [readUntil, if_neg (by rw [hcur]; exact Ne.symm hstop.1)]
      obtain ⟨b, u, hnext⟩ : ∃ b u, w.map asciiByte ++ stop :: v = b :: u :=
        List.exists_cons_of_ne_nil (by simp)
      refine .bind (goNextChar_returns (hstands.rest.trans hnext)) fun r' hr' => ?_
      rw [← hnext] at hr'
      refine (ih hascii.2 hstop.2 (builder ++ [r.currentChar]) hr'.1
        (Nat.lt_of_succ_lt_succ hfuel)).mono fun res hres => ⟨hres.1, ?_⟩
      rw [hres.2, hcur, List.append_assoc]
      rfl

theorem readUntilNewLine_of_crLf {fuel : Nat} {r : Reader} {v : List UInt8} (builder : List Char)
    (hstands : r.Stands (0x0D :: 0x0A :: v)) (hfuel : 0 < fuel) :
    Returns (readUntilNewLine fuel r builder) fun res =>
      res.1.Stands (0x0A :: v) ∧ res.2 = builder := by
  obtain ⟨fuel, rfl⟩ : ∃ n, fuel = n + 1 := Nat.exists_eq_succ_of_ne_zero (by omega)
  rw [readUntilNewLine]
  refine .bind (isNewLine_of_crLf hstands) fun res hres => ?_
  obtain ⟨newLine, r'⟩ := res
  obtain ⟨rfl, hr'⟩ := hres
  exact .pure ⟨hr', rfl⟩

/-- The loop reads text up to the end of the line. -/
theorem readUntilNewLine_returns {w : List Char} (hascii : ∀ c ∈ w, c.toNat < 0x80)
    (hcr : carriageReturn ∉ w) {fuel : Nat} {r : Reader} {v : List UInt8} (builder : List Char)
    (hstands : r.Stands (w.map asciiByte ++ 0x0D :: 0x0A :: v)) (hfuel : w.length + 1 < fuel) :
    Returns (readUntilNewLine fuel r builder) fun res =>
      res.1.Stands (0x0A :: v) ∧ res.2 = builder ++ w := by
  rcases w with _ | ⟨c, w⟩
  · rw [List.append_nil]
    exact readUntilNewLine_of_crLf builder hstands (by omega)
  · obtain ⟨fuel, rfl⟩ : ∃ n, fuel = n + 1 := Nat.exists_eq_succ_of_ne_zero (by omega)
    have hcur : r.currentChar = c :=
      hstands.currentChar.trans (asciiChar_asciiByte (hascii c List.mem_cons_self))
    have hne : r.currentChar ≠ carriageReturn := by
      rw [hcur]
      rintro rfl
      exact hcr List.mem_cons_self
    have hread : Returns (readUntil carriageReturn fuel r builder) _ :=
      readUntil_returns (by decide) hascii hcr builder hstands (Nat.lt_of_succ_lt_succ hfuel)
    rw [readUntilNewLine, isNewLine_of_ne hne]
    change Returns (readUntil carriageReturn fuel r builder >>= _) _
    refine .bind hread fun res hres => ?_
    obtain ⟨r', text⟩ := res
    obtain ⟨hr', rfl⟩ := hres
    exact readUntilNewLine_of_crLf _ hr' (by omega)

/-- A header does not start like a blank line. -/
theorem HeaderLine.currentChar_ne (line : HeaderLine) {r : Reader} {v : List UInt8}
    (hstands : r.Stands (line.name.bytes ++ asciiByte ':' :: v)) :
    r.currentChar ≠ carriageReturn := by
  have hcr := line.name_ok.2
  have hascii := line.name.ascii
  rw [AsciiText.bytes] at hstands
  cases hname : line.name.chars with
  | nil =>
      rw [hname] at hstands
      rw [hstands.currentChar]
      decide
  | cons c w =>
      rw [hname] at hstands hcr hascii
      rw [hstands.currentChar, asciiChar_asciiByte (hascii c List.mem_cons_self)]
      rintro rfl
      exact hcr List.mem_cons_self

/-- The loop reads the headers up to the blank line. -/
theorem readHeaders_returns (lines : List HeaderLine) {fuel : Nat} {r : Reader} {b : UInt8}
    {body : List UInt8} (headers : HttpHeaders)
    (hstands : r.Stands (b :: (lines.flatMap HeaderLine.bytes ++ (crLf ++ body))))
    (hfuel : (lines.flatMap HeaderLine.bytes).length < fuel) :
    Returns (readHeaders fuel r headers) fun res =>
      res.1.stream.rest = body ∧ res.2 = headers ++ lines.map HeaderLine.trimmed := by
  induction lines generalizing fuel r b headers with
  | nil =>
      obtain ⟨fuel, rfl⟩ := Nat.exists_eq_add_of_lt hfuel
      rw [readHeaders]
      refine .bind (goNextChar_returns hstands.rest) fun r₁ hr₁ => ?_
      refine .bind (isNewLine_of_crLf hr₁.1) fun res hres => ?_
      obtain ⟨newLine, r₂⟩ := res
      obtain ⟨rfl, hr₂⟩ := hres
      exact .pure ⟨hr₂.rest, (List.append_nil _).symm⟩
  | cons line lines ih =>
      obtain ⟨fuel, rfl⟩ : ∃ n, fuel = n + 1 := Nat.exists_eq_succ_of_ne_zero (by omega)
      rw [List.flatMap_cons, List.length_append, HeaderLine.bytes] at hfuel
      simp only [AsciiText.bytes, crLf, List.length_append, List.length_cons, List.length_map,
        List.length_nil] at hfuel
      have hline : line.bytes ++ (lines.flatMap HeaderLine.bytes ++ (crLf ++ body)) =
          line.name.bytes ++ asciiByte ':' :: (line.value.bytes ++
            0x0D :: 0x0A :: (lines.flatMap HeaderLine.bytes ++ (crLf ++ body))) := by
        simp only [HeaderLine.bytes, crLf, List.append_assoc, List.cons_append, List.nil_append]
      have hrest := hstands.rest
      rw [List.flatMap_cons, List.append_assoc, hline] at hrest
      -- the first character is the first of the name, or the colon
      obtain ⟨c, u, hnext⟩ : ∃ c u, line.name.bytes ++ asciiByte ':' :: (line.value.bytes ++
          0x0D :: 0x0A :: (lines.flatMap HeaderLine.bytes ++ (crLf ++ body))) = c :: u :=
        List.exists_cons_of_ne_nil (by simp)
      rw [readHeaders]
      refine .bind (goNextChar_returns (hrest.trans hnext)) fun r₁ hr₁ => ?_
      have hname := hr₁.1
      rw [← hnext] at hname
      rw [isNewLine_of_ne (line.currentChar_ne hname)]
      change Returns (readUntil ':' fuel r₁ [] >>= _) _
      refine .bind (readUntil_returns (by decide) line.name.ascii line.name_ok.1 [] hname (by omega))
        fun res hres => ?_
      obtain ⟨r₂, name⟩ := res
      obtain ⟨hr₂, rfl⟩ := hres
      obtain ⟨d, t, hvalue⟩ : ∃ d t, line.value.bytes ++
          0x0D :: 0x0A :: (lines.flatMap HeaderLine.bytes ++ (crLf ++ body)) = d :: t :=
        List.exists_cons_of_ne_nil (by simp)
      refine .bind (goNextChar_returns (hr₂.rest.trans hvalue)) fun r₃ hr₃ => ?_
      have hr₃' := hr₃.1
      rw [← hvalue] at hr₃'
      refine .bind (readUntilNewLine_returns line.value.ascii line.value_ok [] hr₃' (by omega))
        fun res hres => ?_
      obtain ⟨r₄, value⟩ := res
      obtain ⟨hr₄, rfl⟩ := hres
      refine (ih (headers.add _ _) hr₄ (by omega)).mono fun res hres => ⟨hres.1, ?_⟩
      rw [hres.2, HttpHeaders.add, List.append_assoc]
      rfl

/-! ## The status line -/

theorem overwrite_length (array bytes : List UInt8) :
    bytes.length ≤ (overwrite array bytes).length := by
  rw [overwrite, List.length_append]
  exact Nat.le_add_right _ _

/-- The loop skips bytes, however they are split. -/
theorem skipLoop_returns (streamPosition : Nat) {fuel : Nat} {stream : Source UInt8}
    {chArray w v : List UInt8} {lastBytesRead : Nat} (hrest : stream.rest = w ++ v)
    (hlast : lastBytesRead ≤ chArray.length) (hfuel : w.length < fuel) :
    Returns (skipLoop streamPosition fuel stream chArray w.length lastBytesRead) fun res =>
      res.1.rest = v ∧ res.2.2 ≤ res.2.1.length ∧ (w ≠ [] → res.2.2 ≠ 0) ∧
        (w = [] → res.2.2 = lastBytesRead) := by
  induction fuel generalizing stream chArray w lastBytesRead with
  | zero => exact absurd hfuel (Nat.not_lt_zero _)
  | succ fuel ih =>
      rw [skipLoop]
      by_cases hnil : w = []
      · subst hnil
        exact .ok ⟨hrest, hlast, fun h => absurd rfl h, fun _ => rfl⟩
      · have hpos : w.length > 0 := List.length_pos_iff.mpr hnil
        obtain ⟨u, hw, hu⟩ := Source.read_split hrest (Nat.min_le_left w.length bufferSize)
        have hread : (stream.read (min w.length bufferSize)).1.length ≠ 0 := by
          rw [ne_eq, Source.length_read_eq_zero_iff, hrest]
          have hbuffer : 0 < bufferSize := by decide
          simp only [List.append_eq_nil_iff, hnil, false_and, or_false]
          omega
        have hlen : w.length - (stream.read (min w.length bufferSize)).1.length = u.length := by
          have hsum := congrArg List.length hw
          rw [List.length_append] at hsum
          omega
        rw [if_pos hpos]
        simp only [hread, if_false, hlen]
        refine (ih hu (overwrite_length _ _) (by omega)).mono fun res hres => ?_
        refine ⟨hres.1, hres.2.1, fun _ => ?_, fun h => absurd h hnil⟩
        by_cases hend : u = []
        · rw [hres.2.2.2 hend]
          exact hread
        · exact hres.2.2.1 hend

/-- Bytes up to a place are skipped. -/
theorem skipUntil_returns {fuel requiredStreamPosition : Nat} {r : Reader} {w v : List UInt8}
    (hrest : r.stream.rest = w ++ v) (hne : w ≠ [])
    (hposition : r.streamPosition + w.length = requiredStreamPosition) (hfuel : w.length < fuel) :
    Returns (skipUntil fuel requiredStreamPosition r) fun r' =>
      r'.stream.rest = v ∧ r'.streamPosition = requiredStreamPosition := by
  have hcount : requiredStreamPosition - r.streamPosition = w.length := by omega
  rw [skipUntil, if_neg (by omega), hcount]
  refine .bind (skipLoop_returns r.streamPosition hrest (Nat.zero_le _) hfuel) fun res hres => ?_
  obtain ⟨stream, chArray, lastBytesRead⟩ := res
  obtain ⟨hstream, hlast, hsome, -⟩ := hres
  have hlast' : lastBytesRead ≤ chArray.length := hlast
  have hsome' : lastBytesRead ≠ 0 := hsome hne
  simp only [hsome', if_false]
  exact .bind (charAt_returns (by omega)) fun c _ => .pure ⟨hstream, rfl⟩

/-- The loop reads the status code. -/
theorem readStatusCode_returns {w : List Char} (hascii : ∀ c ∈ w, c.toNat < 0x80) {fuel : Nat}
    {r : Reader} {v : List UInt8} (builder : List Char)
    (hrest : r.stream.rest = w.map asciiByte ++ v)
    (hposition : r.streamPosition + w.length = statusCodeEnd) (hfuel : w.length < fuel) :
    Returns (readStatusCode fuel r builder) fun res =>
      res.1.stream.rest = v ∧ res.1.streamPosition = statusCodeEnd ∧ res.2 = builder ++ w := by
  induction w generalizing fuel r builder with
  | nil =>
      obtain ⟨fuel, rfl⟩ := Nat.exists_eq_add_of_lt hfuel
      rw [List.length_nil, Nat.add_zero] at hposition
      rw [readStatusCode, if_neg (by omega)]
      exact .ok ⟨hrest, hposition, (List.append_nil _).symm⟩
  | cons c w ih =>
      obtain ⟨fuel, rfl⟩ : ∃ n, fuel = n + 1 := Nat.exists_eq_succ_of_ne_zero (by omega)
      rw [List.forall_mem_cons] at hascii
      rw [List.length_cons] at hposition hfuel
      rw [readStatusCode, if_pos (by omega)]
      refine .bind (goNextChar_returns hrest) fun r' hr' => ?_
      have hcur : r'.currentChar = c := hr'.1.currentChar.trans (asciiChar_asciiByte hascii.1)
      refine (ih hascii.2 (builder ++ [r'.currentChar]) hr'.1.rest (by omega) (by omega)).mono
        fun res hres => ⟨hres.1, hres.2.1, ?_⟩
      rw [hres.2.2, hcur, List.append_assoc]
      rfl

theorem digitChar_isDigit : ∀ d : Fin 10, (digitChar d).isDigit = true := by decide

theorem digitChar_ascii : ∀ d : Fin 10, (digitChar d).toNat < 0x80 := by decide

theorem digitChar_value : ∀ d : Fin 10, (digitChar d).toNat - '0'.toNat = d := by decide

/-- The status code is read from its digits. -/
theorem ResponseHead.intTryParse_code (culture : Culture) (h : ResponseHead) :
    intTryParse culture (String.ofList h.code) = some h.statusCode := by
  have hall : ∀ c ∈ h.code, c.isDigit = true := by
    simp [code, digitChar_isDigit]
  have hvalue : (Nat.ofDigitChars 10 h.code 0 : Int) = h.statusCode := by
    simp only [code, statusCode, Nat.ofDigitChars_cons, Nat.ofDigitChars_nil, digitChar_value]
    omega
  have hne : h.code ≠ [] := List.cons_ne_nil _ _
  rw [intTryParse, IntegerText.tryParse, String.toList_ofList,
    IntegerText.parse_of_digits _ culture.negativeSign_head true hne hall, hvalue]
  have hlo : (-2 ^ 31 : Int) ≤ h.statusCode := by
    unfold statusCode
    omega
  have hhi : h.statusCode ≤ intMaxValue := by
    unfold statusCode intMaxValue
    omega
  exact Option.filter_eq_some_iff.mpr ⟨rfl, decide_eq_true ⟨hlo, hhi⟩⟩

/-- The reader of a written response. -/
theorem readResponseAsync_returns (culture : Culture) (head : ResponseHead) {fuel : Nat}
    {stream : Source UInt8} {body : List UInt8} (hrest : stream.rest = head.bytes ++ body)
    (hfuel : head.bytes.length < fuel) :
    Returns (readResponseAsync culture fuel stream) fun response =>
      response.statusCode = head.statusCode ∧
      response.responseMessage = String.ofList head.reason.chars ∧
      response.headers = head.headers.map HeaderLine.trimmed ∧
      response.content.length =
        longTryParse culture (response.headers.getValue contentLengthHeaderKey) ∧
      response.content.stream.rest = body := by
  have hall : stream.rest = (head.version.bytes ++ [asciiByte ' ']) ++
      (head.code.map asciiByte ++ ([asciiByte ' '] ++ (head.reason.bytes ++
        0x0D :: 0x0A :: (head.headers.flatMap HeaderLine.bytes ++ (crLf ++ body))))) := by
    rw [hrest]
    simp only [ResponseHead.bytes, crLf, List.append_assoc, List.cons_append, List.nil_append]
  have hversion : (head.version.bytes ++ [asciiByte ' ']).length = statusCodeStart := by
    rw [List.length_append, AsciiText.bytes, List.length_map, head.version_length]
    rfl
  have hcode : head.code.length = 3 := rfl
  have hlength : head.bytes.length = 17 + head.reason.chars.length +
      (head.headers.flatMap HeaderLine.bytes).length := by
    simp only [ResponseHead.bytes, AsciiText.bytes, crLf, List.length_append, List.length_cons,
      List.length_map, List.length_nil, head.version_length, hcode]
    omega
  have hdigits : ∀ c ∈ head.code, c.toNat < 0x80 := by
    simp [ResponseHead.code, digitChar_ascii]
  have hstart : statusCodeStart = 9 := rfl
  rw [readResponseAsync]
  refine .bind (skipUntil_returns hall (by simp) (by rw [hversion]; rfl) (by omega)) fun r₁ hr₁ => ?_
  refine .bind (readStatusCode_returns hdigits [] hr₁.1 (by rw [hr₁.2]; rfl) (by omega))
    fun res hres => ?_
  obtain ⟨r₂, text⟩ := res
  obtain ⟨hr₂, hposition, rfl⟩ := hres
  simp only [List.nil_append, head.intTryParse_code culture]
  have hposition' : r₂.streamPosition + [asciiByte ' '].length = startOfReasonPhrase := by
    rw [show r₂.streamPosition = statusCodeEnd from hposition]
    rfl
  refine .bind (skipUntil_returns hr₂ (List.cons_ne_nil _ _) hposition' (by simp; omega))
    fun r₃ hr₃ => ?_
  obtain ⟨b, u, hnext⟩ : ∃ b u, head.reason.bytes ++
      0x0D :: 0x0A :: (head.headers.flatMap HeaderLine.bytes ++ (crLf ++ body)) = b :: u :=
    List.exists_cons_of_ne_nil (by simp)
  refine .bind (goNextChar_returns (hr₃.1.trans hnext)) fun r₄ hr₄ => ?_
  have hr₄' := hr₄.1
  rw [← hnext] at hr₄'
  refine .bind (readUntilNewLine_returns head.reason.ascii head.reason_ok [] hr₄' (by omega))
    fun res hres => ?_
  obtain ⟨r₅, reason⟩ := res
  obtain ⟨hr₅, rfl⟩ := hres
  refine .bind (readHeaders_returns head.headers [] hr₅ (by omega)) fun res hres => ?_
  obtain ⟨r₆, headers⟩ := res
  exact .pure ⟨rfl, rfl, hres.2, rfl, hres.1⟩

/-! ## The content -/

/-- The loop fills the buffer with what is left of the content. -/
theorem copyLoop_returns {fuel : Nat} {stream : Source UInt8} {buffer w : List UInt8} {length : Nat}
    (hrest : stream.rest = w) (hbuffer : buffer.length = length + w.length)
    (hroom : (buffer.length : Int) < intMaxValue) (hfuel : w.length < fuel) :
    Returns (copyLoop fuel stream buffer length w.length) fun res =>
      res.1 = buffer.take length ++ w := by
  induction fuel generalizing stream buffer w length with
  | zero => exact absurd hfuel (Nat.not_lt_zero _)
  | succ fuel ih =>
      have hcount : min (w.length : Int) intMaxValue = w.length := by omega
      obtain ⟨u, hw, hu⟩ := Source.read_split (v := []) (hrest.trans (List.append_nil w).symm)
        (Nat.le_refl w.length)
      rw [List.append_nil] at hu
      have hsum := congrArg List.length hw
      rw [List.length_append] at hsum
      have hread : readAsync stream buffer length w.length = .ok
          ((stream.read w.length).1.length, buffer.take length ++ (stream.read w.length).1 ++
            buffer.drop (length + (stream.read w.length).1.length), (stream.read w.length).2) := by
        rw [readAsync, if_neg (by omega)]
        rfl
      have htake : (buffer.take length).length = length := by
        rw [List.length_take]
        omega
      rw [copyLoop, hcount, hread]
      change Returns (if _ then _ else _) _
      by_cases hdone : (stream.read w.length).1.length = 0 ∨
          (w.length : Int) - (stream.read w.length).1.length ≤ 0
      · have hall : u = [] := by
          refine List.eq_nil_of_length_eq_zero ?_
          rcases hdone with hzero | hzero
          · rw [Source.length_read_eq_zero_iff, hrest] at hzero
            rcases hzero with hnil | hnil
            · omega
            · rw [hnil] at hsum
              simp at hsum
              omega
          · omega
        rw [if_pos hdone]
        refine .pure ?_
        rw [hall, List.append_nil] at hw
        rw [← hw, ← hbuffer, List.drop_length, List.append_nil]
      · rw [if_neg hdone]
        have hremaining : (w.length : Int) - (stream.read w.length).1.length = u.length := by omega
        have hlength : (buffer.take length ++ (stream.read w.length).1 ++
            buffer.drop (length + (stream.read w.length).1.length)).length =
              length + (stream.read w.length).1.length + u.length := by
          simp only [List.length_append, htake, List.length_drop]
          omega
        rw [hremaining]
        refine (ih hu hlength (by omega) (by omega)).mono fun res hres => ?_
        rw [hres, List.take_append_of_le_length (by rw [List.length_append, htake]),
          List.take_of_length_le (by rw [List.length_append, htake]), List.append_assoc, ← hw]

/-- **The reader inverts writing.** Of every written response, however the transport splits it, the
reader finds the status code, the reason phrase and the headers, and leaves the body, which is what
the content is copied to. On every stream it ends. -/
theorem readResponseAsync_inverts (culture : Culture) :
    (∀ (head : ResponseHead) (body : List UInt8) (ready : Nat → Nat), ∃ n, ∀ fuel ≥ n,
      ∃ response, readResponseAsync culture fuel (.ofList (head.bytes ++ body) ready) =
          .ok response ∧
        response.statusCode = head.statusCode ∧
        response.responseMessage = String.ofList head.reason.chars ∧
        response.headers = head.headers.map HeaderLine.trimmed ∧
        response.content.length =
          longTryParse culture (response.headers.getValue contentLengthHeaderKey) ∧
        response.content.stream.rest = body ∧
        (response.content.length = some (body.length : Int) →
          ∀ buffer : Buffer, buffer.bytes.length = body.length →
            ∃ stream, response.content.copyToAsync fuel buffer = .ok (body, stream))) ∧
    ∀ (bytes : List UInt8) (ready : Nat → Nat), ∃ n, ∀ fuel ≥ n,
      readResponseAsync culture fuel (.ofList bytes ready) ≠ .error .unfinished := by
  refine ⟨fun head body ready => ?_, fun bytes ready => ?_⟩
  · refine ⟨head.bytes.length + body.length + 1, fun fuel hfuel => ?_⟩
    have hfuel' : head.bytes.length < fuel := by omega
    obtain ⟨response, hread, hcode, hreason, hheaders, hcontent, hrest⟩ :=
      readResponseAsync_returns culture head (rfl : (Source.ofList _ ready).rest = _) hfuel'
    refine ⟨response, hread, hcode, hreason, hheaders, hcontent, hrest, fun hlength buffer hbuffer => ?_⟩
    have hcopy : Returns (copyLoop fuel response.content.stream buffer.bytes 0 body.length)
        fun res => res.1 = buffer.bytes.take 0 ++ body :=
      copyLoop_returns hrest (by omega) buffer.length_lt (by omega)
    obtain ⟨⟨bytes, stream⟩, hloop, hbytes⟩ := hcopy
    have hbytes' : bytes = body := hbytes
    refine ⟨stream, ?_⟩
    rw [StreamContent.copyToAsync, hlength]
    change (if _ then _ else _) = _
    rw [if_neg (by omega), hloop, hbytes']
  · refine ⟨bytes.length + startOfReasonPhrase + 2, fun fuel hfuel => ?_⟩
    have hleft : (Source.ofList bytes ready).rest.length = bytes.length := rfl
    exact (readResponseAsync_ends culture fuel (.ofList bytes ready) (by omega)).ends

/-- The invariant culture. -/
def invariantCulture : Culture where
  toNumberFormat := .invariant
  negativeSign_head := fun c hc => by
    rw [← Option.mem_some.mp hc]
    rfl

/-- `HTTP/1.1 200 OK` with `Content-Length: 2`. -/
def sampleHead : ResponseHead where
  version := ⟨"HTTP/1.1".toList, forall_mem_of_all (by decide)⟩
  version_length := rfl
  hundreds := 2
  tens := 0
  ones := 0
  reason := ⟨['O', 'K'], forall_mem_of_all (by decide)⟩
  reason_ok := by decide
  headers := [{
    name := ⟨"Content-Length".toList, forall_mem_of_all (by decide)⟩
    value := ⟨[' ', '2'], forall_mem_of_all (by decide)⟩
    name_ok := by decide
    value_ok := by decide }]

theorem readResponseAsync_inverts_sample :
    ∃ n, ∀ fuel ≥ n, ∃ response stream,
      readResponseAsync invariantCulture fuel (.ofList (sampleHead.bytes ++ [7, 9]) fun _ => 0) =
          .ok response ∧
        response.statusCode = 200 ∧ response.responseMessage = "OK" ∧
        response.headers = [⟨"Content-Length", "2"⟩] ∧ response.content.stream.rest = [7, 9] ∧
        response.content.copyToAsync fuel ⟨[0, 0], by decide⟩ = .ok ([7, 9], stream) := by
  obtain ⟨n, hn⟩ := (readResponseAsync_inverts invariantCulture).1 sampleHead [7, 9] fun _ => 0
  refine ⟨n, fun fuel hfuel => ?_⟩
  obtain ⟨response, hread, hcode, hreason, hheaders, hlength, hrest, hcopy⟩ := hn fuel hfuel
  have htrimmed : sampleHead.headers.map HeaderLine.trimmed = [⟨"Content-Length", "2"⟩] := by decide
  rw [htrimmed] at hheaders
  rw [hheaders] at hlength
  have htwo : longTryParse invariantCulture
      (HttpHeaders.getValue [⟨"Content-Length", "2"⟩] contentLengthHeaderKey) = some 2 := by decide
  obtain ⟨stream, hfilled⟩ := hcopy (hlength.trans htwo) ⟨[0, 0], by decide⟩ rfl
  exact ⟨response, stream, hread, hcode.trans (by decide), hreason.trans (by decide), hheaders,
    hrest, hfilled⟩

end DdTrace.HttpOverStreams
