import DdTrace.Lib.FiniteChecks
import DdTrace.Lib.IntegerText
import DdTrace.Lib.Regex
import DdTrace.Lib.Texts

/-!
# The status codes that are errors

* `parseHttpCodesToArray`: a configuration string is read into a table.
* `HttpErrorStatusCodes.isErrorStatusCode`: a status code is looked up in it.
* `isMatch_statusFormat_iff`: what the regular expression takes for an entry.
* `readExactly_iff`, `isErrorStatusCode_iff`: when the table holds what the entries cover, and when
  it can be asked.

Source: `Configuration/TracerSettings.cs`, `IsErrorStatusCode`, `ParseHttpCodesToArray`.
-/

namespace DdTrace.Configuration

open DdTrace.Lib DdTrace.Lib.Texts

/-! ## Reading -/

/-- A culture in which no sign begins like a number. -/
structure NumberCulture extends IntegerText.NumberFormat where
  sign_head : ∀ c, c ∈ positiveSign.head? ∨ c ∈ negativeSign.head? → isDecimalDigit c = false

/-- The invariant culture. -/
def NumberCulture.invariant : NumberCulture where
  toNumberFormat := .invariant
  sign_head := by
    rintro c (hc | hc)
    · obtain rfl := Option.some.inj hc
      decide
    · obtain rfl := Option.some.inj hc
      decide

/-- `int.TryParse`. -/
def tryParseInt (culture : NumberCulture) (s : List Char) : Option Int :=
  IntegerText.tryParse culture.toNumberFormat (-2 ^ 31) (2 ^ 31 - 1) (String.ofList s)

open Regex in
/-- `^\d{3}-\d{3}$|^\d{3}$` -/
def statusFormat : Regex :=
  alt (seq start (seq (times 3 (one isDecimalDigit))
      (seq (literal ['-']) (seq (times 3 (one isDecimalDigit)) finish))))
    (seq start (seq (times 3 (one isDecimalDigit)) finish))

/-- The table: of each status code, whether it is an error. -/
abbrev StatusCodes := Vector Bool 600

/-- Source: `TracerSettings.cs`, `TrySetValue` -/
def trySetValue (codes : StatusCodes) (index : Int) : StatusCodes :=
  if h : 0 ≤ index ∧ index < 600 then codes.set index.toNat true (by omega) else codes

/-- The loop over a range. -/
def setRange (codes : StatusCodes) (startStatus endStatus : Int) : StatusCodes :=
  (List.range (endStatus + 1 - startStatus).toNat).foldl
    (fun codes (i : Nat) => trySetValue codes (startStatus + i)) codes

/-- One entry; `none` if `int.Parse` throws. -/
def readEntry (culture : NumberCulture) (codes : StatusCodes) (statusConfiguration : List Char) :
    Option StatusCodes :=
  if !statusFormat.isMatch statusConfiguration then some codes
  else
    match tryParseInt culture statusConfiguration with
    | some startStatus => some (trySetValue codes startStatus)
    | none => do
        let statusCodeLimitsRange := statusConfiguration.splitOn '-'
        let startStatus ← statusCodeLimitsRange[0]? >>= tryParseInt culture
        let endStatus ← statusCodeLimitsRange[1]? >>= tryParseInt culture
        if endStatus < startStatus then return setRange codes endStatus startStatus
        else return setRange codes startStatus endStatus

/-- The entries of a configuration string. -/
def entries (httpStatusErrorCodes : String) : List (List Char) :=
  (httpStatusErrorCodes.toList.filter (· ≠ ' ')).splitOn ','

/-- Source: `TracerSettings.cs`, `ParseHttpCodesToArray` -/
def parseHttpCodesToArray (culture : NumberCulture) (httpStatusErrorCodes : String) :
    Option StatusCodes :=
  (entries httpStatusErrorCodes).foldlM (readEntry culture) (Vector.replicate 600 false)

/-- Source: `TracerSettings.cs`, `HttpServerErrorStatusCodes`, `HttpClientErrorStatusCodes` -/
structure HttpErrorStatusCodes where
  httpServerErrorStatusCodes : Option StatusCodes
  httpClientErrorStatusCodes : Option StatusCodes

/-- The tables from what is configured.
Source: `TracerSettings.cs`, the constructor -/
def HttpErrorStatusCodes.read (culture : NumberCulture) (server client : Option String) :
    Option HttpErrorStatusCodes := do
  let serverCodes ← parseHttpCodesToArray culture (server.getD "500-599")
  let clientCodes ← parseHttpCodesToArray culture (client.getD "400-499")
  return ⟨some serverCodes, some clientCodes⟩

/-- Whether a status code is an error; `none` if the index is out of range.
Source: `TracerSettings.cs`, `IsErrorStatusCode` -/
def HttpErrorStatusCodes.isErrorStatusCode (settings : HttpErrorStatusCodes) (statusCode : Int)
    (serverStatusCode : Bool) : Option Bool :=
  let source := if serverStatusCode then settings.httpServerErrorStatusCodes
    else settings.httpClientErrorStatusCodes
  match source with
  | none => some false
  | some codes =>
      if codes.size ≤ statusCode then some false
      else if statusCode < 0 then none
      else codes[statusCode.toNat]?

/-! ## What is taken for an entry -/

/-- Three digits, of any script. -/
def ThreeDigits (text : List Char) : Prop := text.length = 3 ∧ ∀ c ∈ text, isDecimalDigit c = true

/-- Three digits, or twice three of them with a hyphen between. -/
inductive Shaped : List Char → Prop
  | single {text : List Char} : ThreeDigits text → Shaped text
  | range {first second : List Char} :
      ThreeDigits first → ThreeDigits second → Shaped (first ++ '-' :: second)

/-- What `$` takes for the end. -/
def AtEnd (text : List Char) : Prop := text = [] ∨ text = ['\n']

section Format

open Regex

theorem exists_mem_run_threeDigits {r : Regex} {before after : List Char}
    {groups : List (Nat × List Char)} :
    (∃ next, next ∈ (seq (times 3 (one isDecimalDigit)) r).run ⟨before, after, groups⟩) ↔
      ∃ text rest, after = text ++ rest ∧ ThreeDigits text ∧
        ∃ next, next ∈ r.run ⟨text.reverse ++ before, rest, groups⟩ := by
  rw [run_seq, run_times_one]
  split
  case isTrue h =>
    rw [List.flatMap_singleton]
    constructor
    · intro hrun
      exact ⟨after.take 3, after.drop 3, (List.take_append_drop 3 after).symm,
        ⟨h.1, List.all_eq_true.mp h.2⟩, hrun⟩
    · rintro ⟨text, rest, rfl, htext, hrun⟩
      rw [List.take_left' htext.1, List.drop_left' htext.1]
      exact hrun
  case isFalse h =>
    refine iff_of_false (fun ⟨next, hnext⟩ => by cases hnext) ?_
    rintro ⟨text, rest, rfl, htext, -⟩
    rw [List.take_left' htext.1] at h
    exact h ⟨htext.1, List.all_eq_true.mpr htext.2⟩

theorem exists_mem_run_finish {before after : List Char} {groups : List (Nat × List Char)} :
    (∃ next, next ∈ finish.run ⟨before, after, groups⟩) ↔ AtEnd after := by
  rw [run_finish]
  split
  case isTrue h => exact iff_of_true ⟨_, List.mem_singleton_self _⟩ h
  case isFalse h => exact iff_of_false (fun ⟨next, hnext⟩ => by cases hnext) h

theorem exists_mem_run_hyphen {r : Regex} {before after : List Char}
    {groups : List (Nat × List Char)} :
    (∃ next, next ∈ (seq (literal ['-']) r).run ⟨before, after, groups⟩) ↔
      ∃ rest, after = '-' :: rest ∧ ∃ next, next ∈ r.run ⟨'-' :: before, rest, groups⟩ := by
  constructor
  · rintro ⟨next, hnext⟩
    obtain ⟨mid, hmid, -⟩ := List.mem_flatMap.mp hnext
    obtain ⟨rest, hrest⟩ := prefix_of_mem_run_literal hmid
    have hafter : (⟨before, after, groups⟩ : Place).after = ['-'] ++ rest := hrest.symm
    rw [run_of_after_eq hafter] at hnext
    exact ⟨rest, hafter, next, hnext⟩
  · rintro ⟨rest, rfl, next, hnext⟩
    refine ⟨next, ?_⟩
    rw [run_of_after_eq rfl]
    exact hnext

/-- **What the regular expression takes for an entry** may have a line feed behind it. -/
theorem isMatch_statusFormat_iff {entry : List Char} :
    statusFormat.isMatch entry = true ↔
      ∃ text ending, entry = text ++ ending ∧ Shaped text ∧ AtEnd ending := by
  have hanchored (place : Place) (h : place.before ≠ []) : statusFormat.run place = [] := by
    rw [statusFormat, run_alt, run_seq_start_of_before h, run_seq_start_of_before h]
    rfl
  have hsome : statusFormat.isMatch entry = true ↔
      ∃ next, next ∈ statusFormat.run ⟨[], entry, []⟩ := by
    rw [isMatch, find_of_anchored hanchored, List.isSome_head?]
    exact ⟨List.exists_mem_of_ne_nil _, fun ⟨_, hnext⟩ => List.ne_nil_of_mem hnext⟩
  rw [hsome, statusFormat, run_alt]
  simp only [run_seq_start, List.mem_append, exists_or, exists_mem_run_threeDigits,
    exists_mem_run_hyphen, exists_mem_run_finish]
  constructor
  · rintro (⟨first, rest, rfl, hfirst, rest', rfl, second, ending, rfl, hsecond, hending⟩ |
      ⟨text, ending, rfl, htext, hending⟩)
    · refine ⟨first ++ '-' :: second, ending, ?_, Shaped.range hfirst hsecond, hending⟩
      rw [List.append_assoc, List.cons_append]
    · exact ⟨text, ending, rfl, Shaped.single htext, hending⟩
  · rintro ⟨text, ending, rfl, hshaped, hending⟩
    cases hshaped with
    | single htext => exact Or.inr ⟨text, ending, rfl, htext, hending⟩
    | @range first second hfirst hsecond =>
        refine Or.inl ⟨first, '-' :: second ++ ending, ?_, hfirst, second ++ ending, rfl, second,
          ending, rfl, hsecond, hending⟩
        rw [List.append_assoc]

end Format

/-! ## Numbers -/

/-- Three digits of ASCII, and their value. -/
def IsCode (text : List Char) (n : Nat) : Prop :=
  text.length = 3 ∧ (∀ c ∈ text, c.isDigit = true) ∧ Nat.ofDigitChars 10 text 0 = n

theorem IsCode.threeDigits {text : List Char} {n : Nat} (h : IsCode text n) : ThreeDigits text :=
  ⟨h.1, fun c hc => isDecimalDigit_of_isDigit (h.2.1 c hc)⟩

theorem IsCode.lt {text : List Char} {n : Nat} (h : IsCode text n) : n < 1000 := by
  obtain ⟨hlen, hdigits, rfl⟩ := h
  obtain ⟨a, b, c, rfl⟩ := List.length_eq_three.mp hlen
  have hvalue (d : Char) (hd : d.isDigit = true) : d.toNat - '0'.toNat ≤ 9 := by
    simp only [Char.isDigit, Bool.and_eq_true, decide_eq_true_eq] at hd
    have hhi : d.toNat ≤ 57 := by simpa [UInt32.le_iff_toNat_le] using hd.2
    exact Nat.sub_le_sub_right hhi 48
  have ha := hvalue a (hdigits a (by simp))
  have hb := hvalue b (hdigits b (by simp))
  have hc := hvalue c (hdigits c (by simp))
  simp only [Nat.ofDigitChars_cons, Nat.ofDigitChars_nil]
  omega

/-- Three digits of which one is not of ASCII. -/
theorem ThreeDigits.isCode_or {text : List Char} (h : ThreeDigits text) :
    (∃ n, IsCode text n) ∨ ∃ c ∈ text, c.isDigit = false := by
  by_cases hascii : ∀ c ∈ text, c.isDigit = true
  · exact Or.inl ⟨_, h.1, hascii, rfl⟩
  · right
    simpa using hascii

section Numbers

variable (culture : NumberCulture)

/-- A text that begins like a number has no sign. -/
theorem splitSign_of_isDecimalDigit {c : Char} (hc : isDecimalDigit c = true) (cs : List Char) :
    IntegerText.splitSign culture.toNumberFormat (c :: cs) = (false, c :: cs) := by
  have hnot (sign : List Char) (hhead : ∀ d ∈ sign.head?, isDecimalDigit d = false) :
      ¬(sign ≠ [] ∧ sign.isPrefixOf (c :: cs) = true) := by
    rintro ⟨hne, hpre⟩
    cases sign with
    | nil => exact hne rfl
    | cons d ds =>
        rw [List.isPrefixOf_cons_cons, Bool.and_eq_true, beq_iff_eq] at hpre
        rw [hpre.1] at hhead
        exact Bool.false_ne_true ((hhead c rfl).symm.trans hc)
  rw [IntegerText.splitSign, if_neg (hnot _ fun d hd => culture.sign_head d (Or.inl hd)),
    if_neg (hnot _ fun d hd => culture.sign_head d (Or.inr hd))]

omit culture in
theorem isWhite_of_isDecimalDigit {c : Char} (hc : isDecimalDigit c = true) :
    IntegerText.isWhite c = false := by
  have hblank := isWhiteSpace_of_isDecimalDigit hc
  simp only [isWhiteSpace, Bool.or_eq_false_iff] at hblank
  simp [IntegerText.isWhite]
  simp at hblank
  omega

/-- What follows the digits of a number decides whether it can be read. -/
theorem parse_of_threeDigits {text : List Char} (h : ThreeDigits text) (rest : List Char) :
    IntegerText.parse culture.toNumberFormat true (text ++ rest) =
      if ((text ++ rest).takeWhile Char.isDigit = [] ∨
          (((text ++ rest).dropWhile Char.isDigit).dropWhile IntegerText.isWhite).all
            (· == '\x00') = false) then none
      else some (Nat.ofDigitChars 10 ((text ++ rest).takeWhile Char.isDigit) 0 : Int) := by
  obtain ⟨hlen, hdigits⟩ := h
  cases text with
  | nil => cases hlen
  | cons c cs =>
      have hc := hdigits c List.mem_cons_self
      have hskip : (c :: (cs ++ rest)).dropWhile IntegerText.isWhite = c :: (cs ++ rest) :=
        List.dropWhile_cons_of_neg (by simp [isWhite_of_isDecimalDigit hc])
      rw [List.cons_append, IntegerText.parse]
      simp only [if_true, hskip, splitSign_of_isDecimalDigit culture hc, Bool.false_eq_true,
        if_false]

/-- A text is not read if a digit of another script comes before its end. -/
theorem tryParseInt_of_foreign {text : List Char} (h : ThreeDigits text)
    (hforeign : ∃ c ∈ text, c.isDigit = false) (rest : List Char) :
    tryParseInt culture (text ++ rest) = none := by
  obtain ⟨d, hd, hforeign⟩ := hforeign
  have hstop : (text ++ rest).dropWhile Char.isDigit =
      text.dropWhile Char.isDigit ++ rest := by
    rw [List.dropWhile_append, if_neg]
    rw [List.isEmpty_iff, List.dropWhile_eq_nil_iff]
    intro hall
    rw [hall d hd] at hforeign
    cases hforeign
  have hleft : ∃ c cs, text.dropWhile Char.isDigit = c :: cs := by
    apply List.exists_cons_of_ne_nil
    rw [Ne, List.dropWhile_eq_nil_iff]
    intro hall
    rw [hall d hd] at hforeign
    cases hforeign
  obtain ⟨c, cs, hleft⟩ := hleft
  have hc : isDecimalDigit c = true := by
    apply h.2 c
    apply (List.dropWhile_suffix Char.isDigit).subset
    rw [hleft]
    exact List.mem_cons_self
  have hnull : (c == '\x00') = false := by
    rw [beq_eq_false_iff_ne]
    rintro rfl
    revert hc
    decide
  rw [tryParseInt, IntegerText.tryParse, String.toList_ofList, parse_of_threeDigits culture h,
    hstop, hleft, List.cons_append,
    List.dropWhile_cons_of_neg (by rw [isWhite_of_isDecimalDigit hc]; exact Bool.false_ne_true),
    List.all_cons, hnull, Bool.false_and, if_pos (Or.inr rfl)]
  rfl

/-- A code is read, also with a line feed behind it. -/
theorem tryParseInt_of_isCode {text ending : List Char} {n : Nat} (h : IsCode text n)
    (hending : AtEnd ending) : tryParseInt culture (text ++ ending) = some (n : Int) := by
  have hlt := h.lt
  have hthree := h.threeDigits
  obtain ⟨hlen, hdigits, rfl⟩ := h
  have hne : text ≠ [] := by
    rintro rfl
    cases hlen
  have htake : (text ++ ending).takeWhile Char.isDigit = text := by
    rcases hending with rfl | rfl
    · rw [List.append_nil, List.takeWhile_eq_self_iff.mpr hdigits]
    · rw [List.takeWhile_append_of_pos hdigits]
      exact List.append_nil text
  have hdrop : ((text ++ ending).dropWhile Char.isDigit).dropWhile IntegerText.isWhite = [] := by
    rw [List.dropWhile_append_of_pos hdigits]
    rcases hending with rfl | rfl
    · rfl
    · rfl
  rw [tryParseInt, IntegerText.tryParse, String.toList_ofList, parse_of_threeDigits culture hthree,
    htake, hdrop, if_neg]
  · rw [Option.filter_some, if_pos]
    rw [decide_eq_true_eq]
    omega
  · rintro (hnil | hall)
    · exact hne hnil
    · cases hall

/-- A code with a hyphen behind it is not read. -/
theorem tryParseInt_of_hyphen {text : List Char} (h : ThreeDigits text) (rest : List Char) :
    tryParseInt culture (text ++ '-' :: rest) = none := by
  rcases h.isCode_or with ⟨n, hcode⟩ | hforeign
  · have hdrop : ((text ++ '-' :: rest).dropWhile Char.isDigit).dropWhile IntegerText.isWhite =
        '-' :: rest := by
      rw [List.dropWhile_append_of_pos hcode.2.1, List.dropWhile_cons_of_neg (by decide),
        List.dropWhile_cons_of_neg (by decide)]
    have hnull : ('-' :: rest).all (· == '\x00') = false := rfl
    rw [tryParseInt, IntegerText.tryParse, String.toList_ofList, parse_of_threeDigits culture h,
      hdrop, if_pos (Or.inr hnull)]
    rfl
  · exact tryParseInt_of_foreign culture h hforeign _

end Numbers

/-! ## One entry -/

theorem getElem_trySetValue (codes : StatusCodes) (index : Int) {c : Nat} (hc : c < 600) :
    (trySetValue codes index)[c] = true ↔ codes[c] = true ∨ index = c := by
  rw [trySetValue]
  split
  case isTrue h =>
    rw [Vector.getElem_set]
    split
    case isTrue heq => exact iff_of_true rfl (Or.inr (by omega))
    case isFalse hne => rw [or_iff_left (by omega)]
  case isFalse h => rw [or_iff_left (by omega)]

theorem getElem_foldl_trySetValue (codes : StatusCodes) (startStatus : Int) (is : List Nat)
    {c : Nat} (hc : c < 600) :
    (is.foldl (fun codes (i : Nat) => trySetValue codes (startStatus + i)) codes)[c] = true ↔
      codes[c] = true ∨ ∃ i ∈ is, startStatus + i = c := by
  induction is generalizing codes with
  | nil => exact (or_iff_left fun ⟨i, hi, _⟩ => by cases hi).symm
  | cons i is ih =>
      rw [List.foldl_cons, ih, getElem_trySetValue, or_assoc]
      simp only [List.mem_cons, or_and_right, exists_or, exists_eq_left]

theorem getElem_setRange (codes : StatusCodes) (startStatus endStatus : Int) {c : Nat}
    (hc : c < 600) :
    (setRange codes startStatus endStatus)[c] = true ↔
      codes[c] = true ∨ startStatus ≤ c ∧ c ≤ endStatus := by
  rw [setRange, getElem_foldl_trySetValue]
  apply or_congr_right
  constructor
  · rintro ⟨i, hi, heq⟩
    have hlt := List.mem_range.mp hi
    omega
  · rintro ⟨hlo, hhi⟩
    refine ⟨(c - startStatus).toNat, List.mem_range.mpr ?_, ?_⟩
    · omega
    · omega

/-- The codes an entry covers: one, or those between two bounds in either order. -/
inductive Covers : List Char → Nat → Prop
  | single {text : List Char} {n : Nat} : IsCode text n → Covers text n
  | range {first second : List Char} {m n c : Nat} :
      IsCode first m → IsCode second n → min m n ≤ c → c ≤ max m n →
      Covers (first ++ '-' :: second) c

theorem Covers.shaped {text : List Char} {c : Nat} (h : Covers text c) : Shaped text := by
  cases h with
  | single h => exact Shaped.single h.threeDigits
  | range hfirst hsecond _ _ => exact Shaped.range hfirst.threeDigits hsecond.threeDigits

theorem ThreeDigits.hyphen_notMem {text : List Char} (h : ThreeDigits text) : '-' ∉ text := by
  intro hmem
  have hhyphen := h.2 _ hmem
  revert hhyphen
  decide

theorem splitOn_range {first second : List Char} (hfirst : ThreeDigits first)
    (hsecond : ThreeDigits second) {ending : List Char} (hending : AtEnd ending) :
    (first ++ '-' :: second ++ ending).splitOn '-' = [first, second ++ ending] := by
  have hnot : '-' ∉ second ++ ending := by
    rw [List.mem_append]
    rintro (h | h)
    · exact hsecond.hyphen_notMem h
    · rcases hending with rfl | rfl
      · cases h
      · revert h
        decide
  rw [List.append_assoc, List.cons_append,
    List.splitOn_append_cons_self_of_not_mem hfirst.hyphen_notMem,
    List.splitOn_eq_singleton hnot]

/-- What the bounds of two codes are, in either order. -/
theorem Covers.range_iff {first second : List Char} {m n c : Nat} (hfirst : IsCode first m)
    (hsecond : IsCode second n) :
    Covers (first ++ '-' :: second) c ↔ min m n ≤ c ∧ c ≤ max m n := by
  constructor
  · intro h
    generalize htext : first ++ '-' :: second = text at h
    cases h with
    | single hcode =>
        rw [← htext] at hcode
        have hlen := hcode.1
        rw [List.length_append, hfirst.1] at hlen
        simp at hlen
    | range hfirst' hsecond' hlo hhi =>
        obtain ⟨heq, heq'⟩ := List.append_inj htext (hfirst.1.trans hfirst'.1.symm)
        rw [← heq] at hfirst'
        rw [← (List.cons.inj heq').2] at hsecond'
        rw [← hfirst'.2.2, ← hsecond'.2.2, hfirst.2.2, hsecond.2.2] at hlo hhi
        exact ⟨hlo, hhi⟩
  · rintro ⟨hlo, hhi⟩
    exact Covers.range hfirst hsecond hlo hhi

theorem Covers.single_iff {text : List Char} {n c : Nat} (h : IsCode text n) :
    Covers text c ↔ c = n := by
  constructor
  · intro hcovers
    cases hcovers with
    | single hcode => exact hcode.2.2.symm.trans h.2.2
    | range hfirst _ _ _ =>
        have hlen := h.1
        rw [List.length_append, hfirst.1] at hlen
        simp at hlen
  · rintro rfl
    exact Covers.single h

/-- A digit of another script, in what is taken for an entry. -/
def Foreign (text : List Char) : Prop := ∃ c ∈ text, isDecimalDigit c = true ∧ c.isDigit = false

theorem ThreeDigits.foreign_iff {text : List Char} (h : ThreeDigits text) :
    (∃ n, IsCode text n) ↔ ¬Foreign text := by
  constructor
  · rintro ⟨n, hcode⟩ ⟨c, hc, -, hforeign⟩
    rw [hcode.2.1 c hc] at hforeign
    cases hforeign
  · intro hascii
    rcases h.isCode_or with hcode | ⟨c, hc, hforeign⟩
    · exact hcode
    · exact absurd ⟨c, hc, h.2 c hc, hforeign⟩ hascii

section Entries

variable (culture : NumberCulture) (codes : StatusCodes)

/-- What is read of an entry that a text is taken for. -/
structure ReadsAs (entry text : List Char) : Prop where
  /-- `int.Parse` throws. -/
  throws : Foreign text → readEntry culture codes entry = none
  /-- What the text covers is set. -/
  returns : ¬Foreign text → ∃ codes', readEntry culture codes entry = some codes' ∧
    ∀ c (hc : c < 600), codes'[c] = true ↔ codes[c] = true ∨ Covers text c

/-- An entry of another form is skipped. -/
theorem readEntry_of_not_isMatch {entry : List Char} (h : statusFormat.isMatch entry = false) :
    readEntry culture codes entry = some codes := by
  rw [readEntry, h]
  rfl

/-- A single code. -/
theorem readsAs_single {text ending : List Char} (h : ThreeDigits text) (hending : AtEnd ending) :
    ReadsAs culture codes (text ++ ending) text := by
  have hmatch : statusFormat.isMatch (text ++ ending) = true :=
    isMatch_statusFormat_iff.mpr ⟨text, ending, rfl, Shaped.single h, hending⟩
  have hnot : '-' ∉ text ++ ending := by
    rw [List.mem_append]
    rintro (hmem | hmem)
    · exact h.hyphen_notMem hmem
    · rcases hending with rfl | rfl
      · cases hmem
      · revert hmem
        decide
  constructor
  · rintro ⟨c, hc, -, hascii⟩
    have hnone := tryParseInt_of_foreign culture h ⟨c, hc, hascii⟩ ending
    unfold readEntry
    simp only [hmatch, hnone, List.splitOn_eq_singleton hnot]
    show (tryParseInt culture (text ++ ending) >>= _) = none
    rw [hnone]
    rfl
  · intro hascii
    obtain ⟨n, hcode⟩ := h.foreign_iff.mpr hascii
    refine ⟨trySetValue codes n, ?_, fun c hc => ?_⟩
    · unfold readEntry
      simp only [hmatch, tryParseInt_of_isCode culture hcode hending]
      rfl
    · rw [getElem_trySetValue, Covers.single_iff hcode]
      apply or_congr_right
      omega

/-- A range. -/
theorem readsAs_range {first second ending : List Char} (hfirst : ThreeDigits first)
    (hsecond : ThreeDigits second) (hending : AtEnd ending) :
    ReadsAs culture codes (first ++ '-' :: second ++ ending) (first ++ '-' :: second) := by
  have hmatch : statusFormat.isMatch (first ++ '-' :: second ++ ending) = true :=
    isMatch_statusFormat_iff.mpr ⟨_, ending, rfl, Shaped.range hfirst hsecond, hending⟩
  have hwhole : tryParseInt culture (first ++ '-' :: second ++ ending) = none := by
    rw [List.append_assoc, List.cons_append]
    exact tryParseInt_of_hyphen culture hfirst _
  have hforeign : Foreign (first ++ '-' :: second) ↔ Foreign first ∨ Foreign second := by
    have hhyphen : ¬(isDecimalDigit '-' = true ∧ ('-').isDigit = false) := by decide
    simp only [Foreign, List.mem_append, List.mem_cons, or_and_right, exists_or, exists_eq_left]
    rw [or_iff_right hhyphen]
  have hread : readEntry culture codes (first ++ '-' :: second ++ ending) =
      tryParseInt culture first >>= fun startStatus =>
        tryParseInt culture (second ++ ending) >>= fun endStatus =>
          if endStatus < startStatus then some (setRange codes endStatus startStatus)
          else some (setRange codes startStatus endStatus) := by
    unfold readEntry
    simp only [hmatch, hwhole, splitOn_range hfirst hsecond hending]
    rfl
  constructor
  · intro h
    rcases hforeign.mp h with ⟨c, hc, -, hascii⟩ | ⟨c, hc, -, hascii⟩
    · have hnone := tryParseInt_of_foreign culture hfirst ⟨c, hc, hascii⟩ []
      rw [List.append_nil] at hnone
      rw [hread, hnone]
      rfl
    · have hnone := tryParseInt_of_foreign culture hsecond ⟨c, hc, hascii⟩ ending
      rw [hread, hnone]
      cases tryParseInt culture first with
      | none => rfl
      | some startStatus => rfl
  · intro h
    obtain ⟨hascii, hascii'⟩ := not_or.mp (mt hforeign.mpr h)
    obtain ⟨m, hm⟩ := hfirst.foreign_iff.mpr hascii
    obtain ⟨n, hn⟩ := hsecond.foreign_iff.mpr hascii'
    have hreadFirst := tryParseInt_of_isCode culture hm (Or.inl rfl)
    rw [List.append_nil] at hreadFirst
    have hreadSecond := tryParseInt_of_isCode culture hn hending
    rw [hread, hreadFirst, hreadSecond]
    by_cases hlt : (n : Int) < m
    · refine ⟨setRange codes n m, if_pos hlt, fun c hc => ?_⟩
      rw [Covers.range_iff hm hn, getElem_setRange]
      apply or_congr_right
      omega
    · refine ⟨setRange codes m n, if_neg hlt, fun c hc => ?_⟩
      rw [Covers.range_iff hm hn, getElem_setRange]
      apply or_congr_right
      omega

theorem readsAs_of_shaped {text ending : List Char} (h : Shaped text) (hending : AtEnd ending) :
    ReadsAs culture codes (text ++ ending) text := by
  cases h with
  | single h => exact readsAs_single culture codes h hending
  | range hfirst hsecond => exact readsAs_range culture codes hfirst hsecond hending

end Entries

/-- The codes that are set for an entry: those that are covered by what comes before its end. -/
def Marks (entry : List Char) (c : Nat) : Prop :=
  ∃ text ending, entry = text ++ ending ∧ AtEnd ending ∧ Covers text c

theorem Shaped.newline_notMem {text : List Char} (h : Shaped text) : '\n' ∉ text := by
  have hnot {digits : List Char} (hdigits : ThreeDigits digits) : '\n' ∉ digits := by
    intro hmem
    have hnewline := hdigits.2 _ hmem
    revert hnewline
    decide
  cases h with
  | single h => exact hnot h
  | range hfirst hsecond =>
      rw [List.mem_append, List.mem_cons]
      rintro (h | h | h)
      · exact hnot hfirst h
      · cases h
      · exact hnot hsecond h

/-- There is one way to split off the end. -/
theorem Shaped.eq_of_append_eq {text ending text' ending' : List Char} (h : Shaped text)
    (h' : Shaped text') (hending : AtEnd ending) (hending' : AtEnd ending')
    (heq : text ++ ending = text' ++ ending') : text = text' := by
  rcases hending with rfl | rfl
  · rcases hending' with rfl | rfl
    · simpa using heq
    · rw [List.append_nil] at heq
      exact absurd (heq ▸ List.mem_append_right text' (List.mem_singleton_self _)) h.newline_notMem
  · rcases hending' with rfl | rfl
    · rw [List.append_nil] at heq
      exact absurd (heq ▸ List.mem_append_right text (List.mem_singleton_self _)) h'.newline_notMem
    · exact List.append_cancel_right heq

theorem marks_iff_of_shaped {text ending : List Char} {c : Nat} (h : Shaped text)
    (hending : AtEnd ending) : Marks (text ++ ending) c ↔ Covers text c := by
  constructor
  · rintro ⟨text', ending', heq, hending', hcovers⟩
    rw [h.eq_of_append_eq hcovers.shaped hending hending' heq]
    exact hcovers
  · intro hcovers
    exact ⟨text, ending, rfl, hending, hcovers⟩

theorem foreign_append_iff {text ending : List Char} (hending : AtEnd ending) :
    Foreign (text ++ ending) ↔ Foreign text := by
  have hnot : ¬∃ c ∈ ending, isDecimalDigit c = true ∧ c.isDigit = false := by
    rcases hending with rfl | rfl
    · rintro ⟨c, hc, -⟩
      cases hc
    · rintro ⟨c, hc, h, -⟩
      rw [List.mem_singleton.mp hc] at h
      revert h
      decide
  simp only [Foreign, List.mem_append, or_and_right, exists_or]
  exact or_iff_left hnot

/-- An entry on which `int.Parse` throws. -/
def Throws (entry : List Char) : Prop := statusFormat.isMatch entry = true ∧ Foreign entry

/-- **One entry** throws, or sets what it marks. -/
theorem readEntry_cases (culture : NumberCulture) (codes : StatusCodes) (entry : List Char) :
    Throws entry ∧ readEntry culture codes entry = none ∨
      ¬Throws entry ∧ ∃ codes', readEntry culture codes entry = some codes' ∧
        ∀ c (hc : c < 600), codes'[c] = true ↔ codes[c] = true ∨ Marks entry c := by
  cases hmatch : statusFormat.isMatch entry with
  | false =>
      right
      refine ⟨fun h => Bool.false_ne_true (hmatch.symm.trans h.1), codes,
        readEntry_of_not_isMatch culture codes hmatch, fun c hc => (or_iff_left ?_).symm⟩
      rintro ⟨text, ending, heq, hending, hcovers⟩
      have hshaped := isMatch_statusFormat_iff.mpr ⟨text, ending, heq, hcovers.shaped, hending⟩
      exact Bool.false_ne_true (hmatch.symm.trans hshaped)
  | true =>
      obtain ⟨text, ending, rfl, hshaped, hending⟩ := isMatch_statusFormat_iff.mp hmatch
      have hreads := readsAs_of_shaped culture codes hshaped hending
      by_cases hforeign : Foreign text
      · left
        exact ⟨⟨hmatch, (foreign_append_iff hending).mpr hforeign⟩, hreads.throws hforeign⟩
      · right
        obtain ⟨codes', hcodes', hmarks⟩ := hreads.returns hforeign
        refine ⟨fun h => hforeign ((foreign_append_iff hending).mp h.2), codes', hcodes', ?_⟩
        intro c hc
        rw [hmarks c hc, marks_iff_of_shaped hshaped hending]

/-! ## The table -/

theorem foldlM_readEntry_of_throws (culture : NumberCulture) (codes : StatusCodes)
    {all : List (List Char)} (h : ∃ entry ∈ all, Throws entry) :
    all.foldlM (readEntry culture) codes = none := by
  induction all generalizing codes with
  | nil =>
      obtain ⟨entry, hentry, -⟩ := h
      cases hentry
  | cons entry all ih =>
      rw [List.foldlM_cons]
      rcases readEntry_cases culture codes entry with ⟨-, hnone⟩ | ⟨hnot, codes', hcodes', -⟩
      · rw [hnone]
        rfl
      · obtain ⟨entry', hentry', hthrows⟩ := h
        rw [hcodes']
        apply ih codes'
        rcases List.mem_cons.mp hentry' with rfl | hmem
        · exact absurd hthrows hnot
        · exact ⟨entry', hmem, hthrows⟩

theorem foldlM_readEntry (culture : NumberCulture) (codes : StatusCodes)
    {all : List (List Char)} (h : ∀ entry ∈ all, ¬Throws entry) :
    ∃ codes', all.foldlM (readEntry culture) codes = some codes' ∧
      ∀ c (hc : c < 600), codes'[c] = true ↔ codes[c] = true ∨ ∃ entry ∈ all, Marks entry c := by
  induction all generalizing codes with
  | nil => exact ⟨codes, rfl, fun c hc => (or_iff_left fun ⟨e, he, _⟩ => by cases he).symm⟩
  | cons entry all ih =>
      rw [List.forall_mem_cons] at h
      rcases readEntry_cases culture codes entry with ⟨hthrows, -⟩ | ⟨-, mid, hmid, hmarks⟩
      · exact absurd hthrows h.1
      · obtain ⟨codes', hcodes', hlater⟩ := ih mid h.2
        refine ⟨codes', ?_, fun c hc => ?_⟩
        · rw [List.foldlM_cons, hmid]
          exact hcodes'
        · rw [hlater c hc, hmarks c hc, or_assoc]
          simp only [List.mem_cons, or_and_right, exists_or, exists_eq_left]

/-- The table holds what the entries cover, and nothing else. -/
def HoldsExactly (httpStatusErrorCodes : String) (codes : StatusCodes) : Prop :=
  ∀ c (hc : c < 600), codes[c] = true ↔ ∃ entry ∈ entries httpStatusErrorCodes, Covers entry c

/-- No entry throws, and what an entry with a line feed behind it covers is covered by others. -/
structure Clean (httpStatusErrorCodes : String) : Prop where
  ascii : ∀ entry ∈ entries httpStatusErrorCodes, statusFormat.isMatch entry = true →
    ∀ c ∈ entry, isDecimalDigit c = true → c.isDigit = true
  lines : ∀ text, text ++ ['\n'] ∈ entries httpStatusErrorCodes → ∀ c < 600, Covers text c →
    ∃ entry ∈ entries httpStatusErrorCodes, Covers entry c

/-- **The table is read exactly** if and only if the configuration string is clean. -/
theorem exists_holdsExactly_iff (culture : NumberCulture) (httpStatusErrorCodes : String) :
    (∃ codes, parseHttpCodesToArray culture httpStatusErrorCodes = some codes ∧
      HoldsExactly httpStatusErrorCodes codes) ↔ Clean httpStatusErrorCodes := by
  have hthrows : (∀ entry ∈ entries httpStatusErrorCodes, ¬Throws entry) ↔
      ∀ entry ∈ entries httpStatusErrorCodes, statusFormat.isMatch entry = true →
        ∀ c ∈ entry, isDecimalDigit c = true → c.isDigit = true := by
    refine forall₂_congr fun entry _ => ?_
    simp only [Throws, Foreign, not_and, not_exists, Bool.not_eq_false]
  have hmarks {c : Nat} : (∃ entry ∈ entries httpStatusErrorCodes, Marks entry c) ↔
      (∃ entry ∈ entries httpStatusErrorCodes, Covers entry c) ∨
        ∃ text, text ++ ['\n'] ∈ entries httpStatusErrorCodes ∧ Covers text c := by
    constructor
    · rintro ⟨entry, hentry, text, ending, rfl, rfl | rfl, hcovers⟩
      · rw [List.append_nil] at hentry
        exact Or.inl ⟨text, hentry, hcovers⟩
      · exact Or.inr ⟨text, hentry, hcovers⟩
    · rintro (⟨entry, hentry, hcovers⟩ | ⟨text, hentry, hcovers⟩)
      · exact ⟨entry, hentry, entry, [], (List.append_nil entry).symm, Or.inl rfl, hcovers⟩
      · exact ⟨_, hentry, text, _, rfl, Or.inr rfl, hcovers⟩
  by_cases hnone : ∀ entry ∈ entries httpStatusErrorCodes, ¬Throws entry
  · obtain ⟨codes, hcodes, hholds⟩ :=
      foldlM_readEntry culture (Vector.replicate 600 false) hnone
    have hset (c : Nat) (hc : c < 600) : codes[c] = true ↔
        (∃ entry ∈ entries httpStatusErrorCodes, Covers entry c) ∨
          ∃ text, text ++ ['\n'] ∈ entries httpStatusErrorCodes ∧ Covers text c := by
      have hempty : ¬(Vector.replicate 600 false)[c] = true := by
        rw [Vector.getElem_replicate]
        exact Bool.false_ne_true
      rw [hholds c hc, or_iff_right hempty, hmarks]
    constructor
    · rintro ⟨codes', hcodes', hexact⟩
      obtain rfl := Option.some.inj (hcodes.symm.trans hcodes')
      refine ⟨hthrows.mp hnone, fun text htext c hc hcovers => ?_⟩
      exact (hexact c hc).mp ((hset c hc).mpr (Or.inr ⟨text, htext, hcovers⟩))
    · intro hclean
      refine ⟨codes, hcodes, fun c hc => ?_⟩
      rw [hset c hc, or_iff_left_iff_imp]
      rintro ⟨text, htext, hcovers⟩
      exact hclean.lines text htext c hc hcovers
  · have hthrow : ∃ entry ∈ entries httpStatusErrorCodes, Throws entry := by
      by_contra hall
      exact hnone fun entry hentry h => hall ⟨entry, hentry, h⟩
    have hparse : parseHttpCodesToArray culture httpStatusErrorCodes = none :=
      foldlM_readEntry_of_throws culture _ hthrow
    refine iff_of_false ?_ fun hclean => hnone (hthrows.mpr hclean.ascii)
    rintro ⟨codes, hcodes, -⟩
    rw [hparse] at hcodes
    cases hcodes

namespace HttpErrorStatusCodes

/-- What a table answers. -/
theorem getElem_answer {codes : StatusCodes} {configured : String}
    (h : HoldsExactly configured codes) {statusCode : Int} (hnonneg : 0 ≤ statusCode) :
    ∃ isError, (if codes.size ≤ statusCode then some false
        else if statusCode < 0 then none else codes[statusCode.toNat]?) = some isError ∧
      (isError = true ↔ ∃ c : Nat, statusCode = c ∧ c < 600 ∧
        ∃ entry ∈ entries configured, Covers entry c) := by
  obtain ⟨c, rfl⟩ := Int.eq_ofNat_of_zero_le hnonneg
  by_cases hc : c < 600
  · have hsize : ¬((600 : Nat) : Int) ≤ (c : Int) := by omega
    have hneg : ¬(c : Int) < 0 := by omega
    refine ⟨codes[c], ?_, ?_⟩
    · rw [if_neg hsize, if_neg hneg, Int.toNat_natCast]
      exact Vector.getElem?_eq_getElem hc
    · rw [h c hc]
      constructor
      · intro hcovers
        exact ⟨c, rfl, hc, hcovers⟩
      · rintro ⟨c', hcc', -, hcovers⟩
        obtain rfl : c = c' := by omega
        exact hcovers
  · have hsize : ((600 : Nat) : Int) ≤ (c : Int) := by omega
    refine ⟨false, if_pos hsize, iff_of_false Bool.false_ne_true ?_⟩
    rintro ⟨c', hcc', hlt, -⟩
    omega

/-- A negative status code is an index error. -/
theorem isErrorStatusCode_of_neg (serverCodes clientCodes : StatusCodes) {statusCode : Int}
    (h : statusCode < 0) (serverStatusCode : Bool) :
    isErrorStatusCode ⟨some serverCodes, some clientCodes⟩ statusCode serverStatusCode = none := by
  have hsize : ¬((600 : Nat) : Int) ≤ statusCode := by omega
  rw [isErrorStatusCode]
  cases serverStatusCode with
  | true => exact (if_neg hsize).trans (if_pos h)
  | false => exact (if_neg hsize).trans (if_pos h)

/-- **The status codes that are errors** are read exactly and can be asked, if and only if both
configuration strings are clean and the status code is not negative. -/
theorem isErrorStatusCode_iff (culture : NumberCulture) (server client : Option String)
    (statusCode : Int) :
    (∃ serverCodes clientCodes,
      read culture server client = some ⟨some serverCodes, some clientCodes⟩ ∧
      HoldsExactly (server.getD "500-599") serverCodes ∧
      HoldsExactly (client.getD "400-499") clientCodes ∧
      ∀ serverStatusCode, ∃ isError,
        isErrorStatusCode ⟨some serverCodes, some clientCodes⟩ statusCode serverStatusCode =
          some isError ∧
        (isError = true ↔ ∃ c : Nat, statusCode = c ∧ c < 600 ∧
          ∃ entry ∈ entries (if serverStatusCode then server.getD "500-599"
            else client.getD "400-499"), Covers entry c)) ↔
      Clean (server.getD "500-599") ∧ Clean (client.getD "400-499") ∧ 0 ≤ statusCode := by
  constructor
  · rintro ⟨serverCodes, clientCodes, hread, hserver, hclient, hanswers⟩
    obtain ⟨serverCodes', hserverCodes, hread⟩ := Option.bind_eq_some_iff.mp hread
    obtain ⟨clientCodes', hclientCodes, hread⟩ := Option.bind_eq_some_iff.mp hread
    obtain ⟨hserverEq, hclientEq⟩ := HttpErrorStatusCodes.mk.inj (Option.some.inj hread)
    obtain rfl := Option.some.inj hserverEq
    obtain rfl := Option.some.inj hclientEq
    refine ⟨(exists_holdsExactly_iff culture _).mp ⟨_, hserverCodes, hserver⟩,
      (exists_holdsExactly_iff culture _).mp ⟨_, hclientCodes, hclient⟩, ?_⟩
    by_contra hneg
    obtain ⟨isError, hisError, -⟩ := hanswers true
    rw [isErrorStatusCode_of_neg _ _ (not_le.mp hneg)] at hisError
    cases hisError
  · rintro ⟨hserver, hclient, hnonneg⟩
    obtain ⟨serverCodes, hserverCodes, hserver⟩ := (exists_holdsExactly_iff culture _).mpr hserver
    obtain ⟨clientCodes, hclientCodes, hclient⟩ := (exists_holdsExactly_iff culture _).mpr hclient
    refine ⟨serverCodes, clientCodes, ?_, hserver, hclient, fun serverStatusCode => ?_⟩
    · rw [read, hserverCodes, hclientCodes]
      rfl
    · cases serverStatusCode with
      | true => exact getElem_answer hserver hnonneg
      | false => exact getElem_answer hclient hnonneg

/-- Digits of another script throw, a line feed is let through, and a negative status code is an
index error. -/
theorem not_total_arabicDigits :
    read .invariant (some "\u0664\u0660\u0664") none = none ∧
      (∃ codes, parseHttpCodesToArray .invariant "404\n" = some codes ∧ codes[404] = true ∧
        ∀ entry ∈ entries "404\n", ¬Covers entry 404) ∧
      ∀ serverCodes clientCodes,
        isErrorStatusCode ⟨some serverCodes, some clientCodes⟩ (-1) true = none := by
  refine ⟨?_, ?_, fun serverCodes clientCodes => rfl⟩
  · have hentries : entries "\u0664\u0660\u0664" = [['\u0664', '\u0660', '\u0664']] := by decide
    have hthrows : Throws ['\u0664', '\u0660', '\u0664'] :=
      ⟨by decide, '\u0664', List.mem_cons_self, by decide, by decide⟩
    have hparse : parseHttpCodesToArray .invariant "\u0664\u0660\u0664" = none := by
      apply foldlM_readEntry_of_throws
      rw [hentries]
      exact ⟨_, List.mem_singleton_self _, hthrows⟩
    rw [read, Option.getD_some, hparse]
    rfl
  · have hentries : entries "404\n" = [['4', '0', '4'] ++ ['\n']] := by decide
    have hcode : IsCode ['4', '0', '4'] 404 := ⟨rfl, forall_mem_of_all (by decide), by decide⟩
    have hnot : ∀ entry ∈ entries "404\n", ¬Throws entry := by
      rw [hentries]
      have hascii : ∀ c ∈ ['4', '0', '4'] ++ ['\n'], isDecimalDigit c = true → c.isDigit = true :=
        forall_mem_of_all (by decide)
      rintro entry hentry ⟨-, c, hc, hdecimal, hforeign⟩
      rw [List.mem_singleton.mp hentry] at hc
      exact Bool.false_ne_true (hforeign.symm.trans (hascii c hc hdecimal))
    obtain ⟨codes, hcodes, hholds⟩ := foldlM_readEntry .invariant (Vector.replicate 600 false) hnot
    refine ⟨codes, hcodes, (hholds 404 (by decide)).mpr (Or.inr ?_), ?_⟩
    · refine ⟨_, hentries ▸ List.mem_singleton_self _, _, _, rfl, Or.inr rfl, ?_⟩
      exact Covers.single hcode
    · intro entry hentry hcovers
      rw [hentries] at hentry
      rw [List.mem_singleton.mp hentry] at hcovers
      exact hcovers.shaped.newline_notMem (by decide)

end HttpErrorStatusCodes

end DdTrace.Configuration
