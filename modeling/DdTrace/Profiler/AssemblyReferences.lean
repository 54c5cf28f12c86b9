import Mathlib.Data.Fintype.Pi
import DdTrace.Lib.FiniteChecks
import DdTrace.Lib.RegexSearch

/-!
# Assembly references as text

A reference is printed in one way, and read by four routines. Three of them use a regular
expression: in the build for Windows they search the text for it, in the other one they match the
whole text.

* `AssemblyReference.str`, `AssemblyReference.parse`: the code, in both builds (`Build`).
* `getVersion_windows_str`, `getLocale_windows_str`, `getPublicKey_windows_str`: what the searches
  read of a printed reference; `match_unix_eq_none`, `match_unix_name`: the matches of it.
* `parse_str_iff`: the references that are read back.

Sources: `integration.h`, `integration.cpp`
-/

namespace DdTrace.Profiler.Integration

open DdTrace.Lib DdTrace.Lib.Regex

/-! ## The code -/

/-- Text, as the runtime has it. -/
abbrev WSTRING := List Char

/-- Source: `integration.h`, `kPublicKeySize` -/
abbrev kPublicKeySize : Nat := 8

/-- Source: `integration.h`, `PublicKey` -/
structure PublicKey where
  data : Fin kPublicKeySize → UInt8
  deriving DecidableEq

namespace PublicKey

/-- The key of zeros, which stands for none.
Source: `integration.h`, `PublicKey::PublicKey` -/
def none : PublicKey := ⟨fun _ => 0⟩

/-- Two digits of a byte.
Source: `integration.h`, `PublicKey::str` -/
def hexByte (b : UInt8) : WSTRING :=
  List.replicate (2 - (Nat.toDigits 16 b.toNat).length) '0' ++ Nat.toDigits 16 b.toNat

/-- Source: `integration.h`, `PublicKey::str` -/
def str (k : PublicKey) : WSTRING :=
  (List.finRange kPublicKeySize).flatMap fun i => hexByte (k.data i)

end PublicKey

/-- Source: `integration.h`, `Version` -/
structure Version where
  major : UInt16
  minor : UInt16
  build : UInt16
  revision : UInt16
  deriving DecidableEq

/-- The digits of a number of 16 bits. -/
def decimal (n : UInt16) : WSTRING := Nat.toDigits 10 n.toNat

/-- Source: `integration.h`, `Version::str` -/
def Version.str (v : Version) : WSTRING :=
  decimal v.major ++ '.' ::
    (decimal v.minor ++ '.' :: (decimal v.build ++ '.' :: decimal v.revision))

/-- Source: `integration.h`, `AssemblyReference` -/
structure AssemblyReference where
  name : WSTRING
  version : Version
  locale : WSTRING
  public_key : PublicKey
  deriving DecidableEq

/-- Source: `integration.h`, `AssemblyReference::str` -/
def AssemblyReference.str (ref : AssemblyReference) : WSTRING :=
  ref.name ++ (", Version=".toList ++ (ref.version.str ++ (", Culture=".toList ++ (ref.locale ++
    (", PublicKeyToken=".toList ++ ref.public_key.str)))))

/-- The builds: `_WIN32`, and the other ones. -/
inductive Build
  /-- With the regular expressions of the standard library. -/
  | windows
  /-- With RE2. -/
  | unix
  deriving DecidableEq, Repr

/-- A group of one or more characters of a class. -/
def groupPlus (number : Nat) (p : Char → Bool) : Regex := group number (plus p)

/-- `Version=([0-9]+)\.([0-9]+)\.([0-9]+)\.([0-9]+)`. -/
def versionRegex : Regex :=
  seq (literal "Version=".toList) <| seq (groupPlus 1 Char.isDigit) <| seq (literal ['.']) <|
    seq (groupPlus 2 Char.isDigit) <| seq (literal ['.']) <| seq (groupPlus 3 Char.isDigit) <|
      seq (literal ['.']) (groupPlus 4 Char.isDigit)

/-- `Culture=([a-zA-Z0-9]+)`. -/
def cultureRegex : Regex := seq (literal "Culture=".toList) (groupPlus 1 Char.isAlphanum)

/-- `[a-fA-F0-9]`. -/
def isHex (c : Char) : Bool :=
  c.isDigit || ('a' ≤ c && c ≤ 'f') || ('A' ≤ c && c ≤ 'F')

/-- `PublicKeyToken=([a-fA-F0-9]{16})`. -/
def publicKeyRegex : Regex :=
  seq (literal "PublicKeyToken=".toList) (group 1 (times 16 (one isHex)))

/-- The conversion for RE2 goes up to the first null character.
Source: `string.cpp`, `ToString` -/
def toString (str : WSTRING) : WSTRING := str.takeWhile (· ≠ '\x00')

/-- The match of an expression in a text. -/
def Build.match (build : Build) (re : Regex) (str : WSTRING) : Option Place :=
  match build with
  | .windows => re.find str
  | .unix => re.fullMatch (toString str)

/-- The text in front of the first comma, and there in front of the last space.
Source: `integration.cpp`, `GetNameFromAssemblyReferenceString` -/
def getName (str : WSTRING) : WSTRING :=
  let name := str.takeWhile (· ≠ ',')
  if ' ' ∈ name then (name.reverse.dropWhile (· ≠ ' ')).tail.reverse else name

/-- A stream reads a number that is too large as the largest one. -/
def readStream (digits : WSTRING) : UInt16 :=
  UInt16.ofNat (min (Nat.ofDigitChars 10 digits 0) 0xFFFF)

/-- RE2 gives up at a number that is too large, and leaves the ones behind it as they are. -/
def readArguments : List WSTRING → List UInt16
  | [] => []
  | digits :: rest =>
      if Nat.ofDigitChars 10 digits 0 ≤ 0xFFFF then
        UInt16.ofNat (Nat.ofDigitChars 10 digits 0) :: readArguments rest
      else []

/-- The version of a match. -/
def versionOf (build : Build) (m : Place) : Version :=
  match build with
  | .windows => ⟨readStream (m.value 1), readStream (m.value 2), readStream (m.value 3),
      readStream (m.value 4)⟩
  | .unix =>
      let numbers := readArguments [m.value 1, m.value 2, m.value 3, m.value 4]
      ⟨numbers.getD 0 0, numbers.getD 1 0, numbers.getD 2 0, numbers.getD 3 0⟩

/-- Source: `integration.cpp`, `GetVersionFromAssemblyReferenceString` -/
def getVersion (build : Build) (str : WSTRING) : Version :=
  ((build.match versionRegex str).map (versionOf build)).getD ⟨0, 0, 0, 0⟩

/-- Source: `integration.cpp`, `GetLocaleFromAssemblyReferenceString` -/
def getLocale (build : Build) (str : WSTRING) : WSTRING :=
  ((build.match cultureRegex str).map (·.value 1)).getD "neutral".toList

/-- The value of a hexadecimal digit. -/
def hexValue (c : Char) : Nat :=
  if c.isDigit then c.toNat - '0'.toNat
  else if c.isLower then c.toNat - 'a'.toNat + 10
  else c.toNat - 'A'.toNat + 10

/-- A stream reads hexadecimal digits. -/
def readHex (digits : WSTRING) : Nat := digits.foldl (fun n c => 16 * n + hexValue c) 0

/-- The key of a match. -/
def publicKeyOf (m : Place) : PublicKey :=
  ⟨fun i => UInt8.ofNat (readHex (((m.value 1).drop (2 * i.val)).take 2))⟩

/-- Source: `integration.cpp`, `GetPublicKeyFromAssemblyReferenceString` -/
def getPublicKey (build : Build) (str : WSTRING) : PublicKey :=
  ((build.match publicKeyRegex str).map publicKeyOf).getD .none

/-- Source: `integration.cpp`, `AssemblyReference::AssemblyReference` -/
def AssemblyReference.parse (build : Build) (str : WSTRING) : AssemblyReference where
  name := getName str
  version := getVersion build str
  locale := getLocale build str
  public_key := getPublicKey build str

/-! ## Printed numbers -/

theorem isDigit_of_mem_decimal {n : UInt16} {c : Char} (h : c ∈ decimal n) : c.isDigit = true :=
  Nat.isDigit_of_mem_toDigits (by decide) (by decide) h

theorem decimal_ne_nil (n : UInt16) : decimal n ≠ [] := Nat.toDigits_ne_nil

theorem readStream_decimal (n : UInt16) : readStream (decimal n) = n := by
  have hle : n.toNat ≤ 0xFFFF := Nat.le_of_lt_succ n.toNat_lt
  rw [readStream, decimal, Nat.ofDigitChars_ten_toDigits, Nat.min_eq_left hle]
  exact UInt16.ofNat_toNat

/-- The characters of a version. -/
theorem mem_str_version {v : Version} {c : Char} (h : c ∈ v.str) : c.isDigit = true ∨ c = '.' := by
  simp only [Version.str, List.mem_append, List.mem_cons] at h
  rcases h with h | h | h | h | h | h | h
  · exact .inl (isDigit_of_mem_decimal h)
  · exact .inr h
  · exact .inl (isDigit_of_mem_decimal h)
  · exact .inr h
  · exact .inl (isDigit_of_mem_decimal h)
  · exact .inr h
  · exact .inl (isDigit_of_mem_decimal h)

theorem hexByte_eq : ∀ b : UInt8, PublicKey.hexByte b =
    [Nat.digitChar (b.toNat / 16), Nat.digitChar (b.toNat % 16)] :=
  forall_byte (by decide +kernel)

theorem readHex_hexByte : ∀ b : UInt8, readHex (PublicKey.hexByte b) = b.toNat :=
  forall_byte (by decide +kernel)

theorem isHex_hexByte (b : UInt8) : ∀ c ∈ PublicKey.hexByte b, isHex c = true := by
  have hall : ∀ b : UInt8, (PublicKey.hexByte b).all isHex = true := forall_byte (by decide +kernel)
  exact List.all_eq_true.mp (hall b)

theorem isHex_of_mem_str {k : PublicKey} {c : Char} (h : c ∈ k.str) : isHex c = true := by
  obtain ⟨i, -, hc⟩ := List.mem_flatMap.mp h
  exact isHex_hexByte (k.data i) c hc

theorem str_publicKey (k : PublicKey) : k.str =
    PublicKey.hexByte (k.data 0) ++ (PublicKey.hexByte (k.data 1) ++
      (PublicKey.hexByte (k.data 2) ++ (PublicKey.hexByte (k.data 3) ++
        (PublicKey.hexByte (k.data 4) ++ (PublicKey.hexByte (k.data 5) ++
          (PublicKey.hexByte (k.data 6) ++ (PublicKey.hexByte (k.data 7) ++ []))))))) := rfl

theorem length_str_publicKey (k : PublicKey) : k.str.length = 16 := by
  simp only [str_publicKey, hexByte_eq, List.cons_append, List.nil_append, List.length_cons,
    List.length_nil]

/-- Two digits are one byte of a printed key. -/
theorem digits_publicKey (k : PublicKey) (i : Fin kPublicKeySize) :
    (k.str.drop (2 * i.val)).take 2 = PublicKey.hexByte (k.data i) := by
  simp only [str_publicKey, hexByte_eq, List.cons_append, List.nil_append]
  match i with
  | 0 | 1 | 2 | 3 | 4 | 5 | 6 | 7 => rfl

/-! ## What is read of a printed reference -/

/-- The printed text in parts. -/
theorem str_eq (ref : AssemblyReference) : ref.str =
    ref.name ++ ',' :: ((" Version=".toList ++ ref.version.str) ++ ',' ::
      ((" Culture=".toList ++ ref.locale) ++ ',' ::
        (" PublicKeyToken=".toList ++ ref.public_key.str))) := by
  rw [AssemblyReference.str]
  simp only [List.append_assoc]
  rfl

/-- **The name** is read back exactly if there is no space in it. -/
theorem getName_str_iff {ref : AssemblyReference} (h : ',' ∉ ref.name) :
    getName ref.str = ref.name ↔ ' ' ∉ ref.name := by
  have hkeep : ∀ c ∈ ref.name, decide (c ≠ ',') = true := by
    intro c hc
    exact decide_eq_true fun heq => h (heq ▸ hc)
  have htake : ref.str.takeWhile (· ≠ ',') = ref.name := by
    rw [str_eq, List.takeWhile_append_of_pos hkeep, List.takeWhile_cons_of_neg (by simp),
      List.append_nil]
  rw [getName, htake]
  by_cases hspace : ' ' ∈ ref.name
  · refine iff_of_false (fun heq => ?_) (not_not.mpr hspace)
    have hlength := congrArg List.length heq
    have hle : (ref.name.reverse.dropWhile (· ≠ ' ')).length ≤ ref.name.length := by
      have hsuffix := (List.dropWhile_suffix (l := ref.name.reverse) (· ≠ ' ')).length_le
      rwa [List.length_reverse] at hsuffix
    have hpos : 0 < ref.name.length := List.length_pos_of_mem hspace
    simp only [if_pos hspace, List.length_reverse, List.length_tail] at hlength
    omega
  · simp only [if_neg hspace]
    exact iff_of_true trivial hspace

section windows

/-- The field that follows a comma and a space. -/
theorem search_field {label tail : WSTRING} {r : Regex} {before : List Char} {m : Place}
    (hlabel : ¬label <+: ' ' :: (label ++ tail))
    (h : (r.run ⟨label.reverse ++ ' ' :: before, tail, []⟩).head? = some m) :
    (seq (literal label) r).search before (' ' :: (label ++ tail)) = some m := by
  rw [search_cons hlabel]
  exact search_of_head? (head?_run_seq (head?_run_literal rfl) h)

theorem avoids_versionRegex : versionRegex.Avoids ',' := by
  simp [versionRegex, groupPlus, plus, Avoids]

theorem avoids_cultureRegex : cultureRegex.Avoids ',' := by
  simp [cultureRegex, groupPlus, plus, Avoids]

theorem avoids_publicKeyRegex : publicKeyRegex.Avoids ',' := by
  simp [publicKeyRegex, times, Avoids, isHex]

/-- A printed version is read where the text goes on with a comma. -/
theorem head?_run_version (v : Version) (rest before : List Char) :
    ((seq (groupPlus 1 Char.isDigit) <| seq (literal ['.']) <| seq (groupPlus 2 Char.isDigit) <|
      seq (literal ['.']) <| seq (groupPlus 3 Char.isDigit) <| seq (literal ['.'])
        (groupPlus 4 Char.isDigit)).run ⟨before, v.str ++ ',' :: rest, []⟩).head? =
      some ⟨v.str.reverse ++ before, ',' :: rest, [(4, decimal v.revision), (3, decimal v.build),
        (2, decimal v.minor), (1, decimal v.major)]⟩ := by
  have hgroup (n : UInt16) (c : Char) (hc : c.isDigit = false) (number : Nat)
      (before rest : List Char) (groups : List (Nat × List Char)) :
      ((groupPlus number Char.isDigit).run ⟨before, decimal n ++ c :: rest, groups⟩).head? =
        some ⟨(decimal n).reverse ++ before, c :: rest, (number, decimal n) :: groups⟩ := by
    refine head?_run_capturePlus (decimal_ne_nil n) (fun d hd => isDigit_of_mem_decimal hd) ?_ _ _ _
    rintro d ⟨⟩
    exact hc
  have hdot (before rest : List Char) (groups : List (Nat × List Char)) :
      ((literal ['.']).run ⟨before, '.' :: rest, groups⟩).head? =
        some ⟨'.' :: before, rest, groups⟩ :=
    head?_run_literal (show (⟨before, '.' :: rest, groups⟩ : Place).after = ['.'] ++ rest from rfl)
  have hstr : v.str ++ ',' :: rest = decimal v.major ++ '.' :: (decimal v.minor ++ '.' ::
      (decimal v.build ++ '.' :: (decimal v.revision ++ ',' :: rest))) := by
    simp [Version.str]
  rw [hstr]
  refine head?_run_seq (hgroup _ _ (by decide) _ _ _ _) (head?_run_seq (hdot _ _ _) ?_)
  refine head?_run_seq (hgroup _ _ (by decide) _ _ _ _) (head?_run_seq (hdot _ _ _) ?_)
  refine head?_run_seq (hgroup _ _ (by decide) _ _ _ _) (head?_run_seq (hdot _ _ _) ?_)
  rw [hgroup _ _ (by decide)]
  simp [Version.str]

/-- The version that follows a comma. -/
theorem search_version (v : Version) (before rest : List Char) :
    ∃ m, versionRegex.search before ((" Version=".toList ++ v.str) ++ ',' :: rest) = some m ∧
      versionOf .windows m = v := by
  have hlabel : ¬"Version=".toList <+: ' ' :: ("Version=".toList ++ (v.str ++ ',' :: rest)) := by
    rintro ⟨t, ht⟩
    exact absurd (List.cons.inj ht).1 (by decide)
  rw [List.append_assoc]
  refine ⟨_, search_field hlabel (head?_run_version v rest _), ?_⟩
  simp [versionOf, Place.value, List.lookup_cons, readStream_decimal]

/-- **The version** of a printed reference, where none is found in the name. -/
theorem getVersion_windows_str (ref : AssemblyReference) :
    getVersion .windows ref.str =
      ((versionRegex.find ref.name).map (versionOf .windows)).getD ref.version := by
  obtain ⟨m, hm, hversion⟩ := search_version ref.version (',' :: (ref.name.reverse ++ []))
    ((" Culture=".toList ++ ref.locale) ++ ',' ::
      (" PublicKeyToken=".toList ++ ref.public_key.str))
  rw [getVersion, Build.match, str_eq, find, search_append _ avoids_versionRegex, hm, find]
  cases versionRegex.search [] ref.name with
  | none => exact hversion
  | some place => rfl

/-- A culture of letters and digits, which are read to the end of it. -/
def PlainCulture (locale : WSTRING) : Prop := locale ≠ [] ∧ ∀ c ∈ locale, c.isAlphanum = true

theorem reads_groupPlus {text : WSTRING} {number : Nat} {p : Char → Bool} {place start : Place}
    (h : place ∈ (seq (literal text) (groupPlus number p)).run start) :
    place.value number ≠ [] ∧ ∀ c ∈ place.value number, p c = true :=
  reads_plus.mp (reads_value_of_mem (plain_plus p) h)

/-- What is read as a culture is one of letters and digits. -/
theorem plainCulture_getLocale (build : Build) (str : WSTRING) :
    PlainCulture (getLocale build str) := by
  rw [getLocale]
  cases hmatch : build.match cultureRegex str with
  | none => exact ⟨by decide, forall_mem_of_all (by decide)⟩
  | some m =>
      cases build with
      | windows =>
          obtain ⟨before, after, hmem⟩ := mem_run_of_search hmatch
          exact reads_groupPlus hmem
      | unix => exact reads_groupPlus (List.mem_of_find?_eq_some hmatch)

/-- A version has no other characters than digits and dots. -/
theorem search_behindVersion {t : WSTRING} {c : Char} (hc : c ∈ t)
    (hlabel : c ∉ " Version=".toList) (hdigit : c.isDigit = false) (hdot : c ≠ '.') (v : Version)
    (r : Regex) (before : List Char) :
    (seq (literal t) r).search before (" Version=".toList ++ v.str) = none := by
  refine search_eq_none (fun hwithin => ?_) r before
  rcases List.mem_append.mp (hwithin.subset hc) with h | h
  · exact hlabel h
  · rcases mem_str_version h with h | h
    · rw [h] at hdigit
      cases hdigit
    · exact hdot h

/-- The culture that follows a comma. -/
theorem search_culture {locale : WSTRING} (h : PlainCulture locale) (before rest : List Char) :
    ∃ m, cultureRegex.search before ((" Culture=".toList ++ locale) ++ ',' :: rest) = some m ∧
      m.value 1 = locale := by
  have hlabel : ¬"Culture=".toList <+: ' ' :: ("Culture=".toList ++ (locale ++ ',' :: rest)) := by
    rintro ⟨t, ht⟩
    exact absurd (List.cons.inj ht).1 (by decide)
  have hcomma : ∀ c ∈ (',' :: rest).head?, c.isAlphanum = false := by
    rintro c ⟨⟩
    rfl
  rw [List.append_assoc]
  refine ⟨_, search_field hlabel (head?_run_capturePlus h.1 h.2 hcomma _ _ 1), ?_⟩
  simp [Place.value]

/-- **The culture** of a printed reference, where none is found in the name. -/
theorem getLocale_windows_str {ref : AssemblyReference} (h : PlainCulture ref.locale) :
    getLocale .windows ref.str =
      ((cultureRegex.find ref.name).map (·.value 1)).getD ref.locale := by
  obtain ⟨m, hm, hlocale⟩ := search_culture h
    (',' :: ((" Version=".toList ++ ref.version.str).reverse ++ ',' :: (ref.name.reverse ++ [])))
    (" PublicKeyToken=".toList ++ ref.public_key.str)
  have hversion := search_behindVersion (t := "Culture=".toList) (c := 'C') (by decide)
    (by decide) (by decide) (by decide) ref.version (groupPlus 1 Char.isAlphanum)
  rw [getLocale, Build.match, str_eq, find, search_append _ avoids_cultureRegex,
    search_append _ avoids_cultureRegex, cultureRegex, hversion, ← cultureRegex, hm, find]
  cases cultureRegex.search [] ref.name with
  | none => exact hlocale
  | some place => rfl

/-- The key that is printed last. -/
theorem search_publicKey (k : PublicKey) (before : List Char) :
    ∃ m, publicKeyRegex.search before (" PublicKeyToken=".toList ++ k.str) = some m ∧
      publicKeyOf m = k := by
  have hlabel : ¬"PublicKeyToken=".toList <+: ' ' :: ("PublicKeyToken=".toList ++ k.str) := by
    rintro ⟨t, ht⟩
    exact absurd (List.cons.inj ht).1 (by decide)
  have hlength := length_str_publicKey k
  have htimes (before : List Char) : ((times 16 (one isHex)).run ⟨before, k.str, []⟩).head? =
      some ⟨k.str.reverse ++ before, [], []⟩ := by
    have htake : k.str.take 16 = k.str := List.take_of_length_le (Nat.le_of_eq hlength)
    have hdrop : k.str.drop 16 = [] := List.drop_eq_nil_of_le (Nat.le_of_eq hlength)
    have hall : k.str.all isHex = true := List.all_eq_true.mpr fun c hc => isHex_of_mem_str hc
    rw [run_times_one, htake, hdrop, if_pos ⟨hlength, hall⟩]
    rfl
  refine ⟨_, search_field hlabel (head?_run_captureOf (htimes _) 1), ?_⟩
  have hbytes : publicKeyOf ⟨k.str.reverse ++ ("PublicKeyToken=".toList.reverse ++ ' ' :: before),
      [], [(1, k.str)]⟩ = k := by
    rw [publicKeyOf]
    refine congrArg PublicKey.mk (funext fun i => ?_)
    show UInt8.ofNat (readHex ((k.str.drop (2 * i.val)).take 2)) = k.data i
    rw [digits_publicKey, readHex_hexByte, UInt8.ofNat_toNat]
  exact hbytes

/-- There is no token in a culture. -/
theorem search_behindCulture {locale : WSTRING} (h : '=' ∉ locale) (r : Regex)
    (before : List Char) :
    (seq (literal "PublicKeyToken=".toList) r).search before (" Culture=".toList ++ locale) =
      none := by
  refine search_eq_none ?_ r before
  -- the only equals sign stands too far to the front
  rintro ⟨a, b, hab⟩
  have hget : (a ++ "PublicKeyToken=".toList ++ b)[a.length + 14]? = some '=' := by
    rw [List.append_assoc, List.getElem?_append_right (Nat.le_add_right _ _),
      Nat.add_sub_cancel_left]
    rfl
  have hlocale : (" Culture=".toList ++ locale)[a.length + 14]? = locale[a.length + 5]? := by
    rw [List.getElem?_append_right (by simp)]
    rfl
  rw [hab, hlocale] at hget
  exact h (List.mem_of_getElem? hget)

/-- **The key** of a printed reference, where none is found in the name. -/
theorem getPublicKey_windows_str {ref : AssemblyReference} (h : PlainCulture ref.locale) :
    getPublicKey .windows ref.str =
      ((publicKeyRegex.find ref.name).map publicKeyOf).getD ref.public_key := by
  have hequals : '=' ∉ ref.locale := fun hmem => absurd (h.2 _ hmem) (by decide)
  obtain ⟨m, hm, hkey⟩ := search_publicKey ref.public_key
    (',' :: ((" Culture=".toList ++ ref.locale).reverse ++
      ',' :: ((" Version=".toList ++ ref.version.str).reverse ++ ',' :: (ref.name.reverse ++ []))))
  have hversion := search_behindVersion (t := "PublicKeyToken=".toList) (c := 'P') (by decide)
    (by decide) (by decide) (by decide) ref.version (group 1 (times 16 (one isHex)))
  have hculture := search_behindCulture hequals (group 1 (times 16 (one isHex)))
  rw [getPublicKey, Build.match, str_eq, find, search_append _ avoids_publicKeyRegex,
    search_append _ avoids_publicKeyRegex, search_append _ avoids_publicKeyRegex, publicKeyRegex,
    hversion, hculture, ← publicKeyRegex, hm, find]
  cases publicKeyRegex.search [] ref.name with
  | none => exact hkey
  | some place => rfl

end windows

section unix

/-- Where there is no null character in the name, the comma behind it is in the converted text. -/
theorem match_unix_eq_none {re : Regex} (h : re.Avoids ',') {ref : AssemblyReference}
    (hnull : '\x00' ∉ ref.name) : Build.unix.match re ref.str = none := by
  have hkeep : ∀ c ∈ ref.name, decide (c ≠ '\x00') = true := by
    intro c hc
    exact decide_eq_true fun heq => hnull (heq ▸ hc)
  refine fullMatch_eq_none h ?_
  rw [str_eq, toString, List.takeWhile_append_of_pos hkeep, List.takeWhile_cons_of_pos (by decide)]
  exact List.mem_append_right _ List.mem_cons_self

/-- A null character in the name ends the converted text. -/
theorem match_unix_name {re : Regex} {ref : AssemblyReference} (hnull : '\x00' ∈ ref.name) :
    Build.unix.match re ref.str = Build.unix.match re ref.name := by
  obtain ⟨s, rest, hname, hs⟩ := List.eq_append_cons_of_mem hnull
  have hkeep : ∀ c ∈ s, decide (c ≠ '\x00') = true := by
    intro c hc
    exact decide_eq_true fun heq => hs (heq ▸ hc)
  have htake (more : List Char) : toString (s ++ '\x00' :: more) = s := by
    rw [toString, List.takeWhile_append_of_pos hkeep, List.takeWhile_cons_of_neg (by simp),
      List.append_nil]
  rw [Build.match, Build.match, str_eq, hname, List.append_assoc, List.cons_append, htake, htake]

end unix

/-! ## The references that are read back -/

/-- The references that the searches read back. -/
structure SurvivesSearch (ref : AssemblyReference) : Prop where
  /-- There is no space in the name. -/
  name : ' ' ∉ ref.name
  /-- The culture is made of letters and digits. -/
  locale : PlainCulture ref.locale
  /-- What looks like a version in the name is the version, if there is such a thing. -/
  versionInName : ∀ m, versionRegex.find ref.name = some m → versionOf .windows m = ref.version
  /-- What looks like a culture in the name is the culture. -/
  localeInName : ∀ m, cultureRegex.find ref.name = some m → m.value 1 = ref.locale
  /-- What looks like a token in the name is the key. -/
  publicKeyInName : ∀ m, publicKeyRegex.find ref.name = some m → publicKeyOf m = ref.public_key

/-- The references that the matches of whole texts read back. -/
structure SurvivesMatch (ref : AssemblyReference) : Prop where
  /-- There is no space in the name. -/
  name : ' ' ∉ ref.name
  /-- Nothing is said of the assembly but its name, unless that has a null character. -/
  bare : '\x00' ∉ ref.name →
    ref.version = ⟨0, 0, 0, 0⟩ ∧ ref.locale = "neutral".toList ∧ ref.public_key = .none
  /-- A name with a null character says the rest itself. -/
  inName : '\x00' ∈ ref.name → getVersion .unix ref.name = ref.version ∧
    getLocale .unix ref.name = ref.locale ∧ getPublicKey .unix ref.name = ref.public_key

/-- The references that a build reads back. -/
def Survives : Build → AssemblyReference → Prop
  | .windows => SurvivesSearch
  | .unix => SurvivesMatch

theorem parse_eq_iff {build : Build} {str : WSTRING} {ref : AssemblyReference} :
    AssemblyReference.parse build str = ref ↔
      getName str = ref.name ∧ getVersion build str = ref.version ∧
        getLocale build str = ref.locale ∧ getPublicKey build str = ref.public_key := by
  constructor
  · rintro rfl
    exact ⟨rfl, rfl, rfl, rfl⟩
  · obtain ⟨name, version, locale, public_key⟩ := ref
    rintro ⟨rfl, rfl, rfl, rfl⟩
    rfl

/-- Something found in the name counts. -/
theorem map_getD_eq_iff {α β : Type} {found : Option α} {f : α → β} {b : β} :
    (found.map f).getD b = b ↔ ∀ a, found = some a → f a = b := by
  cases found with
  | none => exact iff_of_true rfl fun a h => by cases h
  | some a =>
      constructor
      · rintro h _ ⟨⟩
        exact h
      · exact fun h => h a rfl

theorem parse_str_windows_iff {ref : AssemblyReference} (h : ',' ∉ ref.name) :
    AssemblyReference.parse .windows ref.str = ref ↔ SurvivesSearch ref := by
  rw [parse_eq_iff, getName_str_iff h]
  constructor
  · rintro ⟨hname, hversion, hlocale, hkey⟩
    have hplain : PlainCulture ref.locale := hlocale ▸ plainCulture_getLocale .windows ref.str
    rw [getVersion_windows_str, map_getD_eq_iff] at hversion
    rw [getLocale_windows_str hplain, map_getD_eq_iff] at hlocale
    rw [getPublicKey_windows_str hplain, map_getD_eq_iff] at hkey
    exact ⟨hname, hplain, hversion, hlocale, hkey⟩
  · intro hs
    rw [getVersion_windows_str, getLocale_windows_str hs.locale, getPublicKey_windows_str hs.locale,
      map_getD_eq_iff, map_getD_eq_iff, map_getD_eq_iff]
    exact ⟨hs.name, hs.versionInName, hs.localeInName, hs.publicKeyInName⟩

theorem parse_str_unix_iff {ref : AssemblyReference} (h : ',' ∉ ref.name) :
    AssemblyReference.parse .unix ref.str = ref ↔ SurvivesMatch ref := by
  rw [parse_eq_iff, getName_str_iff h]
  by_cases hnull : '\x00' ∈ ref.name
  · have hfields : getVersion .unix ref.str = getVersion .unix ref.name ∧
        getLocale .unix ref.str = getLocale .unix ref.name ∧
          getPublicKey .unix ref.str = getPublicKey .unix ref.name := by
      simp only [getVersion, getLocale, getPublicKey, match_unix_name hnull, and_self]
    rw [hfields.1, hfields.2.1, hfields.2.2]
    constructor
    · rintro ⟨hname, hrest⟩
      exact ⟨hname, fun hnot => absurd hnull hnot, fun _ => hrest⟩
    · exact fun hs => ⟨hs.name, hs.inName hnull⟩
  · have hfields : getVersion .unix ref.str = ⟨0, 0, 0, 0⟩ ∧
        getLocale .unix ref.str = "neutral".toList ∧ getPublicKey .unix ref.str = .none := by
      rw [getVersion, getLocale, getPublicKey, match_unix_eq_none avoids_versionRegex hnull,
        match_unix_eq_none avoids_cultureRegex hnull,
        match_unix_eq_none avoids_publicKeyRegex hnull]
      exact ⟨rfl, rfl, rfl⟩
    rw [hfields.1, hfields.2.1, hfields.2.2, eq_comm (b := ref.version), eq_comm (b := ref.locale),
      eq_comm (b := ref.public_key)]
    constructor
    · rintro ⟨hname, hrest⟩
      exact ⟨hname, fun _ => hrest, fun hin => absurd hin hnull⟩
    · exact fun hs => ⟨hs.name, hs.bare hnull⟩

/-- **A reference is read back** from its text exactly if nothing in its name is taken for
something else, and the build reads its other fields. -/
theorem parse_str_iff (build : Build) {ref : AssemblyReference} (h : ',' ∉ ref.name) :
    AssemblyReference.parse build ref.str = ref ↔ Survives build ref := by
  cases build with
  | windows => exact parse_str_windows_iff h
  | unix => exact parse_str_unix_iff h

/-- A reference to an assembly with a version, a culture and a key. -/
def someAssembly : AssemblyReference where
  name := "Some.Assembly".toList
  version := ⟨1, 2, 3, 4⟩
  locale := "notneutral".toList
  public_key := ⟨fun i => UInt8.ofNat (0x11 * i.val)⟩

theorem parse_str_someAssembly : ',' ∉ someAssembly.name ∧
    (AssemblyReference.parse .windows someAssembly.str = someAssembly ↔
      Survives .windows someAssembly) :=
  ⟨by decide, parse_str_iff .windows (by decide)⟩

/-- The version is lost in the one build, and a culture with a hyphen in the other one. -/
theorem not_parse_str :
    AssemblyReference.parse .unix someAssembly.str ≠ someAssembly ∧
      AssemblyReference.parse .windows { someAssembly with locale := "en-US".toList }.str ≠
        { someAssembly with locale := "en-US".toList } := by
  constructor
  · rw [Ne, parse_str_unix_iff (by decide)]
    intro hs
    exact absurd (hs.bare (by decide)).1 (by decide)
  · rw [Ne, parse_str_windows_iff (by decide)]
    intro hs
    exact absurd (hs.locale.2 '-' (by decide)) (by decide)

end DdTrace.Profiler.Integration
