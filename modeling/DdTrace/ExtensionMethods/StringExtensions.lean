import DdTrace.Lib.Utf16

/-!
# Names of tags

* `tryConvertToNormalizedTagName`, `tryConvertToNormalizedHeaderTagName`: one conversion, with and
  without the period among the characters that are kept.
* `tryConvertToNormalizedHeaderTagName_eq`: what the one gives from what the other gives.
* `normalized_iff`: when what is given is a name as it should be, and is given again.

Source: `ExtensionMethods/StringExtensions.cs`, `TryConvertToNormalizedTagName`,
`TryConvertToNormalizedHeaderTagName`.
-/

namespace DdTrace.ExtensionMethods.StringExtensions

open DdTrace.Lib.Utf16

/-! ## The conversions -/

/-- The characters of a tag name. -/
def isTagNameUnit (c : CodeUnit) : Bool :=
  between 'a' 'z' c || between '0' '9' c || c = unit '_' || c = unit ':' || c = unit '/' ||
    c = unit '-' || c = unit '.'

/-- The characters of the tag name of a header: those of a tag name, but the period. -/
def isHeaderTagNameUnit (c : CodeUnit) : Bool :=
  between 'a' 'z' c || between '0' '9' c || c = unit '_' || c = unit ':' || c = unit '/' ||
    c = unit '-'

/-- A character that is not kept becomes an underscore. -/
def normalize (keeps : CodeUnit → Bool) (c : CodeUnit) : CodeUnit := if keeps c then c else unit '_'

/-- What the two conversions have in common. -/
def tryConvert (keeps : CodeUnit → Bool) (casing : Casing) (value : Option (List CodeUnit)) :
    Option (List CodeUnit) :=
  if isNullOrWhiteSpace value then none
  else
    let trimmedValue := trim (value.getD [])
    match trimmedValue.head? with
    | none => none
    | some first =>
        if !casing.isLetter first || 200 < trimmedValue.length then none
        else some ((casing.toLowerInvariant trimmedValue).map (normalize keeps))

/-- Source: `StringExtensions.cs`, `TryConvertToNormalizedTagName` -/
def tryConvertToNormalizedTagName (casing : Casing) (value : Option (List CodeUnit)) :
    Option (List CodeUnit) := tryConvert isTagNameUnit casing value

/-- Source: `StringExtensions.cs`, `TryConvertToNormalizedHeaderTagName` -/
def tryConvertToNormalizedHeaderTagName (casing : Casing) (value : Option (List CodeUnit)) :
    Option (List CodeUnit) := tryConvert isHeaderTagNameUnit casing value

/-! ## Characters -/

/-- The underscore in place of the period. -/
def replacePeriod (c : CodeUnit) : CodeUnit := if c = unit '.' then unit '_' else c

theorem isTagNameUnit_eq (c : CodeUnit) :
    isTagNameUnit c = (isHeaderTagNameUnit c || decide (c = unit '.')) := rfl

theorem isTagNameUnit_normalize (c : CodeUnit) :
    isTagNameUnit (normalize isTagNameUnit c) = true := by
  rw [normalize]
  split
  · assumption
  · decide

/-- The characters of a tag name are of ASCII, and no white space or capital letters. -/
theorem isTagNameUnit_bounds {c : CodeUnit} (h : isTagNameUnit c = true) :
    0x20 < c.toNat ∧ c.toNat < 0x7F ∧ between 'A' 'Z' c = false := by
  have hsmall (p : Char) (hp : p.toNat < 65536) (hc : decide (c = unit p) = true) :
      c.toNat = p.toNat := (eq_unit_iff hp).mp (of_decide_eq_true hc)
  have hcapital (hnot : ¬(65 ≤ c.toNat ∧ c.toNat ≤ 90)) : between 'A' 'Z' c = false := by
    rw [← Bool.not_eq_true, between_iff]
    exact hnot
  simp only [isTagNameUnit, Bool.or_eq_true, between_iff] at h
  rcases h with (((((h | h) | h) | h) | h) | h) | h
  · have h : 97 ≤ c.toNat ∧ c.toNat ≤ 122 := h
    exact ⟨by omega, by omega, hcapital (by omega)⟩
  · have h : 48 ≤ c.toNat ∧ c.toNat ≤ 57 := h
    exact ⟨by omega, by omega, hcapital (by omega)⟩
  · have h : c.toNat = 95 := hsmall '_' (by decide) h
    exact ⟨by omega, by omega, hcapital (by omega)⟩
  · have h : c.toNat = 58 := hsmall ':' (by decide) h
    exact ⟨by omega, by omega, hcapital (by omega)⟩
  · have h : c.toNat = 47 := hsmall '/' (by decide) h
    exact ⟨by omega, by omega, hcapital (by omega)⟩
  · have h : c.toNat = 45 := hsmall '-' (by decide) h
    exact ⟨by omega, by omega, hcapital (by omega)⟩
  · have h : c.toNat = 46 := hsmall '.' (by decide) h
    exact ⟨by omega, by omega, hcapital (by omega)⟩

/-- A letter of ASCII comes from no other character. -/
theorem between_normalize (c : CodeUnit) :
    between 'a' 'z' (normalize isTagNameUnit c) = between 'a' 'z' c := by
  rw [normalize]
  split
  case isTrue => rfl
  case isFalse h =>
    have hletter : between 'a' 'z' c = false := by
      rw [← Bool.not_eq_true]
      intro hletter
      rw [isTagNameUnit, hletter] at h
      exact h rfl
    rw [hletter]
    decide

theorem normalize_header (c : CodeUnit) :
    normalize isHeaderTagNameUnit c = replacePeriod (normalize isTagNameUnit c) := by
  by_cases hperiod : c = unit '.'
  · subst hperiod
    decide
  · have heq : isTagNameUnit c = isHeaderTagNameUnit c := by
      rw [isTagNameUnit_eq, decide_eq_false hperiod, Bool.or_false]
    rw [normalize, normalize, heq]
    split
    · rw [replacePeriod, if_neg hperiod]
    · decide

/-! ## Names -/

/-- A name as it should be. -/
structure Normalized (tagName : List CodeUnit) : Prop where
  length_le : tagName.length ≤ 200
  first : ∃ c ∈ tagName.head?, between 'a' 'z' c = true
  chars : ∀ c ∈ tagName, isTagNameUnit c = true

variable (casing : Casing)

/-- A name as it should be is given again. -/
theorem Normalized.convert_eq {tagName : List CodeUnit} (h : Normalized tagName) :
    tryConvertToNormalizedTagName casing (some tagName) = some tagName := by
  obtain ⟨c, hc, hletter⟩ := h.first
  have hmem : c ∈ tagName := List.mem_of_head? hc
  have hvisible : ∀ d ∈ tagName, isWhiteSpace d = false := by
    intro d hd
    obtain ⟨hlo, hhi, -⟩ := isTagNameUnit_bounds (h.chars d hd)
    exact isWhiteSpace_of_visible hlo hhi
  have hblank : isNullOrWhiteSpace (some tagName) = false :=
    List.all_eq_false.mpr ⟨c, hmem, by rw [hvisible c hmem]; exact Bool.false_ne_true⟩
  have hlower : casing.toLowerInvariant tagName = tagName := by
    apply casing.lower_eq_self
    intro d hd
    obtain ⟨-, hhi, hcapital⟩ := isTagNameUnit_bounds (h.chars d hd)
    exact ⟨by omega, hcapital⟩
  have hfirst : casing.isLetter c = true := by
    obtain ⟨-, hhi, -⟩ := isTagNameUnit_bounds (h.chars c hmem)
    rw [casing.letter_ascii c (by omega), hletter, Bool.true_or]
  have hsame : tagName.map (normalize isTagNameUnit) = tagName := by
    conv_rhs => rw [← List.map_id tagName]
    exact List.map_congr_left fun d hd => if_pos (h.chars d hd)
  have hlong : ¬200 < tagName.length := Nat.not_lt.mpr h.length_le
  rw [tryConvertToNormalizedTagName, tryConvert, hblank, if_neg Bool.false_ne_true]
  simp only [Option.getD_some, trim_eq_self hvisible]
  rw [hc]
  simp only [hfirst, hlong, hlower, hsame, Bool.not_true, decide_false, Bool.or_false,
    Bool.false_eq_true, if_false]

/-- What is given for a value. -/
theorem exists_of_convert_eq_some {keeps : CodeUnit → Bool} {value : Option (List CodeUnit)}
    {tagName : List CodeUnit} (h : tryConvert keeps casing value = some tagName) :
    (trim (value.getD [])).length ≤ 200 ∧
      tagName = (casing.toLowerInvariant (trim (value.getD []))).map (normalize keeps) := by
  rw [tryConvert] at h
  split at h
  case isTrue => cases h
  case isFalse =>
    simp only at h
    cases hfirst : (trim (value.getD [])).head? with
    | none =>
        rw [hfirst] at h
        cases h
    | some first =>
        rw [hfirst] at h
        simp only at h
        split at h
        case isTrue => cases h
        case isFalse hlimit =>
          rw [Bool.not_eq_true, Bool.or_eq_false_iff, decide_eq_false_iff_not] at hlimit
          exact ⟨Nat.not_lt.mp hlimit.2, (Option.some.inj h).symm⟩

/-- **The tag name of a header** is the tag name with underscores in place of the periods. -/
theorem tryConvertToNormalizedHeaderTagName_eq (value : Option (List CodeUnit)) :
    tryConvertToNormalizedHeaderTagName casing value =
      (tryConvertToNormalizedTagName casing value).map (List.map replacePeriod) := by
  have hmap (s : List CodeUnit) : s.map (normalize isHeaderTagNameUnit) =
      (s.map (normalize isTagNameUnit)).map replacePeriod := by
    rw [List.map_map]
    exact List.map_congr_left fun c _ => normalize_header c
  rw [tryConvertToNormalizedHeaderTagName, tryConvertToNormalizedTagName, tryConvert, tryConvert]
  by_cases hblank : isNullOrWhiteSpace value = true
  · rw [if_pos hblank, if_pos hblank, Option.map_none]
  · rw [if_neg hblank, if_neg hblank]
    simp only
    cases (trim (value.getD [])).head? with
    | none => rfl
    | some first =>
        by_cases hlimit : (!casing.isLetter first ||
            decide (200 < (trim (value.getD [])).length)) = true
        · simp only [hlimit, if_true, Option.map_none]
        · simp only [hlimit, Bool.false_eq_true, if_false, Option.map_some, hmap]

/-- **What is given is a name as it should be**, and is given again, exactly if the first letter is
one of ASCII in lower case; and the conversion of a header agrees with it. -/
theorem normalized_iff {value : Option (List CodeUnit)} {tagName : List CodeUnit}
    (h : tryConvertToNormalizedTagName casing value = some tagName) :
    (Normalized tagName ∧ tryConvertToNormalizedTagName casing (some tagName) = some tagName ↔
      ∃ c ∈ (casing.toLowerInvariant (trim (value.getD []))).head?, between 'a' 'z' c = true) ∧
    tryConvertToNormalizedHeaderTagName casing value = some (tagName.map replacePeriod) := by
  obtain ⟨hlen, htagName⟩ := exists_of_convert_eq_some casing h
  have hfirst : (∃ c ∈ tagName.head?, between 'a' 'z' c = true) ↔
      ∃ c ∈ (casing.toLowerInvariant (trim (value.getD []))).head?, between 'a' 'z' c = true := by
    rw [htagName, List.head?_map]
    cases (casing.toLowerInvariant (trim (value.getD []))).head? with
    | none => exact Iff.rfl
    | some c => simp [between_normalize]
  constructor
  · rw [← hfirst]
    constructor
    · rintro ⟨hnormalized, -⟩
      exact hnormalized.first
    · intro hletter
      have hnormalized : Normalized tagName := by
        refine ⟨?_, hletter, ?_⟩
        · rw [htagName, List.length_map, casing.length_lower]
          exact hlen
        · rw [htagName]
          intro c hc
          obtain ⟨d, -, rfl⟩ := List.mem_map.mp hc
          exact isTagNameUnit_normalize d
      exact ⟨hnormalized, hnormalized.convert_eq casing⟩
  · rw [tryConvertToNormalizedHeaderTagName_eq, h, Option.map_some]

/-- A header with a capital letter and a period. -/
theorem normalized_contentType :
    (Normalized (ascii "content.type") ∧
      tryConvertToNormalizedTagName .latin (some (ascii "content.type")) =
        some (ascii "content.type")) ∧
    tryConvertToNormalizedHeaderTagName .latin (some (ascii " Content.Type ")) =
      some (ascii "content_type") := by
  have hconvert : tryConvertToNormalizedTagName .latin (some (ascii " Content.Type ")) =
      some (ascii "content.type") := by decide
  have hfirst : ∃ c ∈ (Casing.latin.toLowerInvariant
      (trim ((some (ascii " Content.Type ")).getD []))).head?, between 'a' 'z' c = true :=
    ⟨unit 'c', by decide, by decide⟩
  obtain ⟨hnormalized, hheader⟩ := normalized_iff .latin hconvert
  exact ⟨hnormalized.mpr hfirst, hheader⟩

/-- A letter that is not of ASCII is taken at the start, and becomes an underscore. -/
theorem not_normalized_eAcute :
    tryConvertToNormalizedTagName .latin (some [0xE9]) = some [unit '_'] ∧
      ¬Normalized [unit '_'] ∧ tryConvertToNormalizedTagName .latin (some [unit '_']) = none := by
  refine ⟨by decide, fun h => ?_, by decide⟩
  obtain ⟨c, hc, hletter⟩ := h.first
  obtain rfl := Option.some.inj hc
  revert hletter
  decide

end DdTrace.ExtensionMethods.StringExtensions
