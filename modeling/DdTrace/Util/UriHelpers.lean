import DdTrace.Lib.Parts
import DdTrace.Lib.Utf16

/-!
# Cleaning of paths

* `isIdentifierSegment`, `getCleanUriPath`: the scan over the path.
* `Identifier`: what a segment is that looks like an identifier.
* `getCleanUriPath_eq`: the scan replaces exactly those segments.
* `getCleanUriPath_spec`: it makes no path longer, and changes nothing the second time.

Source: `Util/UriHelpers.cs`, `GetCleanUriPath`, `IsIdentifierSegment`.
-/

namespace DdTrace.Util.UriHelpers

open DdTrace.Lib DdTrace.Lib.Utf16

/-! ## The scan -/

/-- The loop over the characters of a segment.
Source: `UriHelpers.cs`, `IsIdentifierSegment` -/
def isIdentifierFrom (absolutePath : List CodeUnit) (segmentLength lastIndex index : Nat)
    (containsNumber : Bool) : Bool :=
  if h : index < lastIndex ∧ index < absolutePath.length then
    let c := absolutePath.get ⟨index, h.2⟩
    if between '0' '9' c then
      isIdentifierFrom absolutePath segmentLength lastIndex (index + 1) true
    else if between 'a' 'f' c || between 'A' 'F' c then
      if segmentLength < 16 then false
      else isIdentifierFrom absolutePath segmentLength lastIndex (index + 1) containsNumber
    else if c = unit '-' then
      isIdentifierFrom absolutePath segmentLength lastIndex (index + 1) containsNumber
    else false
  else containsNumber
termination_by lastIndex - index

/-- Source: `UriHelpers.cs`, `IsIdentifierSegment` -/
def isIdentifierSegment (absolutePath : List CodeUnit) (startIndex segmentLength : Nat) : Bool :=
  if segmentLength = 0 then false
  else isIdentifierFrom absolutePath segmentLength (startIndex + segmentLength) startIndex false

/-- `IndexOf`, from an index on; `none` is -1. -/
def indexOf (s : List CodeUnit) (value : CodeUnit) (startIndex : Nat) : Option Nat :=
  ((s.drop startIndex).idxOf? value).map (startIndex + ·)

theorem indexOf_bounds {s : List CodeUnit} {value : CodeUnit} {startIndex index : Nat}
    (h : indexOf s value startIndex = some index) : startIndex ≤ index ∧ index < s.length := by
  obtain ⟨offset, hoffset, rfl⟩ := Option.map_eq_some_iff.mp h
  have hlt := (List.findIdx?_eq_some_iff_findIdx_eq.mp hoffset).1
  rw [List.length_drop] at hlt
  omega

/-- What is appended for a segment. -/
def appendSegment (absolutePath sb : List CodeUnit) (previousIndex segmentLength : Nat) :
    List CodeUnit :=
  if isIdentifierSegment absolutePath previousIndex segmentLength then sb ++ [unit '?']
  else sb ++ (absolutePath.drop previousIndex).take segmentLength

/-- The loop over the segments. -/
def cleanFrom (absolutePath sb : List CodeUnit) (previousIndex : Nat) : List CodeUnit :=
  match h : indexOf absolutePath (unit '/') previousIndex with
  | none =>
      -- the last segment
      appendSegment absolutePath sb previousIndex (absolutePath.length - previousIndex)
  | some index =>
      cleanFrom absolutePath
        (appendSegment absolutePath sb previousIndex (index - previousIndex) ++ [unit '/'])
        (index + 1)
termination_by absolutePath.length - previousIndex
decreasing_by
  have hbounds := indexOf_bounds h
  omega

/-- The path, with `?` for what looks like an identifier; a path that is null stays null.
Source: `UriHelpers.cs`, `GetCleanUriPath` -/
def getCleanUriPath : Option (List CodeUnit) → Option (List CodeUnit)
  | none => none
  | some absolutePath =>
      if isNullOrWhiteSpace absolutePath || absolutePath = [unit '/'] then some absolutePath
      else some (cleanFrom absolutePath [] 0)

/-! ## Segments -/

/-- A digit, a letter of the hexadecimal digits, or a dash. -/
def isHexOrDash (c : CodeUnit) : Bool :=
  between '0' '9' c || between 'a' 'f' c || between 'A' 'F' c || c = unit '-'

/-- A letter of the hexadecimal digits. -/
def isHexLetter (c : CodeUnit) : Bool := between 'a' 'f' c || between 'A' 'F' c

/-- A segment that looks like an identifier: digits, hexadecimal letters and dashes, with a digit
among them, and with no letters if it is short. -/
structure Identifier (segment : List CodeUnit) : Prop where
  chars : ∀ c ∈ segment, isHexOrDash c = true
  number : ∃ c ∈ segment, between '0' '9' c = true
  long : (∀ c ∈ segment, isHexLetter c = false) ∨ 16 ≤ segment.length

/-- The same, as a check. -/
def isIdentifier (segment : List CodeUnit) : Bool :=
  segment.all isHexOrDash && segment.any (between '0' '9') &&
    (segment.all (fun c => !isHexLetter c) || decide (16 ≤ segment.length))

theorem isIdentifier_iff {segment : List CodeUnit} :
    isIdentifier segment = true ↔ Identifier segment := by
  simp only [isIdentifier, Bool.and_eq_true, Bool.or_eq_true, List.all_eq_true, List.any_eq_true,
    Bool.not_eq_true', decide_eq_true_eq]
  exact ⟨fun h => ⟨h.1.1, h.1.2, h.2⟩, fun h => ⟨⟨h.chars, h.number⟩, h.long⟩⟩

/-- The segment after the cleaning. -/
def cleanSegment (segment : List CodeUnit) : List CodeUnit :=
  if isIdentifier segment then [unit '?'] else segment

/-! ## The scan of a segment -/

/-- A digit is no letter. -/
theorem isHexLetter_of_digit {c : CodeUnit} (h : between '0' '9' c = true) :
    isHexLetter c = false := by
  have hc : 48 ≤ c.toNat ∧ c.toNat ≤ 57 := between_iff.mp h
  rw [isHexLetter, Bool.or_eq_false_iff, ← Bool.not_eq_true, ← Bool.not_eq_true, between_iff,
    between_iff]
  constructor
  · rintro ⟨hlo, -⟩
    have hlo : 97 ≤ c.toNat := hlo
    omega
  · rintro ⟨hlo, -⟩
    have hlo : 65 ≤ c.toNat := hlo
    omega

/-- What is left of a segment decides. -/
theorem isIdentifierFrom_eq {absolutePath : List CodeUnit} {segmentLength lastIndex : Nat}
    (hlast : lastIndex ≤ absolutePath.length) (index : Nat) (containsNumber : Bool) :
    isIdentifierFrom absolutePath segmentLength lastIndex index containsNumber =
      let rest := (absolutePath.drop index).take (lastIndex - index)
      (rest.all isHexOrDash && (containsNumber || rest.any (between '0' '9')) &&
        (rest.all (fun c => !isHexLetter c) || decide (16 ≤ segmentLength))) := by
  induction hn : lastIndex - index generalizing index containsNumber with
  | zero =>
      have hdone : ¬(index < lastIndex ∧ index < absolutePath.length) := by omega
      rw [isIdentifierFrom, dif_neg hdone]
      simp
  | succ n ih =>
      have hindex : index < lastIndex ∧ index < absolutePath.length := by omega
      have hnext : lastIndex - (index + 1) = n := by omega
      have hdrop : absolutePath.drop index =
          absolutePath.get ⟨index, hindex.2⟩ :: absolutePath.drop (index + 1) :=
        List.drop_eq_getElem_cons hindex.2
      rw [isIdentifierFrom, dif_pos hindex, hdrop]
      generalize absolutePath.get ⟨index, hindex.2⟩ = c
      simp only [List.take_succ_cons, List.all_cons, List.any_cons]
      by_cases hdigit : between '0' '9' c = true
      · have hchar : isHexOrDash c = true := by simp [isHexOrDash, hdigit]
        rw [if_pos hdigit, ih _ _ hnext, hchar, hdigit, isHexLetter_of_digit hdigit]
        simp
      · by_cases hletter : isHexLetter c = true
        · have hcase : (between 'a' 'f' c || between 'A' 'F' c) = true := hletter
          have hchar : isHexOrDash c = true := by
            rw [isHexOrDash, Bool.or_assoc (between '0' '9' c), hcase, Bool.or_true, Bool.true_or]
          rw [if_neg hdigit, if_pos hcase, hchar, hletter, Bool.eq_false_iff.mpr hdigit]
          by_cases hshort : segmentLength < 16
          · have hlong : ¬16 ≤ segmentLength := Nat.not_le.mpr hshort
            rw [if_pos hshort, decide_eq_false hlong]
            simp
          · have hlong : 16 ≤ segmentLength := Nat.not_lt.mp hshort
            rw [if_neg hshort, ih _ _ hnext, decide_eq_true hlong]
            simp
        · have hcase : ¬(between 'a' 'f' c || between 'A' 'F' c) = true := hletter
          rw [if_neg hdigit, if_neg hcase]
          by_cases hdash : c = unit '-'
          · have hchar : isHexOrDash c = true := by simp [isHexOrDash, hdash]
            rw [if_pos hdash, ih _ _ hnext, hchar, Bool.eq_false_iff.mpr hdigit,
              Bool.eq_false_iff.mpr hletter]
            simp
          · have hchar : isHexOrDash c = false := by
              rw [isHexLetter] at hletter
              simp only [isHexOrDash, Bool.or_assoc, Bool.eq_false_iff.mpr hdigit,
                Bool.eq_false_iff.mpr hcase, decide_eq_false hdash]
              rfl
            rw [if_neg hdash, hchar]
            rfl

/-- The scan of a segment of the path. -/
theorem isIdentifierSegment_eq {absolutePath : List CodeUnit} {startIndex segmentLength : Nat}
    (h : startIndex + segmentLength ≤ absolutePath.length) :
    isIdentifierSegment absolutePath startIndex segmentLength =
      isIdentifier ((absolutePath.drop startIndex).take segmentLength) := by
  rw [isIdentifierSegment]
  split
  case isTrue hzero =>
    rw [hzero]
    rfl
  case isFalse =>
    have hlen : ((absolutePath.drop startIndex).take segmentLength).length = segmentLength := by
      rw [List.length_take, List.length_drop]
      omega
    rw [isIdentifierFrom_eq h, Nat.add_sub_cancel_left, isIdentifier, hlen]
    simp only [Bool.false_or]

/-- What is appended is the segment after its cleaning. -/
theorem appendSegment_eq {absolutePath : List CodeUnit} {previousIndex segmentLength : Nat}
    (sb : List CodeUnit) (h : previousIndex + segmentLength ≤ absolutePath.length) :
    appendSegment absolutePath sb previousIndex segmentLength =
      sb ++ cleanSegment ((absolutePath.drop previousIndex).take segmentLength) := by
  rw [appendSegment, isIdentifierSegment_eq h, cleanSegment]
  split
  · rfl
  · rfl

/-! ## The scan of the path -/

theorem indexOf_eq_none_iff {s : List CodeUnit} {value : CodeUnit} {startIndex : Nat} :
    indexOf s value startIndex = none ↔ value ∉ s.drop startIndex := by
  rw [indexOf, Option.map_eq_none_iff, List.idxOf?_eq_none_iff]

/-- What stands before the first separator, and behind it. -/
theorem drop_eq_of_indexOf {s : List CodeUnit} {value : CodeUnit} {startIndex index : Nat}
    (h : indexOf s value startIndex = some index) :
    value ∉ (s.drop startIndex).take (index - startIndex) ∧
      s.drop startIndex =
        (s.drop startIndex).take (index - startIndex) ++ value :: s.drop (index + 1) := by
  obtain ⟨offset, hoffset, rfl⟩ := Option.map_eq_some_iff.mp h
  obtain ⟨hlt, hvalue, hbefore⟩ := List.idxOf?_eq_some_iff.mp hoffset
  rw [Nat.add_sub_cancel_left]
  constructor
  · intro hmem
    obtain ⟨j, hj, hget⟩ := List.mem_take_iff_getElem.mp hmem
    have hj : j < offset ∧ j < (s.drop startIndex).length := Nat.lt_min.mp hj
    exact hbefore j hj.1 hget
  · have hrest : s.drop (startIndex + offset + 1) = (s.drop startIndex).drop (offset + 1) := by
      rw [List.drop_drop, Nat.add_assoc]
    rw [hrest, ← hvalue, ← List.drop_eq_getElem_cons hlt, List.take_append_drop]

/-- The loop cleans the segments that are left. -/
theorem cleanFrom_eq (absolutePath sb : List CodeUnit) {previousIndex : Nat}
    (h : previousIndex ≤ absolutePath.length) :
    cleanFrom absolutePath sb previousIndex =
      sb ++ mapParts (unit '/') cleanSegment (absolutePath.drop previousIndex) := by
  induction hn : absolutePath.length - previousIndex using Nat.strongRecOn
    generalizing sb previousIndex with
  | _ n ih =>
      rw [cleanFrom]
      split
      case h_1 hnone =>
        have hlen : absolutePath.length - previousIndex = (absolutePath.drop previousIndex).length :=
          (List.length_drop).symm
        rw [appendSegment_eq sb (by omega), hlen, List.take_length,
          mapParts_of_notMem (indexOf_eq_none_iff.mp hnone)]
      case h_2 index hindex =>
        obtain ⟨hlo, hhi⟩ := indexOf_bounds hindex
        obtain ⟨hnot, hdrop⟩ := drop_eq_of_indexOf hindex
        rw [ih (absolutePath.length - (index + 1)) (by omega) _ (by omega) rfl,
          appendSegment_eq sb (by omega)]
        conv_rhs => rw [hdrop, mapParts_append_cons hnot]
        simp only [List.append_assoc, List.singleton_append]

/-! ## The path -/

/-- A segment of white space is none of an identifier. -/
theorem isIdentifier_of_blank {segment : List CodeUnit} (h : ∀ c ∈ segment, isWhiteSpace c = true) :
    isIdentifier segment = false := by
  rw [← Bool.not_eq_true, isIdentifier_iff]
  intro hidentifier
  obtain ⟨c, hc, hdigit⟩ := hidentifier.number
  have hbounds : 48 ≤ c.toNat ∧ c.toNat ≤ 57 := between_iff.mp hdigit
  have hvisible := isWhiteSpace_of_visible (c := c) (by omega) (by omega)
  rw [h c hc] at hvisible
  cases hvisible

/-- In a path of white space nothing is replaced. -/
theorem mapParts_of_blank {path : List CodeUnit} (h : ∀ c ∈ path, isWhiteSpace c = true) :
    mapParts (unit '/') cleanSegment path = path := by
  have hnot : unit '/' ∉ path := by
    intro hmem
    have hwhite := h _ hmem
    revert hwhite
    decide
  rw [mapParts_of_notMem hnot, cleanSegment, isIdentifier_of_blank h]
  rfl

/-- **The scan replaces the segments that look like identifiers.** -/
theorem getCleanUriPath_eq (absolutePath : List CodeUnit) :
    getCleanUriPath (some absolutePath) =
      some (mapParts (unit '/') cleanSegment absolutePath) := by
  rw [getCleanUriPath]
  split
  case isTrue h =>
    rw [Bool.or_eq_true, decide_eq_true_eq] at h
    rcases h with hblank | rfl
    · have hall : ∀ c ∈ absolutePath, isWhiteSpace c = true := List.all_eq_true.mp hblank
      rw [mapParts_of_blank hall]
    · rfl
  case isFalse => rw [cleanFrom_eq absolutePath [] (Nat.zero_le _), List.drop_zero, List.nil_append]

theorem cleanSegment_of_identifier {segment : List CodeUnit} (h : Identifier segment) :
    cleanSegment segment = [unit '?'] := if_pos (isIdentifier_iff.mpr h)

theorem cleanSegment_of_not_identifier {segment : List CodeUnit} (h : ¬Identifier segment) :
    cleanSegment segment = segment := if_neg (mt isIdentifier_iff.mp h)

theorem length_cleanSegment_le (segment : List CodeUnit) :
    (cleanSegment segment).length ≤ segment.length := by
  by_cases h : Identifier segment
  · obtain ⟨c, hc, -⟩ := h.number
    rw [cleanSegment_of_identifier h]
    exact List.length_pos_of_mem hc
  · rw [cleanSegment_of_not_identifier h]

theorem slash_notMem_cleanSegment {segment : List CodeUnit} (h : unit '/' ∉ segment) :
    unit '/' ∉ cleanSegment segment := by
  rw [cleanSegment]
  split
  · decide
  · exact h

theorem cleanSegment_cleanSegment (segment : List CodeUnit) :
    cleanSegment (cleanSegment segment) = cleanSegment segment := by
  by_cases h : Identifier segment
  · rw [cleanSegment_of_identifier h]
    decide
  · rw [cleanSegment_of_not_identifier h, cleanSegment_of_not_identifier h]

/-- **Cleaning a path** is done segment by segment; it makes no path longer, and changes nothing the
second time. -/
theorem getCleanUriPath_spec (absolutePath : List CodeUnit) :
    ∃ cleaned, getCleanUriPath (some absolutePath) = some cleaned ∧
      cleaned = [unit '/'].intercalate ((absolutePath.splitOn (unit '/')).map cleanSegment) ∧
      (∀ segment ∈ absolutePath.splitOn (unit '/'),
        (Identifier segment → cleanSegment segment = [unit '?']) ∧
        (¬Identifier segment → cleanSegment segment = segment)) ∧
      cleaned.length ≤ absolutePath.length ∧
      getCleanUriPath (some cleaned) = some cleaned := by
  refine ⟨_, getCleanUriPath_eq absolutePath, rfl, ?_, ?_, ?_⟩
  · intro segment _
    exact ⟨cleanSegment_of_identifier, cleanSegment_of_not_identifier⟩
  · exact length_mapParts_le (fun segment _ => length_cleanSegment_le segment) absolutePath
  · rw [getCleanUriPath_eq, mapParts_mapParts (fun segment => slash_notMem_cleanSegment)
      fun segment _ => cleanSegment_cleanSegment segment]

example : getCleanUriPath (some (ascii "/a/2022/ee1")) = some (ascii "/a/?/ee1") := by
  rw [getCleanUriPath_eq]
  decide

end DdTrace.Util.UriHelpers
