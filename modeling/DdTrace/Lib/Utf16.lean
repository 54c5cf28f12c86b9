import Mathlib.Data.List.DropRight
import Mathlib.Data.UInt
import Mathlib.Tactic.Common

/-!
# Strings of UTF-16 code units

The strings of a runtime that counts and indexes code units: a string is any list of them, so that
one half of a surrogate pair is a character of its own, and no letter, digit or white space.

* `unit`: the code unit of a character of the basic plane.
* `trim`, `isWhiteSpace`: what is trimmed.
* `Casing`: lower case, and letters, with what they are for ASCII.
-/

namespace DdTrace.Lib.Utf16

/-- A code unit. -/
abbrev CodeUnit := UInt16

/-- The code unit of a character. -/
def unit (c : Char) : CodeUnit := UInt16.ofNat c.toNat

/-- The code units of a text of ASCII. -/
def ascii (s : String) : List CodeUnit := s.toList.map unit

/-- The unit is one from a character to another one. -/
def between (first last : Char) (c : CodeUnit) : Bool :=
  first.toNat ≤ c.toNat && c.toNat ≤ last.toNat

theorem between_iff {first last : Char} {c : CodeUnit} :
    between first last c = true ↔ first.toNat ≤ c.toNat ∧ c.toNat ≤ last.toNat := by
  rw [between, Bool.and_eq_true, decide_eq_true_eq, decide_eq_true_eq]

theorem toNat_unit {c : Char} (h : c.toNat < 65536) : (unit c).toNat = c.toNat :=
  Nat.mod_eq_of_lt h

/-- A unit is known by its number. -/
theorem eq_unit_iff {c : CodeUnit} {p : Char} (h : p.toNat < 65536) :
    c = unit p ↔ c.toNat = p.toNat := by
  rw [← toNat_unit h, UInt16.toNat_inj]

/-! ## White space -/

/-- `char.IsWhiteSpace`. -/
def isWhiteSpace (c : CodeUnit) : Bool :=
  (0x09 ≤ c.toNat && c.toNat ≤ 0x0D) || (0x2000 ≤ c.toNat && c.toNat ≤ 0x200A) ||
    [0x20, 0x85, 0xA0, 0x1680, 0x2028, 0x2029, 0x202F, 0x205F, 0x3000].contains c.toNat

/-- There is nothing but white space. -/
def isBlank (s : List CodeUnit) : Bool := s.all isWhiteSpace

/-- `string.IsNullOrWhiteSpace`. -/
def isNullOrWhiteSpace (s : Option (List CodeUnit)) : Bool := isBlank (s.getD [])

/-- `Trim`. -/
def trim (s : List CodeUnit) : List CodeUnit :=
  (s.dropWhile isWhiteSpace).rdropWhile isWhiteSpace

/-- The units of ASCII between the space and the delete character are no white space. -/
theorem isWhiteSpace_of_visible {c : CodeUnit} (hlo : 0x20 < c.toNat) (hhi : c.toNat < 0x7F) :
    isWhiteSpace c = false := by
  simp [isWhiteSpace]
  omega

/-- A string with no white space in it is not changed by trimming. -/
theorem trim_eq_self {s : List CodeUnit} (h : ∀ c ∈ s, isWhiteSpace c = false) : trim s = s := by
  have hdrop : s.dropWhile isWhiteSpace = s := by
    cases s with
    | nil => rfl
    | cons c s => exact List.dropWhile_cons_of_neg (by simp [h c List.mem_cons_self])
  rw [trim, hdrop, List.rdropWhile_eq_self_iff]
  intro hne
  rw [h _ (List.getLast_mem hne)]
  exact Bool.false_ne_true

/-! ## Letters -/

/-- Lower case, for letters of ASCII. -/
def asciiLower (c : CodeUnit) : CodeUnit := if between 'A' 'Z' c then c + 32 else c

/-- The lower case of a string, and the letters, of all of Unicode. It is asked of them only that
the lower case is as long as the string, and what they are for ASCII. -/
structure Casing where
  /-- `ToLowerInvariant`. -/
  toLowerInvariant : List CodeUnit → List CodeUnit
  /-- `char.IsLetter`. -/
  isLetter : CodeUnit → Bool
  length_lower : ∀ s, (toLowerInvariant s).length = s.length
  lower_ascii : ∀ s, (∀ c ∈ s, c.toNat < 128) → toLowerInvariant s = s.map asciiLower
  letter_ascii : ∀ c : CodeUnit, c.toNat < 128 →
    isLetter c = (between 'a' 'z' c || between 'A' 'Z' c)

/-- Lower case and letters of the first 256 characters. -/
def Casing.latin : Casing where
  toLowerInvariant s := s.map fun c =>
    if 0xC0 ≤ c.toNat ∧ c.toNat ≤ 0xDE ∧ c.toNat ≠ 0xD7 then c + 32 else asciiLower c
  isLetter c := between 'a' 'z' c || between 'A' 'Z' c || c.toNat = 0xAA || c.toNat = 0xB5 ||
    c.toNat = 0xBA || (0xC0 ≤ c.toNat && c.toNat ≤ 0xFF && c.toNat ≠ 0xD7 && c.toNat ≠ 0xF7)
  length_lower := fun s => List.length_map _
  lower_ascii := by
    intro s h
    refine List.map_congr_left fun c hc => if_neg ?_
    have hlt := h c hc
    omega
  letter_ascii := by
    intro c hc
    have h1 : c.toNat ≠ 0xAA := by omega
    have h2 : c.toNat ≠ 0xB5 := by omega
    have h3 : c.toNat ≠ 0xBA := by omega
    have h4 : ¬0xC0 ≤ c.toNat := by omega
    simp only [h1, h2, h3, h4, decide_false, Bool.or_false, Bool.false_and]

/-- What is in lower case stays as it is. -/
theorem Casing.lower_eq_self (casing : Casing) {s : List CodeUnit}
    (h : ∀ c ∈ s, c.toNat < 128 ∧ between 'A' 'Z' c = false) : casing.toLowerInvariant s = s := by
  rw [casing.lower_ascii s fun c hc => (h c hc).1]
  conv_rhs => rw [← List.map_id s]
  refine List.map_congr_left fun c hc => ?_
  rw [asciiLower, (h c hc).2]
  rfl

end DdTrace.Lib.Utf16
