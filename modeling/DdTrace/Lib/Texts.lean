import Mathlib.Data.List.DropRight
import Mathlib.Data.List.Infix
import Mathlib.Tactic.Common

/-!
# Operations on texts

The operations of a runtime's string class that compare characters by their code: white space,
trimming, splitting, searching and replacing. A text that may be null is an `Option String`.
-/

namespace DdTrace.Lib.Texts

/-- White space, in all of Unicode. -/
def isWhiteSpace (c : Char) : Bool :=
  (0x09 ≤ c.toNat && c.toNat ≤ 0x0D) || (0x2000 ≤ c.toNat && c.toNat ≤ 0x200A) ||
    [0x20, 0x85, 0xA0, 0x1680, 0x2028, 0x2029, 0x202F, 0x205F, 0x3000].contains c.toNat

/-- The zeros of the decimal digits, in the basic plane of Unicode. -/
def decimalZeros : List Nat :=
  [0x30, 0x660, 0x6F0, 0x7C0, 0x966, 0x9E6, 0xA66, 0xAE6, 0xB66, 0xBE6, 0xC66, 0xCE6, 0xD66, 0xDE6,
    0xE50, 0xED0, 0xF20, 0x1040, 0x1090, 0x17E0, 0x1810, 0x1946, 0x19D0, 0x1A80, 0x1A90, 0x1B50,
    0x1BB0, 0x1C40, 0x1C50, 0xA620, 0xA8D0, 0xA900, 0xA9D0, 0xA9F0, 0xAA50, 0xABF0, 0xFF10]

/-- A decimal digit, in the basic plane of Unicode. -/
def isDecimalDigit (c : Char) : Bool :=
  decimalZeros.any fun first => first ≤ c.toNat && c.toNat < first + 10

/-- There is nothing but white space. -/
def isBlank (s : List Char) : Bool := s.all isWhiteSpace

/-- `string.IsNullOrEmpty`. -/
def isNullOrEmpty (s : Option String) : Bool := s.getD "" == ""

/-- `string.IsNullOrWhiteSpace`. -/
def isNullOrWhiteSpace (s : Option String) : Bool := isBlank (s.getD "").toList

/-- `Trim`. -/
def trim (s : List Char) : List Char := (s.dropWhile isWhiteSpace).rdropWhile isWhiteSpace

/-- `Contains`. -/
def contains (s value : List Char) : Bool := decide (value <:+: s)

/-- `StringComparison.OrdinalIgnoreCase`, for letters of ASCII. -/
def equalsIgnoreCase (s t : List Char) : Bool := s.map Char.toLower == t.map Char.toLower

/-- `ToLowerInvariant`, character by character. It is asked of it only that the punctuation marks
of routes are not touched, and come from no other character. -/
structure LowerCasing where
  lower : Char → Char
  slash : ∀ c, lower c = '/' ↔ c = '/'
  star : ∀ c, lower c = '*' ↔ c = '*'

/-- A character before the capital letters of ASCII is the lower case of itself alone. -/
theorem toLower_eq_iff {c p : Char} (hp : p.toNat < 65) : c.toLower = p ↔ c = p := by
  unfold Char.toLower
  split
  case isTrue hupper =>
    have hlo : 65 ≤ c.toNat := by simpa [UInt32.le_iff_toNat_le] using hupper.1
    have hhi : c.toNat ≤ 90 := by simpa [UInt32.le_iff_toNat_le] using hupper.2
    constructor
    · intro heq
      have hvalue : (c.val + ('a'.val - 'A'.val)).toNat = p.toNat := congrArg Char.toNat heq
      have hsum : (c.val + ('a'.val - 'A'.val)).toNat = c.toNat + 32 := by
        rw [UInt32.toNat_add]
        exact Nat.mod_eq_of_lt (by change c.toNat + 32 < 2 ^ 32; omega)
      omega
    · rintro rfl
      omega
  case isFalse => exact Iff.rfl

/-- Lower case, for letters of ASCII. -/
def LowerCasing.ascii : LowerCasing where
  lower := Char.toLower
  slash := fun _ => toLower_eq_iff (by decide)
  star := fun _ => toLower_eq_iff (by decide)

/-- The text after `skip` characters, with a text in place of another one wherever that begins. -/
def replaceFrom (old new : List Char) : Nat → List Char → List Char
  | _, [] => []
  | skip + 1, _ :: rest => replaceFrom old new skip rest
  | 0, c :: rest =>
      if old.isPrefixOf (c :: rest) then new ++ replaceFrom old new (old.length - 1) rest
      else c :: replaceFrom old new 0 rest

/-- `Replace`, of a text that is not empty. -/
def replace (s old new : List Char) : List Char := replaceFrom old new 0 s

/-- What a text begins with up to a separator, and the parts behind it. -/
def splitFrom (separator : List Char) : Nat → List Char → List (List Char)
  | _, [] => [[]]
  | skip + 1, _ :: rest => splitFrom separator skip rest
  | 0, c :: rest =>
      if separator.isPrefixOf (c :: rest) then
        [] :: splitFrom separator (separator.length - 1) rest
      else
        match splitFrom separator 0 rest with
        | [] => [[c]]
        | part :: parts => (c :: part) :: parts

/-- `Split` by a text that is not empty. -/
def split (s separator : List Char) : List (List Char) := splitFrom separator 0 s

/-- `Split` by a character into at most two parts. -/
def splitOnce (s : List Char) (separator : Char) : List (List Char) :=
  if separator ∈ s then
    [s.takeWhile (· ≠ separator), (s.dropWhile (· ≠ separator)).tail]
  else [s]

/-- `StringSplitOptions.RemoveEmptyEntries`. -/
def removeEmptyEntries (parts : List (List Char)) : List (List Char) :=
  parts.filter fun part => !part.isEmpty

/-- The first separator is the one that counts. -/
theorem splitOnce_append_cons {separator : Char} {before : List Char} (h : separator ∉ before)
    (after : List Char) :
    splitOnce (before ++ separator :: after) separator = [before, after] := by
  have hkeep : ∀ c ∈ before, decide (c ≠ separator) = true := by
    intro c hc
    exact decide_eq_true fun heq => h (heq ▸ hc)
  have hmem : separator ∈ before ++ separator :: after :=
    List.mem_append_right before List.mem_cons_self
  rw [splitOnce, if_pos hmem, List.takeWhile_append_of_pos hkeep,
    List.dropWhile_append_of_pos hkeep, List.takeWhile_cons_of_neg (by simp),
    List.dropWhile_cons_of_neg (by simp), List.append_nil, List.tail_cons]

/-- There is one first separator. -/
theorem eq_of_first {separator : Char} {before before' after after' : List Char}
    (hbefore : separator ∉ before) (hbefore' : separator ∉ before')
    (h : before ++ separator :: after = before' ++ separator :: after') :
    before = before' ∧ after = after' := by
  have hparts : [before, after] = [before', after'] := by
    rw [← splitOnce_append_cons hbefore, ← splitOnce_append_cons hbefore', h]
  obtain ⟨rfl, hafter⟩ := List.cons.inj hparts
  exact ⟨rfl, (List.cons.inj hafter).1⟩

/-- There is one last separator. -/
theorem eq_of_last {separator : Char} {before before' after after' : List Char}
    (hafter : separator ∉ after) (hafter' : separator ∉ after')
    (h : before ++ separator :: after = before' ++ separator :: after') :
    before = before' ∧ after = after' := by
  have hreverse : after.reverse ++ separator :: before.reverse =
      after'.reverse ++ separator :: before'.reverse := by
    simpa using congrArg List.reverse h
  obtain ⟨ha, hb⟩ := eq_of_first (by simpa using hafter) (by simpa using hafter') hreverse
  exact ⟨List.reverse_inj.mp hb, List.reverse_inj.mp ha⟩

/-- Trimming keeps all other characters. -/
theorem mem_trim_iff {c : Char} {s : List Char} (hc : isWhiteSpace c = false) :
    c ∈ trim s ↔ c ∈ s := by
  have hdrop (t : List Char) : c ∈ t.dropWhile isWhiteSpace ↔ c ∈ t := by
    constructor
    · intro h
      exact (List.dropWhile_suffix _).subset h
    · intro h
      rw [← List.takeWhile_append_dropWhile (p := isWhiteSpace) (l := t), List.mem_append] at h
      apply h.resolve_left
      intro htake
      rw [List.mem_takeWhile_imp htake] at hc
      cases hc
  rw [trim, List.rdropWhile, List.mem_reverse, hdrop, List.mem_reverse, hdrop]

/-- White space behind a text is trimmed. -/
theorem trim_concat {c : Char} (hc : isWhiteSpace c = true) (s : List Char) :
    trim (s ++ [c]) = trim s := by
  unfold trim
  rw [List.dropWhile_append]
  split
  case isTrue hempty =>
    rw [List.isEmpty_iff.mp hempty, List.dropWhile_cons_of_pos hc]
    rfl
  case isFalse => rw [List.rdropWhile_concat_pos _ _ _ hc]

/-- White space before a text is trimmed. -/
theorem trim_cons {c : Char} (hc : isWhiteSpace c = true) (s : List Char) :
    trim (c :: s) = trim s := by
  rw [trim, List.dropWhile_cons_of_pos hc]
  rfl

/-- A text with no white space at its ends is not changed by trimming. -/
theorem trim_eq_self {s : List Char} (hfirst : ∀ c ∈ s.head?, isWhiteSpace c = false)
    (hlast : ∀ c ∈ s.getLast?, isWhiteSpace c = false) : trim s = s := by
  have hdrop : s.dropWhile isWhiteSpace = s := by
    cases s with
    | nil => rfl
    | cons c s => exact List.dropWhile_cons_of_neg (by simp [hfirst c rfl])
  rw [trim, hdrop, List.rdropWhile_eq_self_iff]
  intro hne
  rw [hlast _ (List.getLast?_eq_some_getLast hne)]
  exact Bool.false_ne_true

theorem isWhiteSpace_of_isDigit {c : Char} (hc : c.isDigit = true) : isWhiteSpace c = false := by
  simp only [Char.isDigit, Bool.and_eq_true, decide_eq_true_eq] at hc
  have hlo : 48 ≤ c.toNat := by simpa [UInt32.le_iff_toNat_le] using hc.1
  have hhi : c.toNat ≤ 57 := by simpa [UInt32.le_iff_toNat_le] using hc.2
  simp [isWhiteSpace]
  omega

theorem isDecimalDigit_of_isDigit {c : Char} (hc : c.isDigit = true) : isDecimalDigit c = true := by
  simp only [Char.isDigit, Bool.and_eq_true, decide_eq_true_eq] at hc
  have hlo : 48 ≤ c.toNat := by simpa [UInt32.le_iff_toNat_le] using hc.1
  have hhi : c.toNat ≤ 57 := by simpa [UInt32.le_iff_toNat_le] using hc.2
  rw [isDecimalDigit, List.any_eq_true]
  refine ⟨0x30, List.mem_cons_self, ?_⟩
  rw [Bool.and_eq_true, decide_eq_true_eq, decide_eq_true_eq]
  omega

/-- Digits are no white space. -/
theorem isWhiteSpace_of_isDecimalDigit {c : Char} (hc : isDecimalDigit c = true) :
    isWhiteSpace c = false := by
  rw [isDecimalDigit, List.any_eq_true] at hc
  obtain ⟨first, hfirst, hc⟩ := hc
  rw [Bool.and_eq_true, decide_eq_true_eq, decide_eq_true_eq] at hc
  simp [decimalZeros] at hfirst
  simp [isWhiteSpace]
  omega

end DdTrace.Lib.Texts
