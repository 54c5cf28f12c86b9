import Mathlib.Algebra.Group.Int.Defs
import Mathlib.Algebra.Ring.Nat
import Mathlib.Data.List.TakeWhile
import Mathlib.Order.Lattice
import Mathlib.Order.Nat
import Mathlib.Tactic.Common

/-!
# Reading integers from text

A reader of integers in the style of a culture-aware runtime: optional white space, an optional
sign (the sign strings come from a culture), decimal digits, optional white space, and any number
of trailing null characters. `parse_toString` says that it reads back what decimal printing wrote,
for every integer, provided the culture's minus sign is `-`.
-/

namespace DdTrace.Lib.IntegerText

/-- The sign strings of a culture. A positive sign does not begin like a number does, so that it
can be told from the digits. -/
structure NumberFormat where
  /-- The string in front of a negative number. -/
  negativeSign : List Char
  /-- The string that may stand in front of a positive number. -/
  positiveSign : List Char
  /-- A positive sign does not begin with a digit or a hyphen. -/
  positiveSign_head : ∀ c ∈ positiveSign.head?, c.isDigit = false ∧ c ≠ '-'

/-- The signs of the invariant culture. -/
def NumberFormat.invariant : NumberFormat :=
  ⟨['-'], ['+'], fun c hc => by simp at hc; subst hc; decide⟩

/-- White space that a number may be surrounded by. -/
def isWhite (c : Char) : Bool := c.toNat == 0x20 || (0x09 ≤ c.toNat && c.toNat ≤ 0x0D)

/-- Split an optional sign off the front of a number; the Boolean says whether it is the minus. -/
def splitSign (fmt : NumberFormat) (cs : List Char) : Bool × List Char :=
  if fmt.positiveSign ≠ [] ∧ fmt.positiveSign.isPrefixOf cs then
    (false, cs.drop fmt.positiveSign.length)
  else if fmt.negativeSign ≠ [] ∧ fmt.negativeSign.isPrefixOf cs then
    (true, cs.drop fmt.negativeSign.length)
  else (false, cs)

/-- Read an integer from text, without regard to the range of a type. -/
def parse (fmt : NumberFormat) (leadingWhite : Bool) (s : List Char) : Option Int :=
  let (negative, cs) := splitSign fmt (if leadingWhite then s.dropWhile isWhite else s)
  let digits := cs.takeWhile Char.isDigit
  let rest := (cs.dropWhile Char.isDigit).dropWhile isWhite
  if digits = [] ∨ rest.all (· == '\x00') = false then none
  else
    let n : Int := Nat.ofDigitChars 10 digits 0
    some (if negative then -n else n)

/-- Read an integer between `lo` and `hi`. -/
def tryParse (fmt : NumberFormat) (lo hi : Int) (s : String) : Option Int :=
  (parse fmt true s.toList).filter fun n => lo ≤ n ∧ n ≤ hi

/-- There is no number in an empty text. -/
theorem tryParse_empty (fmt : NumberFormat) (lo hi : Int) : tryParse fmt lo hi "" = none := by
  have hsplit : (splitSign fmt []).2 = [] := by
    unfold splitSign
    split_ifs <;> simp
  unfold tryParse parse
  simp [hsplit]

/-! ## Reading back what was printed -/

theorem isWhite_of_isDigit {c : Char} (hc : c.isDigit = true) : isWhite c = false := by
  simp only [Char.isDigit, Bool.and_eq_true, decide_eq_true_eq] at hc
  have hlo : 48 ≤ c.toNat := by simpa [UInt32.le_iff_toNat_le] using hc.1
  simp only [isWhite, Bool.or_eq_false_iff, beq_eq_false_iff_ne, ne_eq, Bool.and_eq_false_iff,
    decide_eq_false_iff_not]
  omega

/-- Text that begins with a digit has no sign, if no sign begins with a digit. -/
theorem splitSign_of_digit (fmt : NumberFormat)
    (hneg : ∀ d ∈ fmt.negativeSign.head?, d.isDigit = false)
    {c : Char} (hc : c.isDigit = true) (cs : List Char) :
    splitSign fmt (c :: cs) = (false, c :: cs) := by
  have hnot : ∀ sign : List Char, (∀ d ∈ sign.head?, d.isDigit = false) →
      ¬(sign ≠ [] ∧ sign.isPrefixOf (c :: cs) = true) := by
    rintro sign hhead ⟨hne, hpre⟩
    cases sign with
    | nil => exact hne rfl
    | cons d ds =>
        simp only [List.isPrefixOf, Bool.and_eq_true, beq_iff_eq] at hpre
        obtain ⟨rfl, -⟩ := hpre
        simp [hc] at hhead
  rw [splitSign, if_neg (hnot _ fun d hd => (fmt.positiveSign_head d hd).1), if_neg (hnot _ hneg)]

/-- A hyphen is the minus sign. -/
theorem splitSign_hyphen (fmt : NumberFormat) (hneg : fmt.negativeSign = ['-']) (cs : List Char) :
    splitSign fmt ('-' :: cs) = (true, cs) := by
  have hpos : ¬(fmt.positiveSign ≠ [] ∧ fmt.positiveSign.isPrefixOf ('-' :: cs) = true) := by
    rintro ⟨hne, hpre⟩
    have hhead := fmt.positiveSign_head
    cases hp : fmt.positiveSign with
    | nil => exact hne hp
    | cons d ds =>
        rw [hp] at hpre hhead
        simp only [List.isPrefixOf, Bool.and_eq_true, beq_iff_eq] at hpre
        obtain ⟨rfl, -⟩ := hpre
        simp at hhead
  rw [splitSign, if_neg hpos, if_pos]
  · simp [hneg]
  · simp [hneg, List.isPrefixOf]

/-- Text of digits is read as their number, with or without leading white space allowed. -/
theorem parse_of_digits (fmt : NumberFormat)
    (hneg : ∀ d ∈ fmt.negativeSign.head?, d.isDigit = false)
    (white : Bool) {ds : List Char} (hne : ds ≠ []) (hall : ∀ c ∈ ds, c.isDigit = true) :
    parse fmt white ds = some (Nat.ofDigitChars 10 ds 0 : Int) := by
  cases ds with
  | nil => exact absurd rfl hne
  | cons c cs =>
      have hc : c.isDigit = true := hall c List.mem_cons_self
      have hskip : (if white then (c :: cs).dropWhile isWhite else c :: cs) = c :: cs := by
        simp [isWhite_of_isDigit hc]
      have htake : (c :: cs).takeWhile Char.isDigit = c :: cs := List.takeWhile_eq_self_iff.mpr hall
      have hdrop : (c :: cs).dropWhile Char.isDigit = [] := List.dropWhile_eq_nil_iff.mpr hall
      simp only [parse, hskip, splitSign_of_digit fmt hneg hc, htake, hdrop]
      simp

/-- Decimal digits are read back, with or without leading white space allowed. -/
theorem parse_toDigits (fmt : NumberFormat) (hneg : fmt.negativeSign = ['-']) (white : Bool)
    (n : Nat) : parse fmt white (Nat.toDigits 10 n) = some (n : Int) := by
  have hall : ∀ c ∈ Nat.toDigits 10 n, c.isDigit = true := fun c hc =>
    Nat.isDigit_of_mem_toDigits (by decide) (by decide) hc
  have hhead : ∀ d ∈ fmt.negativeSign.head?, d.isDigit = false := by
    rw [hneg]
    rintro d ⟨⟩
    rfl
  rw [parse_of_digits fmt hhead white Nat.toDigits_ne_nil hall, Nat.ofDigitChars_ten_toDigits]

/-- A printed negative number is read back. -/
theorem parse_hyphen_toDigits (fmt : NumberFormat) (hneg : fmt.negativeSign = ['-']) (n : Nat) :
    parse fmt true ('-' :: Nat.toDigits 10 n) = some (-(n : Int)) := by
  have hall : ∀ c ∈ Nat.toDigits 10 n, c.isDigit = true := fun c hc =>
    Nat.isDigit_of_mem_toDigits (by decide) (by decide) hc
  have hskip : ('-' :: Nat.toDigits 10 n).dropWhile isWhite = '-' :: Nat.toDigits 10 n := by
    rw [List.dropWhile_cons, if_neg (by decide)]
  have htake : (Nat.toDigits 10 n).takeWhile Char.isDigit = Nat.toDigits 10 n :=
    List.takeWhile_eq_self_iff.mpr hall
  have hdrop : (Nat.toDigits 10 n).dropWhile Char.isDigit = [] :=
    List.dropWhile_eq_nil_iff.mpr hall
  simp only [parse, if_true, hskip, splitSign_hyphen fmt hneg, htake, hdrop,
    Nat.ofDigitChars_ten_toDigits]
  simp

/-- **Reading inverts printing**, for every integer. -/
theorem parse_toString (fmt : NumberFormat) (hneg : fmt.negativeSign = ['-']) (n : Int) :
    parse fmt true (toString n).toList = some n := by
  rw [Int.toString_eq_repr]
  cases n with
  | ofNat m =>
      have hrepr : (Int.ofNat m).repr.toList = Nat.toDigits 10 m := by simp [Int.repr]
      rw [hrepr, parse_toDigits fmt hneg]
      rfl
  | negSucc m =>
      have hrepr : (Int.negSucc m).repr.toList = '-' :: Nat.toDigits 10 (m + 1) := by
        simp [Int.repr, String.toList_append]
      rw [hrepr, parse_hyphen_toDigits fmt hneg]
      rfl

/-- Reading inverts printing within the range of a type. -/
theorem tryParse_toString (fmt : NumberFormat) (hneg : fmt.negativeSign = ['-']) {lo hi n : Int}
    (hlo : lo ≤ n) (hhi : n ≤ hi) : tryParse fmt lo hi (toString n) = some n := by
  rw [tryParse, parse_toString fmt hneg]
  simp [hlo, hhi]

end DdTrace.Lib.IntegerText
