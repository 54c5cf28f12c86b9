import Mathlib.Data.List.Basic
import Mathlib.Tactic.Common

/-!
# Patterns that are read by trying

A pattern is a list of alternatives, and an alternative is a list of items that are read one after
the other. What an item is, and what it captures, is left open: an item knows all the places in a
text to which it leads from a place.

* `Stretch`: the items of an alternative lead from one position in a text to another one.
* `stretch_test_cons`, `stretch_append_test`: items that only look at the position.
* `isMatch_iff`: an alternative matches a stretch of the text.
* `stretch_modify_first`, `stretch_modify_last`: a test before the first alternative and one behind
  the last one are tests of these two alternatives only.
-/

namespace DdTrace.Lib.Backtracking

variable {α γ : Type}

/-- A place in a text, with what has been captured on the way to it. -/
structure Place (γ : Type) where
  position : Nat
  captures : γ

/-- The places to which an item leads from a place in a text, in the order in which they are
tried. -/
abbrev Item (α γ : Type) := List α → Place γ → List (Place γ)

/-- An item that only looks at the position. -/
def test (p : List α → Nat → Bool) : Item α γ := fun text place =>
  if p text place.position then [place] else []

/-- The items one after the other. -/
def sequence : List (Item α γ) → Item α γ
  | [] => fun _ place => [place]
  | item :: items => fun text place => (item text place).flatMap (sequence items text)

/-- The alternatives one after the other, from a position on where nothing is captured. -/
def ways (nothing : γ) (alternatives : List (List (Item α γ))) (text : List α) (position : Nat) :
    List (Place γ) :=
  alternatives.flatMap fun items => sequence items text ⟨position, nothing⟩

/-- There is a match from some position on. -/
def isMatch (nothing : γ) (alternatives : List (List (Item α γ))) (text : List α) : Bool :=
  (List.range (text.length + 1)).any fun position =>
    !(ways nothing alternatives text position).isEmpty

/-- The items lead from a position to a position. -/
def Stretch (nothing : γ) (items : List (Item α γ)) (text : List α) (first last : Nat) : Prop :=
  ∃ place ∈ sequence items text ⟨first, nothing⟩, place.position = last

instance (nothing : γ) (items : List (Item α γ)) (text : List α) (first last : Nat) :
    Decidable (Stretch nothing items text first last) :=
  inferInstanceAs (Decidable (∃ place ∈ _, _))

theorem sequence_nil (text : List α) (place : Place γ) : sequence [] text place = [place] := rfl

theorem sequence_cons (item : Item α γ) (items : List (Item α γ)) (text : List α)
    (place : Place γ) :
    sequence (item :: items) text place = (item text place).flatMap (sequence items text) := rfl

theorem sequence_append (items more : List (Item α γ)) (text : List α) (place : Place γ) :
    sequence (items ++ more) text place =
      (sequence items text place).flatMap (sequence more text) := by
  induction items generalizing place with
  | nil =>
      rw [List.nil_append, sequence_nil]
      exact (List.append_nil _).symm
  | cons item items ih =>
      rw [List.cons_append, sequence_cons, sequence_cons, List.flatMap_assoc]
      exact congrArg (item text place).flatMap (funext ih)

/-! ## Items that only look -/

theorem mem_test_iff {p : List α → Nat → Bool} {text : List α} {place next : Place γ} :
    next ∈ test p text place ↔ next = place ∧ p text place.position = true := by
  rw [test]
  by_cases h : p text place.position = true
  · rw [if_pos h, List.mem_singleton]
    exact (and_iff_left h).symm
  · rw [if_neg h]
    exact iff_of_false List.not_mem_nil fun hnext => h hnext.2

theorem stretch_test_cons {nothing : γ} {p : List α → Nat → Bool} {items : List (Item α γ)}
    {text : List α} {first last : Nat} :
    Stretch nothing (test p :: items) text first last ↔
      p text first = true ∧ Stretch nothing items text first last := by
  rw [Stretch, sequence_cons]
  constructor
  · rintro ⟨place, hplace, hlast⟩
    obtain ⟨start, hstart, hplace⟩ := List.mem_flatMap.mp hplace
    obtain ⟨rfl, hp⟩ := mem_test_iff.mp hstart
    exact ⟨hp, place, hplace, hlast⟩
  · rintro ⟨hp, place, hplace, hlast⟩
    exact ⟨place, List.mem_flatMap.mpr ⟨_, mem_test_iff.mpr ⟨rfl, hp⟩, hplace⟩, hlast⟩

theorem stretch_append_test {nothing : γ} {p : List α → Nat → Bool} {items : List (Item α γ)}
    {text : List α} {first last : Nat} :
    Stretch nothing (items ++ [test p]) text first last ↔
      Stretch nothing items text first last ∧ p text last = true := by
  rw [Stretch, sequence_append]
  constructor
  · rintro ⟨place, hplace, hlast⟩
    obtain ⟨before, hbefore, hplace⟩ := List.mem_flatMap.mp hplace
    rw [sequence_cons] at hplace
    obtain ⟨same, hsame, hend⟩ := List.mem_flatMap.mp hplace
    obtain ⟨rfl, hp⟩ := mem_test_iff.mp hsame
    rw [sequence_nil, List.mem_singleton] at hend
    rw [hend] at hlast
    exact ⟨⟨same, hbefore, hlast⟩, hlast ▸ hp⟩
  · rintro ⟨⟨place, hplace, hlast⟩, hp⟩
    refine ⟨place, List.mem_flatMap.mpr ⟨place, hplace, ?_⟩, hlast⟩
    rw [sequence_cons]
    exact List.mem_flatMap.mpr
      ⟨place, mem_test_iff.mpr ⟨rfl, hlast.symm ▸ hp⟩, List.mem_cons_self⟩

/-! ## Matches -/

/-- **There is a match** if an alternative matches a stretch of the text. -/
theorem isMatch_iff {nothing : γ} {alternatives : List (List (Item α γ))} {text : List α} :
    isMatch nothing alternatives text = true ↔
      ∃ first ≤ text.length, ∃ (k last : Nat) (items : List (Item α γ)),
        alternatives[k]? = some items ∧ Stretch nothing items text first last := by
  rw [isMatch, List.any_eq_true]
  constructor
  · rintro ⟨first, hfirst, hways⟩
    rw [Bool.not_eq_true', List.isEmpty_eq_false_iff_exists_mem] at hways
    obtain ⟨place, hplace⟩ := hways
    obtain ⟨items, hitems, hplace⟩ := List.mem_flatMap.mp hplace
    obtain ⟨k, hk⟩ := List.mem_iff_getElem?.mp hitems
    exact ⟨first, Nat.lt_succ_iff.mp (List.mem_range.mp hfirst), k, _, items, hk, place, hplace,
      rfl⟩
  · rintro ⟨first, hfirst, k, last, items, hk, place, hplace, -⟩
    refine ⟨first, List.mem_range.mpr (Nat.lt_succ_iff.mpr hfirst), ?_⟩
    rw [Bool.not_eq_true', List.isEmpty_eq_false_iff_exists_mem]
    exact ⟨place, List.mem_flatMap.mpr ⟨items, List.mem_iff_getElem?.mpr ⟨k, hk⟩, hplace⟩⟩

/-- A test before the first alternative is one of that alternative only. -/
theorem stretch_modify_first {nothing : γ} {p : List α → Nat → Bool}
    {alternatives : List (List (Item α γ))} {text : List α} {first last k : Nat} :
    (∃ items, (alternatives.modify 0 (test p :: ·))[k]? = some items ∧
        Stretch nothing items text first last) ↔
      ∃ items, alternatives[k]? = some items ∧ Stretch nothing items text first last ∧
        (k = 0 → p text first = true) := by
  rw [List.getElem?_modify]
  cases alternatives[k]? with
  | none => simp
  | some items =>
      by_cases hk : 0 = k
      · simp [hk, stretch_test_cons, and_comm]
      · simp [hk, Ne.symm hk]

/-- A test behind the last alternative is one of that alternative only. -/
theorem stretch_modify_last {nothing : γ} {p : List α → Nat → Bool}
    {alternatives : List (List (Item α γ))} {text : List α} {first last k : Nat} :
    (∃ items, (alternatives.modify (alternatives.length - 1) (· ++ [test p]))[k]? = some items ∧
        Stretch nothing items text first last) ↔
      ∃ items, alternatives[k]? = some items ∧ Stretch nothing items text first last ∧
        (k + 1 = alternatives.length → p text last = true) := by
  rw [List.getElem?_modify]
  cases hget : alternatives[k]? with
  | none => simp
  | some items =>
      obtain ⟨hlt, -⟩ := List.getElem?_eq_some_iff.mp hget
      by_cases hk : alternatives.length - 1 = k
      · have hlength : k + 1 = alternatives.length := by omega
        simp [hk, hlength, stretch_append_test]
      · have hlength : ¬k + 1 = alternatives.length := by omega
        simp [hk, hlength]

end DdTrace.Lib.Backtracking
