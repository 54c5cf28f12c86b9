import Mathlib.Data.List.Basic
import Mathlib.Data.List.Count
import Mathlib.Tactic.Common

/-!
# Tables of fixed width

A table is the records of a list one behind the other, each of the same width, so that a record is
found at a multiple of the width. In a list that is sorted by a key, the number of records whose key
is at most a bound says where these records end.

* `length_flatMap_of_width`, `drop_record_of_width`: the places of the records.
* `take_countP`, `drop_countP`: the parts of a sorted list.
-/

namespace DdTrace.Lib.FixedWidth

variable {α β : Type}

section Tables

variable {encode : α → List β} {width : Nat} {records : List α}

theorem length_flatMap_of_width (h : ∀ r ∈ records, (encode r).length = width) :
    (records.flatMap encode).length = width * records.length := by
  induction records with
  | nil => rfl
  | cons r records ih =>
      rw [List.forall_mem_cons] at h
      rw [List.flatMap_cons, List.length_append, ih h.2, h.1, List.length_cons, Nat.mul_succ,
        Nat.add_comm]

/-- The records from the `i`-th on stand behind `i` widths. -/
theorem drop_flatMap_of_width (h : ∀ r ∈ records, (encode r).length = width) (i : Nat) :
    (records.flatMap encode).drop (width * i) = (records.drop i).flatMap encode := by
  induction i generalizing records with
  | zero => rfl
  | succ i ih =>
      cases records with
      | nil => rw [List.drop_nil, List.flatMap_nil, List.drop_nil]
      | cons r records =>
          rw [List.forall_mem_cons] at h
          have hsum : width * (i + 1) = (encode r).length + width * i := by
            rw [h.1, Nat.mul_succ, Nat.add_comm]
          rw [List.flatMap_cons, hsum, ← List.drop_drop, List.drop_left, ih h.2, List.drop_succ_cons]

/-- A record stands in front of the further records and what follows the table. -/
theorem drop_record_of_width (h : ∀ r ∈ records, (encode r).length = width) {i : Nat} {r : α}
    (hget : records[i]? = some r) (v : List β) :
    ∃ u, (records.flatMap encode ++ v).drop (width * i) = encode r ++ u := by
  obtain ⟨hlt, rfl⟩ := List.getElem?_eq_some_iff.mp hget
  have hle : width * i ≤ (records.flatMap encode).length := by
    rw [length_flatMap_of_width h]
    exact Nat.mul_le_mul_left width (Nat.le_of_lt hlt)
  rw [List.drop_append_of_le_length hle, drop_flatMap_of_width h, List.drop_eq_getElem_cons hlt,
    List.flatMap_cons, List.append_assoc]
  exact ⟨_, rfl⟩

end Tables

section Sorted

variable {p : α → Bool} {l : List α}

theorem countP_eq_zero_of_head {a : α} (ha : p a = false)
    (hl : ∀ b ∈ l, p b = true → p a = true) : l.countP p = 0 := by
  refine List.countP_eq_zero.mpr fun b hb hp => ?_
  rw [hl b hb hp] at ha
  cases ha

/-- The records before the count have the property. -/
theorem take_countP (hmono : l.Pairwise fun a b => p b = true → p a = true) :
    ∀ a ∈ l.take (l.countP p), p a = true := by
  induction l with
  | nil => simp
  | cons a l ih =>
      rw [List.pairwise_cons] at hmono
      cases ha : p a with
      | false =>
          have hzero := countP_eq_zero_of_head ha hmono.1
          rw [List.countP_cons, hzero, ha]
          simp
      | true =>
          rw [List.countP_cons, ha, if_pos rfl, List.take_succ_cons]
          exact List.forall_mem_cons.mpr ⟨ha, ih hmono.2⟩

/-- The records behind the count do not have it. -/
theorem drop_countP (hmono : l.Pairwise fun a b => p b = true → p a = true) :
    ∀ a ∈ l.drop (l.countP p), p a = false := by
  induction l with
  | nil => simp
  | cons a l ih =>
      rw [List.pairwise_cons] at hmono
      cases ha : p a with
      | false =>
          have hzero := countP_eq_zero_of_head ha hmono.1
          rw [List.countP_cons, hzero, ha, if_neg (by decide), List.drop_zero]
          refine List.forall_mem_cons.mpr ⟨ha, fun b hb => ?_⟩
          exact Bool.eq_false_iff.mpr (List.countP_eq_zero.mp hzero b hb)
      | true =>
          rw [List.countP_cons, ha, if_pos rfl, List.drop_succ_cons]
          exact ih hmono.2

end Sorted

end DdTrace.Lib.FixedWidth
