import Mathlib.Data.List.Basic
import Mathlib.Tactic.Common

/-!
# Lists in parts

A list in parts, with separators between them, in which each part is replaced by another one.

* `mapParts`: the parts are split off, replaced and joined again.
* `parts_induction`: a list is one part, or a part, a separator and a list.
* `length_mapParts_le`: if no part gets longer, the list does not.
* `mapParts_mapParts`: replacing the parts a second time changes nothing.
-/

namespace DdTrace.Lib

variable {α : Type*} [DecidableEq α]

/-- Replace each part between separators. -/
def mapParts (separator : α) (f : List α → List α) (s : List α) : List α :=
  [separator].intercalate ((s.splitOn separator).map f)

/-- A property of all lists, from one part on. -/
theorem parts_induction {separator : α} {P : List α → Prop}
    (hpart : ∀ part, separator ∉ part → P part)
    (hmore : ∀ part rest, separator ∉ part → P rest → P (part ++ separator :: rest))
    (s : List α) : P s := by
  induction hlen : s.length using Nat.strongRecOn generalizing s with
  | _ n ih =>
      by_cases hmem : separator ∈ s
      · obtain ⟨part, rest, rfl, hpart'⟩ := List.eq_append_cons_of_mem hmem
        refine hmore part rest hpart' (ih rest.length ?_ rest rfl)
        rw [← hlen, List.length_append, List.length_cons]
        omega
      · exact hpart s hmem

section MapParts

variable {separator : α} {f : List α → List α}

theorem mapParts_of_notMem {part : List α} (h : separator ∉ part) :
    mapParts separator f part = f part := by
  rw [mapParts, List.splitOn_eq_singleton h, List.map_singleton, List.intercalate_singleton]

theorem mapParts_append_cons {part : List α} (h : separator ∉ part) (rest : List α) :
    mapParts separator f (part ++ separator :: rest) =
      f part ++ separator :: mapParts separator f rest := by
  obtain ⟨first, others, hparts⟩ :=
    List.exists_cons_of_ne_nil (List.splitOn_ne_nil separator rest)
  rw [mapParts, List.splitOn_append_cons_self_of_not_mem h, mapParts, hparts, List.map_cons,
    List.map_cons, List.intercalate_cons_cons]
  simp

/-- If no part gets longer, the list does not. -/
theorem length_mapParts_le (h : ∀ part, separator ∉ part → (f part).length ≤ part.length)
    (s : List α) : (mapParts separator f s).length ≤ s.length := by
  induction s using parts_induction with
  | hpart part hpart =>
      rw [mapParts_of_notMem hpart]
      exact h part hpart
  | hmore part rest hpart ih =>
      rw [mapParts_append_cons hpart, List.length_append, List.length_append, List.length_cons,
        List.length_cons]
      exact Nat.add_le_add (h part hpart) (Nat.succ_le_succ ih)

/-- **Replacing the parts a second time** changes nothing, if that holds of each part. -/
theorem mapParts_mapParts (hnot : ∀ part, separator ∉ part → separator ∉ f part)
    (h : ∀ part, separator ∉ part → f (f part) = f part) (s : List α) :
    mapParts separator f (mapParts separator f s) = mapParts separator f s := by
  induction s using parts_induction with
  | hpart part hpart =>
      rw [mapParts_of_notMem hpart, mapParts_of_notMem (hnot part hpart), h part hpart]
  | hmore part rest hpart ih =>
      rw [mapParts_append_cons hpart, mapParts_append_cons (hnot part hpart), h part hpart, ih]

end MapParts

end DdTrace.Lib
