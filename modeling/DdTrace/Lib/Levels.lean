import Mathlib.Algebra.Group.Int.Defs
import Mathlib.Algebra.Ring.Nat
import Mathlib.Data.Finset.Card
import Mathlib.Order.Interval.Finset.Nat
import Mathlib.Tactic.Common

/-!
# Levels that are climbed

Something climbs in steps, each from a height of its own and by a rise of its own. If each level up
to a height is climbed by one of the steps, the height is at most the sum of their rises; it does
not matter how often a step is made, nor what falls in between.

* `card_le_of_climbed`: the levels are at most as many as the rises allow.
* `le_of_climbed`: the height.
-/

namespace DdTrace.Lib

variable {α : Type} {low rise : α → Nat} {steps : List α}

/-- Levels that are climbed are not more than the rises of the steps. -/
theorem card_le_of_climbed (levels : Finset Nat)
    (h : ∀ level ∈ levels, ∃ a ∈ steps, low a < level ∧ level ≤ low a + rise a) :
    levels.card ≤ (steps.map rise).sum := by
  induction steps generalizing levels with
  | nil =>
      have hnone : levels = ∅ := by
        apply Finset.eq_empty_of_forall_notMem
        intro level hlevel
        obtain ⟨a, ha, -⟩ := h level hlevel
        cases ha
      rw [hnone]
      exact Nat.zero_le _
  | cons a steps ih =>
      have hrest : (levels \ Finset.Ioc (low a) (low a + rise a)).card ≤ (steps.map rise).sum := by
        refine ih _ fun level hlevel => ?_
        obtain ⟨hmem, hout⟩ := Finset.mem_sdiff.mp hlevel
        obtain ⟨b, hb, hclimbs⟩ := h level hmem
        rcases List.mem_cons.mp hb with rfl | hb
        · exact absurd (Finset.mem_Ioc.mpr hclimbs) hout
        · exact ⟨b, hb, hclimbs⟩
      have hsplit : levels.card ≤ (levels \ Finset.Ioc (low a) (low a + rise a)).card +
          (Finset.Ioc (low a) (low a + rise a)).card := Finset.card_le_card_sdiff_add_card
      rw [Nat.card_Ioc, Nat.add_sub_cancel_left] at hsplit
      rw [List.map_cons, List.sum_cons]
      omega

/-- **A height is reached** only from as far below as the steps rise together. -/
theorem le_of_climbed {start height : Nat}
    (h : ∀ level, start < level → level ≤ height →
      ∃ a ∈ steps, low a < level ∧ level ≤ low a + rise a) :
    height ≤ start + (steps.map rise).sum := by
  have hcard := card_le_of_climbed (Finset.Ioc start height) fun level hlevel =>
    h level (Finset.mem_Ioc.mp hlevel).1 (Finset.mem_Ioc.mp hlevel).2
  rw [Nat.card_Ioc] at hcard
  omega

end DdTrace.Lib
