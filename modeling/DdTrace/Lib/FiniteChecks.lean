import Mathlib.Data.List.Basic
import Mathlib.Tactic.Common

/-!
# Properties checked one by one

A property of the elements of a list, and one of all bytes, from a check that can be evaluated.
-/

namespace DdTrace.Lib

/-- A property of the elements of a list, checked one by one. -/
theorem forall_mem_of_all {α : Type} {P : α → Prop} [DecidablePred P] {l : List α}
    (h : (l.all fun a => decide (P a)) = true) : ∀ a ∈ l, P a := by
  intro a ha
  exact of_decide_eq_true (List.all_eq_true.mp h a ha)

/-- A property of bytes is checked on the numbers below 256. -/
theorem forall_byte {P : UInt8 → Prop} (h : ∀ n < 256, P (UInt8.ofNat n)) (b : UInt8) : P b := by
  have hb := h b.toNat b.toNat_lt
  rwa [UInt8.ofNat_toNat] at hb

end DdTrace.Lib
