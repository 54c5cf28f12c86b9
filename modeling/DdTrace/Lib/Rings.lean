import Mathlib.Algebra.BigOperators.Group.List.Basic
import Mathlib.Algebra.Order.BigOperators.Group.List
import Mathlib.Data.List.Rotate
import Mathlib.Tactic.Common

/-!
# Rings

* `window`: the latest entries of a history, with blanks where it is too short.
* `IsRing`: cells of which the next one to be written is the oldest entry of a window.
* `IsRing.new`, `IsRing.push`: how rings come about.
* `IsRing.perm_window`: their cells are the entries of the window.
-/

namespace DdTrace.Lib.Rings

variable {α : Type}

/-- The latest entries of a history that is listed from the latest one on. -/
def window (size : Nat) (blank : α) (history : List α) : List α :=
  (history ++ List.replicate size blank).take size

/-- The cells, from the next one to be written on, are the window from its oldest entry on. -/
structure IsRing (cells : List α) (index : Nat) (blank : α) (history : List α) : Prop where
  index_lt : index < cells.length
  reverse_rotate : (cells.rotate index).reverse = window cells.length blank history

variable {cells history : List α} {index : Nat} {blank : α}

/-- A longer history shifts the window by one. -/
theorem window_cons (size : Nat) (v : α) :
    window (size + 1) blank (v :: history) = v :: (window (size + 1) blank history).take size := by
  unfold window
  rw [List.cons_append, List.take_succ_cons, List.take_take, Nat.min_eq_left (Nat.le_succ size)]

/-- Writing a cell, seen from this cell on. -/
theorem rotate_set (h : index < cells.length) (v : α) :
    (cells.set index v).rotate index = v :: (cells.rotate index).tail := by
  have h' : index < (cells.set index v).length := by simpa using h
  have hset : (cells.set index v).drop index = v :: cells.drop (index + 1) := by
    rw [List.drop_eq_getElem_cons h', List.getElem_set_self,
      List.drop_set_of_lt (Nat.lt_succ_self index)]
  rw [List.rotate_eq_drop_append_take h'.le, List.rotate_eq_drop_append_take h.le, hset,
    List.take_set_of_le (le_refl index), List.drop_eq_getElem_cons h]
  rfl

/-- A ring of blanks. -/
theorem IsRing.new {size : Nat} (h : 0 < size) :
    IsRing (List.replicate size blank) 0 blank [] where
  index_lt := by simpa using h
  reverse_rotate := by simp [window]

/-- Writing the oldest cell. -/
theorem IsRing.push (h : IsRing cells index blank history) (v : α) :
    IsRing (cells.set index v) ((index + 1) % cells.length) blank (v :: history) where
  index_lt := by
    rw [List.length_set]
    exact Nat.mod_lt _ (Nat.zero_lt_of_lt h.index_lt)
  reverse_rotate := by
    obtain ⟨size, hsize⟩ : ∃ size, cells.length = size + 1 :=
      ⟨cells.length - 1, by have hlt := h.index_lt; omega⟩
    have hrotate : (cells.set index v).rotate ((index + 1) % cells.length) =
        (cells.rotate index).tail ++ [v] := by
      rw [← List.length_set (i := index) (a := v), List.rotate_mod, ← List.rotate_rotate,
        rotate_set h.index_lt]
      simp
    have hlength : (cells.rotate index).reverse.length = size + 1 := by simp [hsize]
    rw [hrotate, List.reverse_append, List.length_set, hsize, window_cons, ← hsize,
      ← h.reverse_rotate, ← List.dropLast_reverse, List.dropLast_eq_take, hlength]
    rfl

/-- The cells are the entries of the window. -/
theorem IsRing.perm_window (h : IsRing cells index blank history) :
    cells.Perm (window cells.length blank history) := by
  rw [← h.reverse_rotate]
  exact ((List.rotate_perm cells index).symm).trans (List.reverse_perm _).symm

/-- Two rings that are written at the same places, side by side. -/
theorem IsRing.zip {β γ : Type} {cells' : List β} {blank' : β} {entries : List γ} {f : γ → α}
    {g : γ → β} (h : IsRing cells index blank (entries.map f))
    (h' : IsRing cells' index blank' (entries.map g)) (hlength : cells.length = cells'.length) :
    IsRing (cells.zip cells') index (blank, blank') (entries.map fun c => (f c, g c)) where
  index_lt := by
    rw [List.length_zip, ← hlength, Nat.min_self]
    exact h.index_lt
  reverse_rotate := by
    have hrotate : (cells.zip cells').rotate index =
        (cells.rotate index).zip (cells'.rotate index) := by
      rw [List.zip_eq_zipWith, List.zip_eq_zipWith]
      exact List.zipWith_rotate_distrib Prod.mk cells cells' index hlength
    have hreverse : ((cells.rotate index).zip (cells'.rotate index)).reverse =
        (cells.rotate index).reverse.zip (cells'.rotate index).reverse := by
      rw [List.zip_eq_zipWith, List.zip_eq_zipWith]
      exact List.reverse_zipWith (by simpa using hlength)
    rw [hrotate, hreverse, h.reverse_rotate, h'.reverse_rotate, List.length_zip, ← hlength,
      Nat.min_self, window, window, window, List.zip_eq_zipWith, ← List.take_zipWith,
      ← List.zip_eq_zipWith, List.zip_append (by simp), List.zip_map', List.zip_replicate']

/-- An entry of a window is a blank or an entry of the history. -/
theorem mem_window {size : Nat} {a : α} (h : a ∈ window size blank history) :
    a ∈ history ∨ a = blank := by
  rcases List.mem_append.mp (List.mem_of_mem_take h) with hmem | hmem
  · exact .inl hmem
  · exact .inr (List.eq_of_mem_replicate hmem)

end DdTrace.Lib.Rings
