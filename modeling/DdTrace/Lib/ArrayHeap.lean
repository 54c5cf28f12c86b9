import Mathlib.Data.List.Basic
import Mathlib.Order.Lattice
import Mathlib.Order.Nat
import Mathlib.Tactic.Common

/-!
# A heap of arrays held by reference

`ArrayHeap α` is the list of the arrays allocated so far; a reference is an index into it, and a
cell is `none` until something is stored there. The operations are the ones managed arrays have
(allocate, store, read a slice, copy one array over the start of another), and the lemmas are the
frame rules: an operation on one array leaves every other array as it was.
-/

namespace DdTrace.Lib

variable {α : Type*}

/-- The arrays allocated so far; the array with reference `r` is the `r`-th. -/
abbrev ArrayHeap (α : Type*) := List (List (Option α))

namespace ArrayHeap

/-- The cells of the array with reference `r`. -/
def cells (h : ArrayHeap α) (r : Nat) : List (Option α) := h.getD r []

/-- Allocate an array of `n` empty cells; its reference is the second component. -/
def alloc (h : ArrayHeap α) (n : Nat) : ArrayHeap α × Nat :=
  (h ++ [List.replicate n none], h.length)

/-- Store `x` in cell `i` of the array `r`. -/
def store (h : ArrayHeap α) (r i : Nat) (x : α) : ArrayHeap α :=
  h.set r ((h.cells r).set i (some x))

/-- Copy all cells of the array `src` over the first cells of the array `dst`. -/
def copyInto (h : ArrayHeap α) (src dst : Nat) : ArrayHeap α :=
  h.set dst (h.cells src ++ (h.cells dst).drop (h.cells src).length)

/-- The slice of `n` cells of the array `r` from `offset`. -/
def slice (h : ArrayHeap α) (r offset n : Nat) : List (Option α) :=
  ((h.cells r).drop offset).take n

@[simp] theorem alloc_snd (h : ArrayHeap α) (n : Nat) : (h.alloc n).2 = h.length := rfl

@[simp] theorem length_alloc (h : ArrayHeap α) (n : Nat) :
    (h.alloc n).1.length = h.length + 1 := by simp [alloc]

@[simp] theorem length_store (h : ArrayHeap α) (r i : Nat) (x : α) :
    (h.store r i x).length = h.length := by simp [store]

@[simp] theorem length_copyInto (h : ArrayHeap α) (src dst : Nat) :
    (h.copyInto src dst).length = h.length := by simp [copyInto]

/-- Allocation leaves the arrays already there as they were. -/
theorem cells_alloc_of_lt (h : ArrayHeap α) (n : Nat) {r : Nat} (hr : r < h.length) :
    (h.alloc n).1.cells r = h.cells r := by
  simp [alloc, cells, List.getD, List.getElem?_append_left hr]

/-- The fresh array has `n` empty cells. -/
@[simp] theorem cells_alloc_self (h : ArrayHeap α) (n : Nat) :
    (h.alloc n).1.cells h.length = List.replicate n none := by
  simp [alloc, cells, List.getD]

/-- A store leaves every other array as it was. -/
theorem cells_store_of_ne (h : ArrayHeap α) {r r' : Nat} (hne : r' ≠ r) (i : Nat) (x : α) :
    (h.store r i x).cells r' = h.cells r' := by
  simp [store, cells, List.getD, List.getElem?_set_ne hne.symm]

/-- A store sets one cell of its own array. -/
theorem cells_store_self (h : ArrayHeap α) {r : Nat} (hr : r < h.length) (i : Nat) (x : α) :
    (h.store r i x).cells r = (h.cells r).set i (some x) := by
  simp [store, cells, List.getD, hr]

/-- A copy leaves every array but its destination as it was. -/
theorem cells_copyInto_of_ne (h : ArrayHeap α) {dst r : Nat} (hne : r ≠ dst) (src : Nat) :
    (h.copyInto src dst).cells r = h.cells r := by
  simp [copyInto, cells, List.getD, List.getElem?_set_ne hne.symm]

/-- A copy puts the source's cells in front of the destination's remaining ones. -/
theorem cells_copyInto_self (h : ArrayHeap α) {dst : Nat} (hdst : dst < h.length) (src : Nat) :
    (h.copyInto src dst).cells dst =
      h.cells src ++ (h.cells dst).drop (h.cells src).length := by
  simp [copyInto, cells, List.getD, hdst]

/-- Slices of arrays with the same cells are the same. -/
theorem slice_congr {h h' : ArrayHeap α} {r : Nat} (hc : h'.cells r = h.cells r) (offset n : Nat) :
    h'.slice r offset n = h.slice r offset n := by
  rw [slice, slice, hc]

end ArrayHeap

end DdTrace.Lib
