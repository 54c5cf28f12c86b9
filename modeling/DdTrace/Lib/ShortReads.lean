import Mathlib.Data.List.Basic
import Mathlib.Tactic.Common

/-!
# Sources with short reads

A finite source of elements that a reader takes from in pieces. A read asks for a number of
elements and gets at least one and at most that many, as the transport likes; it gets none exactly
if it asked for none or the source is at its end.

* `Source.read`: one read.
* `read_append`, `length_read_le`, `length_read_eq_zero_iff`: what a read returns.
* `read_one_cons`: a read of one element is never short.
* `read_split`: a read of some of the next elements.
* `length_rest_read`: a read that returns something shortens the rest, on which loops over reads
  recurse.
-/

namespace DdTrace.Lib.ShortReads

/-- A source of elements, with the transport's choices. -/
structure Source (α : Type) where
  /-- What has not been read. -/
  rest : List α
  /-- How many elements more than one the transport has ready at each read. -/
  ready : Nat → Nat
  /-- The number of reads so far. -/
  reads : Nat

namespace Source

variable {α : Type}

/-- A source before its first read. -/
def ofList (elements : List α) (ready : Nat → Nat) : Source α := ⟨elements, ready, 0⟩

/-- How many elements a read returns. -/
def amount (s : Source α) (count : Nat) : Nat :=
  min (min (s.ready s.reads + 1) count) s.rest.length

/-- Read up to `count` elements. -/
def read (s : Source α) (count : Nat) : List α × Source α :=
  (s.rest.take (s.amount count),
    { s with rest := s.rest.drop (s.amount count), reads := s.reads + 1 })

/-- What is read and what is left are what was there. -/
@[simp] theorem read_append (s : Source α) (count : Nat) :
    (s.read count).1 ++ (s.read count).2.rest = s.rest := List.take_append_drop _ _

theorem length_read (s : Source α) (count : Nat) : (s.read count).1.length = s.amount count := by
  rw [read, List.length_take, amount, Nat.min_assoc, Nat.min_self]

theorem length_read_le (s : Source α) (count : Nat) : (s.read count).1.length ≤ count := by
  rw [length_read, amount]
  omega

/-- A read returns nothing exactly if it asked for nothing or the source is at its end. -/
theorem length_read_eq_zero_iff (s : Source α) (count : Nat) :
    (s.read count).1.length = 0 ↔ count = 0 ∨ s.rest = [] := by
  rw [length_read, amount, ← List.length_eq_zero_iff]
  omega

/-- A read that returns something shortens the rest. -/
theorem length_rest_read (s : Source α) (count : Nat) :
    (s.read count).2.rest.length + (s.read count).1.length = s.rest.length := by
  have hlen := congrArg List.length (s.read_append count)
  rw [List.length_append] at hlen
  omega

/-- A read of one element returns the next one. -/
theorem read_one_cons {s : Source α} {a : α} {v : List α} (h : s.rest = a :: v) :
    (s.read 1).1 = [a] ∧ (s.read 1).2.rest = v := by
  have hamount : s.amount 1 = 1 := by
    rw [amount, h, List.length_cons]
    omega
  rw [read, hamount, h]
  exact ⟨rfl, rfl⟩

/-- A read in front of `w ++ v` that asks for no more than `w` splits `w`. -/
theorem read_split {s : Source α} {w v : List α} {count : Nat} (h : s.rest = w ++ v)
    (hcount : count ≤ w.length) :
    ∃ u, w = (s.read count).1 ++ u ∧ (s.read count).2.rest = u ++ v := by
  have hlen : (s.read count).1.length ≤ w.length := Nat.le_trans (s.length_read_le count) hcount
  have hall : (s.read count).1 ++ (s.read count).2.rest = w ++ v := (s.read_append count).trans h
  obtain ⟨u, hw, hrest⟩ | ⟨u, hread, hv⟩ := List.append_eq_append_iff.mp hall
  · exact ⟨u, hw, hrest⟩
  · have hu : u = [] := by
      have h' := congrArg List.length hread
      rw [List.length_append] at h'
      exact List.eq_nil_of_length_eq_zero (by omega)
    subst hu
    rw [List.append_nil] at hread
    exact ⟨[], by rw [hread, List.append_nil], hv.symm⟩

end Source

end DdTrace.Lib.ShortReads
