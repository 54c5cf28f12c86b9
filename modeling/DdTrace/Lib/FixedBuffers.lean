import Mathlib.Data.List.Basic
import Mathlib.Tactic.Common

/-!
# Buffers of a fixed size

A buffer that is filled from the front, chunk by chunk, and may not be filled any further.

* `FixedBuffer.write`: one chunk, if it fits; `writeAll_eq_some_iff`: any chunks.
* `WriteRange`: where a chunk is written, whether it fits or not; `inside_ranges_iff`: the chunks
  are written inside exactly if all of them together fit.
-/

namespace DdTrace.Lib

variable {α : Type*} {capacity : Nat}

/-- What has been written into an array of `capacity` elements. -/
structure FixedBuffer (α : Type*) (capacity : Nat) where
  contents : List α
  fits : contents.length ≤ capacity

namespace FixedBuffer

/-- Nothing has been written. -/
def empty : FixedBuffer α capacity := ⟨[], Nat.zero_le _⟩

/-- Write a chunk behind what has been written; `none` if it does not fit. -/
def write (b : FixedBuffer α capacity) (chunk : List α) : Option (FixedBuffer α capacity) :=
  if h : (b.contents ++ chunk).length ≤ capacity then some ⟨b.contents ++ chunk, h⟩ else none

/-- Write chunks one after another. -/
def writeAll (b : FixedBuffer α capacity) : List (List α) → Option (FixedBuffer α capacity)
  | [] => some b
  | chunk :: chunks => (b.write chunk).bind fun b => b.writeAll chunks

/-- The first elements, which have all been written. -/
def front (b : FixedBuffer α capacity) (n : Nat) : Option (List α) :=
  if n ≤ b.contents.length then some (b.contents.take n) else none

/-- What has been written is what there was, with the chunks behind it. -/
theorem writeAll_eq_some_iff {b b' : FixedBuffer α capacity} {chunks : List (List α)} :
    b.writeAll chunks = some b' ↔ b'.contents = b.contents ++ chunks.flatten := by
  induction chunks generalizing b with
  | nil =>
      obtain ⟨contents, fits⟩ := b
      obtain ⟨contents', fits'⟩ := b'
      simp [writeAll, eq_comm]
  | cons chunk chunks ih =>
      rw [writeAll, List.flatten_cons, ← List.append_assoc, write]
      split
      · rw [Option.bind_some, ih]
      · rename_i hover
        refine iff_of_false (by simp) fun heq => hover ?_
        have hfits := b'.fits
        rw [heq, List.length_append] at hfits
        exact Nat.le_trans (Nat.le_add_right _ _) hfits

/-- The front of a buffer that is read to its end. -/
theorem front_length (b : FixedBuffer α capacity) :
    b.front b.contents.length = some b.contents := by
  simp [front]

end FixedBuffer

/-- A write of `length` elements from `offset` on into an array of `capacity` elements. -/
structure WriteRange where
  capacity : Nat
  offset : Nat
  length : Nat
  deriving DecidableEq, Repr

/-- All the elements that are written are elements of the array. -/
def WriteRange.Inside (w : WriteRange) : Prop := w.offset + w.length ≤ w.capacity

instance (w : WriteRange) : Decidable w.Inside := inferInstanceAs (Decidable (_ ≤ _))

/-- The ranges of chunks that are written one after another, the first from `offset` on. -/
def ranges (capacity : Nat) : Nat → List (List α) → List WriteRange
  | _, [] => []
  | offset, chunk :: chunks =>
      ⟨capacity, offset, chunk.length⟩ :: ranges capacity (offset + chunk.length) chunks

/-- **Writes that stay inside**: all of them do if the last one does. -/
theorem inside_ranges_iff {offset : Nat} {chunks : List (List α)} (hoffset : offset ≤ capacity) :
    (∀ w ∈ ranges capacity offset chunks, w.Inside) ↔
      offset + chunks.flatten.length ≤ capacity := by
  induction chunks generalizing offset with
  | nil => simpa [ranges] using hoffset
  | cons chunk chunks ih =>
      rw [ranges, List.forall_mem_cons, List.flatten_cons, List.length_append, ← Nat.add_assoc]
      constructor
      · rintro ⟨hfirst, hrest⟩
        exact (ih hfirst).mp hrest
      · intro hfits
        have hfirst : offset + chunk.length ≤ capacity := Nat.le_trans (Nat.le_add_right _ _) hfits
        exact ⟨hfirst, (ih hfirst).mpr hfits⟩

end DdTrace.Lib
