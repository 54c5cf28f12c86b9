import DdTrace.Lib.ArrayHeap

/-!
# `ArrayBuilder<T>` and the segments it hands out

The builder is the growing array in which a trace context collects its closed spans. It is a
value (a struct) that holds a reference to a managed array, so its operations run against a heap
of arrays, and so does reading an `ArraySegment` that was handed out earlier: that a segment is
not changed by a later `Add` is a fact about the heap (`ArrayBuilder.add_spec`, the clause on the
other arrays). Array lengths are natural numbers; the runtime's own limit on the length of an
array is not modelled.

Source: `Util/ArrayBuilder.cs`.
-/

namespace DdTrace.Tracing

open DdTrace.Lib

variable {α : Type*}

/-- A slice of a managed array; `none` stands for the shared empty array.
Source: `System.ArraySegment<T>` -/
structure ArraySegment where
  /-- The array, by reference. -/
  array : Option Nat
  /-- The first cell of the slice. -/
  offset : Nat
  /-- The number of cells of the slice. -/
  count : Nat
  deriving DecidableEq, Repr

/-- What the segment shows in the heap `h`: a segment is a view, so this depends on the heap at
the time of reading. -/
def ArraySegment.toList (h : ArrayHeap α) (seg : ArraySegment) : List (Option α) :=
  match seg.array with
  | none => []
  | some r => h.slice r seg.offset seg.count

/-- The struct `ArrayBuilder<T>`; its default value is `⟨none, 0⟩`.
Source: `ArrayBuilder.cs`, `_array`, `_count` -/
structure ArrayBuilder where
  /-- `_array`, by reference; `none` is null. -/
  array : Option Nat := none
  /-- `_count`. -/
  count : Nat := 0
  deriving DecidableEq, Repr

namespace ArrayBuilder

/-- `DefaultInitialCapacity`. -/
def defaultInitialCapacity : Nat := 4

/-- The constructor with an initial capacity.
Source: `ArrayBuilder.cs`, `ArrayBuilder(int)` -/
def ofCapacity (h : ArrayHeap α) (initialCapacity : Nat) : ArrayHeap α × ArrayBuilder :=
  ((h.alloc initialCapacity).1, ⟨some (h.alloc initialCapacity).2, 0⟩)

/-- Make room for one more item: allocate the first array, keep one that is big enough, or copy
into one twice as long.
Source: `ArrayBuilder.cs`, `GrowIfNeeded` -/
def growIfNeeded (h : ArrayHeap α) (b : ArrayBuilder) : ArrayHeap α × ArrayBuilder :=
  match b.array with
  | none => ((h.alloc defaultInitialCapacity).1, { b with array := some h.length })
  | some r =>
      if b.count < (h.cells r).length then (h, b)
      else
        (((h.alloc ((h.cells r).length * 2)).1.copyInto r h.length),
          { b with array := some h.length })

/-- Append an item; `none` is the exception of a store outside the array.
Source: `ArrayBuilder.cs`, `Add` -/
def add (h : ArrayHeap α) (b : ArrayBuilder) (item : α) : Option (ArrayHeap α × ArrayBuilder) :=
  let (h, b) := growIfNeeded h b
  match b.array with
  | none => none
  | some r =>
      if b.count < (h.cells r).length then
        some (h.store r b.count item, { b with count := b.count + 1 })
      else none

/-- The segment of the items added so far.
Source: `ArrayBuilder.cs`, `GetArray` -/
def getArray (b : ArrayBuilder) : ArraySegment := ⟨b.array, 0, b.count⟩

/-! ## The builder's invariant -/

/-- The builder's items fit in its array, which lives in the heap and is not empty. -/
structure WF (h : ArrayHeap α) (b : ArrayBuilder) : Prop where
  /-- Without an array there are no items. -/
  empty : b.array = none → b.count = 0
  /-- The array is allocated. -/
  alive : ∀ r, b.array = some r → r < h.length
  /-- The items fit. -/
  fits : ∀ r, b.array = some r → b.count ≤ (h.cells r).length
  /-- Doubling the array makes it longer. -/
  pos : ∀ r, b.array = some r → 0 < (h.cells r).length

/-- The default builder is well formed in every heap. -/
theorem wf_default (h : ArrayHeap α) : WF h {} :=
  ⟨fun _ => rfl, fun _ hr => by simp at hr, fun _ hr => by simp at hr, fun _ hr => by simp at hr⟩

/-- A builder with positive capacity is well formed. -/
theorem wf_ofCapacity (h : ArrayHeap α) {n : Nat} (hn : 0 < n) :
    WF (ofCapacity h n).1 (ofCapacity h n).2 := by
  refine ⟨fun hr => by simp [ofCapacity] at hr, ?_, ?_, ?_⟩
  all_goals
    intro r hr
    simp only [ofCapacity, ArrayHeap.alloc_snd, Option.some.injEq] at hr
    subst hr
    simp [ofCapacity, hn]

/-- The items added so far, as the heap `h` holds them. -/
def contents (h : ArrayHeap α) (b : ArrayBuilder) : List (Option α) := (getArray b).toList h

@[simp] theorem contents_default (h : ArrayHeap α) : contents h {} = [] := rfl

@[simp] theorem contents_ofCapacity (h : ArrayHeap α) (n : Nat) :
    contents (ofCapacity h n).1 (ofCapacity h n).2 = [] := by
  simp [contents, getArray, ofCapacity, ArraySegment.toList, ArrayHeap.slice]

/-- A well-formed builder holds as many items as it counts. -/
theorem length_contents {h : ArrayHeap α} {b : ArrayBuilder} (hwf : WF h b) :
    (contents h b).length = b.count := by
  cases harr : b.array with
  | none => simp [contents, getArray, ArraySegment.toList, harr, hwf.empty harr]
  | some r =>
      have := hwf.fits r harr
      simp only [contents, getArray, ArraySegment.toList, harr, ArrayHeap.slice, List.drop_zero,
        List.length_take]
      omega

/-- What an operation on a builder may do to the heap: arrays already there and not the
builder's keep their cells, and the builder's array afterwards is its old one or a new one. -/
structure Frame (h : ArrayHeap α) (b : ArrayBuilder) (h' : ArrayHeap α) (b' : ArrayBuilder) :
    Prop where
  /-- Arrays are never freed. -/
  grows : h.length ≤ h'.length
  /-- Other arrays keep their cells. -/
  others : ∀ r, r < h.length → b.array ≠ some r → h'.cells r = h.cells r
  /-- The builder never takes over an array that was not its own. -/
  fresh : ∀ r, b'.array = some r → b.array = some r ∨ h.length ≤ r

theorem Frame.refl (h : ArrayHeap α) (b : ArrayBuilder) : Frame h b h b :=
  ⟨le_rfl, fun _ _ _ => rfl, fun _ hr => Or.inl hr⟩

/-- After `GrowIfNeeded` there is a free cell, the items are the same, and other arrays are
untouched. -/
theorem growIfNeeded_spec {h : ArrayHeap α} {b : ArrayBuilder} (hwf : WF h b) :
    ∃ r, (growIfNeeded h b).2.array = some r ∧ (growIfNeeded h b).2.count = b.count ∧
      b.count < ((growIfNeeded h b).1.cells r).length ∧ r < (growIfNeeded h b).1.length ∧
      ((growIfNeeded h b).1.cells r).take b.count = contents h b ∧
      Frame h b (growIfNeeded h b).1 (growIfNeeded h b).2 := by
  cases harr : b.array with
  | none =>
      have h0 := hwf.empty harr
      refine ⟨h.length, by simp [growIfNeeded, harr], by simp [growIfNeeded, harr], ?_, ?_, ?_, ?_⟩
      · simp [growIfNeeded, harr, h0, defaultInitialCapacity]
      · simp [growIfNeeded, harr]
      · simp [growIfNeeded, harr, h0, contents, getArray, ArraySegment.toList]
      · refine ⟨by simp [growIfNeeded, harr], fun r hr _ => ?_, fun r hr => ?_⟩
        · simpa [growIfNeeded, harr] using ArrayHeap.cells_alloc_of_lt h _ hr
        · simp only [growIfNeeded, harr, Option.some.injEq] at hr
          exact Or.inr hr.le
  | some r =>
      have hr := hwf.alive r harr
      have hfits := hwf.fits r harr
      have hpos := hwf.pos r harr
      by_cases hroom : b.count < (h.cells r).length
      · have hg : growIfNeeded h b = (h, b) := by simp [growIfNeeded, harr, hroom]
        rw [hg]
        refine ⟨r, harr, rfl, hroom, hr, ?_, Frame.refl h b⟩
        simp [contents, getArray, ArraySegment.toList, harr, ArrayHeap.slice]
      · -- the array is full: `newArray` is the next reference, and the old cells are its start
        let h₁ := (h.alloc ((h.cells r).length * 2)).1
        have hg : growIfNeeded h b =
            (h₁.copyInto r h.length, { b with array := some h.length }) := by
          simp [growIfNeeded, harr, hroom, h₁]
        have hold : h₁.cells r = h.cells r := ArrayHeap.cells_alloc_of_lt h _ hr
        have hlen : h₁.length = h.length + 1 := ArrayHeap.length_alloc h _
        have hnew : (h₁.copyInto r h.length).cells h.length =
            h.cells r ++ List.replicate (h.cells r).length none := by
          rw [ArrayHeap.cells_copyInto_self _ (by omega), hold]
          simp only [h₁, ArrayHeap.cells_alloc_self, List.drop_replicate]
          congr 2
          omega
        rw [hg]
        refine ⟨h.length, rfl, rfl, ?_, by simp [hlen], ?_, ?_⟩
        · rw [hnew, List.length_append, List.length_replicate]
          omega
        · rw [hnew, List.take_append_of_le_length hfits]
          simp [contents, getArray, ArraySegment.toList, harr, ArrayHeap.slice]
        · refine ⟨by simp [hlen], fun r' hr' _ => ?_, fun r' hr' => ?_⟩
          · rw [ArrayHeap.cells_copyInto_of_ne _ (by omega)]
            exact ArrayHeap.cells_alloc_of_lt h _ hr'
          · simp only [Option.some.injEq] at hr'
            exact Or.inr hr'.le

/-- **`Add` appends.** On a well-formed builder it succeeds, keeps the invariant, puts the item
after the ones already there, and leaves every array that is not the builder's as it was. -/
theorem add_spec {h : ArrayHeap α} {b : ArrayBuilder} (hwf : WF h b) (item : α) :
    ∃ h' b', add h b item = some (h', b') ∧ WF h' b' ∧ b'.count = b.count + 1 ∧
      contents h' b' = contents h b ++ [some item] ∧ Frame h b h' b' := by
  obtain ⟨r, harr, hcount, hroom, hr, htake, hframe⟩ := growIfNeeded_spec hwf
  set h₁ := (growIfNeeded h b).1 with hh₁
  set b₁ := (growIfNeeded h b).2 with hb₁
  have hcells : (h₁.store r b.count item).cells r = (h₁.cells r).set b.count (some item) :=
    ArrayHeap.cells_store_self h₁ hr _ _
  refine ⟨h₁.store r b.count item, { b₁ with count := b.count + 1 }, ?_, ?_, rfl, ?_, ?_⟩
  · simp [add, ← hh₁, ← hb₁, harr, hcount, hroom]
  · refine ⟨fun hn => by simp [harr] at hn, ?_, ?_, ?_⟩
    all_goals
      intro r' hr'
      rw [show ({ b₁ with count := b.count + 1 } : ArrayBuilder).array = some r from harr,
        Option.some.injEq] at hr'
      subst hr'
    · simpa using hr
    · rw [hcells, List.length_set]
      exact hroom
    · rw [hcells, List.length_set]
      omega
  · rw [← htake]
    simp only [contents, getArray, ArraySegment.toList, harr, ArrayHeap.slice, List.drop_zero,
      hcells]
    rw [List.take_set, List.take_succ_eq_append_getElem hroom, List.set_append_right]
    · simp only [List.length_take, Nat.min_eq_left hroom.le, Nat.sub_self, List.set_cons_zero]
    · simp only [List.length_take, Nat.min_eq_left hroom.le, le_refl]
  · refine ⟨by simpa using hframe.grows, fun r' hr' hne => ?_, hframe.fresh⟩
    have hne' : r' ≠ r := by
      rintro rfl
      rcases hframe.fresh r' harr with hold | hnew
      · exact hne hold
      · omega
    rw [ArrayHeap.cells_store_of_ne _ hne', hframe.others r' hr' hne]

end ArrayBuilder

end DdTrace.Tracing
