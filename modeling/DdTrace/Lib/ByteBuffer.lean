import DdTrace.Lib.LittleEndian

/-!
# Byte buffers with random-access stores

A `ByteBuffer` has a fixed size and arbitrary initial contents. `write` stores a byte list at a
position and fails where it would leave the buffer; `slice` reads a range. The lemmas are the two
every encoder with later fix-ups needs: what was stored is read back, and a store leaves every
byte it does not meet as it was.
-/

namespace DdTrace.Lib

/-- A byte array of fixed size; what is outside `size` is never read. -/
structure ByteBuffer where
  /-- The number of bytes allocated. -/
  size : Nat
  /-- The contents, by position. -/
  bytes : Nat → UInt8

namespace ByteBuffer

/-- Store `bs` from position `off`; no result where the range leaves the buffer. -/
def write (b : ByteBuffer) (off : Nat) (bs : List UInt8) : Option ByteBuffer :=
  if off + bs.length ≤ b.size then
    some { b with bytes := fun i =>
      if off ≤ i ∧ i < off + bs.length then bs.getD (i - off) 0 else b.bytes i }
  else none

/-- The `n` bytes from position `off`. -/
def slice (b : ByteBuffer) (off n : Nat) : List UInt8 :=
  (List.range n).map fun i => b.bytes (off + i)

@[simp] theorem length_slice (b : ByteBuffer) (off n : Nat) : (b.slice off n).length = n := by
  simp [slice]

@[simp] theorem slice_zero (b : ByteBuffer) (off : Nat) : b.slice off 0 = [] := rfl

/-- A range depends only on the bytes in it. -/
theorem slice_congr {b b' : ByteBuffer} {off n : Nat}
    (h : ∀ p, off ≤ p → p < off + n → b'.bytes p = b.bytes p) : b'.slice off n = b.slice off n := by
  refine List.map_congr_left fun i hi => h (off + i) (Nat.le_add_right off i) ?_
  exact Nat.add_lt_add_left (List.mem_range.mp hi) off

/-- A range is its two parts one after the other. -/
theorem slice_add (b : ByteBuffer) (off m n : Nat) :
    b.slice off (m + n) = b.slice off m ++ b.slice (off + m) n := by
  unfold slice
  rw [List.range_add, List.map_append, List.map_map]
  simp [Function.comp_def, Nat.add_assoc]

/-- A store keeps the size. -/
theorem size_write {b b' : ByteBuffer} {off : Nat} {bs : List UInt8}
    (h : b.write off bs = some b') : b'.size = b.size := by
  unfold write at h
  split at h
  · obtain rfl := Option.some.inj h
    rfl
  · cases h

/-- A store that happened was inside the buffer. -/
theorem le_of_write {b b' : ByteBuffer} {off : Nat} {bs : List UInt8}
    (h : b.write off bs = some b') : off + bs.length ≤ b.size := by
  unfold write at h
  split at h
  · assumption
  · cases h

/-- A store inside the buffer happens. -/
theorem exists_write {b : ByteBuffer} {off : Nat} {bs : List UInt8}
    (h : off + bs.length ≤ b.size) : ∃ b', b.write off bs = some b' :=
  ⟨_, if_pos h⟩

/-- The contents after a store, by position. -/
theorem bytes_write {b b' : ByteBuffer} {off : Nat} {bs : List UInt8}
    (h : b.write off bs = some b') (i : Nat) :
    b'.bytes i = if off ≤ i ∧ i < off + bs.length then bs.getD (i - off) 0 else b.bytes i := by
  unfold write at h
  split at h
  · obtain rfl := Option.some.inj h
    rfl
  · cases h

/-- What was stored is read back. -/
theorem slice_write_self {b b' : ByteBuffer} {off : Nat} {bs : List UInt8}
    (h : b.write off bs = some b') : b'.slice off bs.length = bs := by
  apply List.ext_getElem
  · rw [length_slice]
  · intro i hi hi'
    simp [slice, bytes_write h, hi']

/-- A store leaves every byte it does not meet as it was. -/
theorem bytes_write_of_notMem {b b' : ByteBuffer} {off : Nat} {bs : List UInt8}
    (h : b.write off bs = some b') {p : Nat} (hp : p < off ∨ off + bs.length ≤ p) :
    b'.bytes p = b.bytes p := by
  rw [bytes_write h, if_neg]
  omega

end ByteBuffer

end DdTrace.Lib
