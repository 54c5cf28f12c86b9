import DdTrace.Lib.LittleEndian
import DdTrace.Lib.Run

/-!
# The bytes of a span buffer

`SpanBuffer` down to the bytes of its array. A trace is serialized to a temporary array first and
then copied behind what the buffer holds; the array grows by doubling up to a maximum size; the
header, which counts the traces, is written when the buffer is locked.

* `TraceFormatter`: a formatter that writes at its offset, growing the array.
* `tryWrite`, `lock`, `clear`: the operations. Lengths are 32-bit integers, so a sum can wrap
  (`int32`), and a copy outside the array throws.
* `Holds`: the invariant: behind the header the array holds the encodings of the traces accepted
  since the last `Clear`, and the counters count them.
* `payload_holds`: the result for whole runs.

Sources: `Agent/SpanBuffer.cs`; `Vendors/MessagePack/MessagePackBinary.cs`, `EnsureCapacity` and
`WriteArrayHeaderForceArray32Block`; `Vendors/MessagePack/Formatters/CollectionFormatter.cs`,
`ArraySegmentFormatter`.
-/

namespace DdTrace.Agent.Payload

open DdTrace.Lib

variable {α : Type}

/-! ## Data -/

/-- The value of an integer expression of type `int`: the sum or product modulo `2 ^ 32`. -/
def int32 (n : Int) : Int := (BitVec.ofInt 32 n).toInt

/-- A value in range is kept. -/
theorem int32_of_range {n : Int} (hlo : -2 ^ 31 ≤ n) (hhi : n < 2 ^ 31) : int32 n = n := by
  rw [int32, BitVec.toInt_ofInt]
  apply Int.bmod_eq_of_le
  · omega
  · omega

/-- A value just above the range becomes negative. -/
theorem int32_neg {n : Int} (hlo : 2 ^ 31 ≤ n) (hhi : n < 2 ^ 32) : int32 n < 0 := by
  rw [int32, BitVec.toInt_ofInt, Int.bmod_def]
  split
  · omega
  · omega

/-- A formatter of traces. A trace that it does not throw on has an encoding; the formatter puts
it at the offset it is given and returns its size and the array, which it may have grown. The
encoding has a header and at least one byte for every span.
Source: `CollectionFormatter.cs`, `ArraySegmentFormatter.Serialize` -/
structure TraceFormatter (α : Type) where
  /-- The encoding of a trace. -/
  encode : List α → List UInt8
  /-- `Serialize`: the size written and the array afterwards, or `none` if it throws. -/
  serialize : List UInt8 → Nat → List α → Option (Nat × List UInt8)
  /-- What was written is the encoding. -/
  written : ∀ {bytes offset trace size bytes'}, serialize bytes offset trace = some (size, bytes') →
    (bytes'.drop offset).take size = encode trace ∧ offset + size ≤ bytes'.length
  /-- An array has less than `2 ^ 31` bytes. -/
  arraySize : ∀ {bytes offset trace size bytes'}, serialize bytes offset trace = some (size, bytes') →
    bytes'.length < 2 ^ 31
  /-- The encoding has a header and every span has a byte. -/
  size : ∀ trace, trace.length < (encode trace).length

/-- Source: `SpanBuffer.cs` -/
structure SpanBuffer where
  /-- `_maxBufferSize`. -/
  maxBufferSize : Int
  /-- `_buffer`. -/
  buffer : List UInt8
  /-- `_locked`. -/
  locked : Bool := false
  /-- `_offset`. -/
  offset : Nat
  /-- `TraceCount`. -/
  traceCount : Int := 0
  /-- `SpanCount`. -/
  spanCount : Int := 0
  /-- `IsFull`. -/
  isFull : Bool := false
  deriving DecidableEq, Repr

/-- How a call ends. -/
inductive Outcome where
  /-- It returns a Boolean. -/
  | returned (result : Bool)
  /-- An exception leaves it. -/
  | threw
  deriving DecidableEq, Repr

/-- Source: `SpanBuffer.cs`, `HeaderSize` -/
def headerSize : Nat := 5

/-- Source: `SpanBuffer.cs`, `InitialBufferSize` -/
def initialBufferSize : Int := 64 * 1024

/-- The header of an array of `count` elements, always in five bytes.
Source: `MessagePackBinary.cs`, `WriteArrayHeaderForceArray32Block` -/
def array32Header (count : Int) : List UInt8 :=
  0xDD :: (LittleEndian.encode 4 (count % 2 ^ 32).toNat).reverse

@[simp] theorem length_array32Header (count : Int) : (array32Header count).length = headerSize := by
  simp [array32Header, headerSize]

namespace SpanBuffer

/-- The constructor; `none` if it throws.
Source: `SpanBuffer.cs`, `SpanBuffer(int, IFormatterResolver)` -/
def new (maxBufferSize : Int) : Option SpanBuffer :=
  if maxBufferSize < headerSize then none
  else
    some
      { maxBufferSize := maxBufferSize
        buffer := List.replicate (min initialBufferSize maxBufferSize).toNat 0
        offset := headerSize }

/-- `Data`; `none` if it throws, which it does unless the buffer is locked. -/
def data (s : SpanBuffer) : Option (List UInt8) :=
  if s.locked then some (s.buffer.take s.offset) else none

/-- The loop of `EnsureCapacity` that doubles the size. -/
def growSize (minDesiredSize maxBufferSize : Int) : Nat → Int → Int
  | 0, size => size
  | fuel + 1, size =>
      if size < minDesiredSize ∧ size < maxBufferSize then
        growSize minDesiredSize maxBufferSize fuel (int32 (size * 2))
      else size

/-- Make room for `minDesiredSize` bytes; `none` if there may not be so many. A new array is
longer than the part in use, which is copied.
Source: `SpanBuffer.cs`, `EnsureCapacity` -/
def ensureCapacity (s : SpanBuffer) (minDesiredSize : Int) : Option SpanBuffer :=
  if minDesiredSize ≤ s.buffer.length then some s
  else if minDesiredSize > s.maxBufferSize then none
  else
    let size := growSize minDesiredSize s.maxBufferSize minDesiredSize.toNat s.buffer.length
    let size := if size > s.maxBufferSize then s.maxBufferSize else size
    some { s with
      buffer := s.buffer.take s.offset ++ List.replicate (size.toNat - s.offset) 0 }

/-- Copy the encoding of a trace behind the part in use and count it.
Source: `SpanBuffer.cs`, `TryWrite` -/
def copy (s : SpanBuffer) (temporaryBuffer : List UInt8) (size : Nat) (trace : List α) :
    SpanBuffer × Outcome :=
  if s.offset + size ≤ s.buffer.length then
    ({ s with
        buffer := s.buffer.take s.offset ++ temporaryBuffer.take size ++
          s.buffer.drop (s.offset + size)
        offset := s.offset + size
        traceCount := int32 (s.traceCount + 1)
        spanCount := int32 (s.spanCount + trace.length) }, .returned true)
  else (s, .threw)

/-- What is done with a serialized trace: it is copied if there may be room for it.
Source: `SpanBuffer.cs`, `TryWrite` -/
def append (s : SpanBuffer) (temporaryBuffer : List UInt8) (size : Nat) (trace : List α) :
    SpanBuffer × Outcome :=
  match s.ensureCapacity (int32 (size + s.offset)) with
  | none => ({ s with isFull := true }, .returned false)
  | some s => s.copy temporaryBuffer size trace

/-- Write a trace; `contended` says that another thread holds the monitor. The second component of
the result is the temporary array.
Source: `SpanBuffer.cs`, `TryWrite` -/
def tryWrite (formatter : TraceFormatter α) (s : SpanBuffer) (temporaryBuffer : List UInt8)
    (trace : List α) (contended : Bool) : SpanBuffer × List UInt8 × Outcome :=
  if contended ∨ s.locked then (s, temporaryBuffer, .returned false)
  else
    match formatter.serialize temporaryBuffer 0 trace with
    | none => (s, temporaryBuffer, .threw)
    | some (size, temporaryBuffer) =>
        let (s, outcome) := s.append temporaryBuffer size trace
        (s, temporaryBuffer, outcome)

/-- Write the header at the front of the array, growing one that is too short for it.
Source: `MessagePackBinary.cs`, `EnsureCapacity` for less than 256 bytes and
`WriteArrayHeaderForceArray32Block` -/
def writeHeader (buffer : List UInt8) (count : Int) : List UInt8 :=
  let buffer :=
    if headerSize > buffer.length then buffer ++ List.replicate (256 - buffer.length) 0 else buffer
  array32Header count ++ buffer.drop headerSize

/-- Source: `SpanBuffer.cs`, `Lock` -/
def lock (s : SpanBuffer) : SpanBuffer × Outcome :=
  if s.locked then (s, .returned false)
  else
    ({ s with buffer := writeHeader s.buffer s.traceCount, locked := true }, .returned true)

/-- Source: `SpanBuffer.cs`, `Clear` -/
def clear (s : SpanBuffer) : SpanBuffer :=
  { s with offset := headerSize, traceCount := 0, spanCount := 0, isFull := false, locked := false }

end SpanBuffer

/-! ## Runs -/

/-- A call of one of the methods. -/
inductive Operation (α : Type) where
  | tryWrite (trace : List α) (contended : Bool)
  | lock
  | clear

/-- A span buffer in use: the temporary array of its writer, and as history the traces accepted
since the last `Clear`. -/
structure InUse (α : Type) where
  spanBuffer : SpanBuffer
  temporaryBuffer : List UInt8
  accepted : List (List α) := []

namespace InUse

/-- Execute a call. -/
def exec (formatter : TraceFormatter α) (u : InUse α) : Operation α → InUse α × Outcome
  | .tryWrite trace contended =>
      let (s, temporaryBuffer, outcome) :=
        u.spanBuffer.tryWrite formatter u.temporaryBuffer trace contended
      ({ spanBuffer := s, temporaryBuffer := temporaryBuffer
         accepted := if outcome = .returned true then u.accepted ++ [trace] else u.accepted },
        outcome)
  | .lock =>
      let (s, outcome) := u.spanBuffer.lock
      ({ u with spanBuffer := s }, outcome)
  | .clear => ({ u with spanBuffer := u.spanBuffer.clear, accepted := [] }, .returned true)

/-- Execute calls one after another. -/
def run (formatter : TraceFormatter α) (u : InUse α) (ops : List (Operation α)) : InUse α :=
  ops.foldl (fun u op => (u.exec formatter op).1) u

end InUse

/-! ## The invariant -/

/-- The encodings of traces, one after another. -/
def TraceFormatter.encodeAll (formatter : TraceFormatter α) (traces : List (List α)) : List UInt8 :=
  traces.flatMap formatter.encode

/-- What holds of a buffer that has accepted `traces` since the last `Clear`. -/
structure Holds (formatter : TraceFormatter α) (s : SpanBuffer) (traces : List (List α)) :
    Prop where
  /-- There is room for the header. -/
  minSize : (headerSize : Int) ≤ s.maxBufferSize
  /-- The sizes of arrays do not wrap. -/
  maxSize : s.maxBufferSize ≤ 2 ^ 30
  /-- The array is not longer than the maximum size. -/
  length_le : (s.buffer.length : Int) ≤ s.maxBufferSize
  /-- The part in use is in the array. -/
  offset_le : s.offset ≤ s.buffer.length
  /-- The part in use is the header and the encodings. -/
  offset : s.offset = headerSize + (formatter.encodeAll traces).length
  /-- Behind the header there are the encodings. -/
  contents : (s.buffer.take s.offset).drop headerSize = formatter.encodeAll traces
  /-- `TraceCount` is the number of traces. -/
  traceCount : s.traceCount = traces.length
  /-- `SpanCount` is the number of their spans. -/
  spanCount : s.spanCount = (traces.map List.length).sum
  /-- A locked buffer has its header. -/
  header : s.locked = true → s.buffer.take headerSize = array32Header s.traceCount

/-! ## Growing the array -/

/-- The doubled size reaches what is wanted, if that is not more than the maximum. -/
theorem SpanBuffer.le_growSize {minDesiredSize maxBufferSize : Int}
    (hsmall : minDesiredSize ≤ 2 ^ 30) (hmin : minDesiredSize ≤ maxBufferSize) {fuel : Nat}
    {size : Int} (hsize : 0 < size) (hfuel : minDesiredSize ≤ size + fuel) :
    minDesiredSize ≤ growSize minDesiredSize maxBufferSize fuel size := by
  induction fuel generalizing size with
  | zero =>
      rw [growSize]
      omega
  | succ fuel ih =>
      rw [growSize]
      split
      case isTrue hlt =>
        have hdouble : int32 (size * 2) = size * 2 := int32_of_range (by omega) (by omega)
        rw [hdouble]
        apply ih
        · omega
        · omega
      case isFalse hge => omega

/-- Making room succeeds for a size up to the maximum, keeps the part in use and respects the
maximum. -/
theorem SpanBuffer.ensureCapacity_spec {s : SpanBuffer} {minDesiredSize : Int}
    (hpos : 0 < s.buffer.length) (hsmall : minDesiredSize ≤ 2 ^ 30)
    (hlen : (s.buffer.length : Int) ≤ s.maxBufferSize) (hoffset : s.offset ≤ s.buffer.length)
    (hmin : minDesiredSize ≤ s.maxBufferSize) :
    ∃ buffer, s.ensureCapacity minDesiredSize = some { s with buffer := buffer } ∧
      minDesiredSize ≤ buffer.length ∧ s.offset ≤ buffer.length ∧
      (buffer.length : Int) ≤ s.maxBufferSize ∧ buffer.take s.offset = s.buffer.take s.offset := by
  unfold ensureCapacity
  split
  case isTrue hfits => exact ⟨s.buffer, rfl, hfits, hoffset, hlen, rfl⟩
  case isFalse hshort =>
    rw [if_neg (by omega)]
    have hgrow : minDesiredSize ≤
        growSize minDesiredSize s.maxBufferSize minDesiredSize.toNat s.buffer.length :=
      le_growSize hsmall hmin (by omega) (by omega)
    generalize growSize minDesiredSize s.maxBufferSize minDesiredSize.toNat s.buffer.length = size
      at hgrow
    have htake : (s.buffer.take s.offset).length = s.offset := by
      rw [List.length_take]
      omega
    refine ⟨_, rfl, ?_, ?_, ?_, ?_⟩
    · rw [List.length_append, htake, List.length_replicate]
      split
      · omega
      · omega
    · rw [List.length_append, htake]
      omega
    · rw [List.length_append, htake, List.length_replicate]
      split
      · omega
      · omega
    · exact List.take_left' htake

/-- No room is made for more than the maximum. -/
theorem SpanBuffer.ensureCapacity_eq_none {s : SpanBuffer} {minDesiredSize : Int}
    (hlen : (s.buffer.length : Int) ≤ s.maxBufferSize) (hmin : s.maxBufferSize < minDesiredSize) :
    s.ensureCapacity minDesiredSize = none := by
  unfold ensureCapacity
  rw [if_neg (by omega), if_pos (by omega)]

/-- A size that wrapped to a negative number makes no room. -/
theorem SpanBuffer.ensureCapacity_of_neg {s : SpanBuffer} {minDesiredSize : Int}
    (hmin : minDesiredSize < 0) : s.ensureCapacity minDesiredSize = some s := by
  unfold ensureCapacity
  rw [if_pos (by omega)]

/-! ## The maximum size never changes -/

section maximum

variable {formatter : TraceFormatter α}

theorem SpanBuffer.maxBufferSize_ensureCapacity {s s' : SpanBuffer} {minDesiredSize : Int}
    (h : s.ensureCapacity minDesiredSize = some s') : s'.maxBufferSize = s.maxBufferSize := by
  unfold ensureCapacity at h
  split at h
  · rw [← Option.some.inj h]
  · split at h
    · cases h
    · rw [← Option.some.inj h]

@[simp] theorem SpanBuffer.maxBufferSize_copy (s : SpanBuffer) (temporaryBuffer : List UInt8)
    (size : Nat) (trace : List α) :
    (s.copy temporaryBuffer size trace).1.maxBufferSize = s.maxBufferSize := by
  unfold copy
  split
  · rfl
  · rfl

@[simp] theorem SpanBuffer.maxBufferSize_append (s : SpanBuffer) (temporaryBuffer : List UInt8)
    (size : Nat) (trace : List α) :
    (s.append temporaryBuffer size trace).1.maxBufferSize = s.maxBufferSize := by
  unfold append
  split
  case h_1 => rfl
  case h_2 s' hroom => rw [maxBufferSize_copy, maxBufferSize_ensureCapacity hroom]

@[simp] theorem SpanBuffer.maxBufferSize_tryWrite (s : SpanBuffer) (temporaryBuffer : List UInt8)
    (trace : List α) (contended : Bool) :
    (s.tryWrite formatter temporaryBuffer trace contended).1.maxBufferSize = s.maxBufferSize := by
  unfold tryWrite
  split
  · rfl
  · split
    · rfl
    · rename_i size temporaryBuffer' _
      have happend := maxBufferSize_append s temporaryBuffer' size trace
      cases h : s.append temporaryBuffer' size trace with
      | mk s' outcome =>
          rw [h] at happend
          exact happend

@[simp] theorem SpanBuffer.maxBufferSize_lock (s : SpanBuffer) :
    s.lock.1.maxBufferSize = s.maxBufferSize := by
  unfold lock
  split
  · rfl
  · rfl

/-- No call changes the maximum size. -/
theorem InUse.maxBufferSize_exec (u : InUse α) (op : Operation α) :
    (u.exec formatter op).1.spanBuffer.maxBufferSize = u.spanBuffer.maxBufferSize := by
  cases op with
  | tryWrite trace contended => exact SpanBuffer.maxBufferSize_tryWrite ..
  | lock => exact SpanBuffer.maxBufferSize_lock _
  | clear => rfl

/-- No run changes the maximum size. -/
theorem InUse.maxBufferSize_run (u : InUse α) (ops : List (Operation α)) :
    (u.run formatter ops).spanBuffer.maxBufferSize = u.spanBuffer.maxBufferSize := by
  induction ops generalizing u with
  | nil => rfl
  | cons op ops ih => exact (ih _).trans (maxBufferSize_exec u op)

end maximum

/-! ## The operations keep the invariant -/

/-- The encodings of traces have a byte for every trace and every span. -/
theorem TraceFormatter.length_encodeAll (formatter : TraceFormatter α) (traces : List (List α)) :
    traces.length + (traces.map List.length).sum ≤ (formatter.encodeAll traces).length := by
  induction traces with
  | nil => simp [encodeAll]
  | cons trace traces ih =>
      have hsize := formatter.size trace
      unfold encodeAll at ih ⊢
      rw [List.flatMap_cons, List.length_append, List.map_cons, List.sum_cons, List.length_cons]
      omega

section operations

variable {formatter : TraceFormatter α} {s : SpanBuffer} {traces : List (List α)}

/-- A new buffer holds nothing. -/
theorem holds_new {maxBufferSize : Int} (hmax : maxBufferSize ≤ 2 ^ 30)
    (h : SpanBuffer.new maxBufferSize = some s) :
    Holds formatter s [] ∧ s.maxBufferSize = maxBufferSize := by
  unfold SpanBuffer.new at h
  split at h
  case isTrue => cases h
  case isFalse hmin =>
    obtain rfl := Option.some.inj h
    simp only [headerSize] at hmin
    refine ⟨⟨by simp only [headerSize]; omega, hmax, ?_, ?_, rfl, ?_, rfl, rfl, by simp⟩, rfl⟩
    · simp only [List.length_replicate, initialBufferSize]
      omega
    · simp only [List.length_replicate, initialBufferSize, headerSize]
      omega
    · simp only [List.take_replicate, List.drop_replicate, TraceFormatter.encodeAll,
        List.flatMap_nil, List.replicate_eq_nil_iff]
      omega

/-- The part in use of a buffer is what the invariant says also after the array has grown. -/
theorem Holds.grow (hs : Holds formatter s traces) {buffer : List UInt8}
    (hoffset : s.offset ≤ buffer.length) (hlen : (buffer.length : Int) ≤ s.maxBufferSize)
    (htake : buffer.take s.offset = s.buffer.take s.offset) (full : Bool) :
    Holds formatter { s with buffer := buffer, isFull := full } traces := by
  refine ⟨hs.minSize, hs.maxSize, hlen, hoffset, hs.offset, ?_, hs.traceCount, hs.spanCount, ?_⟩
  · show (buffer.take s.offset).drop headerSize = _
    rw [htake]
    exact hs.contents
  · intro hlocked
    have hle : headerSize ≤ s.offset := by
      rw [hs.offset]
      omega
    have htake' := congrArg (List.take headerSize) htake
    rw [List.take_take, List.take_take, Nat.min_eq_left hle] at htake'
    exact htake'.trans (hs.header hlocked)

/-- The part in use and the counters of two buffers are the same. -/
structure SameData (s s' : SpanBuffer) : Prop where
  offset : s'.offset = s.offset
  contents : s'.buffer.take s.offset = s.buffer.take s.offset
  traceCount : s'.traceCount = s.traceCount
  spanCount : s'.spanCount = s.spanCount
  locked : s'.locked = s.locked

theorem SameData.refl (s : SpanBuffer) : SameData s s := ⟨rfl, rfl, rfl, rfl, rfl⟩

/-- `Data` of two such buffers is the same. -/
theorem SameData.data_eq {s s' : SpanBuffer} (h : SameData s s') : s'.data = s.data := by
  unfold SpanBuffer.data
  rw [h.locked, h.offset, h.contents]

/-- `TryWrite` on a buffer that a flush uses. -/
theorem tryWrite_busy {temporaryBuffer : List UInt8} {trace : List α} {contended : Bool}
    (h : contended = true ∨ s.locked = true) :
    s.tryWrite formatter temporaryBuffer trace contended =
      (s, temporaryBuffer, .returned false) := by
  unfold SpanBuffer.tryWrite
  rw [if_pos h]

/-- `TryWrite` of a trace that the formatter throws on. -/
theorem tryWrite_throws {temporaryBuffer : List UInt8} {trace : List α} {contended : Bool}
    (hfree : ¬(contended = true ∨ s.locked = true))
    (h : formatter.serialize temporaryBuffer 0 trace = none) :
    s.tryWrite formatter temporaryBuffer trace contended = (s, temporaryBuffer, .threw) := by
  unfold SpanBuffer.tryWrite
  rw [if_neg hfree, h]

/-- How an attempt to write leaves a buffer: it accepts the trace, or it does not and the part in
use stays as it was. -/
def Keeps (formatter : TraceFormatter α) (s : SpanBuffer) (traces : List (List α)) (trace : List α)
    (s' : SpanBuffer) (outcome : Outcome) : Prop :=
  (outcome = .returned true ∧ Holds formatter s' (traces ++ [trace])) ∨
    (outcome ≠ .returned true ∧ Holds formatter s' traces ∧ SameData s s')

/-- Copying a serialized trace that there is room for keeps the invariant with it. -/
theorem Holds.copy (hs : Holds formatter s traces) (hunlocked : s.locked = false)
    {s₀ : SpanBuffer} {temporaryBuffer : List UInt8} {trace : List α} {size : Nat}
    (hwritten : temporaryBuffer.take size = formatter.encode trace)
    (hsize : (formatter.encode trace).length = size)
    (hfits : s.offset + size ≤ s.buffer.length) :
    Keeps formatter s₀ traces trace (s.copy temporaryBuffer size trace).1
      (s.copy temporaryBuffer size trace).2 := by
  have hall : formatter.encodeAll (traces ++ [trace]) =
      formatter.encodeAll traces ++ formatter.encode trace := by
    simp [TraceFormatter.encodeAll]
  have hin : (s.buffer.take s.offset ++ temporaryBuffer.take size).length = s.offset + size := by
    rw [List.length_append, hwritten, hsize, List.length_take]
    omega
  have htotal : (s.buffer.take s.offset ++ temporaryBuffer.take size ++
      s.buffer.drop (s.offset + size)).length = s.buffer.length := by
    rw [List.length_append, hin, List.length_drop]
    omega
  have hcounts := formatter.length_encodeAll (traces ++ [trace])
  have hoffset := hs.offset
  have hlen := hs.length_le
  have hmax := hs.maxSize
  rw [hall] at hcounts
  simp only [List.length_append, List.length_singleton, List.map_append, List.map_cons,
    List.map_nil, List.sum_append, List.sum_cons, List.sum_nil] at hcounts
  unfold SpanBuffer.copy
  rw [if_pos hfits]
  refine Or.inl ⟨rfl, hs.minSize, hs.maxSize, ?_, ?_, ?_, ?_, ?_, ?_, ?_⟩
  · show ((_ : List UInt8).length : Int) ≤ _
    rw [htotal]
    exact hlen
  · show s.offset + size ≤ _
    rw [htotal]
    exact hfits
  · show s.offset + size = _
    rw [hall, List.length_append, hsize]
    omega
  · show ((_ : List UInt8).take (s.offset + size)).drop headerSize = _
    have hle : headerSize ≤ (s.buffer.take s.offset).length := by
      rw [List.length_take]
      omega
    rw [List.take_left' hin, List.drop_append_of_le_length hle, hs.contents, hwritten, hall]
  · show int32 (s.traceCount + 1) = _
    rw [hs.traceCount, int32_of_range (by omega) (by omega)]
    simp
  · show int32 (s.spanCount + trace.length) = _
    rw [hs.spanCount, int32_of_range (by omega) (by omega)]
    simp
  · intro hlocked
    rw [show s.locked = true from hlocked] at hunlocked
    cases hunlocked

/-- `TryWrite` of a trace that is serialized. -/
theorem tryWrite_serialized {s' : SpanBuffer} {temporaryBuffer temporaryBuffer' : List UInt8}
    {trace : List α} {contended : Bool} {size : Nat} {outcome : Outcome}
    (hfree : ¬(contended = true ∨ s.locked = true))
    (h : formatter.serialize temporaryBuffer 0 trace = some (size, temporaryBuffer'))
    (happend : s.append temporaryBuffer' size trace = (s', outcome)) :
    s.tryWrite formatter temporaryBuffer trace contended = (s', temporaryBuffer', outcome) := by
  simp only [SpanBuffer.tryWrite, if_neg hfree, h, happend]

/-- A trace that there may be room for is copied. -/
theorem append_of_room {s' : SpanBuffer} {temporaryBuffer : List UInt8} {trace : List α}
    {size : Nat}
    (h : s.ensureCapacity (int32 (size + s.offset)) = some s') :
    s.append temporaryBuffer size trace = s'.copy temporaryBuffer size trace := by
  rw [SpanBuffer.append, h]

/-- A trace that there may be no room for makes the buffer full. -/
theorem append_of_full {temporaryBuffer : List UInt8} {trace : List α} {size : Nat}
    (h : s.ensureCapacity (int32 (size + s.offset)) = none) :
    s.append temporaryBuffer size trace = ({ s with isFull := true }, .returned false) := by
  rw [SpanBuffer.append, h]

/-- A copy that leaves the array throws. -/
theorem copy_overruns {temporaryBuffer : List UInt8} {trace : List α} {size : Nat}
    (h : ¬s.offset + size ≤ s.buffer.length) :
    s.copy temporaryBuffer size trace = (s, .threw) := by
  unfold SpanBuffer.copy
  rw [if_neg h]

/-- Appending a serialized trace keeps the invariant. -/
theorem Holds.append (hs : Holds formatter s traces) (hunlocked : s.locked = false)
    {temporaryBuffer : List UInt8} {trace : List α} {size : Nat}
    (hwritten : temporaryBuffer.take size = formatter.encode trace)
    (hsize : (formatter.encode trace).length = size) (hsmall : size < 2 ^ 31) :
    Keeps formatter s traces trace (s.append temporaryBuffer size trace).1
      (s.append temporaryBuffer size trace).2 := by
  have hlen := hs.length_le
  have hmax := hs.maxSize
  have hoffset := hs.offset_le
  have hheader := hs.offset
  have hpos : 0 < s.buffer.length := by
    simp only [headerSize] at hheader
    omega
  by_cases hwrap : 2 ^ 31 ≤ size + s.offset
  · -- the sum wraps to a negative number, and the copy leaves the array
    have hneg : int32 (size + s.offset) < 0 := int32_neg (by omega) (by omega)
    have hover : ¬s.offset + size ≤ s.buffer.length := by omega
    rw [append_of_room (SpanBuffer.ensureCapacity_of_neg hneg), copy_overruns hover]
    exact Or.inr ⟨by simp, hs, .refl s⟩
  have hsum : int32 (size + s.offset) = size + s.offset :=
    int32_of_range (by omega) (by omega)
  by_cases hfits : int32 (size + s.offset) ≤ s.maxBufferSize
  · obtain ⟨buffer, hgrow, hlong, hlong', hshort, htake⟩ :=
      SpanBuffer.ensureCapacity_spec hpos (by omega) hlen hoffset hfits
    have hgrown : Holds formatter { s with buffer := buffer } traces :=
      hs.grow hlong' hshort htake s.isFull
    have hcopy : s.offset + size ≤ buffer.length := by omega
    rw [append_of_room hgrow]
    exact hgrown.copy hunlocked hwritten hsize hcopy
  · have hfull := SpanBuffer.ensureCapacity_eq_none hlen (Int.not_le.mp hfits)
    rw [append_of_full hfull]
    exact Or.inr ⟨by simp, hs.grow hoffset hlen rfl true, rfl, rfl, rfl, rfl, rfl⟩

/-- `TryWrite` keeps the invariant: with the trace if it returns true, and else with what was
there, and then it leaves the part in use and the counters alone. -/
theorem Holds.tryWrite (hs : Holds formatter s traces) (temporaryBuffer : List UInt8)
    (trace : List α) (contended : Bool) :
    Keeps formatter s traces trace
      (s.tryWrite formatter temporaryBuffer trace contended).1
      (s.tryWrite formatter temporaryBuffer trace contended).2.2 := by
  by_cases hfree : contended = true ∨ s.locked = true
  · rw [tryWrite_busy hfree]
    exact Or.inr ⟨by simp, hs, .refl s⟩
  have hunlocked : s.locked = false := by
    simp only [not_or, Bool.not_eq_true] at hfree
    exact hfree.2
  cases hserialize : formatter.serialize temporaryBuffer 0 trace with
  | none =>
      rw [tryWrite_throws hfree hserialize]
      exact Or.inr ⟨by simp, hs, .refl s⟩
  | some written =>
      obtain ⟨size, temporaryBuffer'⟩ := written
      obtain ⟨hwritten, hroom⟩ := formatter.written hserialize
      have harray := formatter.arraySize hserialize
      rw [List.drop_zero] at hwritten
      have hsize : (formatter.encode trace).length = size := by
        rw [← hwritten, List.length_take]
        omega
      have hkeeps := hs.append hunlocked hwritten hsize (by omega)
      cases happend : s.append temporaryBuffer' size trace with
      | mk s' outcome =>
          rw [happend] at hkeeps
          rw [tryWrite_serialized hfree hserialize happend]
          exact hkeeps

/-- `Lock` keeps the invariant. -/
theorem Holds.lock (hs : Holds formatter s traces) : Holds formatter s.lock.1 traces := by
  unfold SpanBuffer.lock
  split
  case isTrue => exact hs
  case isFalse =>
    have hle := hs.offset_le
    have hoffset := hs.offset
    have hroom : headerSize ≤ s.buffer.length := by omega
    have hwrite : SpanBuffer.writeHeader s.buffer s.traceCount =
        array32Header s.traceCount ++ s.buffer.drop headerSize := by
      unfold SpanBuffer.writeHeader
      rw [if_neg (by omega)]
    have hlength : (SpanBuffer.writeHeader s.buffer s.traceCount).length = s.buffer.length := by
      rw [hwrite, List.length_append, length_array32Header, List.length_drop]
      omega
    refine ⟨hs.minSize, hs.maxSize, ?_, ?_, hs.offset, ?_, hs.traceCount, hs.spanCount, ?_⟩
    · show ((SpanBuffer.writeHeader s.buffer s.traceCount).length : Int) ≤ _
      rw [hlength]
      exact hs.length_le
    · show s.offset ≤ (SpanBuffer.writeHeader s.buffer s.traceCount).length
      rw [hlength]
      exact hle
    · show ((SpanBuffer.writeHeader s.buffer s.traceCount).take s.offset).drop headerSize = _
      rw [← hs.contents, hwrite, List.drop_take, List.drop_take,
        List.drop_left' (length_array32Header _)]
    · intro _
      show (SpanBuffer.writeHeader s.buffer s.traceCount).take headerSize = _
      rw [hwrite, List.take_left' (length_array32Header _)]

/-- `Clear` leaves an empty buffer. -/
theorem Holds.clear (hs : Holds formatter s traces) : Holds formatter s.clear [] := by
  have hle := hs.offset_le
  have hoffset := hs.offset
  refine ⟨hs.minSize, hs.maxSize, hs.length_le, ?_, rfl, ?_, rfl, rfl, by simp [SpanBuffer.clear]⟩
  · show headerSize ≤ s.buffer.length
    omega
  · show (s.buffer.take headerSize).drop headerSize = _
    simp [TraceFormatter.encodeAll]

/-- `Data` of a locked buffer is the header and the encodings. -/
theorem Holds.data (hs : Holds formatter s traces) (hlocked : s.locked = true) :
    s.data = some (array32Header s.traceCount ++ formatter.encodeAll traces) := by
  have hle : headerSize ≤ s.offset := by
    rw [hs.offset]
    omega
  have hsplit := List.take_append_drop headerSize (s.buffer.take s.offset)
  rw [List.take_take, Nat.min_eq_left hle, hs.header hlocked, hs.contents] at hsplit
  rw [SpanBuffer.data, if_pos hlocked, hsplit]

end operations

/-! ## Runs -/

namespace InUse

variable {formatter : TraceFormatter α}

/-- Every call keeps the invariant. -/
theorem holds_exec {u : InUse α} (hu : Holds formatter u.spanBuffer u.accepted)
    (op : Operation α) :
    Holds formatter (u.exec formatter op).1.spanBuffer (u.exec formatter op).1.accepted := by
  cases op with
  | tryWrite trace contended =>
      show Holds formatter (u.spanBuffer.tryWrite formatter u.temporaryBuffer trace contended).1
        (if (u.spanBuffer.tryWrite formatter u.temporaryBuffer trace contended).2.2 =
          .returned true then u.accepted ++ [trace] else u.accepted)
      rcases hu.tryWrite u.temporaryBuffer trace contended with ⟨htrue, h⟩ | ⟨hfalse, h, -⟩
      · rw [if_pos htrue]
        exact h
      · rw [if_neg hfalse]
        exact h
  | lock => exact hu.lock
  | clear => exact hu.clear

/-- Every run keeps the invariant. -/
theorem holds_run {u : InUse α} (hu : Holds formatter u.spanBuffer u.accepted)
    (ops : List (Operation α)) :
    Holds formatter (u.run formatter ops).spanBuffer (u.run formatter ops).accepted := by
  induction ops generalizing u with
  | nil => exact hu
  | cons op ops ih => exact ih (holds_exec hu op)

/-- A `Lock` that returns true leaves a locked buffer. -/
theorem locked_of_lock {u : InUse α} (h : (u.exec formatter .lock).2 = .returned true) :
    (u.exec formatter .lock).1.spanBuffer.locked = true := by
  cases hlocked : u.spanBuffer.locked
  · simp [exec, SpanBuffer.lock, hlocked]
  · simp [exec, SpanBuffer.lock, hlocked] at h

/-- A call on a locked buffer that is not `Clear` leaves it alone. -/
theorem exec_of_locked {u : InUse α} (hlocked : u.spanBuffer.locked = true) {op : Operation α}
    (hop : op ≠ .clear) : (u.exec formatter op).1.spanBuffer = u.spanBuffer := by
  cases op with
  | tryWrite trace contended => simp [exec, SpanBuffer.tryWrite, hlocked]
  | lock => simp [exec, SpanBuffer.lock, hlocked]
  | clear => exact absurd rfl hop

/-- Calls on a locked buffer leave it alone until `Clear`. -/
theorem run_of_locked {u : InUse α} (hlocked : u.spanBuffer.locked = true)
    {ops : List (Operation α)} (hops : ∀ op ∈ ops, op ≠ .clear) :
    (u.run formatter ops).spanBuffer = u.spanBuffer := by
  induction ops generalizing u with
  | nil => rfl
  | cons op ops ih =>
      have hsame : (u.exec formatter op).1.spanBuffer = u.spanBuffer :=
        exec_of_locked hlocked (hops op (List.mem_cons_self ..))
      have hlocked' : (u.exec formatter op).1.spanBuffer.locked = true := by rw [hsame, hlocked]
      have hrest := ih hlocked' fun op' hop' => hops op' (List.mem_cons_of_mem op hop')
      exact hrest.trans hsame

end InUse

/-- **The payload.** After any calls on a new buffer, the part in use behind the header is the
concatenation of the encodings of the traces accepted since the last `Clear`, `TraceCount` is
their number and `SpanCount` the sum of their lengths, and the part in use exceeds neither the
array nor the maximum size; `Data` of a locked buffer begins with the array header that holds
`TraceCount`. A `TryWrite` that returns false leaves all of it alone, and so does every call
between a `Lock` that returns true and the next `Clear`. -/
theorem payload_holds (formatter : TraceFormatter α) {maxBufferSize : Int} {s : SpanBuffer}
    (hmax : maxBufferSize ≤ 2 ^ 30) (hnew : SpanBuffer.new maxBufferSize = some s)
    (temporaryBuffer : List UInt8) (ops : List (Operation α)) :
    let u := InUse.run formatter ⟨s, temporaryBuffer, []⟩ ops
    (u.spanBuffer.buffer.take u.spanBuffer.offset).drop headerSize =
        formatter.encodeAll u.accepted ∧
      (u.spanBuffer.locked = true → u.spanBuffer.data =
        some (array32Header u.spanBuffer.traceCount ++ formatter.encodeAll u.accepted)) ∧
      u.spanBuffer.traceCount = u.accepted.length ∧
      u.spanBuffer.spanCount = (u.accepted.map List.length).sum ∧
      u.spanBuffer.offset ≤ u.spanBuffer.buffer.length ∧
      (u.spanBuffer.offset : Int) ≤ maxBufferSize ∧
      (∀ trace contended, (u.exec formatter (.tryWrite trace contended)).2 = .returned false →
        SameData u.spanBuffer (u.exec formatter (.tryWrite trace contended)).1.spanBuffer) ∧
      ((u.exec formatter .lock).2 = .returned true → ∀ later : List (Operation α),
        (∀ op ∈ later, op ≠ .clear) →
          ((u.exec formatter .lock).1.run formatter later).spanBuffer =
            (u.exec formatter .lock).1.spanBuffer) := by
  intro u
  obtain ⟨hstart, hsize⟩ : Holds formatter s [] ∧ s.maxBufferSize = maxBufferSize :=
    holds_new hmax hnew
  have hu : Holds formatter u.spanBuffer u.accepted := InUse.holds_run hstart ops
  have hmaximum : u.spanBuffer.maxBufferSize = maxBufferSize :=
    (InUse.maxBufferSize_run _ ops).trans hsize
  refine ⟨hu.contents, hu.data, hu.traceCount, hu.spanCount, hu.offset_le, ?_, ?_, ?_⟩
  · have hle := hu.length_le
    have hin := hu.offset_le
    omega
  · intro trace contended hfalse
    rcases hu.tryWrite u.temporaryBuffer trace contended with ⟨htrue, -⟩ | ⟨-, -, hsame⟩
    · cases hfalse.symm.trans htrue
    · exact hsame
  · intro htrue later hlater
    exact InUse.run_of_locked (InUse.locked_of_lock htrue) hlater

/-- An array with an encoding put at an offset, growing it where it ends before. -/
def putAt (bytes : List UInt8) (offset : Nat) (encoding : List UInt8) : List UInt8 :=
  bytes.take offset ++ List.replicate (offset - bytes.length) 0 ++ encoding ++
    bytes.drop (offset + encoding.length)

/-- The encoding is read back at the offset. -/
theorem drop_putAt (bytes : List UInt8) (offset : Nat) (encoding : List UInt8) :
    (putAt bytes offset encoding).drop offset =
      encoding ++ bytes.drop (offset + encoding.length) := by
  have hroom : (bytes.take offset ++ List.replicate (offset - bytes.length) (0 : UInt8)).length =
      offset := by
    rw [List.length_append, List.length_take, List.length_replicate]
    omega
  rw [putAt, List.append_assoc, List.drop_left' hroom]

/-- A formatter that writes nil for every span, behind a header that counts them. -/
def nilFormatter : TraceFormatter Unit where
  encode trace := array32Header trace.length ++ List.replicate trace.length 0xC0
  serialize bytes offset trace :=
    let encoding := array32Header trace.length ++ List.replicate trace.length 0xC0
    let bytes' := putAt bytes offset encoding
    if bytes'.length < 2 ^ 31 then some (encoding.length, bytes') else none
  written := by
    intro bytes offset trace size bytes' h
    dsimp only at h
    generalize array32Header trace.length ++ List.replicate trace.length 0xC0 = encoding at h ⊢
    split at h
    case isFalse => cases h
    case isTrue =>
      obtain ⟨rfl, rfl⟩ := Prod.mk.inj (Option.some.inj h)
      have hread := drop_putAt bytes offset encoding
      refine ⟨by rw [hread, List.take_left' rfl], ?_⟩
      rw [putAt, List.length_append, List.length_append, List.length_append, List.length_take,
        List.length_replicate]
      omega
  arraySize := by
    intro bytes offset trace size bytes' h
    dsimp only at h
    split at h
    case isFalse => cases h
    case isTrue hsmall =>
      obtain ⟨rfl, rfl⟩ := Prod.mk.inj (Option.some.inj h)
      exact hsmall
  size := by
    intro trace
    rw [List.length_append, length_array32Header, List.length_replicate, headerSize]
    omega

/-- A buffer of 64 bytes that accepts a trace of two spans and one of a single span, refuses one
of fifty and is locked. -/
theorem payload_holds_threeTraces :
    let u := InUse.run nilFormatter ⟨⟨64, List.replicate 64 0, false, 5, 0, 0, false⟩, [], []⟩
      [.tryWrite [(), ()] false, .tryWrite [()] false, .tryWrite (List.replicate 50 ()) false, .lock]
    u.accepted = [[(), ()], [()]] ∧ u.spanBuffer.spanCount = 3 ∧ u.spanBuffer.isFull = true ∧
      u.spanBuffer.data = some (array32Header 2 ++
        nilFormatter.encode [(), ()] ++ nilFormatter.encode [()]) := by
  intro u
  have hnew : SpanBuffer.new 64 = some ⟨64, List.replicate 64 0, false, 5, 0, 0, false⟩ := rfl
  obtain ⟨-, hdata, htraces, hspans, -⟩ := payload_holds nilFormatter (by decide) hnew []
    [.tryWrite [(), ()] false, .tryWrite [()] false, .tryWrite (List.replicate 50 ()) false, .lock]
  have haccepted : u.accepted = [[(), ()], [()]] := by rfl
  refine ⟨haccepted, hspans.trans (by rfl), by rfl, (hdata (by rfl)).trans (by rfl)⟩

end DdTrace.Agent.Payload
