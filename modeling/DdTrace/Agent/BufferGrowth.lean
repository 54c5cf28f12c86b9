import Mathlib.Algebra.Order.Ring.Int
import DdTrace.Agent.SpanPayload
import DdTrace.Lib.TransitionSystem

/-!
# How a span buffer grows

Whether the 32-bit arithmetic of `TryWrite` and `EnsureCapacity` wraps, and whether the loop that
doubles the size comes to its end.

* `LoopReturns`, `LoopEnds`: the loop comes to its end, and no doubling wraps.
* `GrowsSafely`: nothing wraps, the loop ends, and the array is long enough and not too long.
* `system`: a buffer, through the calls that come to their end.
* `growsSafely_iff`: for every reachable buffer, the sizes for which it grows safely.

Sources: `Agent/SpanBuffer.cs`; `Configuration/TracerSettings.cs`, `TraceBufferSize`.
-/

namespace DdTrace.Agent.Payload

open DdTrace.Lib

/-! ## The loop -/

/-- The loop of `EnsureCapacity` comes to its end. -/
inductive LoopReturns (minDesiredSize maxBufferSize : Int) : Int → Prop
  /-- The size is large enough. -/
  | stop {size : Int} : ¬(size < minDesiredSize ∧ size < maxBufferSize) →
      LoopReturns minDesiredSize maxBufferSize size
  /-- The size is doubled. -/
  | double {size : Int} : size < minDesiredSize → size < maxBufferSize →
      LoopReturns minDesiredSize maxBufferSize (int32 (size * 2)) →
      LoopReturns minDesiredSize maxBufferSize size

/-- It does, and no doubling wraps. -/
inductive LoopEnds (minDesiredSize maxBufferSize : Int) : Int → Prop
  /-- The size is large enough. -/
  | stop {size : Int} : ¬(size < minDesiredSize ∧ size < maxBufferSize) →
      LoopEnds minDesiredSize maxBufferSize size
  /-- The size is doubled. -/
  | double {size : Int} : size < minDesiredSize → size < maxBufferSize →
      int32 (size * 2) = size * 2 → LoopEnds minDesiredSize maxBufferSize (size * 2) →
      LoopEnds minDesiredSize maxBufferSize size

/-- The lengths that a buffer has as long as it may still be doubled. -/
def blockSize (k : Nat) : Int := 2 ^ (16 + k)

theorem blockSize_succ (k : Nat) : blockSize (k + 1) = blockSize k * 2 := by
  unfold blockSize
  rw [← Nat.add_assoc, pow_succ]

theorem blockSize_pos (k : Nat) : 0 < blockSize k := pow_pos (by decide) _

theorem blockSize_mono {j k : Nat} (h : j ≤ k) : blockSize j ≤ blockSize k :=
  pow_le_pow_right₀ (by decide) (by omega)

/-- A block below `2 ^ 30` is doubled to one that is not beyond it. -/
theorem blockSize_succ_le {k : Nat} (h : blockSize k < 2 ^ 30) : blockSize (k + 1) ≤ 2 ^ 30 := by
  have h14 : blockSize 14 = 2 ^ 30 := rfl
  have hk : k + 1 ≤ 14 := by
    by_contra hover
    have hmono := blockSize_mono (show 14 ≤ k by omega)
    omega
  exact (blockSize_mono hk).trans (le_of_eq h14)

section Loop

variable {minDesiredSize maxBufferSize size : Int}

/-- A wanted size up to `2 ^ 30` is reached without wrapping. -/
theorem loopEnds_of_le (hsmall : minDesiredSize ≤ 2 ^ 30) (hsize : 0 < size) :
    LoopEnds minDesiredSize maxBufferSize size := by
  -- the distance to the wanted size shrinks
  obtain ⟨n, hn⟩ : ∃ n : Nat, minDesiredSize - size ≤ n := ⟨_, Int.self_le_toNat _⟩
  induction n generalizing size with
  | zero => exact .stop (by omega)
  | succ n ih =>
      by_cases hlt : size < minDesiredSize ∧ size < maxBufferSize
      · have hdouble : int32 (size * 2) = size * 2 := int32_of_range (by omega) (by omega)
        exact .double hlt.1 hlt.2 hdouble (ih (by omega) (by omega))
      · exact .stop hlt

theorem LoopEnds.returns (h : LoopEnds minDesiredSize maxBufferSize size) :
    LoopReturns minDesiredSize maxBufferSize size := by
  induction h with
  | stop hstop => exact .stop hstop
  | double hmin hmax hdouble _ ih => exact .double hmin hmax (by rw [hdouble]; exact ih)

/-- The sizes from which a size above `2 ^ 30` is never reached: the doubled size wraps to the
smallest integer, which doubles to 0. -/
def Stuck (size : Int) : Prop :=
  (∃ k, size = blockSize k ∧ size ≤ 2 ^ 30) ∨ size = -2 ^ 31 ∨ size = 0

theorem Stuck.double (h : Stuck size) : Stuck (int32 (size * 2)) := by
  rcases h with ⟨k, rfl, hk⟩ | rfl | rfl
  · rcases Int.lt_or_eq_of_le hk with hlt | heq
    · have hpos := blockSize_pos k
      rw [int32_of_range (by omega) (by omega), ← blockSize_succ]
      exact .inl ⟨k + 1, rfl, blockSize_succ_le hlt⟩
    · rw [heq]
      exact .inr (.inl (by decide))
  · exact .inr (.inr (by decide))
  · exact .inr (.inr (by decide))

/-- Above `2 ^ 30` the loop does not come to its end. -/
theorem not_loopReturns (hsize : Stuck size) (hlarge : 2 ^ 30 < minDesiredSize)
    (hmax : minDesiredSize ≤ maxBufferSize) :
    ¬LoopReturns minDesiredSize maxBufferSize size := by
  intro h
  induction h with
  | stop hstop =>
      apply hstop
      rcases hsize with ⟨k, rfl, hk⟩ | rfl | rfl
      · constructor <;> omega
      · constructor <;> omega
      · constructor <;> omega
  | double _ _ _ ih => exact ih hsize.double

/-- From a block on, the loop goes to a block, not beyond `2 ^ 30`. -/
theorem growSize_blockSize (hsmall : minDesiredSize ≤ 2 ^ 30) (fuel : Nat) {k : Nat}
    (hk : blockSize k ≤ 2 ^ 30) :
    ∃ k', SpanBuffer.growSize minDesiredSize maxBufferSize fuel (blockSize k) = blockSize k' ∧
      blockSize k' ≤ 2 ^ 30 := by
  induction fuel generalizing k with
  | zero => exact ⟨k, rfl, hk⟩
  | succ fuel ih =>
      rw [SpanBuffer.growSize]
      split
      · have hpos := blockSize_pos k
        rw [int32_of_range (by omega) (by omega), ← blockSize_succ]
        exact ih (blockSize_succ_le (by omega))
      · exact ⟨k, rfl, hk⟩

end Loop

/-! ## A buffer in use -/

namespace SpanBuffer

/-- What `EnsureCapacity` is asked for when a trace of this size is written. -/
def request (s : SpanBuffer) (size : Nat) : Int := int32 (size + s.offset)

/-- The array has to be replaced by a longer one. -/
def MustGrow (s : SpanBuffer) (minDesiredSize : Int) : Prop :=
  s.buffer.length < minDesiredSize ∧ minDesiredSize ≤ s.maxBufferSize

end SpanBuffer

/-- Writing a trace of this size: the sum does not wrap, the loop ends without a doubling that
wraps, and the array is long enough and not longer than the maximum. -/
structure GrowsSafely (s : SpanBuffer) (size : Nat) : Prop where
  /-- The sum does not wrap. -/
  sum : s.request size = size + s.offset
  /-- The loop comes to its end, and no doubling wraps. -/
  ends : s.MustGrow (s.request size) → LoopEnds (s.request size) s.maxBufferSize s.buffer.length
  /-- The array is long enough, and not too long. -/
  room : ∀ s', s.ensureCapacity (s.request size) = some s' →
    s.request size ≤ s'.buffer.length ∧ (s'.buffer.length : Int) ≤ s.maxBufferSize

section System

variable {α : Type} (formatter : TraceFormatter α)

/-- The call comes to its end. -/
def Returns (u : InUse α) : Operation α → Prop
  | .tryWrite trace contended =>
      ¬(contended = true ∨ u.spanBuffer.locked = true) → ∀ size bytes,
        formatter.serialize u.temporaryBuffer 0 trace = some (size, bytes) →
          u.spanBuffer.MustGrow (u.spanBuffer.request size) →
            LoopReturns (u.spanBuffer.request size) u.spanBuffer.maxBufferSize
              u.spanBuffer.buffer.length
  | .lock => True
  | .clear => True

/-- A new buffer and the calls of its methods. After a call that does not come to its end there are
no others, as it keeps the monitor. -/
def system (maxBufferSize : Int) : Lts (InUse α) (Operation α) where
  Init u := SpanBuffer.new maxBufferSize = some u.spanBuffer
  Step u op u' := Returns formatter u op ∧ u' = (u.exec formatter op).1

end System

/-! ## The invariant -/

/-- What holds of the lengths of a buffer. -/
structure Grown (s : SpanBuffer) : Prop where
  /-- There is room for the header. -/
  header : headerSize ≤ s.offset
  /-- The part in use is in the array. -/
  offset_le : s.offset ≤ s.buffer.length
  /-- The array is not longer than the maximum size. -/
  length_le : (s.buffer.length : Int) ≤ s.maxBufferSize
  /-- Nor than a block that is not doubled any more. -/
  small : (s.buffer.length : Int) ≤ 2 ^ 30
  /-- It is as long as it may be, or a block. -/
  length : (s.buffer.length : Int) = s.maxBufferSize ∨ ∃ k, (s.buffer.length : Int) = blockSize k

theorem Grown.pos {s : SpanBuffer} (hs : Grown s) : 0 < s.buffer.length := by
  have hheader := hs.header
  have hoffset := hs.offset_le
  unfold headerSize at hheader
  omega

/-- A new buffer. -/
theorem grown_new {maxBufferSize : Int} {s : SpanBuffer}
    (h : SpanBuffer.new maxBufferSize = some s) :
    Grown s ∧ s.maxBufferSize = maxBufferSize := by
  unfold SpanBuffer.new at h
  split at h
  case isTrue => cases h
  case isFalse hmin =>
    obtain rfl := Option.some.inj h
    simp only [headerSize] at hmin
    have hlength : ((List.replicate (min initialBufferSize maxBufferSize).toNat
        (0 : UInt8)).length : Int) = min initialBufferSize maxBufferSize := by
      rw [List.length_replicate]
      unfold initialBufferSize
      omega
    unfold initialBufferSize at hlength
    refine ⟨⟨le_refl _, ?_, ?_, ?_, ?_⟩, rfl⟩
    · simp only [initialBufferSize, headerSize]
      omega
    · simp only [initialBufferSize]
      omega
    · simp only [initialBufferSize]
      omega
    · simp only [initialBufferSize]
      rcases le_total (64 * 1024) maxBufferSize with hle | hle
      · exact .inr ⟨0, by rw [hlength, min_eq_left hle]; rfl⟩
      · exact .inl (by rw [hlength, min_eq_right hle])

/-- Another array of a length that a buffer may have. -/
theorem Grown.replace {s : SpanBuffer} (hs : Grown s) {buffer : List UInt8} {size : Int}
    (hlength : (buffer.length : Int) = size) (hoffset : s.offset ≤ size)
    (hmax : size ≤ s.maxBufferSize) (hsmall : size ≤ 2 ^ 30)
    (hsize : size = s.maxBufferSize ∨ ∃ k, size = blockSize k) :
    Grown { s with buffer := buffer } := by
  subst hlength
  exact ⟨hs.header, Int.ofNat_le.mp hoffset, hmax, hsmall, hsize⟩

/-- An array of the same length, with another part of it in use. -/
theorem Grown.sameLength {s s' : SpanBuffer} (hs : Grown s)
    (hmax : s'.maxBufferSize = s.maxBufferSize)
    (hlength : s'.buffer.length = s.buffer.length) (hheader : headerSize ≤ s'.offset)
    (hoffset : s'.offset ≤ s.buffer.length) : Grown s' := by
  refine ⟨hheader, ?_, ?_, ?_, ?_⟩
  · rw [hlength]
    exact hoffset
  · rw [hlength, hmax]
    exact hs.length_le
  · rw [hlength]
    exact hs.small
  · rw [hlength, hmax]
    exact hs.length

/-- A longer array for a size up to `2 ^ 30`. -/
theorem Grown.ensureCapacity {s : SpanBuffer} (hs : Grown s) {minDesiredSize : Int}
    (hsmall : s.MustGrow minDesiredSize → minDesiredSize ≤ 2 ^ 30) {s' : SpanBuffer}
    (h : s.ensureCapacity minDesiredSize = some s') :
    Grown s' ∧ minDesiredSize ≤ s'.buffer.length ∧ s'.maxBufferSize = s.maxBufferSize := by
  unfold SpanBuffer.ensureCapacity at h
  split at h
  case isTrue hfits =>
    cases Option.some.inj h
    exact ⟨hs, hfits, rfl⟩
  case isFalse hshort =>
    split at h
    case isTrue => cases h
    case isFalse hmax =>
      have hmust : s.MustGrow minDesiredSize := ⟨by omega, by omega⟩
      have hle := hsmall hmust
      have hpos := hs.pos
      have hoffset := hs.offset_le
      obtain ⟨k, hk⟩ : ∃ k, (s.buffer.length : Int) = blockSize k :=
        hs.length.resolve_left (by omega)
      have hgrow : minDesiredSize ≤ SpanBuffer.growSize minDesiredSize s.maxBufferSize
          minDesiredSize.toNat s.buffer.length :=
        SpanBuffer.le_growSize hle (by omega) (by omega) (by omega)
      obtain ⟨k', hk', hbound⟩ := @growSize_blockSize minDesiredSize s.maxBufferSize hle
        minDesiredSize.toNat k (hk ▸ hs.small)
      rw [hk, hk'] at hgrow
      rw [hk, hk'] at h
      cases Option.some.inj h
      have hlength (size : Int) (hsize : (s.offset : Int) ≤ size) :
          ((s.buffer.take s.offset ++
            List.replicate (size.toNat - s.offset) (0 : UInt8)).length : Int) = size := by
        rw [List.length_append, List.length_take, List.length_replicate]
        omega
      by_cases hover : blockSize k' > s.maxBufferSize
      · have hnew := hlength s.maxBufferSize (by omega)
        rw [if_pos hover]
        exact ⟨hs.replace hnew (by omega) (le_refl _) (by omega) (.inl rfl),
          le_of_le_of_eq hmust.2 hnew.symm, rfl⟩
      · have hnew := hlength (blockSize k') (by omega)
        rw [if_neg hover]
        exact ⟨hs.replace hnew (by omega) (by omega) hbound (.inr ⟨k', rfl⟩),
          le_of_le_of_eq hgrow hnew.symm, rfl⟩

/-- A request that makes the loop come to its end is not beyond `2 ^ 30`. -/
theorem Grown.request_le {s : SpanBuffer} (hs : Grown s) {minDesiredSize : Int}
    (hmust : s.MustGrow minDesiredSize)
    (hreturns : LoopReturns minDesiredSize s.maxBufferSize s.buffer.length) :
    minDesiredSize ≤ 2 ^ 30 := by
  by_contra hlarge
  obtain ⟨k, hk⟩ : ∃ k, (s.buffer.length : Int) = blockSize k :=
    hs.length.resolve_left fun heq => by
      have hlt := hmust.1
      have hle := hmust.2
      omega
  exact not_loopReturns (.inl ⟨k, hk, hs.small⟩) (by omega) hmust.2 hreturns

/-- A sum that wraps. -/
theorem Grown.request_neg {s : SpanBuffer} (hs : Grown s) {size : Nat} (hsize : size < 2 ^ 31)
    (hwrap : 2 ^ 31 ≤ size + s.offset) : s.request size < 0 := by
  have hoffset := hs.offset_le
  have hsmall := hs.small
  exact int32_neg (by omega) (by omega)

/-- A sum that does not. -/
theorem request_eq {s : SpanBuffer} {size : Nat} (h : size + s.offset < 2 ^ 31) :
    s.request size = size + s.offset := int32_of_range (by omega) (by omega)

section Calls

variable {α : Type} {formatter : TraceFormatter α} {s : SpanBuffer}

theorem Grown.copy (hs : Grown s) (temporaryBuffer : List UInt8) {size : Nat}
    (hwritten : size ≤ temporaryBuffer.length) (trace : List α) :
    Grown (s.copy temporaryBuffer size trace).1 := by
  unfold SpanBuffer.copy
  split
  case isFalse => exact hs
  case isTrue hfits =>
    have hlength : (s.buffer.take s.offset ++ temporaryBuffer.take size ++
        s.buffer.drop (s.offset + size)).length = s.buffer.length := by
      rw [List.length_append, List.length_append, List.length_take, List.length_take,
        List.length_drop]
      omega
    exact hs.sameLength rfl hlength (Nat.le_add_right_of_le hs.header) hfits

theorem Grown.append (hs : Grown s) (temporaryBuffer : List UInt8) {size : Nat}
    (hwritten : size ≤ temporaryBuffer.length)
    (hreturns : s.MustGrow (s.request size) →
      LoopReturns (s.request size) s.maxBufferSize s.buffer.length) (trace : List α) :
    Grown (s.append temporaryBuffer size trace).1 := by
  cases hroom : s.ensureCapacity (s.request size) with
  | none =>
      rw [append_of_full hroom]
      exact ⟨hs.header, hs.offset_le, hs.length_le, hs.small, hs.length⟩
  | some s' =>
      rw [append_of_room hroom]
      have hgrown := hs.ensureCapacity (fun hmust => hs.request_le hmust (hreturns hmust)) hroom
      exact hgrown.1.copy temporaryBuffer hwritten trace

/-- **Every call that comes to its end keeps the invariant.** -/
theorem grown_exec {u : InUse α} (hs : Grown u.spanBuffer) {op : Operation α}
    (hreturns : Returns formatter u op) : Grown (u.exec formatter op).1.spanBuffer := by
  cases op with
  | tryWrite trace contended =>
      show Grown (u.spanBuffer.tryWrite formatter u.temporaryBuffer trace contended).1
      by_cases hbusy : contended = true ∨ u.spanBuffer.locked = true
      · rw [tryWrite_busy hbusy]
        exact hs
      · cases hserialize : formatter.serialize u.temporaryBuffer 0 trace with
        | none =>
            rw [tryWrite_throws hbusy hserialize]
            exact hs
        | some written =>
            obtain ⟨size, bytes⟩ := written
            have hwritten := (formatter.written hserialize).2
            rw [tryWrite_serialized hbusy hserialize rfl]
            exact hs.append bytes (by omega) (hreturns hbusy size bytes hserialize) trace
  | lock =>
      show Grown u.spanBuffer.lock.1
      have hheader := hs.header
      have hoffset := hs.offset_le
      unfold SpanBuffer.lock
      split
      · exact hs
      · have hlength : (SpanBuffer.writeHeader u.spanBuffer.buffer
            u.spanBuffer.traceCount).length = u.spanBuffer.buffer.length := by
          unfold SpanBuffer.writeHeader
          rw [if_neg (by omega), List.length_append, length_array32Header, List.length_drop]
          omega
        exact hs.sameLength rfl hlength hs.header hs.offset_le
  | clear =>
      have hheader := hs.header
      have hoffset := hs.offset_le
      exact ⟨le_refl _, hheader.trans hoffset, hs.length_le, hs.small, hs.length⟩

end Calls

/-! ## Every reachable buffer -/

variable {α : Type} {formatter : TraceFormatter α} {maxBufferSize : Int} {u : InUse α}

theorem grown_of_reachable (hu : (system formatter maxBufferSize).Reachable u) :
    Grown u.spanBuffer ∧ u.spanBuffer.maxBufferSize = maxBufferSize := by
  refine hu.invariant (I := fun u => Grown u.spanBuffer ∧
    u.spanBuffer.maxBufferSize = maxBufferSize) ?_ ?_
  · intro u hnew
    exact grown_new hnew
  · rintro u op _ ⟨hs, hmax⟩ ⟨hreturns, rfl⟩
    exact ⟨grown_exec hs hreturns, (InUse.maxBufferSize_exec u op).trans hmax⟩

/-- **Growth.** In every state that calls on a new buffer lead to, writing a trace of any size grows
the buffer safely exactly if the sum with what is in use does not wrap, and is not beyond `2 ^ 30`
unless it is beyond the maximum size. -/
theorem growsSafely_iff (hu : (system formatter maxBufferSize).Reachable u) {size : Nat}
    (hsize : size < 2 ^ 31) :
    GrowsSafely u.spanBuffer size ↔ size + u.spanBuffer.offset < 2 ^ 31 ∧
      ((size + u.spanBuffer.offset : Int) ≤ 2 ^ 30 ∨
        maxBufferSize < size + u.spanBuffer.offset) := by
  obtain ⟨hs, hmax⟩ := grown_of_reachable hu
  have hsmall := hs.small
  have hlength := hs.length_le
  constructor
  · intro h
    have hfits : size + u.spanBuffer.offset < 2 ^ 31 := by
      by_contra hwrap
      have hneg := hs.request_neg hsize (by omega)
      have hsum := h.sum
      omega
    refine ⟨hfits, ?_⟩
    by_contra hlarge
    have hmust : u.spanBuffer.MustGrow (u.spanBuffer.request size) := by
      rw [request_eq hfits]
      exact ⟨by omega, by omega⟩
    have hle := hs.request_le hmust (h.ends hmust).returns
    rw [request_eq hfits] at hle
    omega
  · rintro ⟨hfits, hrange⟩
    have hrequest := request_eq hfits
    have hle (hmust : u.spanBuffer.MustGrow (u.spanBuffer.request size)) :
        u.spanBuffer.request size ≤ 2 ^ 30 := by
      have hle := hmust.2
      omega
    refine ⟨hrequest, fun hmust => ?_, fun s' hroom => ?_⟩
    · have hpos := hs.pos
      exact loopEnds_of_le (hle hmust) (by omega)
    · obtain ⟨hgrown, hroom, hsame⟩ := hs.ensureCapacity hle hroom
      rw [← hsame]
      exact ⟨hroom, hgrown.length_le⟩

/-- In a new buffer whose maximum size is 64, a trace of ten bytes. -/
theorem growsSafely_iff_ten :
    GrowsSafely ⟨64, List.replicate 64 0, false, 5, 0, 0, false⟩ 10 := by
  have hnew : SpanBuffer.new 64 = some ⟨64, List.replicate 64 0, false, 5, 0, 0, false⟩ := rfl
  have hu : (system nilFormatter 64).Reachable
      ⟨⟨64, List.replicate 64 0, false, 5, 0, 0, false⟩, [], []⟩ := .init hnew
  have hsize : 10 < 2 ^ 31 := by decide
  exact (growsSafely_iff hu hsize).mpr (by decide)

/-- A new buffer whose maximum size is one byte more than `2 ^ 30`, which a trace of four bytes less
than `2 ^ 30` would fill: the size is doubled to `2 ^ 30`, to `-2 ^ 31` and to 0, for ever. -/
theorem growth_never_ends : ∃ s, SpanBuffer.new (2 ^ 30 + 1) = some s ∧
    s.MustGrow (s.request (2 ^ 30 - 4)) ∧
    ¬LoopReturns (s.request (2 ^ 30 - 4)) s.maxBufferSize s.buffer.length ∧
    ¬GrowsSafely s (2 ^ 30 - 4) := by
  obtain ⟨s, hnew⟩ : ∃ s, SpanBuffer.new (2 ^ 30 + 1) = some s := ⟨_, rfl⟩
  obtain ⟨-, hmax⟩ := grown_new hnew
  have hoffset : s.offset = 5 := by
    cases Option.some.inj hnew
    rfl
  have hlength : (s.buffer.length : Int) = blockSize 0 := by
    cases Option.some.inj hnew
    exact congrArg Nat.cast List.length_replicate
  have hrequest : s.request (2 ^ 30 - 4) = 2 ^ 30 + 1 := by
    unfold SpanBuffer.request
    rw [hoffset]
    decide
  have hmust : s.MustGrow (s.request (2 ^ 30 - 4)) := by
    rw [hrequest]
    refine ⟨?_, le_of_eq hmax.symm⟩
    rw [hlength]
    decide
  have hstuck : ¬LoopReturns (s.request (2 ^ 30 - 4)) s.maxBufferSize s.buffer.length := by
    apply not_loopReturns
    · exact .inl ⟨0, hlength, by rw [hlength]; decide⟩
    · rw [hrequest]
      decide
    · exact hmust.2
  exact ⟨s, hnew, hmust, hstuck, fun h => hstuck (h.ends hmust).returns⟩

end DdTrace.Agent.Payload
