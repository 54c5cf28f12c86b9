import DdTrace.Agent.FlushCompleteness

/-!
# The agent writer: the buffer that is not active

A pass of `FlushBuffers` that does not flush all buffers flushes the active one, and the other one
only if it is full. While only the serialization thread serializes, this leaves no trace behind.

* `SpanBuffer.NotStranded`: a buffer is empty, or full, or a flush has it.
* `Unstranded`: the invariant of the runs: the buffer that is not active is not stranded, and
  neither is the active one from the refusal of a trace up to the swap.
* `Owned`: the invariant of the tasks: a buffer that is locked is one of a task in progress
  (`BeingFlushed`).
* `Pass`: what a pass of `FlushBuffers` that has read `_activeBuffer` leaves behind: nothing, or a
  buffer that a flush has.
* `inactive_not_stranded`: the result for the whole writer.

Source: `Agent/AgentWriter.cs`, `FlushBuffers`, `SerializeTrace`; `Agent/SpanBuffer.cs`.
-/

namespace DdTrace.Agent

open DdTrace.Lib

/-! ## A buffer that is not stranded -/

/-- A flush has the buffer: it has locked it, or it is in `Lock`. -/
def SpanBuffer.InFlush (b : SpanBuffer) : Prop :=
  b.locked = true ∨ ∃ k, b.monitor = some (.task k)

/-- The buffer is empty, or marked full, or a flush has it. -/
def SpanBuffer.NotStranded (b : SpanBuffer) : Prop :=
  b.traces = [] ∨ b.isFull = true ∨ b.InFlush

@[simp] theorem Side.other_ne (side : Side) : side.other ≠ side := by
  cases side
  · decide
  · decide

@[simp] theorem Side.other_other (side : Side) : side.other.other = side := by
  cases side
  · rfl
  · rfl

theorem Side.eq_or_eq_other (side side' : Side) : side = side' ∨ side = side'.other := by
  cases side <;> cases side' <;> decide

/-- The event is not one of a call of `SerializeTrace` on the thread of a caller of `WriteTrace`. -/
def BufferEvent.onLoop : BufferEvent → Bool
  | .serialize (.writer _) _ => false
  | _ => true

/-- The task is started and not completed. -/
def TaskStage.inProgress : TaskStage → Bool
  | .notStarted => false
  | .done => false
  | _ => true

theorem TaskStage.inProgress_of_phase {stage : TaskStage} {p : FlushPhase}
    (h : stage.phase = some p) : stage.inProgress = true := by
  cases stage
  case notStarted => cases h
  case done => cases h
  all_goals rfl

namespace Buffers

variable {maxBufferSize : Nat} {s u : Buffers}

/-- What the serialization thread knows where it is in `SerializeTrace`: a buffer that refused the
trace, and is still active, is not stranded. -/
def Knows (s : Buffers) : SerializePc → Prop
  | .tryWrite side _ => side = s.active
  | .swapRead => (s.buffers s.active).NotStranded
  | .swapTest side => side = s.active.other ∧ (s.buffers s.active).NotStranded
  | .swapWrite side => side = s.active.other ∧ (s.buffers s.active).NotStranded
  | _ => True

/-- The invariant. -/
structure Unstranded (s : Buffers) : Prop where
  /-- No caller of `WriteTrace` is in `SerializeTrace`. -/
  writers : ∀ t, s.hands (.writer t) = none
  /-- Nor does one have a monitor. -/
  monitors : ∀ side h, (s.buffers side).monitor = some (.serializer h) → h = .loop
  /-- The buffer that is not active is not stranded. -/
  inactive : (s.buffers s.active.other).NotStranded
  /-- What the serialization thread knows. -/
  knows : ∀ t pc, s.hands .loop = some (t, pc) → s.Knows pc

/-! ## The steps of a flush -/

/-- What a task leaves of a buffer that was not stranded, was full or was in a flush. -/
structure Kept (b b' : SpanBuffer) : Prop where
  notStranded : b.NotStranded → b'.NotStranded
  monitor : ∀ h, b'.monitor = some (.serializer h) → b.monitor = some (.serializer h)
  isFull : b.isFull = true → b'.isFull = true ∨ b'.traces = []
  inFlush : b.InFlush → b'.InFlush ∨ b'.traces = []

theorem Kept.refl (b : SpanBuffer) : Kept b b := ⟨id, fun _ => id, Or.inl, Or.inl⟩

/-- A buffer that a flush has is not stranded. -/
theorem Kept.of_inFlush {b b' : SpanBuffer} (h : b'.InFlush) (hfull : b'.isFull = b.isFull)
    (hmonitor : ∀ h, b'.monitor ≠ some (.serializer h)) : Kept b b' :=
  ⟨fun _ => Or.inr (Or.inr h), fun i hi => absurd hi (hmonitor i),
    fun hb => Or.inl (hfull.trans hb), fun _ => Or.inl h⟩

/-- Only the history of a buffer changes. -/
theorem Kept.of_same {b b' : SpanBuffer} (htraces : b'.traces = b.traces)
    (hfull : b'.isFull = b.isFull) (hlocked : b'.locked = b.locked)
    (hmonitor : b'.monitor = b.monitor) : Kept b b' := by
  refine ⟨?_, ?_, ?_, ?_⟩
  · rw [SpanBuffer.NotStranded, SpanBuffer.NotStranded, SpanBuffer.InFlush, SpanBuffer.InFlush,
      htraces, hfull, hlocked, hmonitor]
    exact id
  · rw [hmonitor]
    exact fun _ => id
  · rw [hfull]
    exact Or.inl
  · rw [SpanBuffer.InFlush, SpanBuffer.InFlush, hlocked, hmonitor]
    exact Or.inl

/-- A task leaves of every buffer what it should. -/
theorem TaskEffect.kept {k : TaskId} {a : TaskAction} (hu : TaskEffect s k a u) (side : Side) :
    Kept (s.buffers side) (u.buffers side) := by
  have hkept : ∀ {b : SpanBuffer}, Kept (s.bufferOf k) b →
      Kept (s.buffers side) (Function.update s.buffers (s.tasks k).side b side) := by
    intro b hb
    rcases eq_or_ne side (s.tasks k).side with rfl | hne
    · rw [Function.update_self]
      exact hb
    · rw [Function.update_of_ne hne]
      exact .refl _
  cases hu with
  | enter => exact hkept (.of_inFlush (Or.inr ⟨k, rfl⟩) rfl (by simp))
  | fail _ _ hlocked => exact hkept (.of_inFlush (Or.inl hlocked) rfl (by simp))
  | lock => exact hkept (.of_inFlush (Or.inl rfl) rfl (by simp))
  | send => exact hkept (.of_same rfl rfl rfl rfl)
  | skip => exact hkept (.of_same rfl rfl rfl rfl)
  | keep => exact hkept (.of_same rfl rfl rfl rfl)
  | drop => exact hkept (.of_same rfl rfl rfl rfl)
  | clear =>
      exact hkept ⟨fun _ => Or.inl rfl, by simp, fun _ => Or.inr rfl, fun _ => Or.inr rfl⟩

/-- A task does not make another buffer the active one. -/
theorem TaskEffect.active {k : TaskId} {a : TaskAction} (hu : TaskEffect s k a u) :
    u.active = s.active := by
  cases hu <;> rfl

/-- A call of `FlushBuffers` does not make another buffer the active one. -/
theorem FlushEffect.active {f : Flusher} {a : FlushBuffersAction} (hu : FlushEffect s f a u) :
    u.active = s.active := by
  cases hu <;> rfl

/-- A step that leaves the calls of `SerializeTrace` and the active buffer as they are. -/
theorem Unstranded.of_kept (h : s.Unstranded) (hhands : u.hands = s.hands)
    (hactive : u.active = s.active) (hkept : ∀ side, Kept (s.buffers side) (u.buffers side)) :
    u.Unstranded := by
  refine ⟨?_, ?_, ?_, ?_⟩
  · rw [hhands]
    exact h.writers
  · exact fun side i hi => h.monitors side i ((hkept side).monitor i hi)
  · rw [hactive]
    exact (hkept _).notStranded h.inactive
  · intro t pc hpc
    rw [hhands] at hpc
    have hknows := h.knows t pc hpc
    cases pc with
    | tryWrite side second => exact hknows.trans hactive.symm
    | swapRead =>
        show (u.buffers u.active).NotStranded
        rw [hactive]
        exact (hkept _).notStranded hknows
    | swapTest side =>
        refine ⟨by rw [hactive]; exact hknows.1, ?_⟩
        rw [hactive]
        exact (hkept _).notStranded hknows.2
    | swapWrite side =>
        refine ⟨by rw [hactive]; exact hknows.1, ?_⟩
        rw [hactive]
        exact (hkept _).notStranded hknows.2
    | _ => trivial

/-! ## The steps of the serialization thread -/

/-- The serialization thread moves on, and knows what it should where it gets. -/
theorem Unstranded.setHand (h : s.Unstranded) {hand : Option (TraceId × SerializePc)}
    (hknows : ∀ t pc, hand = some (t, pc) → s.Knows pc) :
    (s.setHand .loop hand).Unstranded := by
  refine ⟨fun t => ?_, h.monitors, h.inactive, fun t pc hpc => ?_⟩
  · show Function.update s.hands .loop hand (.writer t) = none
    rw [Function.update_of_ne (by simp)]
    exact h.writers t
  · have hpc : Function.update s.hands .loop hand .loop = some (t, pc) := hpc
    rw [Function.update_self] at hpc
    exact hknows t pc hpc

/-- The books do not matter. -/
theorem Unstranded.setBooks (h : s.Unstranded) (books : Books) :
    Unstranded { s with books := books } :=
  ⟨h.writers, h.monitors, h.inactive, h.knows⟩

/-- The serialization thread changes the active buffer in `TryWrite`. -/
theorem Unstranded.setActive (h : s.Unstranded) {t : TraceId} {second : Bool}
    (hpc : s.hands .loop = some (t, .tryWrite s.active second)) {b : SpanBuffer}
    (hmonitor : ∀ i, b.monitor = some (.serializer i) → i = .loop) :
    (s.setBuffer s.active b).Unstranded := by
  refine ⟨h.writers, fun side i hi => ?_, ?_, fun t' pc hpc' => ?_⟩
  · have hi : (Function.update s.buffers s.active b side).monitor = some (.serializer i) := hi
    rcases eq_or_ne side s.active with rfl | hne
    · rw [Function.update_self] at hi
      exact hmonitor i hi
    · rw [Function.update_of_ne hne] at hi
      exact h.monitors side i hi
  · show (Function.update s.buffers s.active b s.active.other).NotStranded
    rw [Function.update_of_ne (Side.other_ne _)]
    exact h.inactive
  · -- it is in `TryWrite`, and knows the active buffer
    have hpc' : s.hands .loop = some (t', pc) := hpc'
    rw [hpc, Option.some.injEq, Prod.mk.injEq] at hpc'
    rw [← hpc'.2]
    exact rfl

/-- A refusal, when the buffer that refused is not stranded. -/
theorem knows_afterRefusal (h : (s.buffers s.active).NotStranded) (second : Bool) :
    s.Knows (afterRefusal second) := by
  cases second
  · exact h
  · exact trivial

/-- The end of `TryWrite` on the active buffer. -/
theorem Unstranded.write (h : s.Unstranded) {t : TraceId} {second : Bool}
    (hpc : s.hands .loop = some (t, .tryWrite s.active second)) (size : Option Nat) :
    (s.write maxBufferSize .loop t s.active second size).Unstranded := by
  unfold Buffers.write
  cases size with
  | none =>
      apply Unstranded.setBooks
      exact (h.setActive hpc (by simp)).setHand (by rintro t' pc ⟨⟩; exact trivial)
  | some size =>
      dsimp only
      split
      · exact (h.setActive hpc (by simp)).setHand (by rintro t' pc ⟨⟩; exact trivial)
      · refine (h.setActive hpc (by simp)).setHand ?_
        rintro t' pc ⟨⟩
        -- the buffer that refused is full now
        apply knows_afterRefusal
        show (Function.update s.buffers s.active _ s.active).NotStranded
        rw [Function.update_self]
        exact Or.inr (Or.inl rfl)

/-- The serialization thread makes the other buffer the active one. -/
theorem Unstranded.swap (h : s.Unstranded) (t : TraceId)
    (hknows : (s.buffers s.active).NotStranded) :
    Unstranded { s.setHand .loop (some (t, .swapReturn)) with active := s.active.other } := by
  have hmoved : (s.setHand .loop (some (t, .swapReturn))).Unstranded :=
    h.setHand (by rintro t' pc ⟨⟩; exact trivial)
  refine ⟨hmoved.writers, hmoved.monitors, ?_, fun t' pc hpc => ?_⟩
  · show (s.buffers s.active.other.other).NotStranded
    rw [Side.other_other]
    exact hknows
  · have hpc : Function.update s.hands .loop (some (t, .swapReturn)) .loop = some (t', pc) := hpc
    rw [Function.update_self, Option.some.injEq, Prod.mk.injEq] at hpc
    rw [← hpc.2]
    exact trivial

/-- **The step** of the serialization thread. -/
theorem Unstranded.serialize (h : s.Unstranded) {a : SerializeAction}
    (hu : s.serializeTrace maxBufferSize .loop a = some u) : u.Unstranded := by
  cases a <;> simp only [serializeTrace] at hu
  case call t =>
    split at hu
    · obtain rfl := Option.some.inj hu
      exact (h.setHand (by rintro t' pc ⟨⟩; exact trivial)).setBooks _
    · cases hu
  case readActive =>
    split at hu
    · obtain rfl := Option.some.inj hu
      exact h.setHand (by rintro t' pc ⟨⟩; exact rfl)
    · cases hu
  case tryEnter =>
    split at hu
    · rename_i t side second hpc
      obtain rfl : side = s.active := h.knows t _ hpc
      split at hu
      · cases hu
      · rename_i hother
        split at hu
        · obtain rfl := Option.some.inj hu
          exact h.setActive hpc (by simp [eq_comm])
        · -- the buffer is locked, or a flush is in `Lock` or `Clear`
          rename_i hbusy
          obtain rfl := Option.some.inj hu
          refine h.setHand ?_
          rintro t' pc ⟨⟩
          apply knows_afterRefusal
          by_cases hlocked : (s.buffers s.active).locked = true
          · exact Or.inr (Or.inr (Or.inl hlocked))
          · rw [Bool.not_eq_true] at hlocked
            cases hmonitor : (s.buffers s.active).monitor with
            | none => exact absurd ⟨hmonitor, hlocked⟩ hbusy
            | some owner =>
                cases owner with
                | serializer i =>
                    obtain rfl := h.monitors _ i hmonitor
                    exact absurd hmonitor hother
                | task k => exact Or.inr (Or.inr (Or.inr ⟨k, hmonitor⟩))
    · cases hu
  case write size =>
    split at hu
    · rename_i t side second hpc
      obtain rfl : side = s.active := h.knows t _ hpc
      split at hu
      · obtain rfl := Option.some.inj hu
        exact h.write hpc size
      · cases hu
    · cases hu
  case swapRead =>
    split at hu
    · rename_i t hpc
      have hknows := h.knows t _ hpc
      obtain rfl := Option.some.inj hu
      exact h.setHand (by rintro t' pc ⟨⟩; exact ⟨rfl, hknows⟩)
    · cases hu
  case swapTest =>
    split at hu
    · rename_i t side hpc
      have hknows := h.knows t _ hpc
      obtain rfl := Option.some.inj hu
      refine h.setHand ?_
      rintro t' pc ⟨⟩
      split
      · exact trivial
      · exact hknows
    · cases hu
  case swapWrite =>
    split at hu
    · rename_i t side hpc
      obtain ⟨rfl, hknows⟩ : side = s.active.other ∧ (s.buffers s.active).NotStranded :=
        h.knows t _ hpc
      obtain rfl := Option.some.inj hu
      exact h.swap t hknows
    · cases hu
  case swapReturn =>
    split at hu
    · obtain rfl := Option.some.inj hu
      exact h.setHand (by rintro t' pc ⟨⟩; exact rfl)
    · cases hu
  case drop =>
    split at hu
    · obtain rfl := Option.some.inj hu
      exact (h.setHand (by rintro t' pc ⟨⟩; exact trivial)).setBooks _
    · cases hu
  case «return» =>
    split at hu
    · obtain rfl := Option.some.inj hu
      exact h.setHand (by rintro t' pc ⟨⟩)
    · cases hu
  case throw =>
    split at hu
    · obtain rfl := Option.some.inj hu
      exact h.setHand (by rintro t' pc ⟨⟩)
    · cases hu

/-- **The step**: every step of a run with one serialization thread keeps the invariant. -/
theorem Unstranded.step (h : s.Unstranded) {e : BufferEvent} (he : e.onLoop = true)
    (hu : s.step maxBufferSize e = some u) : u.Unstranded := by
  cases e with
  | serialize i a =>
      cases i with
      | loop => exact h.serialize hu
      | writer t => cases he
  | flush f a =>
      have heffect := flushBuffers_effect hu
      obtain ⟨hbuffers, hhands, -, -⟩ := heffect.frame
      refine h.of_kept hhands heffect.active fun side => ?_
      rw [hbuffers]
      exact .refl _
  | task k a =>
      have heffect := internalBufferFlush_effect hu
      exact h.of_kept heffect.frame.1 heffect.active heffect.kept

/-- The invariant holds in every state of a run with one serialization thread. -/
theorem unstranded (hs : ((system maxBufferSize).restrict fun _ e => e.onLoop = true).Reachable s) :
    s.Unstranded := by
  refine hs.invariant (I := Unstranded) (fun s h₀ => ?_) fun s e u h hstep => h.step hstep.2 hstep.1
  obtain rfl : s = {} := h₀
  exact ⟨fun _ => rfl, by simp, Or.inl rfl, by simp⟩

/-! ## The flush that has a buffer -/

/-- What a task has: the monitor of its buffer in `Lock` and `Clear`, and its lock in between. -/
structure Owned (s : Buffers) : Prop where
  monitor : ∀ side k, (s.buffers side).monitor = some (.task k) →
    (s.tasks k).side = side ∧ (s.tasks k).stage.inProgress = true
  flush : ∀ side k p, (s.buffers side).flush = some (k, p) →
    (s.tasks k).side = side ∧ (s.tasks k).stage.phase = some p

theorem Owned.congr (h : s.Owned)
    (hmonitor : ∀ side k, (u.buffers side).monitor = some (.task k) →
      (s.buffers side).monitor = some (.task k))
    (hflush : ∀ side, (u.buffers side).flush = (s.buffers side).flush)
    (htasks : ∀ k, (s.tasks k).stage.inProgress = true → u.tasks k = s.tasks k) : u.Owned := by
  refine ⟨fun side k hk => ?_, fun side k p hk => ?_⟩
  · obtain ⟨hside, hstage⟩ := h.monitor side k (hmonitor side k hk)
    rw [htasks k hstage]
    exact ⟨hside, hstage⟩
  · rw [hflush] at hk
    obtain ⟨hside, hphase⟩ := h.flush side k p hk
    rw [htasks k (TaskStage.inProgress_of_phase hphase)]
    exact ⟨hside, hphase⟩

/-- A task goes on with its buffer. -/
theorem Owned.setTask (h : s.Owned) {k : TaskId} {b : SpanBuffer} {stage : TaskStage}
    (hmonitor : ∀ j, b.monitor = some (.task j) →
      j = k ∧ stage.inProgress = true ∨ j ≠ k ∧ (s.bufferOf k).monitor = some (.task j))
    (hflush : ∀ j p, b.flush = some (j, p) →
      j = k ∧ stage.phase = some p ∨ j ≠ k ∧ (s.bufferOf k).flush = some (j, p)) :
    ((s.setBuffer (s.tasks k).side b).setStage k stage).Owned := by
  have htask : ∀ j, j ≠ k →
      ((s.setBuffer (s.tasks k).side b).setStage k stage).tasks j = s.tasks j :=
    fun j hne => Function.update_of_ne hne ..
  have hself : ((s.setBuffer (s.tasks k).side b).setStage k stage).tasks k =
      { s.tasks k with stage := stage } := Function.update_self ..
  refine ⟨fun side j hj => ?_, fun side j p hj => ?_⟩
  · have hj : (Function.update s.buffers (s.tasks k).side b side).monitor = some (.task j) := hj
    rcases eq_or_ne side (s.tasks k).side with rfl | hside
    · rw [Function.update_self] at hj
      rcases hmonitor j hj with ⟨rfl, hstage⟩ | ⟨hne, hold⟩
      · rw [hself]
        exact ⟨rfl, hstage⟩
      · rw [htask j hne]
        exact h.monitor _ j hold
    · rw [Function.update_of_ne hside] at hj
      obtain ⟨hmine, hstage⟩ := h.monitor side j hj
      rw [htask j (by rintro rfl; exact hside hmine.symm)]
      exact ⟨hmine, hstage⟩
  · have hj : (Function.update s.buffers (s.tasks k).side b side).flush = some (j, p) := hj
    rcases eq_or_ne side (s.tasks k).side with rfl | hside
    · rw [Function.update_self] at hj
      rcases hflush j p hj with ⟨rfl, hphase⟩ | ⟨hne, hold⟩
      · rw [hself]
        exact ⟨rfl, hphase⟩
      · rw [htask j hne]
        exact h.flush _ j p hold
    · rw [Function.update_of_ne hside] at hj
      obtain ⟨hmine, hphase⟩ := h.flush side j p hj
      rw [htask j (by rintro rfl; exact hside hmine.symm)]
      exact ⟨hmine, hphase⟩

/-- The task that has the lock of a buffer is the one the buffer says. -/
theorem Owned.ne_of_phase (h : s.Owned) {k j : TaskId} {p : FlushPhase} {side : Side}
    (hphase : (s.tasks k).stage.phase = none) (hj : (s.buffers side).flush = some (j, p)) :
    j ≠ k := by
  rintro rfl
  have hsome := (h.flush side j p hj).2
  rw [hphase] at hsome
  cases hsome

/-- A task that takes a step is in progress. -/
theorem inProgress_of_step {k : TaskId} {a : TaskAction}
    (hu : s.internalBufferFlush k a = some u) : (s.tasks k).stage.inProgress = true := by
  have hstage : (s.tasks k).stage = .lock ∨ ∃ p, (s.tasks k).stage.phase = some p := by
    cases a <;> simp only [internalBufferFlush, Option.ite_none_right_eq_some] at hu
    case enterLock => exact Or.inl hu.1.1
    case lock => exact Or.inl hu.1.1
    case test => exact Or.inr ⟨_, congrArg TaskStage.phase hu.1⟩
    case sent => exact Or.inr ⟨_, congrArg TaskStage.phase hu.1⟩
    case enterClear => exact Or.inr ⟨_, congrArg TaskStage.phase hu.1.1⟩
    case clear => exact Or.inr ⟨_, congrArg TaskStage.phase hu.1.1⟩
  rcases hstage with hlock | ⟨p, hphase⟩
  · rw [hlock]
    rfl
  · exact TaskStage.inProgress_of_phase hphase

theorem Owned.serialize (h : s.Owned) {i : Serializer} {a : SerializeAction}
    (hu : SerializeEffect maxBufferSize s i a u) : u.Owned := by
  have hset : ∀ {buffers : Side → SpanBuffer} {side : Side} {b : SpanBuffer},
      buffers = Function.update s.buffers side b → (∀ k, b.monitor ≠ some (.task k)) →
      b.flush = (s.buffers side).flush → ∀ side',
      (∀ k, (buffers side').monitor = some (.task k) →
        (s.buffers side').monitor = some (.task k)) ∧
      (buffers side').flush = (s.buffers side').flush := by
    rintro buffers side b rfl hmonitor hflush side'
    rcases eq_or_ne side' side with rfl | hne
    · rw [Function.update_self]
      exact ⟨fun k hk => absurd hk (hmonitor k), hflush⟩
    · rw [Function.update_of_ne hne]
      exact ⟨fun _ => id, rfl⟩
  have hbuffers : ∀ side, (∀ k, (u.buffers side).monitor = some (.task k) →
      (s.buffers side).monitor = some (.task k)) ∧
      (u.buffers side).flush = (s.buffers side).flush := by
    cases hu with
    | enter => exact hset rfl (by simp) rfl
    | store => exact hset rfl (by simp) rfl
    | overflow => exact hset rfl (by simp) rfl
    | lose => exact hset rfl (by simp) rfl
    | _ => exact fun _ => ⟨fun _ => id, rfl⟩
  exact h.congr (fun side => (hbuffers side).1) (fun side => (hbuffers side).2)
    fun k _ => congrFun hu.tasks.2 k

theorem Owned.flushBuffers (h : s.Owned) {f : Flusher} {a : FlushBuffersAction}
    (hu : FlushEffect s f a u) : u.Owned := by
  obtain ⟨hbuffers, -, -, htasks⟩ := hu.frame
  refine h.congr (fun side k hk => ?_) (fun side => by rw [hbuffers]) fun k hk => ?_
  · rw [hbuffers] at hk
    exact hk
  · rcases htasks with htasks | ⟨k', side, hfresh, htasks⟩
    · rw [htasks]
    · rw [htasks, Function.update_of_ne]
      -- the task that is started was not in progress
      rintro rfl
      rw [hfresh] at hk
      cases hk

/-- The task that has the lock of its buffer goes on. -/
theorem Owned.advance (h : s.Owned) {k : TaskId} {p : FlushPhase} {stage : TaskStage}
    (hphase : stage.phase = some p) :
    ((s.setBuffer (s.tasks k).side { s.bufferOf k with flush := some (k, p) }).setStage k
      stage).Owned := by
  refine h.setTask (fun j hj => ?_) ?_
  · rcases eq_or_ne j k with rfl | hne
    · exact Or.inl ⟨rfl, TaskStage.inProgress_of_phase hphase⟩
    · exact Or.inr ⟨hne, hj⟩
  · rintro j q ⟨⟩
    exact Or.inl ⟨rfl, hphase⟩

theorem Owned.task (h : s.Owned) {k : TaskId} {a : TaskAction}
    (hprogress : (s.tasks k).stage.inProgress = true) (hu : TaskEffect s k a u) : u.Owned := by
  cases hu with
  | enter hfree =>
      have hself : (s.setBuffer (s.tasks k).side
          { s.bufferOf k with monitor := some (.task k) }).setStage k (s.tasks k).stage =
          s.setBuffer (s.tasks k).side { s.bufferOf k with monitor := some (.task k) } := by
        simp [Buffers.setStage, Buffers.setBuffer]
      rw [← hself]
      refine h.setTask (fun j hj => ?_) fun j p hj => ?_
      · cases hj
        exact Or.inl ⟨rfl, hprogress⟩
      · rcases eq_or_ne j k with rfl | hne
        · exact Or.inl ⟨rfl, (h.flush _ j p hj).2⟩
        · exact Or.inr ⟨hne, hj⟩
  | fail hlock =>
      refine h.setTask (by simp) fun j p hj => Or.inr ⟨h.ne_of_phase (by rw [hlock]; rfl) hj, hj⟩
  | lock hlock =>
      refine h.setTask (by simp) fun j p hj => ?_
      cases hj
      exact Or.inl ⟨rfl, rfl⟩
  | send => exact (h.advance rfl).congr (fun _ _ => id) (fun _ => rfl) fun _ _ => rfl
  | skip => exact h.advance rfl
  | keep => exact (h.advance rfl).congr (fun _ _ => id) (fun _ => rfl) fun _ _ => rfl
  | drop => exact (h.advance rfl).congr (fun _ _ => id) (fun _ => rfl) fun _ _ => rfl
  | clear => exact h.setTask (by simp) (by simp)

/-- The tasks have what they should in every reachable state. -/
theorem owned (hs : (system maxBufferSize).Reachable s) : s.Owned := by
  refine hs.invariant_of_reachable (I := Owned) (fun s h₀ => ?_) fun s e u hr h hu => ?_
  · obtain rfl : s = {} := h₀
    exact ⟨by simp, by simp⟩
  · have hu : s.step maxBufferSize e = some u := hu
    cases e with
    | serialize i a => exact h.serialize (serializeTrace_effect hu)
    | flush f a => exact h.flushBuffers (flushBuffers_effect hu)
    | task k a =>
        exact h.task (inProgress_of_step hu) (internalBufferFlush_effect hu)

/-- A task in progress has the buffer: it has its monitor, or has locked it. -/
def BeingFlushed (s : Buffers) (side : Side) : Prop :=
  ∃ k, (s.tasks k).side = side ∧ (s.tasks k).stage.inProgress = true ∧
    ((s.buffers side).monitor = some (.task k) ∨
      (s.buffers side).locked = true ∧ ∃ p, (s.buffers side).flush = some (k, p))

/-- What a flush has, a task in progress has. -/
theorem beingFlushed (hs : (system maxBufferSize).Reachable s) {side : Side}
    (h : (s.buffers side).InFlush) : s.BeingFlushed side := by
  have howned := owned hs
  rcases h with hlocked | ⟨k, hk⟩
  · have hsome := ((held hs).buffers side).locked
    rw [hlocked, eq_comm, Option.isSome_iff_exists] at hsome
    obtain ⟨⟨k, p⟩, hflush⟩ := hsome
    obtain ⟨hside, hphase⟩ := howned.flush side k p hflush
    exact ⟨k, hside, TaskStage.inProgress_of_phase hphase, Or.inr ⟨hlocked, p, hflush⟩⟩
  · obtain ⟨hside, hprogress⟩ := howned.monitor side k hk
    exact ⟨k, hside, hprogress, Or.inl hk⟩

/-! ## A trace in a buffer is in no hand -/

/-- A trace that was not in the buffer before comes from the hand that lets it go. -/
theorem SerializeEffect.hand_of_stored {h : Serializer} {a : SerializeAction}
    (hu : SerializeEffect maxBufferSize s h a u) {side : Side} {t : TraceId}
    (hnew : t ∉ (s.buffers side).traces) (ht : t ∈ (u.buffers side).traces) :
    s.ledger.hands h = some t ∧ u.books.taken = s.books.taken ∧
      u.ledger.hands = Function.update s.ledger.hands h none := by
  have hhand := (hu.mem_traces ht).resolve_left hnew
  cases hu with
  | take => exact absurd ht hnew
  | move => exact absurd ht hnew
  | drop => exact absurd ht hnew
  | leave => exact absurd ht hnew
  | enter => exact absurd (mem_of_setBuffer ht id) hnew
  | @overflow _ side' =>
      have ht : t ∈ ((s.setBuffer side' _).buffers side).traces := ht
      exact absurd (mem_of_setBuffer ht id) hnew
  | @lose _ side' =>
      have ht : t ∈ ((s.setBuffer side' _).buffers side).traces := ht
      exact absurd (mem_of_setBuffer ht id) hnew
  | store => exact ⟨hhand, rfl, inHand_setHand h _⟩

/-- In every run that takes no trace twice, the traces in the buffers are in no hand. -/
theorem stored_settled (hs : ((system maxBufferSize).restrict Fresh).Reachable s) (side : Side)
    {t : TraceId} (ht : t ∈ (s.buffers side).traces) : s.ledger.Settled t := by
  refine hs.invariant_of_reachable (I := fun s => ∀ side, ∀ t ∈ (s.buffers side).traces,
    s.ledger.Settled t) (fun s h₀ => ?_) (fun s e u hr h hstep => ?_) side t ht
  · obtain rfl : s = {} := h₀
    rintro side t ⟨⟩
  · intro side t ht
    have hledger : s.ledger.Step u.ledger := step_ledger (held hr.of_restrict) hstep.2 hstep.1
    by_cases hold : t ∈ (s.buffers side).traces
    · exact (h side t hold).step hledger
    · have hu : s.step maxBufferSize e = some u := hstep.1
      cases e with
      | serialize i a =>
          obtain ⟨hhand, htaken, hhands⟩ := (serializeTrace_effect hu).hand_of_stored hold ht
          exact (ledger_valid hr).settled hhand htaken hhands
      | flush f a =>
          rw [(flushBuffers_effect hu).frame.1] at ht
          exact absurd ht hold
      | task k a => exact absurd ((internalBufferFlush_effect hu).mem_traces ht) hold

/-! ## A pass of `FlushBuffers` -/

/-- The pass is going to flush the buffer. Between its two tests it is the active one it has read,
or it is full. -/
def Reaches (s : Buffers) (f : Flusher) (side : Side) : Prop :=
  (s.flushes f).Ahead s.tasks side ∧
    ∀ active, s.flushes f = .testFull active → side = active ∨ (s.buffers side).isFull = true

/-- A trace that is in a buffer is in one that a flush has, or that the pass is going to flush. -/
def Pass (s : Buffers) (f : Flusher) (t : TraceId) : Prop :=
  ∀ side, t ∈ (s.buffers side).traces → (s.buffers side).InFlush ∨ s.Reaches f side

variable {f : Flusher} {t : TraceId}

/-- What `SerializeTrace` does to a buffer leaves it to the flush that has it, and full. -/
theorem serializeTrace_keeps {i : Serializer} {a : SerializeAction}
    (hu : s.serializeTrace maxBufferSize i a = some u) (side : Side) :
    ((s.buffers side).InFlush → (u.buffers side).InFlush) ∧
      ((s.buffers side).isFull = true → (u.buffers side).isFull = true) := by
  have hset : ∀ {side' : Side} {b : SpanBuffer} {buffers : Side → SpanBuffer},
      buffers = Function.update s.buffers side' b →
      (((s.buffers side').InFlush → b.InFlush) ∧
        ((s.buffers side').isFull = true → b.isFull = true)) →
      ((s.buffers side).InFlush → (buffers side).InFlush) ∧
        ((s.buffers side).isFull = true → (buffers side).isFull = true) := by
    intro side' b buffers hbuffers hb
    rw [hbuffers]
    rcases eq_or_ne side side' with rfl | hne
    · rw [Function.update_self]
      exact hb
    · rw [Function.update_of_ne hne]
      exact ⟨id, id⟩
  -- a buffer whose monitor the call has, or can take, is in a flush only if it is locked
  have hmine : ∀ {b b' : SpanBuffer}, (b.monitor = none ∨ b.monitor = some (.serializer i)) →
      b'.locked = b.locked → b.InFlush → b'.InFlush := by
    rintro b b' hmonitor hlocked (hb | ⟨k, hk⟩)
    · exact Or.inl (hlocked.trans hb)
    · rw [hk] at hmonitor
      simp at hmonitor
  cases a <;> simp only [serializeTrace] at hu
  case tryEnter =>
    split at hu
    · split at hu
      · cases hu
      · split at hu
        · rename_i hfree
          obtain rfl := Option.some.inj hu
          exact hset rfl ⟨hmine (Or.inl hfree.1) rfl, id⟩
        · obtain rfl := Option.some.inj hu
          exact ⟨id, id⟩
    · cases hu
  case write size =>
    split at hu
    · split at hu
      · rename_i side' second _ hmonitor
        obtain rfl := Option.some.inj hu
        unfold Buffers.write
        cases size with
        | none => exact hset rfl ⟨hmine (Or.inr hmonitor) rfl, id⟩
        | some size =>
            dsimp only
            split
            · exact hset rfl ⟨hmine (Or.inr hmonitor) rfl, id⟩
            · exact hset rfl ⟨hmine (Or.inr hmonitor) rfl, fun _ => rfl⟩
      · cases hu
    · cases hu
  all_goals
    split at hu
    · obtain rfl := Option.some.inj hu
      exact ⟨id, id⟩
    · cases hu

theorem Pass.serialize (h : s.Pass f t) {i : Serializer} {a : SerializeAction}
    (hhand : s.ledger.hands i ≠ some t) (hu : s.serializeTrace maxBufferSize i a = some u) :
    u.Pass f t := by
  intro side ht
  have heffect := serializeTrace_effect hu
  obtain ⟨hflushes, htasks⟩ := heffect.tasks
  obtain ⟨hinFlush, hfull⟩ := serializeTrace_keeps hu side
  rcases h side ((heffect.mem_traces ht).resolve_right hhand) with hflight | ⟨hahead, htest⟩
  · exact Or.inl (hinFlush hflight)
  · refine Or.inr ⟨by rw [hflushes, htasks]; exact hahead, fun active hactive => ?_⟩
    rw [hflushes] at hactive
    exact (htest active hactive).imp_right hfull

/-- Another pass moves on. -/
theorem Pass.flush_of_ne (h : s.Pass f t) (howned : s.TasksOwned) {f' : Flusher}
    {a : FlushBuffersAction} (hne : f' ≠ f) (hu : FlushEffect s f' a u) : u.Pass f t := by
  obtain ⟨hbuffers, -, -, htasks⟩ := hu.frame
  have hflushes : u.flushes f = s.flushes f := by
    cases hu <;> exact Function.update_of_ne hne.symm ..
  intro side ht
  rw [hbuffers] at ht ⊢
  refine (h side ht).imp_right fun ⟨hahead, htest⟩ => ?_
  rw [Reaches, hflushes, hbuffers]
  refine ⟨ahead_congr (fun k hk hstage => ?_) hahead, htest⟩
  rcases htasks with htasks | ⟨k', side', hfresh, htasks⟩
  · rw [htasks]
    exact hstage
  · rw [htasks, Function.update_of_ne]
    · exact hstage
    · rintro rfl
      exact (howned f side k hk).2.2 hfresh

/-- The pass moves on to where every buffer that it was going to flush is still ahead, and is not
between its two tests. -/
theorem Pass.move (h : s.Pass f t) {pc : FlushPc} (hbuffers : u.buffers = s.buffers)
    (hflushes : u.flushes f = pc) (hpc : ∀ active, pc ≠ .testFull active)
    (hahead : ∀ side, s.Reaches f side → pc.Ahead u.tasks side) : u.Pass f t := by
  intro side ht
  rw [hbuffers] at ht ⊢
  refine (h side ht).imp_right fun hreaches => ?_
  rw [Reaches, hflushes]
  exact ⟨hahead side hreaches, fun active hactive => absurd hactive (hpc active)⟩

/-- **The pass moves on.** When it reads `_activeBuffer`, the other buffer is not stranded. -/
theorem Pass.flush (h : s.Pass f t) (hunstranded : s.Unstranded) {a : FlushBuffersAction}
    (hreturn : a ≠ .return) (hu : s.flushBuffers f a = some u) : u.Pass f t := by
  cases a <;> simp only [flushBuffers] at hu
  case call =>
    split at hu
    · obtain rfl := Option.some.inj hu
      exact h.move rfl (setFlush_flushes_self _) (by simp) fun _ _ => trivial
    · cases hu
  case readActive =>
    split at hu
    · obtain rfl := Option.some.inj hu
      intro side ht
      rcases Side.eq_or_eq_other side s.active with rfl | rfl
      · refine Or.inr ⟨by rw [setFlush_flushes_self]; trivial, fun active hactive => ?_⟩
        rw [setFlush_flushes_self, FlushPc.testFull.injEq] at hactive
        exact Or.inl hactive
      · rcases hunstranded.inactive with hempty | hfull | hflight
        · have ht : t ∈ (s.buffers s.active.other).traces := ht
          rw [hempty] at ht
          cases ht
        · exact Or.inr ⟨by rw [setFlush_flushes_self]; trivial, fun _ _ => Or.inr hfull⟩
        · exact Or.inl hflight
    · cases hu
  case testFull =>
    split at hu
    · rename_i active hpc
      split at hu
      · obtain rfl := Option.some.inj hu
        refine h.move rfl (setFlush_flushes_self _) (by simp) fun side _ => ?_
        rcases Side.eq_or_eq_other side active with rfl | rfl
        · exact Or.inr rfl
        · exact Or.inl rfl
      · rename_i hnot
        obtain rfl := Option.some.inj hu
        refine h.move rfl (setFlush_flushes_self _) (by simp) fun side hreaches => ?_
        -- the other buffer is not full
        rcases hreaches.2 active hpc with rfl | hfull
        · exact Or.inl rfl
        · rcases Side.eq_or_eq_other side active with rfl | rfl
          · exact Or.inl rfl
          · simp [hfull] at hnot
    · cases hu
  case readTask =>
    split at hu
    · rename_i hpc
      obtain rfl := Option.some.inj hu
      refine h.move rfl (setFlush_flushes_self _) (by simp) fun side hreaches => ?_
      have hahead := hreaches.1
      rw [hpc] at hahead
      exact hahead
    · cases hu
  case resume =>
    split at hu
    · rename_i hpc
      split at hu
      · obtain rfl := Option.some.inj hu
        refine h.move rfl (setFlush_flushes_self _) (by simp) fun side hreaches => ?_
        have hahead := hreaches.1
        rw [hpc] at hahead
        exact hahead
      · cases hu
    · cases hu
  case start k =>
    split at hu
    · rename_i now next hpc
      split at hu
      · obtain rfl := Option.some.inj hu
        refine h.move rfl (Function.update_self ..) (by simp) fun side hreaches => ?_
        have hahead := hreaches.1
        rw [hpc] at hahead
        exact hahead.imp_left fun hnow => ⟨hnow, by simp⟩
      · cases hu
    · cases hu
  case assign =>
    split at hu
    · rename_i hpc
      split at hu
      · obtain rfl := Option.some.inj hu
        refine h.move rfl (Function.update_self ..) (by simp) fun side hreaches => ?_
        have hahead := hreaches.1
        rw [hpc] at hahead
        exact hahead
      · cases hu
    · cases hu
  case complete =>
    split at hu
    · rename_i now next k hpc
      split at hu
      · rename_i hdone
        have hnext : ∀ side, s.Reaches f side → next = some side := by
          intro side hreaches
          have hahead := hreaches.1
          rw [hpc] at hahead
          exact hahead.resolve_left fun hnow => hnow.2 hdone
        split at hu
        · obtain rfl := Option.some.inj hu
          exact h.move rfl (setFlush_flushes_self _) (by simp) fun side hreaches =>
            Or.inl (Option.some.inj (hnext side hreaches))
        · obtain rfl := Option.some.inj hu
          exact h.move rfl (setFlush_flushes_self _) (by simp) fun side hreaches =>
            absurd (hnext side hreaches) (by simp)
      · cases hu
    · cases hu
  case «return» => exact absurd rfl hreturn

/-- A task that ends has found the buffer locked, or leaves it empty. -/
theorem TaskEffect.of_done {k : TaskId} {a : TaskAction} (hu : TaskEffect s k a u)
    (hbefore : (s.tasks k).stage ≠ .done) (hdone : (u.tasks k).stage = .done) :
    (u.buffers (s.tasks k).side).InFlush ∨ (u.buffers (s.tasks k).side).traces = [] := by
  cases hu with
  | enter => exact absurd hdone hbefore
  | fail _ _ hlocked =>
      left
      show (Function.update s.buffers (s.tasks k).side _ (s.tasks k).side).InFlush
      rw [Function.update_self]
      exact Or.inl hlocked
  | clear =>
      right
      show (Function.update s.buffers (s.tasks k).side {} (s.tasks k).side).traces = []
      rw [Function.update_self]
  | _ =>
      have hstage : (Function.update s.tasks k { s.tasks k with stage := _ } k).stage = .done :=
        hdone
      rw [Function.update_self] at hstage
      cases hstage

/-- A task moves on. -/
theorem Pass.task (h : s.Pass f t) (howned : s.TasksOwned) {k : TaskId} {a : TaskAction}
    (hu : TaskEffect s k a u) : u.Pass f t := by
  intro side ht
  have hsome : (u.buffers side).traces ≠ [] := List.ne_nil_of_mem ht
  have hkept := hu.kept side
  rcases h side (hu.mem_traces ht) with hflight | ⟨hahead, htest⟩
  · exact Or.inl ((hkept.inFlush hflight).resolve_right hsome)
  by_cases hend : (s.flushes f).task? = some (side, k) ∧ (s.tasks k).stage ≠ .done ∧
      (u.tasks k).stage = .done
  · obtain ⟨hown, hbefore, hdone⟩ := hend
    obtain ⟨-, rfl, -⟩ := howned f side k hown
    exact Or.inl ((hu.of_done hbefore hdone).resolve_right hsome)
  · right
    obtain ⟨hflushes, htasks⟩ := hu.tasks
    refine ⟨?_, fun active hactive => ?_⟩
    · rw [hflushes]
      refine ahead_congr (fun j hj hstage hdone => ?_) hahead
      rcases eq_or_ne j k with rfl | hne
      · exact hend ⟨hj, hstage, hdone⟩
      · rcases htasks with htasks | ⟨stage, -, htasks⟩
        · rw [htasks] at hdone
          exact hstage hdone
        · rw [htasks, Function.update_of_ne hne] at hdone
          exact hstage hdone
    · rw [hflushes] at hactive
      exact (htest active hactive).imp_right fun hfull =>
        (hkept.isFull hfull).resolve_right hsome

/-- **The step** of a pass, up to its return. -/
theorem Pass.step (h : s.Pass f t) (hunstranded : s.Unstranded) (howned : s.TasksOwned)
    (hsettled : s.ledger.Settled t) {e : BufferEvent} (hreturn : e ≠ .flush f .return)
    (hu : s.step maxBufferSize e = some u) : u.Pass f t := by
  cases e with
  | serialize i a => exact h.serialize (hsettled.2 i) hu
  | flush f' a =>
      rcases eq_or_ne f' f with rfl | hne
      · exact h.flush hunstranded (fun ha => hreturn (ha ▸ rfl)) hu
      · exact h.flush_of_ne howned hne (flushBuffers_effect hu)
  | task k a => exact h.task howned (internalBufferFlush_effect hu)

end Buffers

/-! ## The whole writer -/

namespace AgentWriter

variable {maxBufferSize : Nat} {s u : PendingTraces × Buffers}

/-- Only the serialization thread serializes. -/
def SingleThread (_ : PendingTraces × Buffers) (a : Option QueueEvent × Option BufferEvent) :
    Prop :=
  ∀ b ∈ a.2, b.onLoop = true

instance : DecidableRel SingleThread := fun _ a => inferInstanceAs (Decidable (∀ b ∈ a.2, _))

/-- Only the serialization thread serializes, and the pass of `FlushBuffers` does not return. -/
def DuringPass (f : Flusher) (s : PendingTraces × Buffers)
    (a : Option QueueEvent × Option BufferEvent) : Prop :=
  SingleThread s a ∧ a.2 ≠ some (.flush f .return)

/-- The buffers, in a run in which only the serialization thread serializes. -/
theorem buffers_onLoop (hs : ((system maxBufferSize).restrict SingleThread).Reachable s) :
    ((Buffers.system maxBufferSize).restrict fun s e =>
      s.Fresh e ∧ e.onLoop = true).Reachable s.2 :=
  buffers_fresh hs fun _ _ _ h => h _ rfl

/-- A pass leaves a trace that was in a buffer in one that a flush has, or is still going to flush
it. -/
theorem pass_of_leads (hs : ((system maxBufferSize).restrict SingleThread).Reachable s)
    {f : Flusher} {t : TraceId} {side : Side} (ht : t ∈ (s.2.buffers side).traces)
    (hpass : s.2.Pass f t)
    (hu : ((system maxBufferSize).restrict (DuringPass f)).Leads s u) : u.2.Pass f t := by
  have hreachable : ∀ {u}, ((system maxBufferSize).restrict (DuringPass f)).Leads s u →
      ((system maxBufferSize).restrict SingleThread).Reachable u :=
    fun hu => hu.reachable hs fun _ _ _ h => ⟨h.1, h.2.1⟩
  have hsettled : s.2.ledger.Settled t :=
    Buffers.stored_settled ((buffers_onLoop hs).restrict_mono fun _ _ h => h.1) side ht
  have hinvariant : u.2.Pass f t ∧ u.2.ledger.Settled t := by
    refine hu.invariant (I := fun u => u.2.Pass f t ∧ u.2.ledger.Settled t) ⟨hpass, hsettled⟩ ?_
    rintro v ⟨q, b⟩ w hv ⟨hpass, hsettled⟩ hstep
    have hv := hreachable hv
    have hbuffers := (buffers_onLoop hv).of_restrict
    cases b with
    | none =>
        rw [Lts.stepOption_none.mp hstep.1.2.2]
        exact ⟨hpass, hsettled⟩
    | some b =>
        have hw : v.2.step maxBufferSize b = some w.2 := Lts.stepOption_some.mp hstep.1.2.2
        have hfresh : v.2.Fresh b := fresh hv.of_restrict hstep.1
        refine ⟨hpass.step ?_ (Buffers.tasksOwned hbuffers) hsettled ?_ hw, ?_⟩
        · exact Buffers.unstranded ((buffers_onLoop hv).restrict_mono fun _ _ h => h.2)
        · exact fun hreturn => hstep.2.2 (congrArg some hreturn)
        · exact hsettled.step (Buffers.step_ledger (Buffers.held hbuffers) hfresh hw)
  exact hinvariant.1

/-- The serialization thread serializes a trace that the first buffer has no room for. -/
def serializeSwapScript (t : TraceId) (size : Nat) :
    List (Option QueueEvent × Option BufferEvent) :=
  (some (.loop (.dequeueTrace t)), some (.serialize .loop (.call t))) ::
    onBuffers [.serialize .loop .readActive, .serialize .loop .tryEnter,
      .serialize .loop (.write (some size)), .serialize .loop .swapRead, .serialize .loop .swapTest,
      .serialize .loop .swapWrite, .serialize .loop .swapReturn, .serialize .loop .tryEnter,
      .serialize .loop (.write (some size))] ++
    [(some (.loop .serialized), some (.serialize .loop .return))]

/-- A run in which the second trace goes to the back buffer, and a pass of
`FlushBuffersTaskLoopAsync` begins. -/
def swapScript : List (Option QueueEvent × Option BufferEvent) :=
  writeScript 0 ++ serializeScript 0 (some 90) ++ writeScript 1 ++ serializeSwapScript 1 90 ++
    onBuffers [.flush .periodic .call]

end AgentWriter

end DdTrace.Agent
