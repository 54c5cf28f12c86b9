import DdTrace.Agent.Buffers
import DdTrace.Lib.Ledger

/-!
# The agent writer: where the traces are

What the half with the two buffers does with the traces that `SerializeTrace` was called with.

* `Held`: a buffer that a task locked stays with that task until it is cleared, and nothing is
  written to it meanwhile.
* `ledger`: the calls of `SerializeTrace` as workers that take traces and put them in places.
  `step_ledger`: every step of the buffers is a step of the ledger, if no trace is taken twice.
* `Counted`: the counters and the send attempts against the places.

Source: `Agent/AgentWriter.cs`, `FlushBuffers`, `FlushBuffer`, `SerializeTrace`;
`Agent/SpanBuffer.cs`.
-/

namespace DdTrace.Agent

open DdTrace.Lib

/-- The trace in hand has a place, or is lost. -/
def SerializePc.over : SerializePc → Bool
  | .returned => true
  | .threw => true
  | _ => false

/-- How far the flush of a buffer is at a stage of the task that locked it. -/
def TaskStage.phase : TaskStage → Option FlushPhase
  | .test => some .locked
  | .send => some .sending
  | .clear => some .counted
  | _ => none

@[simp] theorem Buffers.over_afterRefusal (second : Bool) :
    (Buffers.afterRefusal second).over = false := by
  cases second <;> rfl

namespace Buffers

variable {maxBufferSize : Nat} {s u : Buffers}

/-! ## What a step does -/

/-- What a step of a call of `SerializeTrace` does to the state. -/
inductive SerializeEffect (maxBufferSize : Nat) (s : Buffers) (h : Serializer) :
    SerializeAction → Buffers → Prop where
  /-- It takes a trace. -/
  | take {t : TraceId} : s.hands h = none →
      SerializeEffect maxBufferSize s h (.call t)
        { s.setHand h (some (t, .readActive)) with
          books := { s.books with taken := s.books.taken ++ [t] } }
  /-- It goes on with the trace in hand, and may make another buffer the active one. -/
  | move {a : SerializeAction} {t : TraceId} {pc pc' : SerializePc} {active : Side} :
      a.inside = true → s.hands h = some (t, pc) → pc.over = false → pc'.over = false →
      SerializeEffect maxBufferSize s h a
        { s.setHand h (some (t, pc')) with active := active }
  /-- It takes the monitor of a buffer that is not locked. -/
  | enter {side : Side} : (s.buffers side).locked = false →
      SerializeEffect maxBufferSize s h .tryEnter
        (s.setBuffer side { s.buffers side with monitor := some (.serializer h) })
  /-- It writes the trace to a buffer. -/
  | store {t : TraceId} {side : Side} {second : Bool} {size : Nat} :
      s.hands h = some (t, .tryWrite side second) →
      (s.buffers side).monitor = some (.serializer h) →
      size + (s.buffers side).offset ≤ maxBufferSize →
      SerializeEffect maxBufferSize s h (.write (some size))
        ((s.setBuffer side
          { s.buffers side with
            monitor := none, traces := (s.buffers side).traces ++ [t]
            offset := (s.buffers side).offset + size }).setHand h (some (t, .returned)))
  /-- It marks a buffer as full. -/
  | overflow {t : TraceId} {side : Side} {second : Bool} {size : Nat} :
      s.hands h = some (t, .tryWrite side second) →
      (s.buffers side).monitor = some (.serializer h) →
      SerializeEffect maxBufferSize s h (.write (some size))
        ((s.setBuffer side { s.buffers side with monitor := none, isFull := true }).setHand h
          (some (t, afterRefusal second)))
  /-- The formatter throws. -/
  | lose {t : TraceId} {side : Side} {second : Bool} :
      s.hands h = some (t, .tryWrite side second) →
      (s.buffers side).monitor = some (.serializer h) →
      SerializeEffect maxBufferSize s h (.write none)
        { (s.setBuffer side { s.buffers side with monitor := none }).setHand h
            (some (t, .threw)) with
          books := { s.books with lost := s.books.lost ++ [t] } }
  /-- It counts the trace as dropped. -/
  | drop {t : TraceId} : s.hands h = some (t, .drop) →
      SerializeEffect maxBufferSize s h .drop
        { s.setHand h (some (t, .returned)) with
          books := { s.books with
            drops := s.books.drops + 1, refused := s.books.refused ++ [t] } }
  /-- It is over. -/
  | leave {a : SerializeAction} {t : TraceId} {pc : SerializePc} :
      a = .return ∨ a = .throw → s.hands h = some (t, pc) → pc.over = true →
      SerializeEffect maxBufferSize s h a (s.setHand h none)

theorem serializeTrace_effect {h : Serializer} {a : SerializeAction}
    (hu : s.serializeTrace maxBufferSize h a = some u) : SerializeEffect maxBufferSize s h a u := by
  -- a call that goes on without touching a buffer leaves the active one as it is
  have hmove : ∀ {a t pc pc'}, a.inside = true → s.hands h = some (t, pc) → pc.over = false →
      pc'.over = false →
      SerializeEffect maxBufferSize s h a (s.setHand h (some (t, pc'))) :=
    fun {a t pc pc'} hinside hpc hover hover' =>
      show SerializeEffect _ s h a { s.setHand h (some (t, pc')) with active := s.active } from
        .move hinside hpc hover hover'
  cases a <;> simp only [serializeTrace] at hu
  case call t =>
    split at hu
    · obtain rfl := Option.some.inj hu
      exact .take ‹_›
    · cases hu
  case readActive =>
    split at hu
    · obtain rfl := Option.some.inj hu
      exact hmove rfl ‹_› rfl rfl
    · cases hu
  case tryEnter =>
    split at hu
    · split at hu
      · cases hu
      · split at hu
        · rename_i hfree
          obtain rfl := Option.some.inj hu
          exact .enter hfree.2
        · obtain rfl := Option.some.inj hu
          exact hmove rfl ‹_› rfl (over_afterRefusal _)
    · cases hu
  case write size =>
    split at hu
    · rename_i t side second hpc
      split at hu
      · rename_i hmonitor
        obtain rfl := Option.some.inj hu
        cases size with
        | none => exact .lose hpc hmonitor
        | some size =>
            simp only [write]
            split
            · exact .store hpc hmonitor ‹_›
            · exact .overflow hpc hmonitor
      · cases hu
    · cases hu
  case swapRead =>
    split at hu
    · obtain rfl := Option.some.inj hu
      exact hmove rfl ‹_› rfl rfl
    · cases hu
  case swapTest =>
    split at hu
    · obtain rfl := Option.some.inj hu
      refine hmove rfl ‹_› rfl ?_
      split <;> rfl
    · cases hu
  case swapWrite =>
    split at hu
    · obtain rfl := Option.some.inj hu
      exact .move rfl ‹_› rfl rfl
    · cases hu
  case swapReturn =>
    split at hu
    · obtain rfl := Option.some.inj hu
      exact hmove rfl ‹_› rfl rfl
    · cases hu
  case drop =>
    split at hu
    · obtain rfl := Option.some.inj hu
      exact .drop ‹_›
    · cases hu
  case «return» =>
    split at hu
    · obtain rfl := Option.some.inj hu
      exact .leave (Or.inl rfl) ‹_› rfl
    · cases hu
  case throw =>
    split at hu
    · obtain rfl := Option.some.inj hu
      exact .leave (Or.inr rfl) ‹_› rfl
    · cases hu

/-- The traces that `SerializeTrace` is running with, by thread. -/
def running (s : Buffers) : Serializer → Option TraceId := Option.map Prod.fst ∘ s.hands

theorem running_setHand (h : Serializer) (hand : Option (TraceId × SerializePc)) :
    Option.map Prod.fst ∘ (s.setHand h hand).hands =
      Function.update s.running h (hand.map Prod.fst) :=
  Function.comp_update ..

/-- Inside `SerializeTrace`, the calls keep their traces. -/
theorem SerializeEffect.running_of_inside {h : Serializer} {a : SerializeAction}
    (hu : SerializeEffect maxBufferSize s h a u) (hinside : a.inside = true) :
    u.running = s.running ∧ u.books.taken = s.books.taken := by
  -- the call goes on with its trace
  have hsame : ∀ {v : Buffers} {t pc pc'}, s.hands h = some (t, pc) →
      v.hands = (s.setHand h (some (t, pc'))).hands → v.running = s.running := by
    intro v t pc pc' hpc hv
    have hold : s.running h = some t := by simp [running, hpc]
    show Option.map Prod.fst ∘ v.hands = s.running
    rw [hv, running_setHand, Option.map_some, ← hold]
    exact Function.update_eq_self h s.running
  cases hu with
  | take => cases hinside
  | move _ hpc => exact ⟨hsame hpc rfl, rfl⟩
  | enter => exact ⟨rfl, rfl⟩
  | store hpc => exact ⟨hsame hpc rfl, rfl⟩
  | overflow hpc => exact ⟨hsame hpc rfl, rfl⟩
  | lose hpc => exact ⟨hsame hpc rfl, rfl⟩
  | drop hpc => exact ⟨hsame hpc rfl, rfl⟩
  | leave hend => rcases hend with rfl | rfl <;> cases hinside

/-- A call of `SerializeTrace` begins. -/
theorem SerializeEffect.running_of_call {h : Serializer} {t : TraceId}
    (hu : SerializeEffect maxBufferSize s h (.call t) u) :
    s.running h = none ∧ u.running = Function.update s.running h (some t) ∧
      u.books.taken = s.books.taken ++ [t] := by
  cases hu with
  | take hidle => exact ⟨by simp [running, hidle], running_setHand h _, rfl⟩
  | move hinside => cases hinside
  | leave hend => rcases hend with hend | hend <;> cases hend

/-- A call of `SerializeTrace` ends. -/
theorem SerializeEffect.running_of_end {h : Serializer} {a : SerializeAction}
    (hu : SerializeEffect maxBufferSize s h a u) (hend : a = .return ∨ a = .throw) :
    u.running = Function.update s.running h none ∧ u.books.taken = s.books.taken := by
  cases hu with
  | leave => exact ⟨running_setHand h _, rfl⟩
  | take => rcases hend with hend | hend <;> cases hend
  | move hinside => rcases hend with rfl | rfl <;> cases hinside
  | enter => rcases hend with hend | hend <;> cases hend
  | store => rcases hend with hend | hend <;> cases hend
  | overflow => rcases hend with hend | hend <;> cases hend
  | lose => rcases hend with hend | hend <;> cases hend
  | drop => rcases hend with hend | hend <;> cases hend

/-- What a step of a call of `FlushBuffers` does to the state. -/
inductive FlushEffect (s : Buffers) (f : Flusher) : FlushBuffersAction → Buffers → Prop where
  /-- It begins. -/
  | call : s.flushes f = .idle → FlushEffect s f .call (s.setFlush f .readActive)
  /-- It reads which buffer is active. -/
  | readActive : s.flushes f = .readActive →
      FlushEffect s f .readActive (s.setFlush f (.testFull s.active))
  /-- It is going to flush the other buffer and then the active one. -/
  | flushBoth {active : Side} : s.flushes f = .testFull active →
      FlushEffect s f .testFull (s.setFlush f (.readTask active.other (some active)))
  /-- It is going to flush the active buffer only. -/
  | flushOne {active : Side} : s.flushes f = .testFull active → f.flushAllBuffers = false →
      FlushEffect s f .testFull (s.setFlush f (.readTask active none))
  /-- It reads the task of the buffer. -/
  | readTask {side : Side} {next : Option Side} : s.flushes f = .readTask side next →
      FlushEffect s f .readTask (s.setFlush f (.awaitTask side next (s.flushTask side)))
  /-- The task is completed. -/
  | resume {side : Side} {next : Option Side} {task : Option TaskId} :
      s.flushes f = .awaitTask side next task →
      FlushEffect s f .resume (s.setFlush f (.start side next))
  /-- It starts a task. -/
  | start {side : Side} {next : Option Side} {k : TaskId} : s.flushes f = .start side next →
      (s.tasks k).stage = .notStarted →
      FlushEffect s f (.start k)
        { s.setFlush f (.running side next k) with
          tasks := Function.update s.tasks k ⟨f, side, .lock⟩ }
  /-- It stores its task. -/
  | assign {side : Side} {next : Option Side} {k : TaskId} : s.flushes f = .running side next k →
      FlushEffect s f .assign
        { s.setFlush f (.awaitOwn side next k) with
          flushTask := Function.update s.flushTask side (some k) }
  /-- Its task is completed, and it goes on to the next buffer. -/
  | next {side side' : Side} {k : TaskId} : s.flushes f = .awaitOwn side (some side') k →
      (s.tasks k).stage = .done →
      FlushEffect s f .complete (s.setFlush f (.readTask side' none))
  /-- Its task is completed, and there is no other buffer to flush. -/
  | finish {side : Side} {k : TaskId} : s.flushes f = .awaitOwn side none k →
      (s.tasks k).stage = .done → FlushEffect s f .complete (s.setFlush f .finished)
  /-- It returns. -/
  | return : s.flushes f = .finished → FlushEffect s f .return (s.setFlush f .idle)

theorem flushBuffers_effect {f : Flusher} {a : FlushBuffersAction}
    (hu : s.flushBuffers f a = some u) : FlushEffect s f a u := by
  cases a <;> simp only [flushBuffers] at hu
  case call =>
    split at hu
    · obtain rfl := Option.some.inj hu
      exact .call ‹_›
    · cases hu
  case readActive =>
    split at hu
    · obtain rfl := Option.some.inj hu
      exact .readActive ‹_›
    · cases hu
  case testFull =>
    split at hu
    · split at hu
      · obtain rfl := Option.some.inj hu
        exact .flushBoth ‹_›
      · rename_i hnot
        obtain rfl := Option.some.inj hu
        exact .flushOne ‹_› (by simp at hnot; exact hnot.2)
    · cases hu
  case readTask =>
    split at hu
    · obtain rfl := Option.some.inj hu
      exact .readTask ‹_›
    · cases hu
  case resume =>
    split at hu
    · split at hu
      · obtain rfl := Option.some.inj hu
        exact .resume ‹_›
      · cases hu
    · cases hu
  case start k =>
    split at hu
    · split at hu
      · obtain rfl := Option.some.inj hu
        exact .start ‹_› ‹_›
      · cases hu
    · cases hu
  case assign =>
    split at hu
    · split at hu
      · obtain rfl := Option.some.inj hu
        exact .assign ‹_›
      · cases hu
    · cases hu
  case complete =>
    split at hu
    · split at hu
      · split at hu
        · obtain rfl := Option.some.inj hu
          exact .next ‹_› ‹_›
        · obtain rfl := Option.some.inj hu
          exact .finish ‹_› ‹_›
      · cases hu
    · cases hu
  case «return» =>
    split at hu
    · obtain rfl := Option.some.inj hu
      exact .return ‹_›
    · cases hu

/-- A call of `FlushBuffers` leaves the traces where they are, and the tasks unless it starts one. -/
theorem FlushEffect.frame {f : Flusher} {a : FlushBuffersAction} (hu : FlushEffect s f a u) :
    u.buffers = s.buffers ∧ u.hands = s.hands ∧ u.books = s.books ∧
      (u.tasks = s.tasks ∨ ∃ k side, (s.tasks k).stage = .notStarted ∧
        u.tasks = Function.update s.tasks k ⟨f, side, .lock⟩) := by
  cases hu with
  | start _ hfresh => exact ⟨rfl, rfl, rfl, Or.inr ⟨_, _, hfresh, rfl⟩⟩
  | _ => exact ⟨rfl, rfl, rfl, Or.inl rfl⟩

/-- What a step of a task does to the state. -/
inductive TaskEffect (s : Buffers) (k : TaskId) : TaskAction → Buffers → Prop where
  /-- It takes the monitor, to lock or to clear the buffer. -/
  | enter {a : TaskAction} : (s.bufferOf k).monitor = none →
      TaskEffect s k a
        (s.setBuffer (s.tasks k).side { s.bufferOf k with monitor := some (.task k) })
  /-- It finds the buffer locked. -/
  | fail : (s.tasks k).stage = .lock → (s.bufferOf k).monitor = some (.task k) →
      (s.bufferOf k).locked = true →
      TaskEffect s k .lock
        ((s.setBuffer (s.tasks k).side { s.bufferOf k with monitor := none }).setStage k .done)
  /-- It locks the buffer. -/
  | lock : (s.tasks k).stage = .lock → (s.bufferOf k).monitor = some (.task k) →
      (s.bufferOf k).locked = false →
      TaskEffect s k .lock
        ((s.setBuffer (s.tasks k).side
          { s.bufferOf k with
            monitor := none, locked := true, flush := some (k, .locked) }).setStage k .test)
  /-- It sends the traces of the buffer. -/
  | send : (s.tasks k).stage = .test → 0 < (s.bufferOf k).traces.length →
      TaskEffect s k .test
        { (s.setBuffer (s.tasks k).side
            { s.bufferOf k with flush := some (k, .sending) }).setStage k .send with
          books := { s.books with sends := s.books.sends ++ [(s.bufferOf k).traces] } }
  /-- It finds the buffer empty. -/
  | skip : (s.tasks k).stage = .test → (s.bufferOf k).traces = [] →
      TaskEffect s k .test
        ((s.setBuffer (s.tasks k).side
          { s.bufferOf k with flush := some (k, .counted) }).setStage k .clear)
  /-- It counts the traces as kept. -/
  | keep : (s.tasks k).stage = .send →
      TaskEffect s k (.sent .succeeded)
        { (s.setBuffer (s.tasks k).side
            { s.bufferOf k with flush := some (k, .counted) }).setStage k .clear with
          books := { s.books with
            keeps := s.books.keeps + (s.bufferOf k).traces.length
            kept := s.books.kept ++ (s.bufferOf k).traces } }
  /-- It counts the traces as dropped. -/
  | drop {result : SendResult} : (s.tasks k).stage = .send → result ≠ .succeeded →
      TaskEffect s k (.sent result)
        { (s.setBuffer (s.tasks k).side
            { s.bufferOf k with flush := some (k, .counted) }).setStage k .clear with
          books := { s.books with
            drops := s.books.drops + (s.bufferOf k).traces.length
            failed := s.books.failed ++ (s.bufferOf k).traces } }
  /-- It clears the buffer. -/
  | clear : (s.tasks k).stage = .clear → (s.bufferOf k).monitor = some (.task k) →
      TaskEffect s k .clear ((s.setBuffer (s.tasks k).side {}).setStage k .done)

theorem internalBufferFlush_effect {k : TaskId} {a : TaskAction}
    (hu : s.internalBufferFlush k a = some u) : TaskEffect s k a u := by
  cases a <;> simp only [internalBufferFlush] at hu
  case enterLock =>
    split at hu
    · rename_i hfree
      obtain rfl := Option.some.inj hu
      exact .enter hfree.2
    · cases hu
  case lock =>
    split at hu
    · rename_i hheld
      split at hu
      · obtain rfl := Option.some.inj hu
        exact .fail hheld.1 hheld.2 ‹_›
      · rename_i hfree
        obtain rfl := Option.some.inj hu
        exact .lock hheld.1 hheld.2 (by simpa using hfree)
    · cases hu
  case test =>
    split at hu
    · split at hu
      · obtain rfl := Option.some.inj hu
        exact .send ‹_› ‹_›
      · rename_i hempty
        obtain rfl := Option.some.inj hu
        exact .skip ‹_› (by simpa using hempty)
    · cases hu
  case sent result =>
    split at hu
    · split at hu
      · obtain rfl := Option.some.inj hu
        exact .keep ‹_›
      · obtain rfl := Option.some.inj hu
        exact .drop ‹_› (by simp)
      · obtain rfl := Option.some.inj hu
        exact .drop ‹_› (by simp)
    · cases hu
  case enterClear =>
    split at hu
    · rename_i hfree
      obtain rfl := Option.some.inj hu
      exact .enter hfree.2
    · cases hu
  case clear =>
    split at hu
    · rename_i hheld
      obtain rfl := Option.some.inj hu
      exact .clear hheld.1 hheld.2
    · cases hu

/-- A task leaves the calls of `SerializeTrace` alone. -/
theorem TaskEffect.frame {k : TaskId} {a : TaskAction} (hu : TaskEffect s k a u) :
    u.hands = s.hands ∧ u.books.taken = s.books.taken ∧ u.books.lost = s.books.lost := by
  cases hu <;> exact ⟨rfl, rfl, rfl⟩

/-! ## A locked buffer stays with its task -/

/-- What holds of one buffer: `_locked` says whether a task has it, and a call of `TryWrite` that is
past its test of `_locked` has it for itself. -/
structure BufferHeld (b : SpanBuffer) : Prop where
  locked : b.locked = b.flush.isSome
  writing : ∀ h, b.monitor = some (.serializer h) → b.flush = none

theorem BufferHeld.flush_eq_none {b : SpanBuffer} (h : BufferHeld b) (hfree : b.locked = false) :
    b.flush = none := by
  simpa [hfree] using h.locked

/-- The invariant of the locks: what holds of the buffers, and a task that is past `Lock` has its
buffer. -/
structure Held (s : Buffers) : Prop where
  buffers : ∀ side, BufferHeld (s.buffers side)
  tasks : ∀ k p, (s.tasks k).stage.phase = some p → (s.bufferOf k).flush = some (k, p)

theorem Held.buffer (h : s.Held) (k : TaskId) : BufferHeld (s.bufferOf k) := h.buffers _

theorem Held.congr (h : s.Held) (hbuffers : u.buffers = s.buffers) (htasks : u.tasks = s.tasks) :
    u.Held := by
  constructor
  · rw [hbuffers]
    exact h.buffers
  · unfold bufferOf
    rw [hbuffers, htasks]
    exact h.tasks

/-- A buffer changes and stays with the task that has it. -/
theorem Held.setBuffer (h : s.Held) {side : Side} {b : SpanBuffer} (hb : BufferHeld b)
    (hflush : b.flush = (s.buffers side).flush) : (s.setBuffer side b).Held := by
  constructor
  case buffers =>
    intro side'
    rcases eq_or_ne side' side with rfl | hne
    · simpa [Buffers.setBuffer] using hb
    · simpa [Buffers.setBuffer, Function.update_of_ne hne] using h.buffers side'
  case tasks =>
    intro k p hp
    have hheld : (s.buffers (s.tasks k).side).flush = some (k, p) := h.tasks k p hp
    show (Function.update s.buffers side b (s.tasks k).side).flush = some (k, p)
    rcases eq_or_ne (s.tasks k).side side with hside | hne
    · rw [hside, Function.update_self, hflush, ← hside]
      exact hheld
    · rw [Function.update_of_ne hne]
      exact hheld

/-- A task goes on with a buffer that no other task has. -/
theorem Held.setTask (h : s.Held) {k : TaskId} {b : SpanBuffer} {stage : TaskStage}
    (hb : BufferHeld b) (hmine : ∀ j p, (s.bufferOf k).flush = some (j, p) → j = k)
    (hphase : ∀ p, stage.phase = some p → b.flush = some (k, p)) :
    ((s.setBuffer (s.tasks k).side b).setStage k stage).Held := by
  constructor
  case buffers =>
    intro side
    show BufferHeld (Function.update s.buffers (s.tasks k).side b side)
    rcases eq_or_ne side (s.tasks k).side with rfl | hne
    · rw [Function.update_self]
      exact hb
    · rw [Function.update_of_ne hne]
      exact h.buffers side
  case tasks =>
    intro j p hp
    rcases eq_or_ne j k with rfl | hne
    · simp only [Buffers.setStage, Buffers.setBuffer, bufferOf, Function.update_self] at hp ⊢
      exact hphase p hp
    · simp only [Buffers.setStage, Buffers.setBuffer, bufferOf, Function.update_of_ne hne] at hp ⊢
      have hheld : (s.buffers (s.tasks j).side).flush = some (j, p) := h.tasks j p hp
      rw [Function.update_of_ne]
      · exact hheld
      · intro hside
        rw [hside] at hheld
        exact hne (hmine j p hheld)

/-- A task that does not have a buffer, or has given it back, goes on. -/
theorem Held.setStage (h : s.Held) {k : TaskId} {stage : TaskStage} (hphase : stage.phase = none) :
    (s.setStage k stage).Held := by
  constructor
  case buffers => exact h.buffers
  case tasks =>
    intro j p hp
    rcases eq_or_ne j k with rfl | hne
    · simp [Buffers.setStage, hphase] at hp
    · simp only [Buffers.setStage, bufferOf, Function.update_of_ne hne] at hp ⊢
      exact h.tasks j p hp

/-- A task that is past `Lock` shares its buffer with no other task. -/
theorem flush_unique {b : SpanBuffer} {k : TaskId} {p : FlushPhase} (hp : b.flush = some (k, p))
    (j : TaskId) (q : FlushPhase) (hq : b.flush = some (j, q)) : j = k := by
  rw [hp] at hq
  cases hq
  rfl

/-- The task that has a buffer goes on with it. -/
theorem Held.advance (h : s.Held) {k : TaskId} {p q : FlushPhase} {stage : TaskStage}
    (hheld : (s.bufferOf k).flush = some (k, p)) (hphase : stage.phase = some q) :
    ((s.setBuffer (s.tasks k).side { s.bufferOf k with flush := some (k, q) }).setStage k
      stage).Held := by
  have hb := h.buffer k
  refine h.setTask ⟨?_, ?_⟩ (flush_unique hheld) ?_
  · simpa [hheld] using hb.locked
  · intro i hi
    have := hb.writing i hi
    rw [hheld] at this
    cases this
  · intro r hr
    rw [hphase, Option.some.injEq] at hr
    rw [hr]

theorem Held.serialize (hs : s.Held) {h : Serializer} {a : SerializeAction}
    (hu : SerializeEffect maxBufferSize s h a u) : u.Held := by
  cases hu with
  | take => exact hs.congr rfl rfl
  | move => exact hs.congr rfl rfl
  | drop => exact hs.congr rfl rfl
  | leave => exact hs.congr rfl rfl
  | @enter side hfree =>
      exact hs.setBuffer
        ⟨(hs.buffers side).locked, fun _ _ => (hs.buffers side).flush_eq_none hfree⟩ rfl
  | @store _ side =>
      refine Held.congr (s := s.setBuffer side _) ?_ rfl rfl
      exact hs.setBuffer ⟨(hs.buffers side).locked, by simp⟩ rfl
  | @overflow _ side =>
      refine Held.congr (s := s.setBuffer side _) ?_ rfl rfl
      exact hs.setBuffer ⟨(hs.buffers side).locked, by simp⟩ rfl
  | @lose _ side =>
      refine Held.congr (s := s.setBuffer side _) ?_ rfl rfl
      exact hs.setBuffer ⟨(hs.buffers side).locked, by simp⟩ rfl

theorem Held.flush (hs : s.Held) {f : Flusher} {a : FlushBuffersAction}
    (hu : s.flushBuffers f a = some u) : u.Held := by
  obtain ⟨hbuffers, -, -, htasks | ⟨k, side, hfresh, htasks⟩⟩ := (flushBuffers_effect hu).frame
  · exact hs.congr hbuffers htasks
  · constructor
    · rw [hbuffers]
      exact hs.buffers
    · intro j p hp
      rcases eq_or_ne j k with rfl | hne
      · rw [htasks, Function.update_self] at hp
        cases hp
      · unfold bufferOf
        rw [htasks, Function.update_of_ne hne] at hp ⊢
        rw [hbuffers]
        exact hs.tasks j p hp

theorem Held.task (hs : s.Held) {k : TaskId} {a : TaskAction} (hu : TaskEffect s k a u) :
    u.Held := by
  have hb := hs.buffer k
  cases hu with
  | enter => exact hs.setBuffer ⟨hb.locked, by simp⟩ rfl
  | fail _ _ _ =>
      apply Held.setStage _ rfl
      exact hs.setBuffer ⟨hb.locked, by simp⟩ rfl
  | lock _ _ hfree =>
      have hnone := hb.flush_eq_none hfree
      refine hs.setTask ⟨rfl, by simp⟩ ?_ ?_
      · simp [hnone]
      · rintro p ⟨⟩
        rfl
  | send htest _ => exact (hs.advance (hs.tasks k _ (by rw [htest]; rfl)) rfl).congr rfl rfl
  | skip htest _ => exact hs.advance (hs.tasks k _ (by rw [htest]; rfl)) rfl
  | keep hsend => exact (hs.advance (hs.tasks k _ (by rw [hsend]; rfl)) rfl).congr rfl rfl
  | drop hsend _ => exact (hs.advance (hs.tasks k _ (by rw [hsend]; rfl)) rfl).congr rfl rfl
  | clear hclear _ =>
      have hheld := hs.tasks k .counted (by rw [hclear]; rfl)
      exact hs.setTask ⟨rfl, by simp⟩ (flush_unique hheld) (by rintro p ⟨⟩)

/-- **The step**: every step keeps the locks in order. -/
theorem Held.step (hs : s.Held) {e : BufferEvent} (hu : s.step maxBufferSize e = some u) :
    u.Held := by
  cases e with
  | serialize h a => exact hs.serialize (serializeTrace_effect hu)
  | flush f a => exact hs.flush hu
  | task k a => exact hs.task (internalBufferFlush_effect hu)

/-- The locks are in order in every reachable state. -/
theorem held (hs : (system maxBufferSize).Reachable s) : s.Held := by
  refine hs.invariant (fun s h₀ => ?_) fun s e u h hu => h.step hu
  obtain rfl : s = {} := h₀
  refine ⟨fun side => ⟨rfl, ?_⟩, ?_⟩
  · rintro h ⟨⟩
  · rintro k p ⟨⟩

/-! ## The ledger of the traces -/

/-- What goes in and out of one buffer goes in and out of both. -/
theorem inBuffers_setBuffer (content : SpanBuffer → List TraceId) (side : Side) (b : SpanBuffer)
    (out new : List TraceId)
    (h : (out ++ content b).Perm (new ++ content (s.buffers side))) :
    (out ++ (s.setBuffer side b).inBuffers content).Perm (new ++ s.inBuffers content) := by
  rw [List.perm_iff_count] at h ⊢
  intro t
  have ht := h t
  simp only [List.count_append] at ht
  cases side <;>
  · simp only [inBuffers, setBuffer, Function.update_self, List.count_append, ne_eq, reduceCtorEq,
      not_false_eq_true, Function.update_of_ne]
    omega

/-- A buffer whose content stays. -/
theorem inBuffers_setBuffer_of_eq (content : SpanBuffer → List TraceId) (side : Side)
    {b : SpanBuffer} (h : content b = content (s.buffers side)) :
    ((s.setBuffer side b).inBuffers content).Perm (s.inBuffers content) :=
  inBuffers_setBuffer content side b [] [] (by rw [h])

/-- The trace that a call of `SerializeTrace` still has to deal with. -/
def inHand (hand : Option (TraceId × SerializePc)) : Option TraceId :=
  hand.bind fun (t, pc) => if pc.over then none else some t

/-- The calls of `SerializeTrace` as workers: a trace is taken, is in hand, and gets a place or is
lost. -/
def ledger (s : Buffers) : Ledger Serializer TraceId where
  taken := s.books.taken
  hands := inHand ∘ s.hands
  placed := s.places ++ s.books.lost

theorem inHand_setHand (h : Serializer) (hand : Option (TraceId × SerializePc)) :
    inHand ∘ (s.setHand h hand).hands = Function.update (inHand ∘ s.hands) h (inHand hand) :=
  Function.comp_update ..

/-- A call that goes on with the same trace has the same trace in hand. -/
theorem inHand_setHand_of_eq {h : Serializer} {hand : Option (TraceId × SerializePc)}
    (heq : inHand hand = inHand (s.hands h)) :
    inHand ∘ (s.setHand h hand).hands = inHand ∘ s.hands := by
  rw [inHand_setHand, heq]
  exact Function.update_eq_self h (inHand ∘ s.hands)

theorem inHand_of_over {t : TraceId} {pc : SerializePc} (h : pc.over = true) :
    inHand (some (t, pc)) = none := by
  simp [inHand, h]

theorem inHand_of_not_over {t : TraceId} {pc : SerializePc} (h : pc.over = false) :
    inHand (some (t, pc)) = some t := by
  simp [inHand, h]

/-- **A step of `SerializeTrace` is a step of the ledger**, if it does not take a trace again. -/
theorem serialize_ledger (hs : s.Held) {h : Serializer} {a : SerializeAction}
    (hu : SerializeEffect maxBufferSize s h a u) (hfresh : ∀ t, a = .call t → t ∉ s.books.taken) :
    s.ledger.Step u.ledger := by
  cases hu with
  | @take t hidle =>
      refine .take (i := h) (t := t) (hfresh t rfl) ?_ rfl (inHand_setHand h _) rfl
      simp [ledger, hidle, inHand]
  | move _ hpc hover hover' =>
      refine .rearrange rfl (inHand_setHand_of_eq ?_) (List.Perm.refl _)
      rw [hpc, inHand_of_not_over hover, inHand_of_not_over hover']
  | @enter side =>
      have hsame := inBuffers_setBuffer_of_eq (s := s) SpanBuffer.pending side
        (b := { s.buffers side with monitor := some (.serializer h) }) rfl
      exact .rearrange rfl rfl ((hsame.append_right _).append_right _)
  | @store t side second size hpc hmonitor =>
      -- the buffer is not locked, so what is written to it is pending
      have hopen := (hs.buffers side).writing h hmonitor
      have hperm := inBuffers_setBuffer (s := s) SpanBuffer.pending side
        { s.buffers side with
          monitor := none, traces := (s.buffers side).traces ++ [t]
          offset := (s.buffers side).offset + size } [] [t] (by
            simp only [SpanBuffer.pending, hopen, List.nil_append]
            exact List.perm_append_comm)
      refine .place (i := h) (t := t) ?_ rfl (inHand_setHand h _) ?_
      · exact (congrArg inHand hpc).trans (inHand_of_not_over rfl)
      · exact (hperm.append_right _).append_right _
  | @overflow t side second size hpc hmonitor =>
      have hsame := inBuffers_setBuffer_of_eq (s := s) SpanBuffer.pending side
        (b := { s.buffers side with monitor := none, isFull := true }) rfl
      refine .rearrange rfl (inHand_setHand_of_eq ?_) ((hsame.append_right _).append_right _)
      exact (inHand_of_not_over (over_afterRefusal second)).trans
        ((congrArg inHand hpc).trans (inHand_of_not_over rfl)).symm
  | @lose t side second hpc hmonitor =>
      have hsame := inBuffers_setBuffer_of_eq (s := s) SpanBuffer.pending side
        (b := { s.buffers side with monitor := none }) rfl
      refine .place (i := h) (t := t) ?_ rfl (inHand_setHand h _) ?_
      · exact (congrArg inHand hpc).trans (inHand_of_not_over rfl)
      · refine ((hsame.append_right _).append_right _).trans ?_
        rw [← List.append_assoc]
        exact List.perm_append_singleton t _
  | @drop t hpc =>
      refine .place (i := h) (t := t) ?_ rfl (inHand_setHand h _) ?_
      · exact (congrArg inHand hpc).trans (inHand_of_not_over rfl)
      · rw [List.perm_iff_count]
        intro t'
        simp only [ledger, places, Books.counted, List.count_append, List.count_cons, List.count_nil]
        show List.count t' (s.inBuffers _) + _ + _ = _
        omega
  | @leave a t pc _ hpc hover =>
      refine .rearrange rfl (inHand_setHand_of_eq ?_) (List.Perm.refl _)
      rw [hpc, inHand_of_over hover]
      rfl

theorem flush_ledger {f : Flusher} {a : FlushBuffersAction} (hu : s.flushBuffers f a = some u) :
    s.ledger.Step u.ledger := by
  obtain ⟨hbuffers, hhands, hbooks, -⟩ := (flushBuffers_effect hu).frame
  refine .rearrange ?_ ?_ ?_ <;> simp only [ledger, places, inBuffers, hbuffers, hhands, hbooks]
  exact List.Perm.refl _

/-- A step of a task that only moves traces of its buffer to the counted ones, or leaves them. -/
theorem ledger_rearrange (k : TaskId) (b : SpanBuffer)
    (hbuffers : u.buffers = Function.update s.buffers (s.tasks k).side b)
    (hhands : u.hands = s.hands) (htaken : u.books.taken = s.books.taken)
    (hlost : u.books.lost = s.books.lost)
    (hperm : (b.pending ++ u.books.counted).Perm ((s.bufferOf k).pending ++ s.books.counted)) :
    s.ledger.Step u.ledger := by
  refine .rearrange htaken (congrArg (inHand ∘ ·) hhands) ?_
  have hboth := inBuffers_setBuffer (s := s) SpanBuffer.pending (s.tasks k).side b
    (s.bufferOf k).pending b.pending List.perm_append_comm
  have hplaces : u.inBuffers SpanBuffer.pending =
      (s.setBuffer (s.tasks k).side b).inBuffers SpanBuffer.pending := by
    simp only [inBuffers, hbuffers, setBuffer]
  rw [List.perm_iff_count] at hperm hboth ⊢
  intro t
  have ht := hperm t
  have ht' := hboth t
  simp only [ledger, places, hlost, hplaces, List.count_append] at ht ht' ⊢
  omega

/-- **A step of a task is a step of the ledger**: what it counts leaves the buffer. -/
theorem task_ledger (hs : s.Held) {k : TaskId} {a : TaskAction} (hu : TaskEffect s k a u) :
    s.ledger.Step u.ledger := by
  cases hu with
  | enter => exact ledger_rearrange k _ rfl rfl rfl rfl (List.Perm.refl _)
  | fail => exact ledger_rearrange k _ rfl rfl rfl rfl (List.Perm.refl _)
  | lock _ _ hfree =>
      have hnone := (hs.buffer k).flush_eq_none hfree
      refine ledger_rearrange k _ rfl rfl rfl rfl ?_
      simp only [SpanBuffer.pending, hnone]
      exact List.Perm.refl _
  | send htest =>
      have hheld := hs.tasks k .locked (by rw [htest]; rfl)
      refine ledger_rearrange k _ rfl rfl rfl rfl ?_
      simp only [SpanBuffer.pending, hheld]
      exact List.Perm.refl _
  | skip htest hempty =>
      have hheld := hs.tasks k .locked (by rw [htest]; rfl)
      refine ledger_rearrange k _ rfl rfl rfl rfl ?_
      simp only [SpanBuffer.pending, hheld, hempty]
      exact List.Perm.refl _
  | keep hsend =>
      have hheld := hs.tasks k .sending (by rw [hsend]; rfl)
      refine ledger_rearrange k _ rfl rfl rfl rfl ?_
      rw [List.perm_iff_count]
      intro t
      simp only [SpanBuffer.pending, hheld, Books.counted, List.count_append, List.count_nil]
      omega
  | drop hsend =>
      have hheld := hs.tasks k .sending (by rw [hsend]; rfl)
      refine ledger_rearrange k _ rfl rfl rfl rfl ?_
      rw [List.perm_iff_count]
      intro t
      simp only [SpanBuffer.pending, hheld, Books.counted, List.count_append, List.count_nil]
      omega
  | clear hclear =>
      have hheld := hs.tasks k .counted (by rw [hclear]; rfl)
      refine ledger_rearrange k _ rfl rfl rfl rfl ?_
      simp only [SpanBuffer.pending, hheld]
      exact List.Perm.refl _

/-- No call of `SerializeTrace` is given a trace that another one was given. -/
def Fresh (s : Buffers) (e : BufferEvent) : Prop :=
  ∀ h t, e = .serialize h (.call t) → t ∉ s.books.taken

/-- **Refinement**: every step of the buffers is a step of the ledger, if no trace is taken twice. -/
theorem step_ledger (hs : s.Held) {e : BufferEvent} (hfresh : s.Fresh e)
    (hu : s.step maxBufferSize e = some u) : s.ledger.Step u.ledger := by
  cases e with
  | serialize h a =>
      refine serialize_ledger hs (serializeTrace_effect hu) ?_
      rintro t rfl
      exact hfresh h t rfl
  | flush f a => exact flush_ledger hu
  | task k a => exact task_ledger hs (internalBufferFlush_effect hu)

/-- In every run that takes no trace twice, the ledger is valid. -/
theorem ledger_valid (hs : ((system maxBufferSize).restrict Fresh).Reachable s) :
    s.ledger.Valid := by
  refine hs.invariant_of_reachable (I := fun s => s.ledger.Valid) (fun s h₀ => ?_) ?_
  · obtain rfl : s = {} := h₀
    constructor <;> simp [ledger, places, inBuffers, SpanBuffer.pending, Books.counted, inHand]
  · intro s e u hr h hstep
    exact (step_ledger (held hr.of_restrict) hstep.2 hstep.1).valid h

/-- A trace in hand is one that `SerializeTrace` is running with. -/
theorem running_of_inHand {h : Serializer} {t : TraceId} (hhand : s.ledger.hands h = some t) :
    s.running h = some t := by
  have hhand : inHand (s.hands h) = some t := hhand
  unfold inHand at hhand
  obtain ⟨⟨t', pc⟩, hpc, hover⟩ := Option.bind_eq_some_iff.mp hhand
  simp only [Option.ite_none_left_eq_some, Option.some.injEq] at hover
  simp [running, hpc, hover.2]

/-- If the formatter never throws, no trace is lost. -/
theorem lost_eq_nil
    (hs : ((system maxBufferSize).restrict fun _ e => e.throws = false).Reachable s) :
    s.books.lost = [] := by
  refine hs.invariant (I := fun s => s.books.lost = []) (fun s h₀ => ?_) ?_
  · obtain rfl : s = {} := h₀
    rfl
  · intro s e u h hstep
    have hu : s.step maxBufferSize e = some u := hstep.1
    cases e with
    | serialize i a =>
        cases serializeTrace_effect hu with
        | lose => exact absurd hstep.2 (by simp [BufferEvent.throws])
        | _ => exact h
    | flush f a => rw [(flushBuffers_effect hu).frame.2.2.1, h]
    | task k a => rw [(internalBufferFlush_effect hu).frame.2.2, h]

/-! ## The counters and the send attempts -/

/-- Every trace of a send attempt is counted or in flight, and the counters are right. -/
structure Counted (s : Buffers) : Prop where
  sends : s.books.sends.flatten.Perm
    (s.books.kept ++ s.books.failed ++ s.inBuffers SpanBuffer.inFlight)
  keeps : s.books.keeps = s.books.kept.length
  drops : s.books.drops = s.books.failed.length + s.books.refused.length

/-- A step that changes one buffer, and sends and counts what it changes there. -/
theorem Counted.update (h : s.Counted) (side : Side) (b : SpanBuffer)
    (hbuffers : u.buffers = Function.update s.buffers side b)
    (hsends : (u.books.sends.flatten ++
        (s.books.kept ++ s.books.failed ++ (s.buffers side).inFlight)).Perm
      (s.books.sends.flatten ++ (u.books.kept ++ u.books.failed ++ b.inFlight)))
    (hkeeps : u.books.keeps = u.books.kept.length)
    (hdrops : u.books.drops = u.books.failed.length + u.books.refused.length) : u.Counted := by
  refine ⟨?_, hkeeps, hdrops⟩
  have hboth := inBuffers_setBuffer (s := s) SpanBuffer.inFlight side b
    (s.buffers side).inFlight b.inFlight List.perm_append_comm
  have hflight : u.inBuffers SpanBuffer.inFlight =
      (s.setBuffer side b).inBuffers SpanBuffer.inFlight := by
    simp only [inBuffers, hbuffers, setBuffer]
  have hold := h.sends
  rw [List.perm_iff_count] at hsends hboth hold ⊢
  intro t
  have h₁ := hsends t
  have h₂ := hboth t
  have h₃ := hold t
  simp only [hflight, List.count_append] at h₁ h₂ h₃ ⊢
  omega

theorem Counted.serialize (h : s.Counted) (hs : s.Held) {i : Serializer} {a : SerializeAction}
    (hu : SerializeEffect maxBufferSize s i a u) : u.Counted := by
  cases hu with
  | take => exact ⟨h.sends, h.keeps, h.drops⟩
  | move => exact ⟨h.sends, h.keeps, h.drops⟩
  | leave => exact ⟨h.sends, h.keeps, h.drops⟩
  | drop =>
      refine ⟨h.sends, h.keeps, ?_⟩
      simp only [List.length_append, List.length_singleton, h.drops]
      omega
  | @enter side => exact h.update side _ rfl (List.Perm.refl _) h.keeps h.drops
  | @store _ side _ _ _ hmonitor =>
      have hopen := (hs.buffers side).writing i hmonitor
      refine h.update side _ rfl ?_ h.keeps h.drops
      simp only [SpanBuffer.inFlight, hopen]
      exact List.Perm.refl _
  | @overflow _ side => exact h.update side _ rfl (List.Perm.refl _) h.keeps h.drops
  | @lose _ side => exact h.update side _ rfl (List.Perm.refl _) h.keeps h.drops

theorem Counted.flush (h : s.Counted) {f : Flusher} {a : FlushBuffersAction}
    (hu : s.flushBuffers f a = some u) : u.Counted := by
  obtain ⟨hbuffers, -, hbooks, -⟩ := (flushBuffers_effect hu).frame
  constructor <;> simp only [inBuffers, hbuffers, hbooks]
  · exact h.sends
  · exact h.keeps
  · exact h.drops

theorem Counted.task (h : s.Counted) (hs : s.Held) {k : TaskId} {a : TaskAction}
    (hu : TaskEffect s k a u) : u.Counted := by
  cases hu with
  | enter => exact h.update (s.tasks k).side _ rfl (List.Perm.refl _) h.keeps h.drops
  | fail => exact h.update (s.tasks k).side _ rfl (List.Perm.refl _) h.keeps h.drops
  | lock _ _ hfree =>
      have hnone : (s.buffers _).flush = none := (hs.buffer k).flush_eq_none hfree
      refine h.update (s.tasks k).side _ rfl ?_ h.keeps h.drops
      simp only [SpanBuffer.inFlight, hnone]
      exact List.Perm.refl _
  | send htest =>
      have hheld : (s.buffers _).flush = _ := hs.tasks k .locked (by rw [htest]; rfl)
      refine h.update (s.tasks k).side _ rfl ?_ h.keeps h.drops
      rw [List.perm_iff_count]
      intro t
      simp only [SpanBuffer.inFlight, hheld, bufferOf, List.flatten_append, List.flatten_cons,
        List.flatten_nil, List.count_append, List.count_nil]
      omega
  | skip htest hempty =>
      have hheld : (s.buffers _).flush = _ := hs.tasks k .locked (by rw [htest]; rfl)
      refine h.update (s.tasks k).side _ rfl ?_ h.keeps h.drops
      simp only [SpanBuffer.inFlight, hheld]
      exact List.Perm.refl _
  | keep hsend =>
      have hheld : (s.buffers _).flush = _ := hs.tasks k .sending (by rw [hsend]; rfl)
      refine h.update (s.tasks k).side _ rfl ?_ ?_ h.drops
      · rw [List.perm_iff_count]
        intro t
        simp only [SpanBuffer.inFlight, hheld, bufferOf, List.count_append, List.count_nil]
        omega
      · simp [h.keeps]
  | drop hsend =>
      have hheld : (s.buffers _).flush = _ := hs.tasks k .sending (by rw [hsend]; rfl)
      refine h.update (s.tasks k).side _ rfl ?_ h.keeps ?_
      · rw [List.perm_iff_count]
        intro t
        simp only [SpanBuffer.inFlight, hheld, bufferOf, List.count_append, List.count_nil]
        omega
      · simp only [List.length_append, h.drops]
        omega
  | clear hclear =>
      have hheld : (s.buffers _).flush = _ := hs.tasks k .counted (by rw [hclear]; rfl)
      refine h.update (s.tasks k).side _ rfl ?_ h.keeps h.drops
      simp only [SpanBuffer.inFlight, hheld]
      exact List.Perm.refl _

/-- The counters are right in every reachable state. -/
theorem counted (hs : (system maxBufferSize).Reachable s) : s.Counted := by
  refine hs.invariant_of_reachable (fun s h₀ => ?_) ?_
  · obtain rfl : s = {} := h₀
    exact ⟨List.Perm.refl _, rfl, rfl⟩
  · intro s e u hr h hu
    cases e with
    | serialize i a => exact h.serialize (held hr) (serializeTrace_effect hu)
    | flush f a => exact h.flush hu
    | task k a => exact h.task (held hr) (internalBufferFlush_effect hu)

/-- What is in flight is pending. -/
theorem inFlight_sublist (b : SpanBuffer) : b.inFlight.Sublist b.pending := by
  unfold SpanBuffer.inFlight SpanBuffer.pending
  split
  · rename_i hflush
    rw [hflush]
  · exact List.nil_sublist _

/-- No trace is part of two send attempts. -/
theorem Counted.sends_nodup (h : s.Counted) (hplaces : s.places.Nodup) :
    s.books.sends.flatten.Nodup := by
  rw [h.sends.nodup_iff, List.perm_append_comm.nodup_iff]
  refine hplaces.sublist ?_
  refine List.Sublist.append ?_ (List.sublist_append_left _ _)
  exact (inFlight_sublist _).append (inFlight_sublist _)

end Buffers

end DdTrace.Agent
