import Mathlib.Data.List.Basic
import Mathlib.Logic.Function.Basic
import Mathlib.Tactic.Common
import DdTrace.Agent.PendingTraces

/-!
# The agent writer: the two buffers

The half of `AgentWriter` that takes traces from `SerializeTrace` to the agent: the front and the
back buffer, the active one of them, the two shared flush tasks and the counters of kept and
dropped traces. A trace in a buffer is an id, and the size of what the formatter writes for it is a
parameter of the step.

The threads of this half are the calls of `SerializeTrace` (on the serialization thread, or on the
thread of a caller of `WriteTrace` when that thread is gone), the calls of `FlushBuffers` (of the
flush loop, of each `FlushTracesAsync`, of `FlushAndCloseAsync`), and the tasks that their calls of
`InternalBufferFlush` start. A step is one access to shared data, in a sequentially consistent
order; the body of a `lock` statement is between the step that takes the monitor and the step that
gives it back.

Left out: the statsd counters, the keep rate on the root span, and `RequestFlush`, which only ends
the delay of the flush loop earlier.

Source: `Agent/AgentWriter.cs`, `FlushBuffers`, `FlushBuffer`, `SerializeTrace`;
`Agent/SpanBuffer.cs`.
-/

namespace DdTrace.Agent

open DdTrace.Lib

/-! ## Data -/

/-- `_frontBuffer` or `_backBuffer`. -/
inductive Side where
  | front
  | back
  deriving DecidableEq, Repr

/-- The other buffer. -/
def Side.other : Side → Side
  | .front => .back
  | .back => .front

/-- A thread that calls `SerializeTrace`. -/
inductive Serializer where
  /-- The serialization thread. -/
  | loop
  /-- A caller of `WriteTrace`. -/
  | writer (trace : TraceId)
  deriving DecidableEq, Repr

/-- Where a call of `SerializeTrace` is. -/
inductive SerializePc where
  /-- About to read `_activeBuffer`. -/
  | readActive
  /-- In `TryWrite`, for the first or the second time. -/
  | tryWrite (side : Side) (second : Bool)
  /-- In `SwapBuffers`, about to read `_activeBuffer`. -/
  | swapRead
  /-- In `SwapBuffers`, about to read `IsFull` of the buffer that is not active. -/
  | swapTest (side : Side)
  /-- In `SwapBuffers`, about to write `_activeBuffer`. -/
  | swapWrite (side : Side)
  /-- In `SwapBuffers`, about to read `_activeBuffer` for the result. -/
  | swapReturn
  /-- About to count the trace as dropped. -/
  | drop
  /-- About to return. -/
  | returned
  /-- An exception of the formatter is on its way out. -/
  | threw
  deriving DecidableEq, Repr

/-- A sequence of calls of `FlushBuffers`. -/
inductive Flusher where
  /-- `FlushBuffersTaskLoopAsync`. -/
  | periodic
  /-- A call of `FlushTracesAsync`. -/
  | call (call : CallId)
  /-- `FlushAndCloseAsync`. -/
  | close
  deriving DecidableEq, Repr

/-- The argument `flushAllBuffers` of the calls of `FlushBuffers`. -/
def Flusher.flushAllBuffers : Flusher → Bool
  | .periodic => false
  | .call _ => true
  | .close => true

/-- A task of `InternalBufferFlush`. -/
abbrev TaskId := Nat

/-- Where a call of `FlushBuffers` is. In a call of `FlushBuffer`, `next` is the buffer to flush
after this one. -/
inductive FlushPc where
  /-- Not in `FlushBuffers`. -/
  | idle
  /-- About to read `_activeBuffer`. -/
  | readActive
  /-- About to read `IsFull` of the buffer that is not active. -/
  | testFull (active : Side)
  /-- In `FlushBuffer`, about to read the flush task of the buffer. -/
  | readTask (side : Side) (next : Option Side)
  /-- In `FlushBuffer`, awaiting the task it read: `none` is the one of the constructor, which is
  completed. -/
  | awaitTask (side : Side) (next : Option Side) (task : Option TaskId)
  /-- In `FlushBuffer`, about to call `InternalBufferFlush`. -/
  | start (side : Side) (next : Option Side)
  /-- In `InternalBufferFlush`, until its first `await`. -/
  | running (side : Side) (next : Option Side) (task : TaskId)
  /-- In `FlushBuffer`, awaiting the task it started. -/
  | awaitOwn (side : Side) (next : Option Side) (task : TaskId)
  /-- About to return. -/
  | finished
  deriving DecidableEq, Repr

/-- Where a task of `InternalBufferFlush` is. -/
inductive TaskStage where
  /-- Not started. -/
  | notStarted
  /-- In `Lock`. -/
  | lock
  /-- About to test `TraceCount`. -/
  | test
  /-- In `SendTracesAsync`. -/
  | send
  /-- In `Clear`. -/
  | clear
  /-- Completed. -/
  | done
  deriving DecidableEq, Repr

/-- A task of `InternalBufferFlush`, with the flusher that called it. -/
structure FlushTask where
  owner : Flusher
  side : Side
  stage : TaskStage
  deriving DecidableEq, Repr

/-- A thread that is in the body of a `lock` statement of a buffer, or in `TryWrite`. -/
inductive MonitorOwner where
  | serializer (thread : Serializer)
  | task (task : TaskId)
  deriving DecidableEq, Repr

/-- How far the flush of a locked buffer is. -/
inductive FlushPhase where
  /-- Its traces are not part of a send attempt yet. -/
  | locked
  /-- Its traces are part of a send attempt. -/
  | sending
  /-- The send attempt is over and its traces are counted. -/
  | counted
  deriving DecidableEq, Repr

/-- Source: `SpanBuffer.cs`, `SpanBuffer.HeaderSize` -/
def SpanBuffer.headerSize : Nat := 5

/-- Source: `SpanBuffer.cs`, `SpanBuffer` -/
structure SpanBuffer where
  /-- The traces in `_buffer`; `TraceCount` is their number. -/
  traces : List TraceId := []
  /-- `_offset`. -/
  offset : Nat := SpanBuffer.headerSize
  /-- `IsFull`. -/
  isFull : Bool := false
  /-- `_locked`. -/
  locked : Bool := false
  /-- The owner of the monitor of `_syncRoot`. -/
  monitor : Option MonitorOwner := none
  /-- History: the task that locked the buffer, and how far it is. -/
  flush : Option (TaskId × FlushPhase) := none
  deriving DecidableEq, Repr

/-- How `SendTracesAsync` ends. -/
inductive SendResult where
  | succeeded
  | failed
  | threw
  deriving DecidableEq, Repr

/-- What was counted, and what was done with the traces so far. The fields from `taken` on are
history. -/
structure Books where
  /-- What `IncrementKeeps` has added up. -/
  keeps : Nat := 0
  /-- What `IncrementDrops` has added up. -/
  drops : Nat := 0
  /-- The traces that `SerializeTrace` was called with. -/
  taken : List TraceId := []
  /-- The traces of the send attempts that succeeded. -/
  kept : List TraceId := []
  /-- The traces of the send attempts that failed or threw. -/
  failed : List TraceId := []
  /-- The traces that no buffer took. -/
  refused : List TraceId := []
  /-- The traces that the formatter threw on. -/
  lost : List TraceId := []
  /-- The send attempts. -/
  sends : List (List TraceId) := []
  deriving DecidableEq, Repr

/-- The state of this half of the writer. -/
structure Buffers where
  /-- `_frontBuffer` and `_backBuffer`. -/
  buffers : Side → SpanBuffer := fun _ => {}
  /-- `_activeBuffer`. -/
  active : Side := .front
  /-- `_frontBufferFlushTask` and `_backBufferFlushTask`. -/
  flushTask : Side → Option TaskId := fun _ => none
  /-- The tasks of `InternalBufferFlush`. -/
  tasks : TaskId → FlushTask := fun _ => ⟨.periodic, .front, .notStarted⟩
  /-- The calls of `FlushBuffers`. -/
  flushes : Flusher → FlushPc := fun _ => .idle
  /-- The calls of `SerializeTrace`. -/
  hands : Serializer → Option (TraceId × SerializePc) := fun _ => none
  /-- The counters and the history. -/
  books : Books := {}

/-! ## Steps -/

/-- What a call of `SerializeTrace` does. -/
inductive SerializeAction where
  /-- It is called. -/
  | call (trace : TraceId)
  /-- It reads `_activeBuffer`. -/
  | readActive
  /-- `Monitor.TryEnter`, and the test of `_locked`. -/
  | tryEnter
  /-- The rest of `TryWrite`, with the size of what the formatter writes, or `none` if it throws. -/
  | write (size : Option Nat)
  /-- `SwapBuffers` reads `_activeBuffer`. -/
  | swapRead
  /-- `SwapBuffers` reads `IsFull`. -/
  | swapTest
  /-- `SwapBuffers` writes `_activeBuffer`. -/
  | swapWrite
  /-- `SwapBuffers` reads its result from `_activeBuffer`. -/
  | swapReturn
  /-- `IncrementDrops(1)`. -/
  | drop
  /-- It returns. -/
  | return
  /-- It throws. -/
  | throw
  deriving DecidableEq, Repr

/-- The action is inside a call of `SerializeTrace`: neither its beginning nor its end. -/
def SerializeAction.inside : SerializeAction → Bool
  | .call _ => false
  | .return => false
  | .throw => false
  | _ => true

/-- What a call of `FlushBuffers` does. -/
inductive FlushBuffersAction where
  /-- It is called. -/
  | call
  /-- It reads `_activeBuffer`. -/
  | readActive
  /-- It reads `IsFull` of the other buffer. -/
  | testFull
  /-- `FlushBuffer` reads the flush task. -/
  | readTask
  /-- The task it read is completed. -/
  | resume
  /-- It calls `InternalBufferFlush`, which starts a task. -/
  | start (task : TaskId)
  /-- It stores the task. -/
  | assign
  /-- The task it started is completed. -/
  | complete
  /-- It returns. -/
  | return
  deriving DecidableEq, Repr

/-- What a task of `InternalBufferFlush` does. -/
inductive TaskAction where
  /-- `Lock` takes the monitor. -/
  | enterLock
  /-- `Lock` returns. -/
  | lock
  /-- The test of `TraceCount`, and the call of `SendTracesAsync` if there are traces. -/
  | test
  /-- `SendTracesAsync` ends, and the traces are counted. -/
  | sent (result : SendResult)
  /-- `Clear` takes the monitor. -/
  | enterClear
  /-- `Clear` returns. -/
  | clear
  deriving DecidableEq, Repr

/-- The steps of this half, by who takes them. -/
inductive BufferEvent where
  | serialize (thread : Serializer) (action : SerializeAction)
  | flush (flusher : Flusher) (action : FlushBuffersAction)
  | task (task : TaskId) (action : TaskAction)
  deriving DecidableEq, Repr

/-- The formatter throws. -/
def BufferEvent.throws : BufferEvent → Bool
  | .serialize _ (.write none) => true
  | _ => false

/-- The traces of a buffer that are not counted yet. -/
def SpanBuffer.pending (b : SpanBuffer) : List TraceId :=
  match b.flush with
  | some (_, .counted) => []
  | _ => b.traces

/-- The traces of a buffer whose send attempt has not ended. -/
def SpanBuffer.inFlight (b : SpanBuffer) : List TraceId :=
  match b.flush with
  | some (_, .sending) => b.traces
  | _ => []

/-- The traces that were counted as kept or dropped. -/
def Books.counted (b : Books) : List TraceId := b.kept ++ b.failed ++ b.refused

namespace Buffers

/-- Some of the content of both buffers. -/
def inBuffers (s : Buffers) (content : SpanBuffer → List TraceId) : List TraceId :=
  content (s.buffers .front) ++ content (s.buffers .back)

/-- The traces that are in a buffer and not counted yet, and those that are counted. -/
def places (s : Buffers) : List TraceId := s.inBuffers SpanBuffer.pending ++ s.books.counted

/-- The buffer of a task. -/
def bufferOf (s : Buffers) (k : TaskId) : SpanBuffer := s.buffers (s.tasks k).side

/-- A buffer changes. -/
def setBuffer (s : Buffers) (side : Side) (b : SpanBuffer) : Buffers :=
  { s with buffers := Function.update s.buffers side b }

/-- A call of `SerializeTrace` moves on. -/
def setHand (s : Buffers) (h : Serializer) (hand : Option (TraceId × SerializePc)) : Buffers :=
  { s with hands := Function.update s.hands h hand }

/-- A call of `FlushBuffers` moves on. -/
def setFlush (s : Buffers) (f : Flusher) (pc : FlushPc) : Buffers :=
  { s with flushes := Function.update s.flushes f pc }

/-- A task of `InternalBufferFlush` moves on. -/
def setStage (s : Buffers) (k : TaskId) (stage : TaskStage) : Buffers :=
  { s with tasks := Function.update s.tasks k { s.tasks k with stage := stage } }

/-- What `SerializeTrace` does when `TryWrite` has returned false. -/
def afterRefusal (second : Bool) : SerializePc := if second then .drop else .swapRead

/-- The end of `TryWrite`: what it does with the serialized trace. The test of the size stands for
`EnsureCapacity`, which grows `_buffer` up to the maximum size.
Source: `SpanBuffer.cs`, `TryWrite` -/
def write (maxBufferSize : Nat) (s : Buffers) (h : Serializer) (t : TraceId) (side : Side)
    (second : Bool) (size : Option Nat) : Buffers :=
  let b := s.buffers side
  match size with
  | none =>
      { (s.setBuffer side { b with monitor := none }).setHand h (some (t, .threw)) with
        books := { s.books with lost := s.books.lost ++ [t] } }
  | some size =>
      if size + b.offset ≤ maxBufferSize then
        (s.setBuffer side
          { b with monitor := none, traces := b.traces ++ [t], offset := b.offset + size }).setHand
          h (some (t, .returned))
      else
        (s.setBuffer side { b with monitor := none, isFull := true }).setHand h
          (some (t, afterRefusal second))

/-- Source: `AgentWriter.cs`, `SerializeTrace`, `SwapBuffers`; `SpanBuffer.cs`, `TryWrite` -/
def serializeTrace (maxBufferSize : Nat) (s : Buffers) (h : Serializer) :
    SerializeAction → Option Buffers
  | .call t =>
      if s.hands h = none then
        some { s.setHand h (some (t, .readActive)) with
          books := { s.books with taken := s.books.taken ++ [t] } }
      else none
  | .readActive =>
      match s.hands h with
      | some (t, .readActive) => some (s.setHand h (some (t, .tryWrite s.active false)))
      | _ => none
  | .tryEnter =>
      match s.hands h with
      | some (t, .tryWrite side second) =>
          let b := s.buffers side
          if b.monitor = some (.serializer h) then none
          else if b.monitor = none ∧ b.locked = false then
            some (s.setBuffer side { b with monitor := some (.serializer h) })
          else some (s.setHand h (some (t, afterRefusal second)))
      | _ => none
  | .write size =>
      match s.hands h with
      | some (t, .tryWrite side second) =>
          if (s.buffers side).monitor = some (.serializer h) then
            some (s.write maxBufferSize h t side second size)
          else none
      | _ => none
  | .swapRead =>
      match s.hands h with
      | some (t, .swapRead) => some (s.setHand h (some (t, .swapTest s.active.other)))
      | _ => none
  | .swapTest =>
      match s.hands h with
      | some (t, .swapTest side) =>
          some (s.setHand h
            (some (t, if (s.buffers side).isFull then .drop else .swapWrite side)))
      | _ => none
  | .swapWrite =>
      match s.hands h with
      | some (t, .swapWrite side) =>
          some { s.setHand h (some (t, .swapReturn)) with active := side }
      | _ => none
  | .swapReturn =>
      match s.hands h with
      | some (t, .swapReturn) => some (s.setHand h (some (t, .tryWrite s.active true)))
      | _ => none
  | .drop =>
      match s.hands h with
      | some (t, .drop) =>
          some { s.setHand h (some (t, .returned)) with
            books := { s.books with
              drops := s.books.drops + 1, refused := s.books.refused ++ [t] } }
      | _ => none
  | .return =>
      match s.hands h with
      | some (_, .returned) => some (s.setHand h none)
      | _ => none
  | .throw =>
      match s.hands h with
      | some (_, .threw) => some (s.setHand h none)
      | _ => none

/-- Source: `AgentWriter.cs`, `FlushBuffers`, `FlushBuffer` -/
def flushBuffers (s : Buffers) (f : Flusher) : FlushBuffersAction → Option Buffers
  | .call =>
      if s.flushes f = .idle then some (s.setFlush f .readActive) else none
  | .readActive =>
      if s.flushes f = .readActive then some (s.setFlush f (.testFull s.active)) else none
  | .testFull =>
      match s.flushes f with
      | .testFull active =>
          if (s.buffers active.other).isFull || f.flushAllBuffers then
            some (s.setFlush f (.readTask active.other (some active)))
          else some (s.setFlush f (.readTask active none))
      | _ => none
  | .readTask =>
      match s.flushes f with
      | .readTask side next => some (s.setFlush f (.awaitTask side next (s.flushTask side)))
      | _ => none
  | .resume =>
      match s.flushes f with
      | .awaitTask side next task =>
          if ∀ k ∈ task, (s.tasks k).stage = .done then some (s.setFlush f (.start side next))
          else none
      | _ => none
  | .start k =>
      match s.flushes f with
      | .start side next =>
          if (s.tasks k).stage = .notStarted then
            some { s.setFlush f (.running side next k) with
              tasks := Function.update s.tasks k ⟨f, side, .lock⟩ }
          else none
      | _ => none
  | .assign =>
      match s.flushes f with
      | .running side next k =>
          -- the call of `InternalBufferFlush` returns at its first `await`, or at its end
          if (s.tasks k).stage = .send ∨ (s.tasks k).stage = .clear ∨ (s.tasks k).stage = .done then
            some { s.setFlush f (.awaitOwn side next k) with
              flushTask := Function.update s.flushTask side (some k) }
          else none
      | _ => none
  | .complete =>
      match s.flushes f with
      | .awaitOwn _ next k =>
          if (s.tasks k).stage = .done then
            match next with
            | some side => some (s.setFlush f (.readTask side none))
            | none => some (s.setFlush f .finished)
          else none
      | _ => none
  | .return => if s.flushes f = .finished then some (s.setFlush f .idle) else none

/-- Source: `AgentWriter.cs`, `InternalBufferFlush`; `SpanBuffer.cs`, `Lock`, `Clear` -/
def internalBufferFlush (s : Buffers) (k : TaskId) : TaskAction → Option Buffers
  | .enterLock =>
      let side := (s.tasks k).side
      let b := s.bufferOf k
      if (s.tasks k).stage = .lock ∧ b.monitor = none then
        some (s.setBuffer side { b with monitor := some (.task k) })
      else none
  | .lock =>
      let side := (s.tasks k).side
      let b := s.bufferOf k
      if (s.tasks k).stage = .lock ∧ b.monitor = some (.task k) then
        if b.locked then some ((s.setBuffer side { b with monitor := none }).setStage k .done)
        else
          some ((s.setBuffer side
            { b with monitor := none, locked := true, flush := some (k, .locked) }).setStage k
            .test)
      else none
  | .test =>
      let side := (s.tasks k).side
      let b := s.bufferOf k
      if (s.tasks k).stage = .test then
        if 0 < b.traces.length then
          some { (s.setBuffer side { b with flush := some (k, .sending) }).setStage k .send with
            books := { s.books with sends := s.books.sends ++ [b.traces] } }
        else some ((s.setBuffer side { b with flush := some (k, .counted) }).setStage k .clear)
      else none
  | .sent result =>
      let side := (s.tasks k).side
      let b := s.bufferOf k
      if (s.tasks k).stage = .send then
        let u := (s.setBuffer side { b with flush := some (k, .counted) }).setStage k .clear
        match result with
        | .succeeded =>
            some { u with
              books := { s.books with
                keeps := s.books.keeps + b.traces.length, kept := s.books.kept ++ b.traces } }
        | .failed | .threw =>
            some { u with
              books := { s.books with
                drops := s.books.drops + b.traces.length, failed := s.books.failed ++ b.traces } }
      else none
  | .enterClear =>
      let side := (s.tasks k).side
      let b := s.bufferOf k
      if (s.tasks k).stage = .clear ∧ b.monitor = none then
        some (s.setBuffer side { b with monitor := some (.task k) })
      else none
  | .clear =>
      let side := (s.tasks k).side
      let b := s.bufferOf k
      if (s.tasks k).stage = .clear ∧ b.monitor = some (.task k) then
        -- every field goes back to its initial value
        some ((s.setBuffer side {}).setStage k .done)
      else none

/-- One step, if it can be taken. -/
def step (maxBufferSize : Nat) (s : Buffers) : BufferEvent → Option Buffers
  | .serialize h a => s.serializeTrace maxBufferSize h a
  | .flush f a => s.flushBuffers f a
  | .task k a => s.internalBufferFlush k a

/-- This half as a transition system. -/
def system (maxBufferSize : Nat) : Lts Buffers BufferEvent := .ofStep {} (step maxBufferSize)

end Buffers

end DdTrace.Agent
